import HostingPlatform.Js.Text
import HostingPlatform.Netip

/-! The guard on the realm that a registry asks tokens to be fetched from. The host is one that the
URL parser has written. -/
namespace HostingPlatform.CustomDeployments.Realms

open List Js Netip Digits

/- `\d+` -/
def digitRun (cs : List Char) : Bool := !cs.isEmpty && cs.all Char.isDigit

/- `1[6-9]|2[0-9]|3[01]` -/
def sixteenTo31 : List Char → Bool
  | ['1', c] => '6' ≤ c && c ≤ '9'
  | ['2', c] => c.isDigit
  | ['3', c] => c == '0' || c == '1'
  | _ => false

def blockedFields : List (List Char) → Bool
  | [a, b, c, d] => digitRun c && digitRun d &&
      (a == "127".toList && digitRun b || a == "10".toList && digitRun b ||
        a == "192".toList && b == "168".toList || a == "172".toList && sixteenTo31 b ||
        a == "169".toList && b == "254".toList)
  | _ => false

def blockedHextet : List Char → Bool
  | ['f', 'c', x, y, ':'] => isHex x && isHex y
  | ['f', 'e', x, y, ':'] => ['8', '9', 'a', 'b'].contains x && isHex y
  | _ => false

/- on a host in lower case -/
def blockedRealmHostRe (host : String) : Bool :=
  ["localhost", "0.0.0.0", "::1", "[::1]"].contains host || blockedFields (host.toList.splitOn '.') ||
    blockedHextet host.toList

def blockedRealmHostSuffixes : List String := [".svc", ".svc.cluster.local", ".cluster.local", ".local"]

def suffixBlocks (host suffix : String) : Bool :=
  host.toList == suffix.toList.drop 1 || endsWith host suffix

structure Url where
  (protocol hostname : String)

/- `new URL`, which throws where it has no result -/
abbrev UrlParser := String → Option Url

def isRealmUrlBlocked (parse : UrlParser) (realm : String) : Bool :=
  match parse realm with
  | none => true
  | some url =>
    if url.protocol ≠ "https:" then true
    else
      let host := toLowerCase url.hostname
      blockedRealmHostRe host || blockedRealmHostSuffixes.any (suffixBlocks host)

structure Challenge where
  (realm service scope : Option String)

/- the query and the basic authentication that a realm is sent -/
structure TokenRequest where
  url : Url
  (service scope : Option String)
  authorization : Option (String × String)

structure TokenBody where
  (token accessToken : Option String)

/- a body that is no JSON is none -/
structure TokenResponse where
  status : Nat
  body : Option TokenBody

/-- The requests that are sent, and the token or what is thrown. -/
structure Exchange where
  requests : List TokenRequest
  result : Except String (Option String)

def given (param : Option String) : Option String := param.filter (· ≠ "")

def tokenOf (response : TokenResponse) : Option String :=
  if response.status ≠ 200 then none
  else response.body.bind (fun body => body.token <|> body.accessToken)

def fetchBearerToken (parse : UrlParser) (fetch : TokenRequest → Except String TokenResponse)
    (params : Challenge) (authCreds : Option (String × String)) : Exchange :=
  match given params.realm with
  | none => ⟨[], .ok none⟩
  | some realm =>
    if isRealmUrlBlocked parse realm then ⟨[], .ok none⟩
    else
      match parse realm with
      | none => ⟨[], .error "Invalid URL"⟩
      | some url =>
        let request : TokenRequest := ⟨url, given params.service, given params.scope, authCreds⟩
        match fetch request with
        | .error thrown => ⟨[request], .error thrown⟩
        | .ok response => ⟨[request], .ok (tokenOf response)⟩

def forbidden : List Char := "#/:<>?@[\\]^|%".toList

def domainChar (c : Char) : Bool :=
  32 < c.toNat && c.toNat < 127 && !c.isUpper && !forbidden.contains c

inductive Host where
  | ip (address : Addr)
  | domain (name : String) (legal : name.toList.all domainChar = true)

/- an IPv6 address stands in brackets, in hextets throughout -/
def Host.text : Host → String
  | .ip address =>
    if address.is4 then decimals address.value
    else String.ofList ('[' :: (hextets address.value).toList ++ [']'])
  | .domain name _ => name

/-- Loopback, RFC 1918, link-local, unspecified and unique local addresses. -/
def internalRanges : List Prefix :=
  [⟨⟨.v4, 127 * 2 ^ 24, by decide⟩, 8, by decide⟩, ⟨⟨.v4, 10 * 2 ^ 24, by decide⟩, 8, by decide⟩,
    ⟨⟨.v4, (172 * 256 + 16) * 2 ^ 16, by decide⟩, 12, by decide⟩,
    ⟨⟨.v4, (192 * 256 + 168) * 2 ^ 16, by decide⟩, 16, by decide⟩,
    ⟨⟨.v4, (169 * 256 + 254) * 2 ^ 16, by decide⟩, 16, by decide⟩, ⟨.unspecified .v4, 32, by decide⟩,
    ⟨⟨.v6, 1, by decide⟩, 128, by decide⟩, ⟨.unspecified .v6, 128, by decide⟩,
    ⟨⟨.v6, 0xfe80 * 2 ^ 112, by decide⟩, 10, by decide⟩,
    ⟨⟨.v6, 0xfc00 * 2 ^ 112, by decide⟩, 7, by decide⟩]

def withoutDot (name : String) : String :=
  if endsWith name "." then String.ofList name.toList.dropLast else name

/-- The name of the local host, and those within the cluster. -/
def internalName (name : String) : Bool :=
  ["localhost", "svc", "svc.cluster.local", "cluster.local", "local"].any
    (fun zone => name == zone || endsWith name ("." ++ zone))

def Host.internal : Host → Bool
  | .ip address => internalRanges.any (fun range => range.contains address.unmap)
  | .domain name _ => internalName (withoutDot name)

/-- What the guard has no eye on: IPv6 addresses but the loopback, names with a dot at the end, and
those below the local host. -/
def Host.overlooked : Host → Bool
  | .ip address => !address.is4 && address.value != 1
  | .domain name _ => endsWith name "." || endsWith name ".localhost"

def Guarded (parse : UrlParser) (fetch : TokenRequest → Except String TokenResponse) (params : Challenge)
    (authCreds : Option (String × String)) (realm : String) : Prop :=
  isRealmUrlBlocked parse realm = true ∧ (fetchBearerToken parse fetch params authCreds).requests = []

def plain (c : Char) : Bool := c.toNat < 127 && !c.isUpper

variable {c : Char} {cs : List Char} {address : Addr} {name : String}

theorem lowerChar_plain (ascii : plain c = true) : lowerChar c = [c] := by
  simp only [plain, Bool.and_eq_true, decide_eq_true_eq, Bool.not_eq_true'] at ascii
  exact lowerChar_ascii ascii.1 ascii.2

theorem plain_of_isDigit (digit : c.isDigit = true) : plain c = true := by
  have codes := Ascii.isDigit_iff.mp digit
  have lower : c.isUpper = false := by
    rw [Bool.eq_false_iff]
    intro upper
    have capital := Ascii.isUpper_iff.mp upper
    omega
  simp only [plain, lower, Bool.not_false, Bool.and_true, decide_eq_true_eq]
  omega

theorem plain_of_domainChar (legal : domainChar c = true) : plain c = true := by
  simp only [domainChar, Bool.and_eq_true] at legal
  simp only [plain, Bool.and_eq_true]
  exact ⟨legal.1.1.2, legal.1.2⟩

theorem toLowerCase_text (host : Host) : toLowerCase host.text = host.text := by
  apply toLowerCase_fixed
  intro c mem
  apply lowerChar_plain
  cases host with
  | domain name legal => exact plain_of_domainChar (all_eq_true.mp legal c mem)
  | ip address =>
    unfold Host.text at mem
    dsimp only at mem
    split at mem
    · rw [toList_decimals] at mem
      rcases mem_dotted mem with digit | rfl
      · exact plain_of_isDigit digit
      · decide
    rw [String.toList_ofList] at mem
    rcases mem_append.mp mem with front | last
    · rcases mem_cons.mp front with rfl | hextet
      · decide
      · exact @of_mem_hextets plain (by decide) (by decide) _ _ hextet
    · rw [mem_singleton.mp last]
      decide

theorem last_of_digitRun (digits : digitRun cs = true) (front : List Char) :
    ∃ c, (front ++ cs).getLast? = some c ∧ c.isDigit = true := by
  simp only [digitRun, Bool.and_eq_true, Bool.not_eq_true', isEmpty_eq_false_iff] at digits
  have some := digits.1
  refine ⟨cs.getLast some, ?_, all_eq_true.mp digits.2 _ (getLast_mem some)⟩
  rw [getLast?_append_of_ne_nil _ some, getLast?_eq_some_getLast some]

theorem last_of_blockedFields (blocked : blockedFields (cs.splitOn '.') = true) :
    ∃ c, cs.getLast? = some c ∧ c.isDigit = true := by
  have whole : ['.'].intercalate (cs.splitOn '.') = cs := intercalate_splitOn '.'
  unfold blockedFields at blocked
  split at blocked
  · rename_i a b c d fields
    simp only [Bool.and_eq_true] at blocked
    rw [← whole, fields]
    have joined : ['.'].intercalate [a, b, c, d] = (a ++ '.' :: b ++ '.' :: c ++ ['.']) ++ d := by
      simp
    rw [joined]
    exact last_of_digitRun blocked.1.2 _
  · contradiction

theorem last_of_blockedHextet (blocked : blockedHextet cs = true) : cs.getLast? = some ':' := by
  unfold blockedHextet at blocked
  split at blocked
  · rfl
  · rfl
  · contradiction

theorem last_of_endsWith {s ending : String} (ends : endsWith s ending = true)
    (last : ending.toList.getLast? = some c) : s.toList.getLast? = some c := by
  obtain ⟨front, same⟩ := isSuffixOf_iff_suffix.mp ends
  have some : ending.toList ≠ [] := by
    intro none
    rw [none] at last
    contradiction
  rw [← same, getLast?_append_of_ne_nil _ some, last]

theorem last_of_suffixBlocks {host suffix : String} (listed : suffix ∈ blockedRealmHostSuffixes)
    (blocked : suffixBlocks host suffix = true) :
    host.toList.getLast? = some 'c' ∨ host.toList.getLast? = some 'l' := by
  simp only [suffixBlocks, Bool.or_eq_true, beq_iff_eq] at blocked
  simp only [blockedRealmHostSuffixes, mem_cons, not_mem_nil, or_false] at listed
  rcases listed with rfl | rfl | rfl | rfl
  · left
    rcases blocked with same | ends
    · rw [same]
      decide
    · exact last_of_endsWith ends (by decide)
  all_goals
    right
    rcases blocked with same | ends
    · rw [same]
      decide
    · exact last_of_endsWith ends (by decide)

def blockedHost (host : String) : Bool :=
  blockedRealmHostRe host || blockedRealmHostSuffixes.any (suffixBlocks host)

theorem last_of_blocked {host : String} (blocked : blockedHost host = true) : host = "localhost" ∨ host = "[::1]" ∨
      ∃ c, host.toList.getLast? = some c ∧ (c.isDigit || c == ':' || c == 'c' || c == 'l') = true := by
  simp only [blockedHost, blockedRealmHostRe, Bool.or_eq_true, any_eq_true] at blocked
  rcases blocked with ((listed | fields) | hextet) | ⟨suffix, listed, ends⟩
  · simp only [contains_eq_mem, mem_cons, not_mem_nil, or_false, decide_eq_true_eq] at listed
    rcases listed with rfl | rfl | rfl | rfl
    · exact .inl rfl
    · exact .inr (.inr ⟨'0', by decide, by decide⟩)
    · exact .inr (.inr ⟨'1', by decide, by decide⟩)
    · exact .inr (.inl rfl)
  · obtain ⟨c, last, digit⟩ := last_of_blockedFields fields
    exact .inr (.inr ⟨c, last, by simp [digit]⟩)
  · exact .inr (.inr ⟨':', last_of_blockedHextet hextet, by decide⟩)
  rcases last_of_suffixBlocks listed ends with last | last
  · exact .inr (.inr ⟨'c', last, by decide⟩)
  · exact .inr (.inr ⟨'l', last, by decide⟩)

theorem digitRun_toDigits (n : Nat) : digitRun (Nat.toDigits 10 n) = true := by
  have some : Nat.toDigits 10 n ≠ [] := by
    intro none
    have length := @Nat.length_toDigits_pos 10 n
    rw [none] at length
    exact absurd length (by decide)
  simp only [digitRun, Bool.and_eq_true, Bool.not_eq_true', isEmpty_eq_false_iff, all_eq_true]
  exact ⟨some, fun c mem => isDigit_toDigits mem⟩

theorem groups_four (v : Nat) : groups 4 256 v = [v / 2 ^ 24 % 256, v / 2 ^ 16 % 256, v / 2 ^ 8 % 256, v % 256] := by
  simp [groups, range_succ]

theorem sixteenTo31_toDigits : ∀ b < 16, sixteenTo31 (Nat.toDigits 10 (16 + b)) = true := by decide

theorem blockedFields_v4 {v : Nat} (ranges : v / 2 ^ 24 = 127 ∨ v / 2 ^ 24 = 10 ∨ v / 2 ^ 20 = 172 * 16 + 1 ∨
      v / 2 ^ 16 = 192 * 256 + 168 ∨ v / 2 ^ 16 = 169 * 256 + 254) :
    blockedFields ((groups 4 256 v).map (Nat.toDigits 10)) = true := by
  rw [groups_four]
  simp only [map_cons, map_nil, blockedFields, digitRun_toDigits, Bool.true_and]
  have n127 : (Nat.toDigits 10 127 == "127".toList) = true := by decide
  have n10 : (Nat.toDigits 10 10 == "10".toList) = true := by decide
  have n172 : (Nat.toDigits 10 172 == "172".toList) = true := by decide
  have n192 : (Nat.toDigits 10 192 == "192".toList && Nat.toDigits 10 168 == "168".toList) = true := by
    decide
  have n169 : (Nat.toDigits 10 169 == "169".toList && Nat.toDigits 10 254 == "254".toList) = true := by
    decide
  rcases ranges with first | first | both | both | both
  · rw [show v / 2 ^ 24 % 256 = 127 by omega]
    rfl
  · rw [show v / 2 ^ 24 % 256 = 10 by omega, n10]
    simp
  · obtain ⟨b, fits, second⟩ : ∃ b < 16, v / 2 ^ 16 % 256 = 16 + b := ⟨v / 2 ^ 16 % 256 - 16, by omega, by omega⟩
    rw [show v / 2 ^ 24 % 256 = 172 by omega, second, sixteenTo31_toDigits b fits, n172]
    simp
  · rw [show v / 2 ^ 24 % 256 = 192 by omega, show v / 2 ^ 16 % 256 = 168 by omega, n192]
    simp
  · rw [show v / 2 ^ 24 % 256 = 169 by omega, show v / 2 ^ 16 % 256 = 254 by omega, n169]
    simp

theorem blocked_v4 (four : address.is4 = true) (internal : (Host.ip address).internal = true) :
    blockedHost (Host.ip address).text = true := by
  obtain ⟨family, v, inRange⟩ := address
  have same : family = .v4 := by simpa [Addr.is4] using four
  subst same
  have text : (Host.ip ⟨.v4, v, inRange⟩).text = decimals v := rfl
  have unmapped : (Addr.mk .v4 v inRange).unmap = ⟨.v4, v, inRange⟩ := unmap_plain rfl
  simp only [Host.internal, unmapped, internalRanges, Addr.unspecified, any_cons, Bool.or_eq_true, contains_iff, Prefix.hostBits, Family.width] at internal
  have kinds : v = 0 ∨ v / 2 ^ 24 = 127 ∨ v / 2 ^ 24 = 10 ∨ v / 2 ^ 20 = 172 * 16 + 1 ∨
      v / 2 ^ 16 = 192 * 256 + 168 ∨ v / 2 ^ 16 = 169 * 256 + 254 := by
    simp at internal
    omega
  rw [text, blockedHost, blockedRealmHostRe]
  rcases kinds with rfl | ranges
  · rfl
  · rw [toList_decimals, splitOn_dotted (by simp [groups]), blockedFields_v4 ranges]
    simp

theorem text_v6 (six : address.is4 = false) :
    (Host.ip address).text = String.ofList ('[' :: (hextets address.value).toList ++ [']']) := by
  simp [Host.text, six]

theorem last_v6 (six : address.is4 = false) : (Host.ip address).text.toList.getLast? = some ']' := by
  rw [text_v6 six, String.toList_ofList, getLast?_append_of_ne_nil _ (cons_ne_nil _ _)]
  rfl

theorem family_v6 (six : address.is4 = false) : address.value < 2 ^ 128 := by
  have inRange := address.inRange
  cases family : address.family with
  | v4 => simp [Addr.is4, family] at six
  | v6 =>
    rw [family] at inRange
    exact inRange

theorem blocked_v6_iff (six : address.is4 = false) : blockedHost (Host.ip address).text = true ↔ address.value = 1 := by
  have loopback : hextets 1 = "::1" := by decide
  constructor
  · intro blocked
    have last := last_v6 six
    rcases last_of_blocked blocked with same | same | ⟨c, other, ends⟩
    · rw [same] at last
      exact absurd last (by decide)
    · have chars := congrArg String.toList same
      rw [text_v6 six, String.toList_ofList] at chars
      have whole : "[::1]".toList = '[' :: "::1".toList ++ [']'] := by decide
      rw [whole, cons_append, cons_append, cons.injEq] at chars
      have text := String.toList_injective (append_cancel_right chars.2)
      have value := hextets_inj (text.trans loopback.symm)
      rwa [Nat.mod_eq_of_lt (family_v6 six)] at value
    · rw [last] at other
      cases Option.some.inj other
      exact absurd ends (by decide)
  · intro one
    have text : (Host.ip address).text = "[::1]" := by
      rw [text_v6 six, one]
      decide
    rw [text]
    decide

theorem suffixBlocks_of_zone {zone : String} (inZone : name = zone ∨ endsWith name ("." ++ zone) = true) :
    suffixBlocks name ("." ++ zone) = true := by
  rw [suffixBlocks]
  rcases inZone with rfl | ends
  · have dot : ".".toList = ['.'] := by decide
    simp
  · simp [ends]

theorem blocked_name (internal : internalName name = true) (above : endsWith name ".localhost" = false) :
    blockedHost name = true := by
  simp only [internalName, any_eq_true, Bool.or_eq_true, beq_iff_eq] at internal
  obtain ⟨zone, listed, inZone⟩ := internal
  have blocks := suffixBlocks_of_zone inZone
  simp only [mem_cons, not_mem_nil, or_false] at listed
  rcases listed with rfl | rfl | rfl | rfl | rfl
  · rcases inZone with rfl | below
    · decide
    · exact absurd (below.symm.trans above) (by decide)
  all_goals
    refine Bool.or_eq_true_iff.mpr (.inr (any_eq_true.mpr ⟨_, ?_, blocks⟩))
    decide

theorem not_blocked_name (overlooked : endsWith name "." = true ∨ endsWith name ".localhost" = true) :
    blockedHost name = false := by
  apply Bool.eq_false_iff.mpr
  intro blocked
  have last : name.toList.getLast? = some '.' ∨ name.toList.getLast? = some 't' := by
    rcases overlooked with dot | below
    · exact .inl (last_of_endsWith dot (by decide))
    · exact .inr (last_of_endsWith below (by decide))
  rcases last_of_blocked blocked with rfl | rfl | ⟨c, other, ends⟩
  · exact absurd overlooked (by decide)
  · exact absurd overlooked (by decide)
  rcases last with last | last
  all_goals
    rw [last] at other
    cases Option.some.inj other
    exact absurd ends (by decide)

theorem blocked_iff {host : Host} (internal : host.internal = true) :
    blockedHost host.text = true ↔ host.overlooked = false := by
  cases host with
  | ip address =>
    cases four : address.is4 with
    | true => exact iff_of_true (blocked_v4 four internal) (by simp [Host.overlooked, four])
    | false =>
      rw [blocked_v6_iff four]
      simp [Host.overlooked, four]
  | domain name legal =>
    cases overlooked : (Host.domain name legal).overlooked with
    | true =>
      have blind := not_blocked_name (Bool.or_eq_true_iff.mp overlooked)
      exact iff_of_false (Bool.eq_false_iff.mp blind) (by simp)
    | false =>
      simp only [Host.overlooked, Bool.or_eq_false_iff] at overlooked
      have whole : withoutDot name = name := by simp [withoutDot, overlooked.1]
      rw [Host.internal, whole] at internal
      exact iff_of_true (blocked_name internal overlooked.2) rfl

/-- An https realm is guarded against, and sent no credentials, exactly when its host is not an
internal one that the guard overlooks. -/
theorem realm_guarded_iff {parse : UrlParser} {realm : String} {url : Url} {host : Host}
    {params : Challenge} (fetch : TokenRequest → Except String TokenResponse)
    (authCreds : Option (String × String)) (named : params.realm = some realm)
    (parsed : parse realm = some url) (https : url.protocol = "https:") (canonical : url.hostname = host.text) :
    (host.internal = true → Guarded parse fetch params authCreds realm) ↔
      ¬ (host.internal = true ∧ host.overlooked = true) := by
  have guard : isRealmUrlBlocked parse realm = blockedHost host.text := by
    rw [isRealmUrlBlocked, parsed]
    dsimp only
    rw [if_neg (not_not.mpr https), canonical, toLowerCase_text]
    rfl
  have guarded : Guarded parse fetch params authCreds realm ↔ blockedHost host.text = true := by
    unfold Guarded
    rw [guard]
    constructor
    · exact And.left
    intro blocked
    refine ⟨blocked, ?_⟩
    unfold fetchBearerToken
    split
    · rfl
    rename_i asked same
    rw [named] at same
    cases (Option.filter_eq_some_iff.mp same).1
    rw [if_pos (guard.trans blocked)]
  rw [guarded, not_and, Bool.not_eq_true]
  constructor
  · intro blocks internal
    exact (blocked_iff internal).mp (blocks internal)
  · intro seen internal
    exact (blocked_iff internal).mpr (seen internal)

def credentials : Option (String × String) := some ("robot", "token-of-the-tenant")

def noToken : TokenRequest → Except String TokenResponse := fun _ => .ok ⟨404, none⟩

def knows (realm : String) (host : Host) : UrlParser := fun text =>
  if text = realm then some ⟨"https:", host.text⟩ else none

def tenNet : Host := .ip ⟨.v4, 10 * 2 ^ 24 + 8, by decide⟩

theorem ten_net_guarded : Guarded (knows "https://10.0.0.8/token" tenNet) noToken
    ⟨some "https://10.0.0.8/token", none, none⟩ credentials "https://10.0.0.8/token" := by
  refine (@realm_guarded_iff (knows "https://10.0.0.8/token" tenNet) _ ⟨"https:", tenNet.text⟩ tenNet
    ⟨some "https://10.0.0.8/token", none, none⟩ noToken credentials rfl (if_pos rfl) rfl rfl).mpr ?_ ?_
  · decide
  · decide

def uniqueLocal : Host := .ip ⟨.v6, 0xfd00 * 2 ^ 112 + 1, by decide⟩

/-- The credentials go to an address within the network. -/
theorem unique_local_reached : uniqueLocal.text = "[fd00::1]" ∧ uniqueLocal.internal = true ∧
      ¬ Guarded (knows "https://[fd00::1]/token" uniqueLocal) noToken
        ⟨some "https://[fd00::1]/token", none, none⟩ credentials "https://[fd00::1]/token" := by
  refine ⟨by decide, by decide, ?_⟩
  rintro ⟨blocked, _⟩
  exact absurd blocked (by decide)

end HostingPlatform.CustomDeployments.Realms
