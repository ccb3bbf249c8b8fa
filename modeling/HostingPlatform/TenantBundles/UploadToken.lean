import HostingPlatform.Netip
import HostingPlatform.ResourceQuantities.Reading
import HostingPlatform.Shared

/-! The tokens that let a job of a tenant write or read one artifact of one bundle. -/
namespace HostingPlatform.Js

open List ResourceQuantities

theorem toNumber_nat {n : Nat} (safe : n < 9007199254740992) : toNumber (toString n) = .finite n := by
  have digits : ∀ c ∈ Nat.toDigits 10 n, c.isDigit = true := fun _ mem =>
    Nat.isDigit_of_mem_toDigits (by decide) (by decide) mem
  have value : decimal (Nat.toDigits 10 n) = n := Nat.ofDigitChars_ten_toDigits
  have read := @toNumber_text ⟨.unsigned, Nat.toDigits 10 n, none⟩ []
    (by simp) (by simpa [Quantity.Numeral.fraction] using digits)
    (by simp [Tail]) (by
      intro c mem
      exact digit_black (digits c (by simpa [Quantity.Numeral.text, Quantity.Sign.text] using mem)))
  simp [Quantity.Numeral.text, Quantity.Sign.text] at read
  rw [Nat.toString_eq_ofList_toDigits, read]
  simp [signedScaled, scaled, exponentPart, Quantity.Numeral.fraction, value, Number.nearest_nat safe]

end HostingPlatform.Js

namespace HostingPlatform.TenantBundles

open List Js

/- `digest('hex')` -/
def hex (bytes : List UInt8) : List Char :=
  bytes.flatMap (fun b => [(b.toNat / 16).digitChar, (b.toNat % 16).digitChar])

/- `Buffer.from(text, 'hex')`, which stops at the first pair that is none of hexadecimal digits -/
def fromHex : List Char → List UInt8
  | a :: b :: rest =>
    match Netip.hexValue a, Netip.hexValue b with
    | some high, some low => UInt8.ofNat (16 * high + low) :: fromHex rest
    | _, _ => []
  | _ => []

theorem fromHex_hex (bytes : List UInt8) : fromHex (hex bytes) = bytes := by
  induction bytes with
  | nil => rfl
  | cons b rest ih =>
    have less : b.toNat < 256 := b.toNat_lt
    have whole : 16 * (b.toNat / 16) + b.toNat % 16 = b.toNat := by omega
    rw [hex, flatMap_cons, ← hex]
    simp [fromHex, Netip.hexValue_digitChar _ (by omega : b.toNat / 16 < 16),
      Netip.hexValue_digitChar _ (by omega : b.toNat % 16 < 16), whole, ih]

/- what a token is bound to -/
structure Upload where
  (bundleId component artifactName : String)

def canonical (u : Upload) (expiresAtMs : Number) : String :=
  s!"{u.bundleId}|{u.component}|{u.artifactName}|{expiresAtMs.string}"

inductive UploadTokenErrorCode where
  | malformed | expired | badMac

structure UploadTokenError where
  code : UploadTokenErrorCode
  detail : String

/- `Math.floor((now - expiresAtMs) / 1000)` -/
def secondsSince (now : Nat) (expiresAtMs : ℚ) : Number :=
  match Number.nearest (now - expiresAtMs) with
  | .finite elapsed => (Number.nearest (elapsed / 1000)).floor
  | other => other

variable (hmac : List UInt8 → String → List UInt8)

def signUploadToken (u : Upload) (ttlSeconds : Nat) (keyHex : String) (now : Nat) : Except String String :=
  let key := fromHex keyHex.toList
  if key.length ≠ 32 then .error s!"signUploadToken: key must be 32 bytes (got {key.length})"
  else
    let expiresAtMs : Number := .finite ((now + ttlSeconds * 1000 : Nat) : ℚ)
    .ok s!"{expiresAtMs.string}.{String.ofList (hex (hmac key (canonical u expiresAtMs)))}"

/- no error where the token is accepted -/
def verifyUploadToken (token : String) (expected : Upload) (keyHex : String) (now : Nat) : Option UploadTokenError :=
  match cut '.' token with
  | none => some ⟨.malformed, "token missing separator"⟩
  | some (expiresStr, macHex) =>
    if expiresStr = "" then some ⟨.malformed, "token missing separator"⟩
    else
      match toNumber expiresStr with
      | .nan | .infinity _ => some ⟨.malformed, "expiresAt is not a finite number"⟩
      | .finite expiresAtMs =>
        if expiresAtMs < 0 then some ⟨.malformed, "expiresAt is not a finite number"⟩
        else if expiresAtMs ≤ now then
          some ⟨.expired, s!"token expired {(secondsSince now expiresAtMs).string}s ago"⟩
        else if (fromHex keyHex.toList).length ≠ 32 then
          some ⟨.malformed, "key length mismatch (server config bug)"⟩
        else
          let expectedMac := String.ofList
            (hex (hmac (fromHex keyHex.toList) (canonical expected (.finite expiresAtMs))))
          if length macHex ≠ length expectedMac then some ⟨.badMac, "mac length mismatch"⟩
          else if (fromHex macHex.toList).length ≠ (fromHex expectedMac.toList).length then
            some ⟨.badMac, "mac decode length mismatch"⟩
          else if fromHex macHex.toList ≠ fromHex expectedMac.toList then some ⟨.badMac, "mac mismatch"⟩
          else none

def allowedComponents : List String := ["files", "mailboxes", "config", "secrets"]

def resticComponents : List String := ["files", "mailboxes"]

def resticStreamArtifact : String := "restic-stream"

def artifactChar (c : Char) : Bool :=
  ('A' ≤ c ∧ c ≤ 'Z') ∨ ('a' ≤ c ∧ c ≤ 'z') ∨ c.isDigit ∨ c ∈ ['.', '_', '@', '-']

def isArtifactName (name : String) : Bool :=
  name ≠ "." ∧ name ≠ ".." ∧ '/' ∉ name.toList ∧ name ≠ "" ∧ name.toList.all artifactChar

def isStdinFilename (name : String) : Bool :=
  1 ≤ name.toList.length ∧ name.toList.length ≤ 64 ∧ name.toList.all (fun c => artifactChar c && c != '@')

/- the routes for single artifacts; `direction` is upload or download -/
def artifactRoute (direction keyHex : String) (now : Nat) (u : Upload) (token : String) : Except ApiError Unit :=
  if u.component ∉ allowedComponents then
    .error ⟨"VALIDATION_ERROR", s!"unsupported component '{u.component}'", 400⟩
  else if ¬ isArtifactName u.artifactName then
    .error ⟨"VALIDATION_ERROR", s!"invalid artifactName '{u.artifactName}'", 400⟩
  else if token = "" then .error ⟨"UNAUTHORIZED", s!"missing {direction} token", 401⟩
  else if (verifyUploadToken hmac token u keyHex now).isSome then
    .error ⟨"UNAUTHORIZED", s!"{direction} token invalid", 401⟩
  else .ok ()

def resticStreamRoute (keyHex : String) (now : Nat) (bundleId component stdinFilename token : String) :
    Except ApiError Unit :=
  if component ∉ resticComponents then
    .error ⟨"VALIDATION_ERROR", s!"restic stream not supported for component '{component}' (only 'files' and 'mailboxes')", 400⟩
  else if ¬ isStdinFilename stdinFilename then
    .error ⟨"VALIDATION_ERROR", s!"invalid filename '{stdinFilename}' (must match ^[A-Za-z0-9._-]\x7b1,64\x7d$)", 400⟩
  else if token = "" then .error ⟨"UNAUTHORIZED", "missing upload token", 401⟩
  else if (verifyUploadToken hmac token ⟨bundleId, component, resticStreamArtifact⟩ keyHex now).isSome then
    .error ⟨"UNAUTHORIZED", "upload token invalid", 401⟩
  else .ok ()

theorem append_sep_inj {c : Char} {x y x' y' : List Char} (free : c ∉ y) (free' : c ∉ y')
    (same : x ++ c :: y = x' ++ c :: y') : x = x' ∧ y = y' := by
  have turned := congrArg (fun cs => cs.reverse.span (· ≠ c)) same
  simp only [reverse_append, reverse_cons, append_assoc, singleton_append] at turned
  rw [span_at (by simpa using free), span_at (by simpa using free')] at turned
  simpa [and_comm] using turned

theorem free_artifactName {name : String} (named : isArtifactName name = true) : '|' ∉ name.toList := by
  intro mem
  simp only [isArtifactName, decide_eq_true_eq] at named
  exact absurd (all_eq_true.mp named.2.2.2.2 '|' mem) (by decide)

theorem free_component {component : String} (allowed : component ∈ allowedComponents) : '|' ∉ component.toList := by
  simp only [allowedComponents, mem_cons, not_mem_nil, or_false] at allowed
  rcases allowed with rfl | rfl | rfl | rfl <;> decide +kernel

theorem canonical_inj {u u' : Upload} {n : Nat} (safe : n < 9007199254740992)
    (allowed : u.component ∈ allowedComponents) (named : isArtifactName u.artifactName = true)
    (allowed' : u'.component ∈ allowedComponents) (named' : isArtifactName u'.artifactName = true)
    (same : canonical u (.finite n) = canonical u' (.finite n)) : u = u' := by
  have parts : ∀ u : Upload, (canonical u (.finite n)).toList =
      ((u.bundleId.toList ++ '|' :: u.component.toList) ++ '|' :: u.artifactName.toList) ++ '|' ::
        (toString n).toList := by
    intro u
    simp [canonical, Number.string_nat safe.le, ToString.toString]
  have digits : '|' ∉ (toString n).toList := by
    intro mem
    rw [Nat.toString_eq_ofList_toDigits, String.toList_ofList] at mem
    exact absurd (Nat.isDigit_of_mem_toDigits (by decide) (by decide) mem) (by decide)
  have chars := (parts u).symm.trans ((congrArg String.toList same).trans (parts u'))
  obtain ⟨rest, -⟩ := append_sep_inj digits digits chars
  obtain ⟨front, artifact⟩ := append_sep_inj (free_artifactName named) (free_artifactName named') rest
  obtain ⟨bundle, component⟩ := append_sep_inj (free_component allowed) (free_component allowed') front
  cases u
  cases u'
  simp only [String.toList_inj] at bundle component artifact
  simp [bundle, component, artifact]

theorem verify_sign (injective : ∀ key, Function.Injective (hmac key)) {u u' : Upload} {ttlSeconds now later : Nat}
    {keyHex token : String} (safe : now + ttlSeconds * 1000 < 9007199254740992)
    (signed : signUploadToken hmac u ttlSeconds keyHex now = .ok token) :
    verifyUploadToken hmac token u' keyHex later = none ↔ later < now + ttlSeconds * 1000 ∧
      canonical u (.finite (now + ttlSeconds * 1000 : Nat)) = canonical u' (.finite (now + ttlSeconds * 1000 : Nat)) := by
  unfold signUploadToken at signed
  generalize now + ttlSeconds * 1000 = n at *
  simp only at signed
  split at signed
  · contradiction
  rename_i sized
  obtain rfl := Except.ok.inj signed
  have digits : '.' ∉ (toString n).toList := by
    intro mem
    rw [Nat.toString_eq_ofList_toDigits, String.toList_ofList] at mem
    exact absurd (Nat.isDigit_of_mem_toDigits (by decide) (by decide) mem) (by decide)
  rw [Number.string_nat safe.le]
  generalize mac : hmac (fromHex keyHex.toList) (canonical u (.finite n)) = d
  have split : cut '.' s!"{toString n}.{String.ofList (hex d)}" = some (toString n, String.ofList (hex d)) :=
    cut_at digits (by simp [ToString.toString])
  have written : toString n ≠ "" := by
    simp
  have future : (n : ℚ) ≤ later ↔ n ≤ later := Nat.cast_le
  simp only [verifyUploadToken, split, written, toNumber_nat safe, not_lt.mpr (Nat.cast_nonneg n), sized,
    String.toList_ofList, fromHex_hex]
  rw [← injective (fromHex keyHex.toList) |>.eq_iff, mac]
  by_cases same : d = hmac (fromHex keyHex.toList) (canonical u' (.finite n))
  · simp [← same]
  · simp [same]
    split_ifs <;> simp

/-- A token opens an upload that the routes let pass if and only if it was signed for that upload and has not
expired; and the stream into the repository only where it was signed for the stream of that component. -/
theorem token_bound (injective : ∀ key, Function.Injective (hmac key)) {u : Upload} {ttlSeconds now : Nat}
    {keyHex token : String} (safe : now + ttlSeconds * 1000 < 9007199254740992)
    (allowed : u.component ∈ allowedComponents) (named : isArtifactName u.artifactName = true)
    (signed : signUploadToken hmac u ttlSeconds keyHex now = .ok token) (later : Nat) :
    (∀ u' : Upload, u'.component ∈ allowedComponents → isArtifactName u'.artifactName = true →
      (verifyUploadToken hmac token u' keyHex later = none ↔ u = u' ∧ later < now + ttlSeconds * 1000)) ∧
    (∀ direction u', artifactRoute hmac direction keyHex later u' token = .ok () ↔
      u = u' ∧ later < now + ttlSeconds * 1000) ∧
    ∀ bundleId component filename, resticStreamRoute hmac keyHex later bundleId component filename token = .ok () ↔
      (component ∈ resticComponents ∧ isStdinFilename filename = true) ∧
      u = ⟨bundleId, component, resticStreamArtifact⟩ ∧ later < now + ttlSeconds * 1000 := by
  have verified : ∀ u' : Upload, u'.component ∈ allowedComponents → isArtifactName u'.artifactName = true →
      (verifyUploadToken hmac token u' keyHex later = none ↔ u = u' ∧ later < now + ttlSeconds * 1000) := by
    intro u' allowed' named'
    rw [verify_sign hmac injective safe signed, and_comm]
    exact and_congr_left (fun _ => ⟨canonical_inj safe allowed named allowed' named', fun same => same ▸ rfl⟩)
  have given : token ≠ "" := by
    rintro rfl
    unfold signUploadToken at signed
    simp only at signed
    split at signed
    · contradiction
    · have chars := congrArg String.toList (Except.ok.inj signed)
      simp [ToString.toString] at chars
  refine ⟨verified, fun direction u' => ?_, fun bundleId component filename => ?_⟩
  · by_cases passes : u'.component ∈ allowedComponents ∧ isArtifactName u'.artifactName = true
    · rw [← verified u' passes.1 passes.2]
      cases verify : verifyUploadToken hmac token u' keyHex later <;>
        simp [artifactRoute, passes.1, passes.2, given, verify]
    · refine iff_of_false ?_ (fun ⟨same, _⟩ => passes (same ▸ ⟨allowed, named⟩))
      unfold artifactRoute
      split_ifs <;> simp_all
  · have stream : isArtifactName resticStreamArtifact = true := by decide +kernel
    by_cases passes : component ∈ resticComponents ∧ isStdinFilename filename = true
    · have allowed' : component ∈ allowedComponents := mem_append_left ["config", "secrets"] passes.1
      rw [← verified ⟨bundleId, component, resticStreamArtifact⟩ allowed' stream]
      cases verify : verifyUploadToken hmac token ⟨bundleId, component, resticStreamArtifact⟩ keyHex later <;>
        simp [resticStreamRoute, passes.1, passes.2, given, verify]
    · refine iff_of_false ?_ (fun ⟨both, _⟩ => passes both)
      unfold resticStreamRoute
      split_ifs <;> simp_all

/- no mac, but it tells texts apart -/
def utf8 (_ : List UInt8) (message : String) : List UInt8 := message.toByteArray.data.toList

theorem utf8_injective (key : List UInt8) : Function.Injective (utf8 key) := fun _ _ same =>
  String.toByteArray_inj.mp (ByteArray.ext (Array.toList_inj.mp same))

def zeroKey : String := "".pushn '0' 64

theorem stream_token_bound : ∃ token,
    signUploadToken utf8 ⟨"b|x", "files", resticStreamArtifact⟩ 1800 zeroKey 5 = .ok token ∧
    resticStreamRoute utf8 zeroKey 6 "b|x" "files" "archive.tar" token = .ok () ∧
    artifactRoute utf8 "upload" zeroKey 6 ⟨"b|x", "files", "archive.tar.gz"⟩ token ≠ .ok () := by
  obtain ⟨token, signed⟩ : ∃ token, signUploadToken utf8 ⟨"b|x", "files", resticStreamArtifact⟩ 1800 zeroKey 5 =
      .ok token := by
    have sized : (fromHex zeroKey.toList).length = 32 := by decide +kernel
    simp [signUploadToken, sized]
  have bound := token_bound utf8 utf8_injective (by decide) (by decide +kernel) (by decide +kernel) signed 6
  refine ⟨token, signed, (bound.2.2 _ _ _).mpr ⟨by decide +kernel, rfl, by decide⟩, fun passes => ?_⟩
  exact absurd (((bound.2.1 _ _).mp passes).1) (by simp [resticStreamArtifact])

end HostingPlatform.TenantBundles
