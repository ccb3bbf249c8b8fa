import HostingPlatform.Firewall.Nft
import HostingPlatform.Go.Strings

/-! The ports that the pods of tenants open on a node: they are collected from the pods, written
as an interval set, and read back at every tick to see whether they have to be written again. -/
namespace HostingPlatform.Firewall.TenantPorts

open Option List Digits Go

structure ContainerPort where
  hostPort : Int
  protocol : String

structure Pod where
  (nodeName ns : String)
  containers : List (List ContainerPort)
  annotations : String → Option String

structure TenantPortSets where
  (tcp udp : List String)

/- what the informers hold; a namespace that is not there is an error of its lister -/
structure Node where
  nodeName : String
  pods : List Pod
  namespaces : String → Option (String → Option String)

def isTenantNamespace (t : Node) (name : String) : Bool :=
  "client-".toList.isPrefixOf name.toList ||
    match t.namespaces name with
    | none => false
    | some annotations =>
      annotations "platform.phoenix-host.net/tenant-namespace" == some "true"

def isDigits (cs : List Char) : Bool := !cs.isEmpty && cs.all Char.isDigit

/- `^[0-9]+(-[0-9]+)?$` -/
def tenantPortRegex (s : String) : Bool :=
  isDigits (s.toList.takeWhile Char.isDigit) &&
    match s.toList.dropWhile Char.isDigit with
    | [] => true
    | c :: rest => c == '-' && isDigits rest

def collectHostPort (sets : TenantPortSets) (p : ContainerPort) : TenantPortSets :=
  if p.hostPort = 0 then sets
  else if p.hostPort < 1 ∨ 65535 < p.hostPort then sets
  else
    let protocol := p.protocol.toUpper
    if protocol = "UDP" then { sets with udp := toString p.hostPort :: sets.udp }
    else if protocol = "" ∨ protocol = "TCP" then
      { sets with tcp := toString p.hostPort :: sets.tcp }
    else sets

def collectHostPorts (sets : TenantPortSets) (pod : Pod) : TenantPortSets :=
  pod.containers.flatten.foldl collectHostPort sets

def annotationPorts (pod : Pod) (key : String) : List String :=
  match pod.annotations key with
  | none => []
  | some v => ((split ',' v).map trimSpace).filter (fun elem => elem != "" && tenantPortRegex elem)

def tenantPortAnnotationTCP : String := "platform.io/firewall-tcp-ports"
def tenantPortAnnotationUDP : String := "platform.io/firewall-udp-ports"

def collectAnnotationPorts (sets : TenantPortSets) (pod : Pod) : TenantPortSets :=
  { tcp := annotationPorts pod tenantPortAnnotationTCP ++ sets.tcp
    udp := annotationPorts pod tenantPortAnnotationUDP ++ sets.udp }

def tenantPods (t : Node) : List Pod :=
  t.pods.filter (fun pod => pod.nodeName == t.nodeName && isTenantNamespace t pod.ns)

def collectPorts (sets : TenantPortSets) (pod : Pod) : TenantPortSets :=
  collectAnnotationPorts (collectHostPorts sets pod) pod

def desiredPorts (t : Node) : TenantPortSets :=
  let sets := (tenantPods t).foldl collectPorts ⟨[], []⟩
  ⟨uniqueSorted sets.tcp, uniqueSorted sets.udp⟩

/- ASCII white space -/
def isWS (c : Char) : Bool := c == ' ' || c == '\t' || c == '\n' || c == '\r'

def trimSpaces (cs : List Char) : List Char := ((cs.dropWhile isWS).reverse.dropWhile isWS).reverse

def parsePort (cs : List Char) : Option Nat :=
  if cs.isEmpty || 5 < cs.length || !cs.all Char.isDigit then none
  else
    let v := Nat.ofDigitChars 10 cs 0
    if 65535 < v ∨ v = 0 then none else some v

def parsePortOrRange (s : String) : Option (Nat × Nat) :=
  let cs := trimSpaces s.toList
  match cs.dropWhile (· != '-') with
  | [] => (parsePort cs).map (fun v => (v, v))
  | _ :: high =>
    match parsePort (cs.takeWhile (· != '-')), parsePort high with
    | some a, some b => if b < a then none else some (a, b)
    | _, _ => none

def portBytes (p : Nat) : List Nat := groups 2 256 p

/- the end 65536 wraps around to 0 -/
def portElements (s : String) : List SetElement :=
  match parsePortOrRange s with
  | none => []
  | some (lo, hi) => [⟨portBytes lo, 0, false⟩, ⟨portBytes ((hi + 1) % 65536), 0, true⟩]

def portsToElements (ports : List String) : List SetElement := ports.flatMap portElements

def bytesToPort (b : List Nat) : Option Nat := if b.length = 2 then some (value 256 b) else none

def portText (lo hi : Nat) : String := if hi = lo then toString lo else s!"{lo}-{hi}"

/- what an interval stands for: an end of 0 is the one after the last port -/
def intervalPorts (start endRaw : Nat) : List String :=
  if endRaw = 0 then [portText start 65535]
  else if endRaw ≤ start then []
  else [portText start (endRaw - 1)]

/- the loop of `readPortSet`, with the opening key that waits for its closing one -/
def readPorts : Option Nat → List SetElement → List String
  | _, [] => []
  | pending, e :: rest =>
    if !e.intervalEnd then readPorts (bytesToPort e.key) rest
    else
      match pending, bytesToPort e.key with
      | some start, some endRaw => intervalPorts start endRaw ++ readPorts none rest
      | _, _ => readPorts none rest

def readPortSet (elems : List SetElement) : List String := sortStrings (readPorts none elems)

def tenantPortsFingerprint (s : TenantPortSets) : String :=
  join '|' [join ',' s.tcp, join ',' s.udp]

structure PortTable where
  (tcp udp : List SetElement)

def applyTenantPorts (s : TenantPortSets) : PortTable :=
  ⟨portsToElements s.tcp, portsToElements s.udp⟩

def observeTenantPortsFingerprint (kernel : PortTable) : String :=
  tenantPortsFingerprint ⟨readPortSet kernel.tcp, readPortSet kernel.udp⟩

/- whether there was a write, and the kernel's sets after it -/
def applyTenantPortsIfChanged (s : TenantPortSets) (kernel : PortTable) : Bool × PortTable :=
  if tenantPortsFingerprint s = observeTenantPortsFingerprint kernel then (false, kernel)
  else (true, applyTenantPorts s)

def reconcileOnce (t : Node) (kernel : PortTable) : Bool × PortTable :=
  applyTenantPortsIfChanged (desiredPorts t) kernel

/-- A port without leading zeros, or a range of them that rises. -/
def Canonical (elem : String) : Prop :=
  ∃ lo hi, 1 ≤ lo ∧ lo ≤ hi ∧ hi ≤ 65535 ∧ elem = portText lo hi

def canon (elem : String) : Option String := (parsePortOrRange elem).map (fun r => portText r.1 r.2)

variable {cs : List Char} {lo hi n : Nat} {c : Char} {elem : String} {t : Node}

theorem parsePort_bounds {v : Nat} (read : parsePort cs = some v) : 1 ≤ v ∧ v ≤ 65535 := by
  unfold parsePort at read
  split at read
  · cases read
  dsimp only at read
  split at read
  · cases read
  · cases read
    omega

theorem parsePortOrRange_bounds {s : String} (read : parsePortOrRange s = some (lo, hi)) :
    1 ≤ lo ∧ lo ≤ hi ∧ hi ≤ 65535 := by
  simp only [parsePortOrRange] at read
  split at read
  · obtain ⟨v, single, both⟩ := map_eq_some_iff.mp read
    cases both
    have bounds := parsePort_bounds single
    omega
  split at read
  · rename_i a b low high
    split at read
    · cases read
    cases read
    have bounds := parsePort_bounds low
    have bounds' := parsePort_bounds high
    omega
  · cases read

theorem parsePort_digits (positive : 1 ≤ n) (fits : n ≤ 65535) : parsePort (Nat.toDigits 10 n) = some n := by
  have short : (Nat.toDigits 10 n).length ≤ 5 :=
    (Nat.length_toDigits_le_iff (by decide) (by decide)).mpr (by omega)
  have digits : (Nat.toDigits 10 n).all Char.isDigit = true :=
    all_eq_true.mpr (fun c mem => Nat.isDigit_of_mem_toDigits (by decide) (by decide) mem)
  have inside : ¬ (65535 < n ∨ n = 0) := by omega
  simp [parsePort, digits, Nat.not_lt.mpr short, inside]

theorem dropWhile_none {p : Char → Bool} (none : ∀ c ∈ cs, p c = false) : cs.dropWhile p = cs := by
  cases cs with
  | nil => rfl
  | cons c rest => simp [none c mem_cons_self]

theorem trimSpaces_fixed (solid : ∀ c ∈ cs, isWS c = false) : trimSpaces cs = cs := by
  have reversed : ∀ c ∈ cs.reverse, isWS c = false := fun c mem => solid c (mem_reverse.mp mem)
  rw [trimSpaces, dropWhile_none solid, dropWhile_none reversed, reverse_reverse]

theorem solid_of_digit (digit : c.isDigit = true ∨ c = '-') : isWS c = false := by
  unfold isWS
  rcases digit with digit | rfl
  · by_contra white
    simp only [Bool.not_eq_false, Bool.or_eq_true, beq_iff_eq] at white
    rcases white with ((rfl | rfl) | rfl) | rfl <;> exact absurd digit (by decide)
  · decide

theorem not_dash : ∀ c ∈ Nat.toDigits 10 n, (c != '-') = true := by
  intro c mem
  have digit := Nat.isDigit_of_mem_toDigits (by decide) (by decide) mem
  by_contra dash
  rw [bne_iff_ne, not_not] at dash
  rw [dash] at digit
  exact absurd digit (by decide)

theorem toList_portText (lo hi : Nat) : (portText lo hi).toList =
    if hi = lo then Nat.toDigits 10 lo else Nat.toDigits 10 lo ++ '-' :: Nat.toDigits 10 hi := by
  unfold portText
  have dash : (toString "-").toList = ['-'] := by decide
  split
  · simp
  · simp [dash]

theorem portText_chars (mem : c ∈ (portText lo hi).toList) : c.isDigit = true ∨ c = '-' := by
  have digit : ∀ n, c ∈ Nat.toDigits 10 n → c.isDigit = true :=
    fun n there => Nat.isDigit_of_mem_toDigits (by decide) (by decide) there
  rw [toList_portText] at mem
  split at mem
  · exact .inl (digit lo mem)
  rcases mem_append.mp mem with low | mem
  · exact .inl (digit lo low)
  rcases mem_cons.mp mem with dash | high
  · exact .inr dash
  · exact .inl (digit hi high)

theorem parse_portText (positive : 1 ≤ lo) (rises : lo ≤ hi) (fits : hi ≤ 65535) :
    parsePortOrRange (portText lo hi) = some (lo, hi) := by
  have trimmed : trimSpaces (portText lo hi).toList = (portText lo hi).toList :=
    trimSpaces_fixed (fun c mem => solid_of_digit (portText_chars mem))
  have first := parsePort_digits positive (Nat.le_trans rises fits)
  unfold parsePortOrRange
  rw [trimmed, toList_portText]
  by_cases single : hi = lo
  · have all : (Nat.toDigits 10 lo).dropWhile (· != '-') = [] := dropWhile_eq_nil_iff.mpr not_dash
    simp [single, all, first]
  have high : (Nat.toDigits 10 lo ++ '-' :: Nat.toDigits 10 hi).dropWhile (· != '-') =
      '-' :: Nat.toDigits 10 hi := by
    rw [dropWhile_append_of_pos not_dash]
    rfl
  have low : (Nat.toDigits 10 lo ++ '-' :: Nat.toDigits 10 hi).takeWhile (· != '-') = Nat.toDigits 10 lo := by
    rw [takeWhile_append_of_pos not_dash]
    simp
  have second := parsePort_digits (Nat.le_trans positive rises) fits
  simp [if_neg single, high, low, first, second, rises]

theorem canon_iff : canon elem = some elem ↔ Canonical elem := by
  constructor
  · intro same
    obtain ⟨⟨lo, hi⟩, read, text⟩ := map_eq_some_iff.mp same
    obtain ⟨positive, rises, fits⟩ := parsePortOrRange_bounds read
    exact ⟨lo, hi, positive, rises, fits, text.symm⟩
  · rintro ⟨lo, hi, positive, rises, fits, rfl⟩
    simp [canon, parse_portText positive rises fits]

theorem canonical_of_canon {text : String} (read : canon elem = some text) : Canonical text := by
  obtain ⟨⟨lo, hi⟩, range, rfl⟩ := map_eq_some_iff.mp read
  obtain ⟨positive, rises, fits⟩ := parsePortOrRange_bounds range
  exact ⟨lo, hi, positive, rises, fits, rfl⟩

theorem bytesToPort_portBytes {p : Nat} (fits : p < 65536) : bytesToPort (portBytes p) = some p := by
  simp only [bytesToPort, portBytes, length_groups, value_groups, if_true, some.injEq]
  exact Nat.mod_eq_of_lt fits

theorem intervalPorts_written (rises : lo ≤ hi) (fits : hi ≤ 65535) :
    intervalPorts lo ((hi + 1) % 65536) = [portText lo hi] := by
  unfold intervalPorts
  rcases Nat.lt_or_eq_of_le fits with below | top
  · have inside : (hi + 1) % 65536 = hi + 1 := Nat.mod_eq_of_lt (by omega)
    rw [inside, if_neg (by omega), if_neg (by omega), Nat.add_sub_cancel]
  · -- the end has wrapped around to 0
    rw [top, if_pos (by decide)]

theorem readPorts_written (ports : List String) : readPorts none (portsToElements ports) = ports.filterMap canon := by
  induction ports with
  | nil => rfl
  | cons elem rest ih =>
    have next : portsToElements (elem :: rest) = portElements elem ++ portsToElements rest := rfl
    rw [next]
    unfold portElements
    cases read : parsePortOrRange elem with
    | none =>
      have skipped : canon elem = none := by simp [canon, read]
      rw [filterMap_cons_none skipped]
      exact ih
    | some r =>
      obtain ⟨lo, hi⟩ := r
      obtain ⟨positive, rises, fits⟩ := parsePortOrRange_bounds read
      have text : canon elem = some (portText lo hi) := by simp [canon, read]
      have start : bytesToPort (portBytes lo) = some lo := bytesToPort_portBytes (by omega)
      have close : bytesToPort (portBytes ((hi + 1) % 65536)) = some ((hi + 1) % 65536) :=
        bytesToPort_portBytes (Nat.mod_lt _ (by decide))
      rw [filterMap_cons_some text]
      simp [readPorts, start, close, intervalPorts_written rises fits, ih]

def Plain (elem : String) : Prop := elem ≠ "" ∧ ∀ c ∈ elem.toList, c.isDigit = true ∨ c = '-'

theorem Canonical.plain (canonical : Canonical elem) : Plain elem := by
  obtain ⟨lo, hi, _, _, _, rfl⟩ := canonical
  constructor
  · intro empty
    have none := congrArg String.toList empty
    rw [toList_portText] at none
    split at none
    · exact absurd none Nat.toDigits_ne_nil
    · simp at none
  · exact fun c mem => portText_chars mem

theorem Plain.free (plain : Plain elem) : elem ≠ "" ∧ ',' ∉ elem.toList ∧ '|' ∉ elem.toList := by
  have other : ∀ sep : Char, sep.isDigit = false → sep ≠ '-' → sep ∉ elem.toList := by
    intro sep digit dash mem
    rcases plain.2 sep mem with is | is
    · rw [is] at digit
      cases digit
    · exact dash is
  exact ⟨plain.1, other ',' (by decide) (by decide), other '|' (by decide) (by decide)⟩

theorem plain_of_regex (accepted : tenantPortRegex elem = true) : Plain elem := by
  simp only [tenantPortRegex, Bool.and_eq_true] at accepted
  obtain ⟨low, rest⟩ := accepted
  have whole := takeWhile_append_dropWhile (p := Char.isDigit) (l := elem.toList)
  constructor
  · rintro rfl
    cases low
  intro c mem
  rw [← whole] at mem
  rcases mem_append.mp mem with front | back
  · exact .inl (mem_takeWhile_imp front)
  split at rest
  · rename_i none
    rw [none] at back
    cases back
  rename_i d high after
  simp only [Bool.and_eq_true, beq_iff_eq, isDigits] at rest
  rw [after] at back
  rcases mem_cons.mp back with same | later
  · exact .inr (same.trans rest.1)
  · exact .inl (all_eq_true.mp rest.2.2 c later)

theorem fingerprint_injective {s u : TenantPortSets} (plainS : ∀ elem ∈ s.tcp ++ s.udp, Plain elem)
    (plainU : ∀ elem ∈ u.tcp ++ u.udp, Plain elem)
    (same : tenantPortsFingerprint s = tenantPortsFingerprint u) : s = u := by
  have same' : join '|' ([s.tcp, s.udp].map (join ',')) = join '|' ([u.tcp, u.udp].map (join ',')) := same
  have both : [s.tcp, s.udp] = [u.tcp, u.udp] := by
    refine join_join_injective (by decide) ?_ (by simp) (by simp) same'
    intro l mem elem there
    apply Plain.free
    simp only [mem_append, mem_cons, not_mem_nil, or_false] at mem plainS plainU
    rcases mem with (rfl | rfl) | rfl | rfl
    · exact plainS elem (.inl there)
    · exact plainS elem (.inr there)
    · exact plainU elem (.inl there)
    · exact plainU elem (.inr there)
  simp only [cons.injEq] at both
  cases s
  cases u
  simp_all

theorem readPortSet_written_iff {ports : List String} (sorted : ports.Pairwise (· ≤ ·)) :
    readPortSet (portsToElements ports) = ports ↔ ∀ elem ∈ ports, Canonical elem := by
  unfold readPortSet
  rw [readPorts_written]
  constructor
  · intro same elem mem
    rw [← same, mem_sortStrings] at mem
    obtain ⟨entry, _, read⟩ := mem_filterMap.mp mem
    exact canonical_of_canon read
  intro canonical
  have all : ports.filterMap canon = ports := by
    have fixed : ports.filterMap canon = ports.filterMap some :=
      filterMap_congr (fun elem mem => canon_iff.mpr (canonical elem mem))
    rw [fixed, filterMap_some]
  rw [all, sortStrings_of_sorted sorted]

theorem canonical_hostPort {port : Int} (positive : 1 ≤ port) (fits : port ≤ 65535) : Canonical (toString port) := by
  obtain ⟨n, rfl⟩ := Int.eq_ofNat_of_zero_le (Int.le_trans (by decide) positive)
  refine ⟨n, n, by omega, Nat.le_refl n, by omega, ?_⟩
  rw [portText, if_pos rfl]
  rfl

def TenantPortSets.elems (s : TenantPortSets) : List String := s.tcp ++ s.udp

theorem collectHostPort_cases (sets : TenantPortSets) (p : ContainerPort) :
    collectHostPort sets p = sets ∨ ∃ elem, Canonical elem ∧
      (collectHostPort sets p = { sets with tcp := elem :: sets.tcp } ∨
        collectHostPort sets p = { sets with udp := elem :: sets.udp }) := by
  unfold collectHostPort
  split
  · exact .inl rfl
  split
  · exact .inl rfl
  have canonical : Canonical (toString p.hostPort) := canonical_hostPort (by omega) (by omega)
  dsimp only
  split
  · exact .inr ⟨_, canonical, .inr rfl⟩
  split
  · exact .inr ⟨_, canonical, .inl rfl⟩
  · exact .inl rfl

theorem mem_collectHostPort {sets : TenantPortSets} {p : ContainerPort} {elem : String} :
    (elem ∈ sets.elems → elem ∈ (collectHostPort sets p).elems) ∧
      (elem ∈ (collectHostPort sets p).elems → elem ∈ sets.elems ∨ Canonical elem) := by
  rcases collectHostPort_cases sets p with same | ⟨new, canonical, tcp | udp⟩
  · rw [same]
    exact ⟨id, .inl⟩
  · rw [tcp]
    simp only [TenantPortSets.elems, mem_append, mem_cons]
    constructor
    · tauto
    · rintro ((rfl | old) | old) <;> tauto
  rw [udp]
  simp only [TenantPortSets.elems, mem_append, mem_cons]
  constructor
  · tauto
  · rintro (old | rfl | old) <;> tauto

theorem mem_collectHostPorts {sets : TenantPortSets} {ports : List ContainerPort} {elem : String} :
    (elem ∈ sets.elems → elem ∈ (ports.foldl collectHostPort sets).elems) ∧
      (elem ∈ (ports.foldl collectHostPort sets).elems → elem ∈ sets.elems ∨ Canonical elem) := by
  induction ports generalizing sets with
  | nil => exact ⟨id, .inl⟩
  | cons p rest ih =>
    have step := @mem_collectHostPort sets p elem
    constructor
    · exact fun old => ih.1 (step.1 old)
    intro mem
    rcases ih.2 mem with mem | canonical
    · exact step.2 mem
    · exact .inr canonical

def Announces (pod : Pod) (elem : String) : Prop :=
  elem ∈ annotationPorts pod tenantPortAnnotationTCP ∨
    elem ∈ annotationPorts pod tenantPortAnnotationUDP

theorem mem_collectPorts {sets : TenantPortSets} {pods : List Pod} {elem : String} :
    (elem ∈ sets.elems ∨ (∃ pod ∈ pods, Announces pod elem) → elem ∈ (pods.foldl collectPorts sets).elems) ∧
      (elem ∈ (pods.foldl collectPorts sets).elems →
        elem ∈ sets.elems ∨ Canonical elem ∨ ∃ pod ∈ pods, Announces pod elem) := by
  induction pods generalizing sets with
  | nil =>
    constructor
    · simp
    · exact .inl
  | cons pod rest ih =>
    have hosts := @mem_collectHostPorts sets pod.containers.flatten elem
    have step : elem ∈ (collectPorts sets pod).elems ↔
        Announces pod elem ∨ elem ∈ (collectHostPorts sets pod).elems := by
      simp only [collectPorts, collectAnnotationPorts, TenantPortSets.elems, mem_append, Announces]
      tauto
    constructor
    · rintro (old | ⟨other, mem, announces⟩)
      · exact ih.1 (.inl (step.mpr (.inr (hosts.1 old))))
      rcases mem_cons.mp mem with rfl | later
      · exact ih.1 (.inl (step.mpr (.inl announces)))
      · exact ih.1 (.inr ⟨other, later, announces⟩)
    intro mem
    rcases ih.2 mem with mem | canonical | ⟨other, later, announces⟩
    · rcases step.mp mem with announces | mem
      · exact .inr (.inr ⟨pod, mem_cons_self, announces⟩)
      rcases hosts.2 mem with old | canonical
      · exact .inl old
      · exact .inr (.inl canonical)
    · exact .inr (.inl canonical)
    · exact .inr (.inr ⟨other, mem_cons_of_mem pod later, announces⟩)

theorem mem_desiredPorts : ((∃ pod ∈ tenantPods t, Announces pod elem) → elem ∈ (desiredPorts t).elems) ∧
      (elem ∈ (desiredPorts t).elems → Canonical elem ∨ ∃ pod ∈ tenantPods t, Announces pod elem) := by
  have all := @mem_collectPorts ⟨[], []⟩ (tenantPods t) elem
  have same : elem ∈ (desiredPorts t).elems ↔ elem ∈ ((tenantPods t).foldl collectPorts ⟨[], []⟩).elems := by
    simp [desiredPorts, TenantPortSets.elems, mem_uniqueSorted]
  constructor
  · exact fun announced => same.mpr (all.1 (.inr announced))
  intro mem
  rcases all.2 (same.mp mem) with none | found
  · cases none
  · exact found

theorem plain_desiredPorts (mem : elem ∈ (desiredPorts t).elems) : Plain elem := by
  have accepted : ∀ pod annotation, elem ∈ annotationPorts pod annotation → Plain elem := by
    intro pod annotation entry
    unfold annotationPorts at entry
    split at entry
    · cases entry
    have passed := (mem_filter.mp entry).2
    rw [Bool.and_eq_true] at passed
    exact plain_of_regex passed.2
  rcases mem_desiredPorts.2 mem with canonical | ⟨pod, _, announces⟩
  · exact canonical.plain
  rcases announces with entry | entry
  · exact accepted pod _ entry
  · exact accepted pod _ entry

theorem fingerprint_iff (t : Node) : observeTenantPortsFingerprint (applyTenantPorts (desiredPorts t)) =
      tenantPortsFingerprint (desiredPorts t) ↔ ∀ pod ∈ tenantPods t, ∀ elem, Announces pod elem → Canonical elem := by
  have tcp := readPortSet_written_iff (uniqueSorted_sorted ((tenantPods t).foldl collectPorts ⟨[], []⟩).tcp)
  have udp := readPortSet_written_iff (uniqueSorted_sorted ((tenantPods t).foldl collectPorts ⟨[], []⟩).udp)
  constructor
  · intro same pod mem elem announces
    have plain : ∀ elem ∈ readPortSet (portsToElements (desiredPorts t).tcp) ++
        readPortSet (portsToElements (desiredPorts t).udp), Plain elem := by
      intro elem mem
      unfold readPortSet at mem
      rw [readPorts_written, readPorts_written] at mem
      have read : elem ∈ (desiredPorts t).tcp.filterMap canon ∨ elem ∈ (desiredPorts t).udp.filterMap canon := by
        simpa [mem_sortStrings] using mem
      rcases read with read | read
      · obtain ⟨_, _, text⟩ := mem_filterMap.mp read
        exact (canonical_of_canon text).plain
      · obtain ⟨_, _, text⟩ := mem_filterMap.mp read
        exact (canonical_of_canon text).plain
    have sets := fingerprint_injective plain (fun elem mem => plain_desiredPorts mem) same
    have there := mem_desiredPorts.1 ⟨pod, mem, announces⟩
    rcases mem_append.mp there with inTcp | inUdp
    · exact tcp.mp (congrArg TenantPortSets.tcp sets) elem inTcp
    · exact udp.mp (congrArg TenantPortSets.udp sets) elem inUdp
  · intro canonical
    have all : ∀ elem ∈ (desiredPorts t).elems, Canonical elem := by
      intro elem mem
      rcases mem_desiredPorts.2 mem with own | ⟨pod, there, announces⟩
      · exact own
      · exact canonical pod there elem announces
    have readTcp := tcp.mpr (fun elem mem => all elem (mem_append_left _ mem))
    have readUdp := udp.mpr (fun elem mem => all elem (mem_append_right _ mem))
    have tcpSet : readPortSet (portsToElements (desiredPorts t).tcp) = (desiredPorts t).tcp := readTcp
    have udpSet : readPortSet (portsToElements (desiredPorts t).udp) = (desiredPorts t).udp := readUdp
    rw [observeTenantPortsFingerprint, applyTenantPorts, tcpSet, udpSet]

/-- What was written reads as what is desired, and a second tick writes nothing. -/
def Settles (t : Node) : Prop :=
  observeTenantPortsFingerprint (applyTenantPorts (desiredPorts t)) =
      tenantPortsFingerprint (desiredPorts t) ∧
    ∀ kernel, (reconcileOnce t (reconcileOnce t kernel).2).1 = false

/-- A second tick over unchanged pods writes nothing, exactly when every entry of their
annotations is a port without leading zeros or a rising range of such ports. -/
theorem ports_settle_iff (t : Node) : Settles t ↔
    ∀ pod ∈ tenantPods t, ∀ elem, Announces pod elem → Canonical elem := by
  rw [← fingerprint_iff]
  constructor
  · exact fun settles => settles.1
  intro same
  refine ⟨same, fun kernel => ?_⟩
  have quiet : ∀ kernel, tenantPortsFingerprint (desiredPorts t) =
      observeTenantPortsFingerprint kernel → (reconcileOnce t kernel).1 = false := by
    intro kernel equal
    rw [reconcileOnce, applyTenantPortsIfChanged, if_pos equal]
  apply quiet
  by_cases equal : tenantPortsFingerprint (desiredPorts t) = observeTenantPortsFingerprint kernel
  · rw [reconcileOnce, applyTenantPortsIfChanged, if_pos equal]
    exact equal
  · rw [reconcileOnce, applyTenantPortsIfChanged, if_neg equal]
    exact same.symm

/- one pod of a tenant, whose annotation opens port 80 -/
def paddedPort : Node where
  nodeName := "worker"
  pods := [⟨"worker", "client-one", [],
    fun name => if name == tenantPortAnnotationTCP then some "080" else none⟩]
  namespaces := fun _ => none

theorem padded_port_rewritten : ¬ Settles paddedPort := by
  intro settles
  exact absurd settles.1 (by decide +kernel)

end HostingPlatform.Firewall.TenantPorts
