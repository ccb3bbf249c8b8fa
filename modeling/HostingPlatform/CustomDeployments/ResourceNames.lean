import HostingPlatform.CustomDeployments.Deployer

/-! The names of what a custom deployment is rendered to, as DNS labels: Deployments and their
labels, Services, and the init containers that wait for the services depended on. -/
namespace HostingPlatform.CustomDeployments

open Js

/- every run of other characters becomes one hyphen; within a run nothing is added -/
def hyphenate (keep : Char → Bool) (within : Bool) : List Char → List Char
  | [] => []
  | c :: rest =>
    if keep c then c :: hyphenate keep false rest
    else if within then hyphenate keep true rest
    else '-' :: hyphenate keep true rest

def labelChar (c : Char) : Bool := isAlnum c || c == '-'

def slug (name : String) : String :=
  slice (String.ofList (hyphenate labelChar false (toLowerCase name).toList)) 47

/- `Math.random().toString(36).slice(2, 6)`, by the names that are in use: up to four letters and
digits. The draw of zero, which has none, is left out. -/
structure Draws where
  draw : List String → String
  alnum : ∀ used, ∀ c ∈ (draw used).toList, isAlnum c = true
  some : ∀ used, draw used ≠ ""
  short : ∀ used, (draw used).toList.length ≤ 4

def candidate (base : String) (i : Nat) : String := base ++ "-" ++ toString i

def uniqueInitName (draws : Draws) (usedNames : List String) (depName : String) : String :=
  let base := "wait" ++ "-" ++ slug depName
  if base ∉ usedNames then base
  else
    match ((List.range 98).map (· + 2)).find? (fun i => candidate base i ∉ usedNames) with
    | some i => candidate base i
    | none => base ++ "-" ++ draws.draw usedNames

structure InitContainer where
  (name image : String)
  command : List String
  (requests limits : String × String)

def initDirsImage : String := "busybox:1.37-musl"

/- the wait for the first exposed port of the dependency, if it has one -/
def waitCommand (input : DeployCustomInput) (serviceCount : Nat) (depName : String) (dep : Service) :
    String :=
  match dep.ports.find? Port.exposeAsService with
  | none => s!"echo \"depends_on '{depName}' has no exposed service port; skipping wait\""
  | some firstPort =>
    let depServiceName :=
      serviceResourceName input.deploymentName depName serviceCount ++ "-" ++ firstPort.name
    let port := firstPort.containerPort.string
    s!"timeout 60 sh -c 'until nc -z -w 2 {depServiceName} {port}; do sleep 1; done'"

/-- The loop over the dependencies. The validator refuses those that are not declared, and they are
skipped here. -/
def dependsOnLoop (draws : Draws) (input : DeployCustomInput) (serviceCount : Nat)
    (usedNames : List String) : List String → List InitContainer
  | [] => []
  | depName :: rest =>
    match input.spec.services.get depName with
    | none => dependsOnLoop draws input serviceCount usedNames rest
    | some dep =>
      let name := uniqueInitName draws usedNames depName
      ⟨name, initDirsImage, ["sh", "-c", waitCommand input serviceCount depName dep], ("5m", "8Mi"),
        ("20m", "16Mi")⟩ :: dependsOnLoop draws input serviceCount (name :: usedNames) rest

def buildDependsOnInitContainers (draws : Draws) (input : DeployCustomInput) (service : Service)
    (serviceCount : Nat) : List InitContainer :=
  dependsOnLoop draws input serviceCount [] service.dependsOn

/- a DNS label (RFC 1123) -/
def dnsLabel (s : String) : Bool := label 63 s

/- what is rendered under a name of its own, and the labels that it bears or selects -/
def Resource.labels : Resource → List String
  | .deployment name app component _ => [name, app, component]
  | .service name app _ => [name, app]
  | _ => []

structure NamesValid (draws : Draws) (input : DeployCustomInput) : Prop where
  resources : ∀ rs, deployCustomDeployment input = .ok rs →
    ∀ r ∈ rs, ∀ s ∈ r.labels, dnsLabel s = true
  initContainers : ∀ entry ∈ input.spec.services.entries, ∀ c ∈ buildDependsOnInitContainers draws input
    entry.2 input.spec.services.entries.length, dnsLabel c.name = true

def cutCleanly (depName : String) : Bool := (depName.toList.take 47).getLast?.any isAlnum

/- the name of a port, behind an owner's name of that length and a hyphen -/
def exposedNameFits (owner : Nat) (portName : String) : Bool :=
  owner + 1 + portName.toList.length ≤ 63 && portName.toList.getLast?.any isAlnum &&
    portName.toList.all labelChar

/-- The names that the validator has no eye on fit: those of Deployments whose service exposes no
port, those that are cut, and those of ports that no schema has judged. -/
structure NamesRoom (input : DeployCustomInput) : Prop where
  deployments : 1 < input.spec.services.entries.length → ∀ entry ∈ input.spec.services.entries,
    exposesPorts entry.2 = false → length input.deploymentName + 1 + length entry.1 ≤ 63
  ports : ∀ entry ∈ input.spec.services.entries, ∀ port ∈ entry.2.ports, port.exposeAsService = true →
    exposedNameFits (length (serviceResourceName input.deploymentName entry.1
      input.spec.services.entries.length)) port.name = true
  dependencies : ∀ entry ∈ input.spec.services.entries, ∀ dep ∈ entry.2.dependsOn,
    cutCleanly dep = true

variable {n : Nat} {s depName base : String} {c : Char} {cs : List Char} {input : DeployCustomInput}

theorem label_iff : label n s = true ↔
    s.toList.length ≤ n ∧ s.toList.head?.any isAlnum = true ∧ s.toList.getLast?.any isAlnum = true ∧
      s.toList.all labelChar = true := by
  simp only [label, Bool.and_eq_true, decide_eq_true_eq, and_assoc]
  rfl

theorem codeUnits_labelChar (legal : labelChar c = true) : codeUnits c = 1 := by
  rcases Bool.or_eq_true_iff.mp legal with alnum | hyphen
  · exact codeUnits_alnum alnum
  · rw [beq_iff_eq.mp hyphen]
    decide

theorem length_of_legal (legal : s.toList.all labelChar = true) : length s = s.toList.length := by
  unfold length
  generalize s.toList = cs at legal
  induction cs with
  | nil => rfl
  | cons c rest ih =>
    rw [List.all_cons, Bool.and_eq_true] at legal
    rw [List.foldr_cons, codeUnits_labelChar legal.1, ih legal.2, List.length_cons, Nat.add_comm]

theorem toList_hyphen (a b : String) : (a ++ "-" ++ b).toList = a.toList ++ '-' :: b.toList := by
  have hyphen : "-".toList = ['-'] := by decide
  rw [String.toList_append, String.toList_append, hyphen, List.append_assoc, List.singleton_append]

theorem label_hyphen_iff {m : Nat} {a b : String} (first : label m a = true) :
    label n (a ++ "-" ++ b) = true ↔ a.toList.length + 1 + b.toList.length ≤ n ∧
      b.toList.getLast?.any isAlnum = true ∧ b.toList.all labelChar = true := by
  obtain ⟨_, head, _, legal⟩ := label_iff.mp first
  have some : a.toList ≠ [] := by
    intro none
    rw [none] at head
    exact Bool.false_ne_true head
  have headed : (a.toList ++ '-' :: b.toList).head?.any isAlnum = true := by
    rw [List.head?_append_of_ne_nil _ some]
    exact head
  have last : (a.toList ++ '-' :: b.toList).getLast?.any isAlnum = b.toList.getLast?.any isAlnum := by
    rw [List.getLast?_append_cons]
    cases b.toList with
    | nil => rfl
    | cons c rest => rw [List.getLast?_cons_cons]
  rw [label_iff, toList_hyphen, last, List.length_append, List.length_cons, List.all_append, List.all_cons, legal]
  have hyphen : labelChar '-' = true := by decide
  simp only [headed, hyphen, Bool.true_and, true_and]
  rw [Nat.add_assoc, Nat.add_comm 1]

theorem label_pair_iff {k m n : Nat} {a b : String} (first : label k a = true) (second : label m b = true) :
    label n (a ++ "-" ++ b) = true ↔ length a + 1 + length b ≤ n := by
  obtain ⟨_, _, last, legal⟩ := label_iff.mp second
  rw [label_hyphen_iff first, length_of_legal legal, length_of_legal (label_iff.mp first).2.2.2]
  exact and_iff_left ⟨last, legal⟩

theorem lowerChar_labelChar (legal : labelChar c = true) : lowerChar c = [c] := by
  have codes : 97 ≤ c.toNat ∧ c.toNat ≤ 122 ∨ c.toNat ≤ 57 := by
    rcases Bool.or_eq_true_iff.mp legal with alnum | hyphen
    · exact (isAlnum_codes alnum).imp_right And.right
    · rw [beq_iff_eq.mp hyphen]
      decide
  apply lowerChar_ascii (by omega)
  rw [Bool.eq_false_iff]
  intro upper
  have capital := Ascii.isUpper_iff.mp upper
  omega

theorem hyphenate_legal (legal : cs.all labelChar = true) (within : Bool) : hyphenate labelChar within cs = cs := by
  induction cs generalizing within with
  | nil => rfl
  | cons c rest ih =>
    rw [List.all_cons, Bool.and_eq_true] at legal
    rw [hyphenate, if_pos legal.1, ih legal.2]

theorem takeUnits_legal (legal : cs.all labelChar = true) (n : Nat) : takeUnits n cs = cs.take n := by
  induction cs generalizing n with
  | nil => cases n <;> rfl
  | cons c rest ih =>
    rw [List.all_cons, Bool.and_eq_true] at legal
    cases n with
    | zero => rfl
    | succ n =>
      rw [takeUnits, codeUnits_labelChar legal.1, if_pos (Nat.le_add_left 1 n), Nat.add_sub_cancel,
        ih legal.2, List.take_succ_cons]

theorem slug_legal {name : String} (legal : name.toList.all labelChar = true) :
    (slug name).toList = name.toList.take 47 := by
  have lower : toLowerCase name = name :=
    toLowerCase_fixed (fun c mem => lowerChar_labelChar (List.all_eq_true.mp legal c mem))
  unfold slug slice
  rw [lower, String.toList_ofList, String.toList_ofList, hyphenate_legal legal, takeUnits_legal legal]

/- the name that a dependency's init container has unless it is in use -/
def initBase (depName : String) : String := "wait" ++ "-" ++ slug depName

theorem label_wait : label 4 "wait" = true := by decide

theorem initBase_iff (valid : customNameRe depName = true) (room : 52 ≤ n) :
    label n (initBase depName) = true ↔ cutCleanly depName = true := by
  have legal := (label_iff.mp valid).2.2.2
  have front : ((slug depName).toList.all labelChar) = true := by
    rw [slug_legal legal, List.all_eq_true]
    exact fun c mem => List.all_eq_true.mp legal c (List.mem_of_mem_take mem)
  have short : (slug depName).toList.length ≤ 47 := by
    rw [slug_legal legal]
    exact List.length_take_le 47 _
  have wait : "wait".toList.length = 4 := by decide
  unfold initBase cutCleanly
  rw [label_hyphen_iff label_wait, ← slug_legal legal]
  constructor
  · exact fun ⟨_, last, _⟩ => last
  · exact fun last => ⟨by omega, last, front⟩

theorem candidate_valid (valid : label 52 base = true) {i : Nat} (small : i < 100) :
    dnsLabel (candidate base i) = true := by
  obtain ⟨short, _⟩ := label_iff.mp valid
  have digits : (toString i).toList = Nat.toDigits 10 i := by simp
  have alnum : ∀ c ∈ Nat.toDigits 10 i, isAlnum c = true := by
    intro c mem
    have digit := Nat.isDigit_of_mem_toDigits (by decide) (by decide) mem
    simp [isAlnum, digit]
  have few : (Nat.toDigits 10 i).length ≤ 2 := (Nat.length_toDigits_le_iff (by decide) (by decide)).mpr small
  refine (label_hyphen_iff valid).mpr ?_
  rw [digits]
  refine ⟨by omega, ?_, ?_⟩
  · rw [List.getLast?_eq_some_getLast Nat.toDigits_ne_nil]
    exact alnum _ (List.getLast_mem _)
  · exact List.all_eq_true.mpr (fun c mem => Bool.or_eq_true_iff.mpr (.inl (alnum c mem)))

theorem drawn_valid (draws : Draws) (valid : label 52 base = true) (used : List String) :
    dnsLabel (base ++ "-" ++ draws.draw used) = true := by
  obtain ⟨short, _⟩ := label_iff.mp valid
  have few := draws.short used
  have some : (draws.draw used).toList ≠ [] := fun none => draws.some used (String.toList_eq_nil_iff.mp none)
  refine (label_hyphen_iff valid).mpr ⟨by omega, ?_, ?_⟩
  · rw [List.getLast?_eq_some_getLast some]
    exact draws.alnum used _ (List.getLast_mem _)
  · exact List.all_eq_true.mpr (fun c mem => Bool.or_eq_true_iff.mpr (.inl (draws.alnum used c mem)))

theorem uniqueInitName_valid (draws : Draws) (used : List String)
    (valid : label 52 (initBase depName) = true) : dnsLabel (uniqueInitName draws used depName) = true := by
  have whole : dnsLabel (initBase depName) = true := by
    obtain ⟨short, rest⟩ := label_iff.mp valid
    exact label_iff.mpr ⟨short.trans (by decide), rest⟩
  unfold uniqueInitName
  dsimp only
  split
  · exact whole
  split
  · rename_i i found
    obtain ⟨j, mem, rfl⟩ := List.mem_map.mp (List.mem_of_find?_eq_some found)
    have small := List.mem_range.mp mem
    exact candidate_valid valid (by omega)
  · exact drawn_valid draws valid used

theorem uniqueInitName_base (draws : Draws) (used : List String) (depName : String) :
    uniqueInitName draws used depName = initBase depName ∨ initBase depName ∈ used := by
  by_cases fresh : initBase depName ∉ used
  · left
    exact if_pos fresh
  · exact .inr (not_not.mp fresh)

section loop

variable {draws : Draws} {input : DeployCustomInput} {n : Nat}

theorem loop_valid {deps : List String} (valid : ∀ dep ∈ deps, label 52 (initBase dep) = true) (used : List String) :
    ∀ c ∈ dependsOnLoop draws input n used deps, dnsLabel c.name = true := by
  induction deps generalizing used with
  | nil => exact nofun
  | cons dep rest ih =>
    have later := ih (fun d mem => valid d (List.mem_cons_of_mem dep mem))
    unfold dependsOnLoop
    split
    · exact later used
    intro c mem
    rcases List.mem_cons.mp mem with rfl | mem
    · exact uniqueInitName_valid draws used (valid dep List.mem_cons_self)
    · exact later _ c mem

theorem loop_bases {deps : List String} (declared : ∀ dep ∈ deps, (input.spec.services.get dep).isSome)
    (used : List String) : ∀ dep ∈ deps, initBase dep ∈ used ∨
      ∃ c ∈ dependsOnLoop draws input n used deps, c.name = initBase dep := by
  induction deps generalizing used with
  | nil => exact nofun
  | cons first rest ih =>
    have later := ih (fun d mem => declared d (List.mem_cons_of_mem first mem))
    obtain ⟨svc, found⟩ := Option.isSome_iff_exists.mp (declared first List.mem_cons_self)
    intro dep mem
    unfold dependsOnLoop
    rw [found]
    rcases List.mem_cons.mp mem with rfl | mem
    · rcases uniqueInitName_base draws used dep with plain | inUse
      · exact .inr ⟨_, List.mem_cons_self, plain⟩
      · exact .inl inUse
    rcases later (uniqueInitName draws used first :: used) dep mem with inUse | ⟨c, memC, named⟩
    · rcases List.mem_cons.mp inUse with this | before
      · exact .inr ⟨_, List.mem_cons_self, this.symm⟩
      · exact .inl before
    · exact .inr ⟨c, List.mem_cons_of_mem _ memC, named⟩

end loop

theorem initContainers_iff (draws : Draws) {service : Service} (n : Nat)
    (declared : ∀ dep ∈ service.dependsOn, (input.spec.services.get dep).isSome)
    (valid : ∀ dep ∈ service.dependsOn, customNameRe dep = true) :
    (∀ c ∈ buildDependsOnInitContainers draws input service n, dnsLabel c.name = true) ↔
      ∀ dep ∈ service.dependsOn, cutCleanly dep = true := by
  constructor
  · intro all dep mem
    rcases @loop_bases draws input n _ declared [] dep mem with never | ⟨c, memC, named⟩
    · cases never
    have label := all c memC
    rw [named] at label
    exact (initBase_iff (valid dep mem) (by decide)).mp label
  · intro cut
    refine loop_valid (fun dep mem => ?_) []
    exact (initBase_iff (valid dep mem) (Nat.le_refl 52)).mpr (cut dep mem)

theorem rendered_iff (input : DeployCustomInput) :
    (∀ rs, deployCustomDeployment input = .ok rs → ∀ r ∈ rs, ∀ s ∈ r.labels, dnsLabel s = true) ↔
      ∀ entry ∈ input.spec.services.entries, ∀ r ∈ applyEntry input input.spec.services.entries.length entry,
          ∀ s ∈ r.labels, dnsLabel s = true := by
  constructor
  · intro all entry mem r memR
    have some : input.spec.services.entries.isEmpty = false := by
      cases entries : input.spec.services.entries with
      | nil =>
        rw [entries] at mem
        cases mem
      | cons first rest => rfl
    refine all _ (if_neg (by rw [some]; exact Bool.false_ne_true)) r ?_
    exact List.mem_append_right _ (List.mem_flatMap.mpr ⟨entry, mem, memR⟩)
  · intro each rs rendered r mem s memS
    unfold deployCustomDeployment at rendered
    dsimp only at rendered
    split at rendered
    · cases rendered
    cases rendered
    rcases List.mem_append.mp mem with files | mem
    · rcases List.mem_append.mp files with map | secret
      · obtain ⟨f, _, rfl⟩ := List.mem_map.mp map
        cases memS
      · obtain ⟨f, _, rfl⟩ := List.mem_map.mp secret
        cases memS
    · obtain ⟨entry, memEntry, memR⟩ := List.mem_flatMap.mp mem
      exact each entry memEntry r memR s memS

theorem entry_iff {entry : String × Service} (named : customNameRe input.deploymentName = true)
    (key : customNameRe entry.1 = true)
    (room : 1 < n → exposesPorts entry.2 = true → length input.deploymentName + 1 + length entry.1 ≤ 63) :
    (∀ r ∈ applyEntry input n entry, ∀ s ∈ r.labels, dnsLabel s = true) ↔
      (1 < n → exposesPorts entry.2 = false → length input.deploymentName + 1 + length entry.1 ≤ 63) ∧
        ∀ port ∈ entry.2.ports, port.exposeAsService = true →
          exposedNameFits (length (serviceResourceName input.deploymentName entry.1 n)) port.name = true := by
  generalize owner : serviceResourceName input.deploymentName entry.1 n = name
  -- the owner's name is a label of some length, of at most 63 where it fits
  have labelled : label name.toList.length name = true ∧ (dnsLabel name = true ↔
      (1 < n → length input.deploymentName + 1 + length entry.1 ≤ 63)) := by
    by_cases single : n ≤ 1
    · rw [serviceResourceName_single single] at owner
      subst owner
      obtain ⟨_, rest⟩ := label_iff.mp named
      exact ⟨label_iff.mpr ⟨Nat.le_refl _, rest⟩, iff_of_true named (fun more => absurd more (by omega))⟩
    rw [serviceResourceName, if_neg single] at owner
    subst owner
    have any := @label_pair_iff _ _ (length input.deploymentName + 1 + length entry.1) _ _ named key
    obtain ⟨_, rest⟩ := label_iff.mp (any.mpr (Nat.le_refl _))
    refine ⟨label_iff.mpr ⟨Nat.le_refl _, rest⟩, ?_⟩
    rw [dnsLabel, label_pair_iff named key]
    exact ⟨fun fits _ => fits, fun fits => fits (by omega)⟩
  have whole := length_of_legal (label_iff.mp labelled.1).2.2.2
  have port_iff : ∀ p : String, dnsLabel (name ++ "-" ++ p) = true ↔ exposedNameFits (length name) p = true := by
    intro p
    rw [dnsLabel, label_hyphen_iff labelled.1, exposedNameFits, whole]
    simp [and_assoc]
  have labels : (∀ r ∈ applyEntry input n entry, ∀ s ∈ r.labels, dnsLabel s = true) ↔
      dnsLabel name = true ∧ ∀ port ∈ entry.2.ports, port.exposeAsService = true →
        exposedNameFits (length name) port.name = true := by
    have deployment : (∀ s ∈ (applyDeployment input entry.1 n).labels, dnsLabel s = true) ↔
        dnsLabel name = true := by
      have own : dnsLabel entry.1 = true := key
      simp [applyDeployment, Resource.labels, owner, own]
    have service : ∀ port, (∀ s ∈ (applyService input entry.1 n port).labels, dnsLabel s = true) ↔
        exposedNameFits (length name) port.name = true ∧ dnsLabel name = true := by
      intro port
      simp [applyService, Resource.labels, owner, port_iff]
    unfold applyEntry
    rw [List.forall_mem_cons, deployment]
    constructor
    · rintro ⟨valid, all⟩
      refine ⟨valid, fun port mem exposed => ?_⟩
      exact ((service port).mp (all _ (List.mem_map_of_mem (List.mem_filter.mpr ⟨mem, exposed⟩)))).1
    rintro ⟨valid, ports⟩
    refine ⟨valid, ?_⟩
    intro r mem
    obtain ⟨port, memPort, rfl⟩ := List.mem_map.mp mem
    obtain ⟨listed, exposed⟩ := List.mem_filter.mp memPort
    exact (service port).mpr ⟨ports port listed exposed, valid⟩
  rw [labels, labelled.2]
  refine and_congr_left' ?_
  constructor
  · exact fun fits more _ => fits more
  intro fits more
  cases exposed : exposesPorts entry.2 with
  | true => exact room more exposed
  | false => exact fits more exposed

theorem declared_get {V : Type} {r : Record V} {key : String} (mem : key ∈ r.keys) : (r.get key).isSome := by
  obtain ⟨entry, memEntry, rfl⟩ := List.mem_map.mp mem
  rw [Record.get_of_mem memEntry]
  rfl

/-- Where the names of the deployment and of its services are legal, the names that an accepted spec
is rendered to are valid exactly when there is room for those that the validator has no eye on. -/
theorem names_valid_iff (draws : Draws) {input : DeployCustomInput} {ctx : ValidatorContext}
    (named : customNameRe input.deploymentName = true)
    (keys : ∀ key ∈ input.spec.services.keys, customNameRe key = true)
    (known : ctx.deploymentName = some input.deploymentName)
    (accepted : (validateCustomSpec input.spec ctx).ok = true) : NamesValid draws input ↔ NamesRoom input := by
  have rules := (validateCustomSpec_ok_iff input.spec ctx).mp accepted
  have lengths : input.spec.services.keys.length = input.spec.services.entries.length := List.length_map _
  have legal : ∀ entry ∈ input.spec.services.entries, customNameRe entry.1 = true :=
    fun entry mem => keys entry.1 (List.mem_map_of_mem mem)
  -- the validator leaves room for the names of exposed ports
  have room : ∀ entry ∈ input.spec.services.entries, 1 < input.spec.services.entries.length →
      exposesPorts entry.2 = true → length input.deploymentName + 1 + length entry.1 ≤ 63 := by
    intro entry mem several exposed
    have fit := rules.names _ known ⟨entry.2, List.mem_map_of_mem mem, exposed⟩
    split at fit
    · rename_i single
      have one := rules.single single
      omega
    · have entryFits := fit entry mem exposed
      omega
  have names : ∀ entry ∈ input.spec.services.entries, ∀ dep ∈ entry.2.dependsOn,
      (input.spec.services.get dep).isSome ∧ customNameRe dep = true := by
    intro entry mem dep memDep
    have declared := ((rules.services entry mem).dependsOn dep memDep).1
    exact ⟨declared_get declared, keys dep declared⟩
  have objects : ∀ entry ∈ input.spec.services.entries, _ :=
    fun entry mem => entry_iff named (legal entry mem) (room entry mem)
  have inits : ∀ entry ∈ input.spec.services.entries, _ :=
    fun entry mem => initContainers_iff draws input.spec.services.entries.length
      (fun dep memDep => (names entry mem dep memDep).1) (fun dep memDep => (names entry mem dep memDep).2)
  constructor
  · rintro ⟨resources, containers⟩
    rw [rendered_iff] at resources
    refine ⟨fun several entry mem => ?_, fun entry mem => ?_, fun entry mem => ?_⟩
    · exact ((objects entry mem).mp (resources entry mem)).1 several
    · exact ((objects entry mem).mp (resources entry mem)).2
    · exact (inits entry mem).mp (containers entry mem)
  · rintro ⟨deployments, ports, dependencies⟩
    refine ⟨(rendered_iff input).mpr (fun entry mem => ?_), fun entry mem => ?_⟩
    · exact (objects entry mem).mpr ⟨fun several => deployments several entry mem, ports entry mem⟩
    · exact (inits entry mem).mpr (dependencies entry mem)

def shopInput (spec : Spec) : DeployCustomInput := { twoServicesInput with spec }

def oneDraw : Draws where
  draw _ := "x7k2"
  alnum _ := List.all_eq_true.mp (by decide)
  some _ := by decide
  short _ := by decide

/- two services, of which the second waits for the first -/
def waitingStack : Spec :=
  stack ⟨[("web", webService), ("api", { webService with dependsOn := ["web"] })], by decide⟩

def composeShop : ValidatorContext := ⟨.tenantAdmin, true, false, some "shop"⟩

theorem waiting_stack_valid : NamesValid oneDraw (shopInput waitingStack) := by
  refine (@names_valid_iff oneDraw (shopInput waitingStack) composeShop (by decide) (by decide) rfl
    (by decide +kernel)).mpr ⟨fun _ => ?_, ?_, ?_⟩
  · decide
  · decide +kernel
  · decide

/- two services without ports, of which the second waits for the first; the first has a name of 59
characters, or one with a hyphen in place 47 -/
def quietService : Service := { webService with ports := [] }

def quietStack (first : String) (other : first ≠ "api") : Spec :=
  stack ⟨[(first, quietService), ("api", { quietService with dependsOn := [first] })], by simpa using other⟩

def longName : String := "worker-of-the-night-that-sums-up-all-the-orders-of-each-day"

def hyphenName : String := "worker-of-the-night-that-sums-up-every-days-or-ders"

/-- Two specs that the schema and the validator accept: the name of a Deployment is too long, and
that of an init container ends with a hyphen. -/
theorem quiet_stacks_invalid : (customDeploymentSpecSchema (quietStack longName (by decide)) = true ∧
      (validateCustomSpec (quietStack longName (by decide)) composeShop).ok = true ∧
      ¬ NamesValid oneDraw (shopInput (quietStack longName (by decide)))) ∧
    customDeploymentSpecSchema (quietStack hyphenName (by decide)) = true ∧
      (validateCustomSpec (quietStack hyphenName (by decide)) composeShop).ok = true ∧
      ¬ NamesValid oneDraw (shopInput (quietStack hyphenName (by decide))) := by
  refine ⟨⟨by decide +kernel, by decide +kernel, ?_⟩, by decide +kernel, by decide +kernel, ?_⟩
  · intro valid
    have long := (rendered_iff _).mp valid.resources _ List.mem_cons_self _ List.mem_cons_self _ List.mem_cons_self
    exact absurd long (by decide)
  · intro valid
    have cut := valid.initContainers _ (List.mem_cons_of_mem _ List.mem_cons_self) _ List.mem_cons_self
    exact absurd cut (by decide)

end HostingPlatform.CustomDeployments
