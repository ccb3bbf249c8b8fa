import HostingPlatform.CustomDeployments.ComposeParser

/-! When the compose parser comes to a result. It throws where it coerces a value that has no
text, and where the name of a file is that of a property which every object inherits. -/
namespace HostingPlatform.CustomDeployments

open List Js Diagnosis Diagnosed

mutual

/- no mapping that the text of the value is made of has a key `toString` of its own -/
def convertible : Value → Bool
  | .array items => allConvertible items
  | .object fields => !(Fields.keys fields).contains "toString"
  | _ => true

def allConvertible : List Value → Bool
  | [] => true
  | v :: rest => convertible v && allConvertible rest

end

/- a field that is left out needs no text -/
def fieldConvertible (raw : Option Value) : Bool := raw.all convertible

def valuesConvertible (fields : Fields) : Bool := fields.all (fun entry => convertible entry.2)

def mappingConvertible (raw : Option Value) : Bool :=
  match raw with
  | some (.object fields) => valuesConvertible fields
  | _ => true

def sequenceConvertible (raw : Option Value) : Bool :=
  match raw with
  | some (.array items) => items.all convertible
  | _ => true

/- the lookup of the file finds no inherited property -/
def ownName (files : Option (Record String)) (name : String) : Bool :=
  match upload files name with
  | .inherited => false
  | _ => true

def envFileFound (files : Option (Record String)) (fname : Value) : Bool :=
  match fname with
  | .string fname => ownName files fname
  | _ => true

def envFilesFound (files : Option (Record String)) (raw : Option Value) : Bool :=
  match raw with
  | some (.string fname) => ownName files fname
  | some (.array fnames) => fnames.all (envFileFound files)
  | _ => true

def mountConvertible (entry : Value) : Bool :=
  match entry with
  | .object entry => fieldConvertible (Fields.get entry "type")
  | _ => true

def mountsConvertible (raw : Option Value) : Bool :=
  match raw with
  | some (.array items) => items.all mountConvertible
  | _ => true

/- the words of a test: all of a command's, and the line of a shell's -/
def testConvertible (test : Value) : Bool :=
  match test with
  | .array (head :: rest) =>
    match head.coerce with
    | .error _ => false
    | .ok kind =>
      if kind = "CMD" then rest.all convertible
      else if kind = "CMD-SHELL" then fieldConvertible rest.head?
      else true
  | _ => true

def healthcheckConvertible (raw : Option Value) : Bool :=
  match raw with
  | some (.object raw) =>
    isTrue (Fields.get raw "disable") || (Fields.get raw "test").all testConvertible
  | _ => true

def containerConvertible (files : Option (Record String)) (raw : Fields) : Bool :=
  sequenceConvertible (raw.get "entrypoint") && sequenceConvertible (raw.get "command") &&
    mappingConvertible (raw.get "environment") && envFilesFound files (raw.get "env_file") &&
    mountsConvertible (raw.get "volumes") && healthcheckConvertible (raw.get "healthcheck") &&
    sequenceConvertible (raw.get "depends_on") && fieldConvertible (raw.get "restart") &&
    fieldConvertible (raw.get "user") && mappingConvertible (raw.get "labels")

/- a service without an image is not read further -/
def serviceConvertible (files : Option (Record String)) (raw : Value) : Bool :=
  match raw with
  | .object raw =>
    mappingConvertible (Fields.get raw "sysctls") &&
      (((textOf (Fields.get raw "image")).filter (· ≠ "")).isNone || containerConvertible files raw)
  | _ => true

def namedServiceConvertible (files : Option (Record String)) (entry : String × Value) : Bool :=
  !customNameRe entry.1 || serviceConvertible files entry.2

def inlineBodyFound (files : Option (Record String)) (def_ : Fields) : Bool :=
  match textOf (def_.get "content"), textOf (def_.get "file") with
  | none, some file => ownName files file
  | _, _ => true

def inlineFileFound (files : Option (Record String)) (entry : String × Value) : Bool :=
  !customNameRe entry.1 || isTrue ((fieldsOf entry.2).get "external") ||
    inlineBodyFound files (fieldsOf entry.2)

def inlineFilesFound (files : Option (Record String)) (raw : Option Value) : Bool :=
  match raw with
  | some (.object fields) => fields.all (inlineFileFound files)
  | _ => true

def stackConvertible (files : Option (Record String)) (doc : Fields) : Bool :=
  match doc.get "services" with
  | some (.object services) =>
    services.length == 0 || maxServices < services.length ||
      (inlineFilesFound files (doc.get "configs") && inlineFilesFound files (doc.get "secrets") &&
        services.all (namedServiceConvertible files))
  | _ => true

/-- Every value of the document that the parser coerces is convertible, and every file that it
looks up goes by a name of its own. -/
def documentConvertible (files : Option (Record String)) (doc : Value) : Bool :=
  match doc with
  | .object doc =>
    maxYamlDepth < Value.depth (maxYamlDepth + 1) 0 (.object doc) || stackConvertible files doc
  | _ => true

variable {A : Type} {parseEntry : Nat → Value → Parse (Option A)} {m : Parse A}

theorem ok_bind_iff {E B : Type} {x : Except E A} {f : A → Except E B} (next : ∀ a, ∃ b, f a = .ok b) :
    (∃ b, (x >>= f) = .ok b) ↔ ∃ a, x = .ok a := by
  cases x with
  | error e => exact iff_of_false nofun nofun
  | ok a => exact iff_of_true (next a) ⟨a, rfl⟩

theorem ok_both_iff {E B C : Type} {x : Except E A} {y : Except E B} {f : A → B → C} :
    (∃ c, (do let a ← x; let b ← y; return f a b) = Except.ok (ε := E) c) ↔ (∃ a, x = .ok a) ∧ ∃ b, y = .ok b := by
  cases x with
  | error e => exact iff_of_false nofun (fun both => nomatch both.1)
  | ok a =>
    cases y with
    | error e => exact iff_of_false nofun (fun both => nomatch both.2)
    | ok b => exact iff_of_true ⟨f a b, rfl⟩ ⟨⟨a, rfl⟩, b, rfl⟩

mutual

theorem coerces_iff : (v : Value) → ((∃ text, v.coerce = .ok text) ↔ convertible v = true)
  | .null | .bool _ | .number _ | .string _ => iff_of_true ⟨_, rfl⟩ rfl
  | .array items => (ok_bind_iff (fun _ => ⟨_, rfl⟩)).trans (joins_iff items)
  | .object fields => by
    simp only [Value.coerce, convertible, Bool.not_eq_true', List.contains_eq_mem, decide_eq_false_iff_not]
    split
    · rename_i own
      exact iff_of_false nofun (fun none => none own)
    · rename_i none
      exact iff_of_true ⟨_, rfl⟩ none

theorem joins_iff : (items : List Value) → ((∃ parts, joined items = .ok parts) ↔ allConvertible items = true)
  | [] => iff_of_true ⟨_, rfl⟩ rfl
  | v :: rest => by
    rw [allConvertible, Bool.and_eq_true, ← coerces_iff v, ← joins_iff rest]
    cases v with
    | null =>
      rw [and_iff_right ⟨_, rfl⟩]
      exact ok_bind_iff (fun _ => ⟨_, rfl⟩)
    | _ => exact ok_both_iff

end

theorem coerceAll_iff (items : List Value) : (∃ texts, coerceAll items = .ok texts) ↔ items.all convertible = true := by
  induction items with
  | nil => exact iff_of_true ⟨_, rfl⟩ rfl
  | cons v rest ih =>
    rw [all_cons, Bool.and_eq_true, ← coerces_iff v, ← ih]
    exact ok_both_iff

theorem coerceFields_iff (fields : Fields) :
    (∃ entries, coerceFields fields = .ok entries) ↔ valuesConvertible fields = true := by
  induction fields with
  | nil => exact iff_of_true ⟨_, rfl⟩ rfl
  | cons entry rest ih =>
    rw [valuesConvertible, all_cons, Bool.and_eq_true, ← coerces_iff entry.2]
    exact ok_both_iff.trans (and_congr_right' ih)

theorem environmentValue_iff (v : Value) : (∃ value, environmentValue v = .ok value) ↔ convertible v = true := by
  cases v with
  | null => exact iff_of_true ⟨_, rfl⟩ rfl
  | _ => exact coerces_iff _

theorem environmentFields_iff (fields : Fields) :
    (∃ env, environmentFields fields = .ok env) ↔ valuesConvertible fields = true := by
  induction fields with
  | nil => exact iff_of_true ⟨_, rfl⟩ rfl
  | cons entry rest ih =>
    rw [valuesConvertible, all_cons, Bool.and_eq_true, ← environmentValue_iff entry.2]
    exact ok_both_iff.trans (and_congr_right' ih)

section returning

variable {A : Type}

theorem returns_fail (a : A) (code path message : String) : Returns (fail a code path message) :=
  (returns_then (fun _ => returns_pure a)).mpr (returns_report _)

theorem returns_failWithHint (a : A) (code path message hint : String) :
    Returns (failWithHint a code path message hint) :=
  (returns_then (fun _ => returns_pure a)).mpr (returns_report _)

theorem returns_warn (a : A) (code path message : String) : Returns (warn a code path message) :=
  (returns_then (fun _ => returns_pure a)).mpr (returns_report _)

theorem returns_reject (path field : String) (hint : Option String) : Returns (reject path field hint) :=
  (returns_then (fun _ => returns_pure ())).mpr (returns_report _)

end returning

theorem returns_capAdd (raw : Option Value) (path : String) : Returns (parseCapAdd raw path) := by
  unfold parseCapAdd
  split
  · rename_i items
    induction items with
    | nil => exact returns_pure []
    | cons v rest ih =>
      cases v with
      | string cap =>
        unfold capAddLoop
        split
        · exact (returns_then (fun _ => returns_pure _)).mpr ih
        · exact (returns_then (fun _ => returns_pure [])).mpr (returns_reject _ _ _)
      | _ => exact (returns_then (fun _ => returns_pure [])).mpr (returns_reject _ _ _)
  · exact returns_pure []

theorem returns_sysctlsLoop (path : String) (sysctls : Record String)
    (entries : List (String × String)) : Returns (sysctlsLoop path sysctls entries) := by
  induction entries generalizing sysctls with
  | nil => exact returns_pure sysctls
  | cons entry rest ih =>
    unfold sysctlsLoop
    split
    · exact ih _
    · exact (returns_then (fun _ => returns_pure sysctls)).mpr (returns_reject _ _ _)

theorem sysctlEntries_iff (raw : Option Value) :
    (∃ entries, sysctlEntries raw = .ok entries) ↔ mappingConvertible raw = true := by
  unfold sysctlEntries mappingConvertible
  split
  · exact coerceFields_iff _
  · exact iff_of_true ⟨_, rfl⟩ rfl
  rename_i none _
  split
  · exact absurd rfl (none _)
  · exact iff_of_true ⟨_, rfl⟩ rfl

theorem returns_sysctls_iff (raw : Option Value) (path : String) :
    Returns (parseSysctls raw path) ↔ mappingConvertible raw = true := by
  unfold parseSysctls
  rw [returns_lifted (fun entries => returns_sysctlsLoop path .empty entries)]
  exact sysctlEntries_iff raw

theorem returns_stringArray_iff (raw : Option Value) (path : String) :
    Returns (parseStringArray raw path) ↔ sequenceConvertible raw = true := by
  cases raw with
  | none => exact iff_of_true (returns_pure none) rfl
  | some v =>
    cases v with
    | array items => exact (returns_lifted (fun _ => returns_pure _)).trans (coerceAll_iff items)
    | _ => exact iff_of_true (returns_fail none _ _ _) rfl

theorem returns_environmentEntry (path : String) (entry : Value) : Returns (environmentEntry path entry) := by
  unfold environmentEntry
  split
  · split
    · exact returns_warn none _ _ _
    · exact returns_pure _
  · exact returns_fail none _ _ _

theorem returns_environment_iff (raw : Value) (path : String) :
    Returns (parseEnvironment raw path) ↔ mappingConvertible (some raw) = true := by
  cases raw with
  | object fields => exact returns_lift.trans (environmentFields_iff fields)
  | array items =>
    refine iff_of_true ((returns_collect (fun _ entry => ?_) 0).mpr (fun _ _ => trivial)) rfl
    exact iff_of_true (returns_environmentEntry path entry) trivial
  | _ => exact iff_of_true (returns_fail [] _ _ _) rfl

theorem returns_envFileLine (path fname line : String) : Returns (envFileLine path fname line) := by
  unfold envFileLine
  dsimp only
  split
  · exact returns_pure none
  split
  · exact returns_warn none _ _ _
  · exact returns_pure _

theorem returns_envFile_iff (files : Option (Record String)) (path : String) (fname : Value) :
    Returns (envFile files path fname) ↔ envFileFound files fname = true := by
  unfold envFile envFileFound ownName
  cases fname with
  | string fname =>
    dsimp only
    cases upload files fname with
    | missing => exact iff_of_true (returns_failWithHint none _ _ _ _) rfl
    | inherited => exact iff_of_false (fun runs => nomatch runs) Bool.false_ne_true
    | content text =>
      refine iff_of_true ((returns_then (fun _ => returns_pure _)).mpr ?_) rfl
      refine (returns_collect (fun _ line => ?_) 0).mpr (fun _ _ => trivial)
      exact iff_of_true (returns_envFileLine path fname line) trivial
  | _ => exact iff_of_true (returns_pure none) rfl

theorem returns_envFiles_iff (files : Option (Record String)) (raw : Value) (path : String) :
    Returns (parseEnvFiles raw files path) ↔ envFilesFound files (some raw) = true := by
  have each : ∀ fnames : List Value, Returns (do
        let env ← collect (fun _ fname => envFile files path fname) 0 fnames
        pure env.flatten : Parse (List Env)) ↔ fnames.all (envFileFound files) = true := by
    intro fnames
    rw [returns_then (fun _ => returns_pure _),
      returns_collect (fun _ fname => returns_envFile_iff files path fname), all_eq_true]
  cases raw with
  | string fname =>
    refine (each [.string fname]).trans ?_
    rw [all_cons, all_nil, Bool.and_true]
    rfl
  | array fnames => exact each fnames
  | _ => exact iff_of_true (returns_fail [] _ _ _) rfl

theorem returns_env_iff (environment envFiles : Option Value) (files : Option (Record String))
    (path : String) : Returns (parseEnv environment envFiles files path) ↔
      mappingConvertible environment = true ∧ envFilesFound files envFiles = true := by
  have inline : Returns (inlineEnv environment path) ↔ mappingConvertible environment = true := by
    cases environment with
    | none => exact iff_of_true (returns_pure []) rfl
    | some raw => exact returns_environment_iff raw _
  unfold parseEnv
  rw [returns_bind (p := envFilesFound files envFiles = true), inline]
  intro env is _
  cases envFiles with
  | none => exact iff_of_true (returns_pure env) rfl
  | some raw => exact (returns_then (fun _ => returns_pure _)).trans (returns_envFiles_iff files raw _)

theorem returns_list_iff {p : Value → Bool}
    (entries : ∀ i entry, Returns (parseEntry i entry) ↔ p entry = true) (raw : Option Value)
    (path : String) : Returns (parseList parseEntry raw path) ↔
      ∀ items, raw = some (.array items) → items.all p = true := by
  unfold parseList
  cases raw with
  | none => exact iff_of_true (returns_pure []) nofun
  | some v =>
    cases v with
    | array items =>
      rw [returns_collect entries]
      simp
    | _ => exact iff_of_true (returns_fail [] _ _ _) nofun

theorem returns_list (entries : ∀ i entry, Returns (parseEntry i entry)) (raw : Option Value)
    (path : String) : Returns (parseList parseEntry raw path) := by
  refine (returns_list_iff (p := fun _ => true) (fun i entry => ?_) raw path).mpr ?_
  · exact iff_of_true (entries i entry) rfl
  · intro items _
    exact all_eq_true.mpr (fun _ _ => rfl)

theorem returns_port (path : String) (idx : Nat) (entry : Value) : Returns (parsePort path idx entry) := by
  unfold parsePort
  split
  · split
    · exact returns_fail none _ _ _
    · exact returns_pure _
  · split
    · exact returns_pure _
    · exact returns_fail none _ _ _
  · exact returns_fail none _ _ _

theorem returns_shortVolume (path : String) (i : Nat) (entry : String) : Returns (shortVolume path i entry) := by
  unfold shortVolume
  split
  · split
    · exact returns_failWithHint none _ _ _ _
    split
    · exact returns_pure _
    · exact returns_fail none _ _ _
  · exact returns_fail none _ _ _

theorem volumeType_iff (entry : Fields) :
    (∃ type, volumeType entry = .ok type) ↔ fieldConvertible (entry.get "type") = true := by
  unfold volumeType fieldConvertible
  cases entry.get "type" with
  | none => exact iff_of_true ⟨_, rfl⟩ rfl
  | some v =>
    cases v with
    | null => exact iff_of_true ⟨_, rfl⟩ rfl
    | _ => exact coerces_iff _

theorem returns_volumeMount_iff (path : String) (i : Nat) (entry : Value) :
    Returns (parseVolumeMount path i entry) ↔ mountConvertible entry = true := by
  cases entry with
  | string entry => exact iff_of_true (returns_shortVolume path i entry) rfl
  | object entry =>
    refine (returns_lifted (fun type => ?_)).trans (volumeType_iff entry)
    split
    · exact returns_fail none _ _ _
    split
    · exact returns_fail none _ _ _
    split
    · split
      · exact returns_pure _
      · exact returns_fail none _ _ _
    · exact returns_fail none _ _ _
  | _ => exact iff_of_true (returns_fail none _ _ _) rfl

theorem returns_volumeMounts_iff (raw : Option Value) (path : String) :
    Returns (parseVolumeMounts raw path) ↔ mountsConvertible raw = true := by
  refine (returns_list_iff (returns_volumeMount_iff path) raw path).trans ?_
  unfold mountsConvertible
  split
  · simp
  · rename_i other
    exact iff_of_true (fun items array => absurd array (other items)) rfl

theorem shellLine_iff (rest : List Value) :
    (∃ line, shellLine rest = .ok line) ↔ fieldConvertible rest.head? = true := by
  cases rest with
  | nil => exact iff_of_true ⟨_, rfl⟩ rfl
  | cons v rest =>
    cases v with
    | null => exact iff_of_true ⟨_, rfl⟩ rfl
    | _ => exact coerces_iff _

theorem returns_test_iff (test : Value) (path : String) :
    Returns (healthcheckTest test path) ↔ testConvertible test = true := by
  unfold healthcheckTest testConvertible
  cases test with
  | string line =>
    refine iff_of_true ?_ rfl
    dsimp only
    split <;> exact returns_pure _
  | array items =>
    cases items with
    | nil => exact iff_of_true (returns_fail none _ _ _) rfl
    | cons head rest =>
      dsimp only
      cases head.coerce with
      | error e => exact iff_of_false (fun runs => nomatch runs) Bool.false_ne_true
      | ok kind =>
        refine returns_after (returns_lift.mpr ⟨kind, rfl⟩) ?_
        intro a is coerced
        cases coerced
        dsimp only
        split
        · refine (returns_lifted (fun command => ?_)).trans (coerceAll_iff rest)
          split
          · exact returns_fail none _ _ _
          · exact returns_pure _
        split
        · exact (returns_lifted (fun _ => returns_pure _)).trans (shellLine_iff rest)
        refine iff_of_true ?_ rfl
        split
        · exact returns_pure none
        · exact returns_fail none _ _ _
  | _ => exact iff_of_true (returns_fail none _ _ _) rfl

theorem returns_duration (raw : Option Value) (least defaultValue : Number) (path message : String) :
    Returns (resolveDuration raw least defaultValue path message) := by
  unfold resolveDuration
  split
  · exact returns_pure _
  split
  · exact returns_fail none _ _ _
  split
  · exact returns_pure _
  · exact returns_fail none _ _ _

theorem returns_probe (raw : Fields) (command : List String) (path : String) :
    Returns (healthcheckProbe raw command path) := by
  refine (returns_then (fun interval => ?_)).mpr (returns_duration _ _ _ _ _)
  refine (returns_then (fun timeout => ?_)).mpr (returns_duration _ _ _ _ _)
  split
  · refine (returns_then (fun startPeriod => ?_)).mpr (returns_duration _ _ _ _ _)
    split <;> exact returns_pure _
  · exact returns_pure none

theorem returns_healthcheck_iff (raw : Option Value) (path : String) :
    Returns (parseHealthcheck raw path) ↔ healthcheckConvertible raw = true := by
  unfold parseHealthcheck healthcheckConvertible
  cases raw with
  | none => exact iff_of_true (returns_pure none) rfl
  | some v =>
    cases v with
    | object raw =>
      dsimp only
      cases isTrue (Fields.get raw "disable") with
      | true => exact iff_of_true (returns_pure none) rfl
      | false =>
        cases Fields.get raw "test" with
        | none => exact iff_of_true (returns_pure none) rfl
        | some test =>
          refine (returns_then (fun command => ?_)).trans (returns_test_iff test path)
          split
          · exact returns_pure none
          · exact returns_probe raw _ path
    | _ => exact iff_of_true (returns_fail none _ _ _) rfl

theorem returns_dependsOn_iff (raw : Option Value) (path : String) :
    Returns (parseDependsOn raw path) ↔ sequenceConvertible raw = true := by
  cases raw with
  | none => exact iff_of_true (returns_pure []) rfl
  | some v =>
    cases v with
    | array items => exact returns_lift.trans (coerceAll_iff items)
    | object fields => exact iff_of_true (returns_pure _) rfl
    | _ => exact iff_of_true (returns_fail [] _ _ _) rfl

theorem returns_restart_iff (raw : Option Value) (path : String) :
    Returns (parseRestart raw path) ↔ fieldConvertible raw = true := by
  cases raw with
  | none => exact iff_of_true (returns_pure _) rfl
  | some v =>
    refine (returns_lifted (fun key => ?_)).trans (coerces_iff v)
    split
    · exact returns_pure _
    · exact returns_fail _ _ _ _

theorem returns_id (text path message : String) : Returns (parseId text path message) := by
  unfold parseId
  dsimp only
  split
  · exact returns_pure _
  · exact returns_fail none _ _ _

section

variable (raw : Option Value) (path : String)
include raw path

theorem returns_user_iff : Returns (parseUser raw path) ↔ fieldConvertible raw = true := by
  cases raw with
  | none => exact iff_of_true (returns_pure _) rfl
  | some v =>
    refine (returns_lifted (fun u => ?_)).trans (coerces_iff v)
    refine (returns_then (fun uid => ?_)).mpr (returns_id _ _ _)
    split
    · exact returns_pure _
    · exact (returns_then (fun _ => returns_pure _)).mpr (returns_id _ _ _)

theorem returns_tmpfs : Returns (parseTmpfs raw path) := by
  have each : ∀ entries : List Value,
      Returns (collect (fun _ entry => parseTmpfsEntry path entry) 0 entries : Parse (List Tmpfs)) := by
    intro entries
    refine (returns_collect (p := fun _ => True) (fun _ entry => iff_of_true ?_ trivial) 0).mpr
      (fun _ _ => trivial)
    unfold parseTmpfsEntry
    split
    · dsimp only
      split
      · exact returns_pure _
      · exact returns_fail none _ _ _
    · exact returns_pure none
  unfold parseTmpfs
  split
  · exact returns_pure []
  · exact each _
  · exact each _
  · exact returns_fail [] _ _ _

theorem returns_stopGracePeriod : Returns (parseStopGracePeriod raw path) := by
  unfold parseStopGracePeriod
  split
  · exact returns_pure none
  split
  · exact returns_fail none _ _ _
  split
  · exact returns_fail none _ _ _
  · exact returns_pure _

theorem returns_labels_iff : Returns (parseLabels raw path) ↔ mappingConvertible raw = true := by
  cases raw with
  | none => exact iff_of_true (returns_pure none) rfl
  | some v =>
    cases v with
    | object fields => exact (returns_lifted (fun _ => returns_pure _)).trans (coerceFields_iff fields)
    | array items =>
      exact iff_of_true ((returns_lifted (fun _ => returns_pure _)).mpr ⟨_, rfl⟩) rfl
    | _ => exact iff_of_true (returns_fail none _ _ _) rfl

end

theorem returns_fileMount (mounts : FileMounts) (path : String) (i : Nat) (sourceName : String)
    (target : Option String) : Returns (fileMount mounts path i sourceName target) := by
  unfold fileMount
  split
  · exact returns_pure _
  · exact returns_failWithHint none _ _ _ _

theorem returns_serviceFileMounts (mounts : FileMounts) (raw : Option Value) (path : String) :
    Returns (parseServiceFileMounts mounts raw path) := by
  refine returns_list (fun i entry => ?_) raw path
  unfold parseFileMount
  split
  · exact returns_fileMount _ _ _ _ _
  · split
    · split
      · exact returns_fail none _ _ _
      · exact returns_fileMount _ _ _ _ _
    · exact returns_fail none _ _ _
  · exact returns_fail none _ _ _

theorem returns_next {B : Type} {f : A → Parse B} {ok rest : Bool} (first : Returns m ↔ ok = true)
    (next : ∀ a, Returns (f a) ↔ rest = true) : Returns (m >>= f) ↔ (ok && rest) = true := by
  rw [returns_bind (fun a _ _ => next a), first, Bool.and_eq_true]

theorem returns_sure {B : Type} {f : A → Parse B} {rest : Bool} (first : Returns m)
    (next : ∀ a, Returns (f a) ↔ rest = true) : Returns (m >>= f) ↔ rest = true :=
  returns_after first (fun a _ _ => next a)

theorem returns_container_iff (path : String) (raw : Fields) (files : Option (Record String))
    (capAdd : List String) (sysctls : Record String) (image : String) :
    Returns (parseContainer path raw files capAdd sysctls image) ↔ containerConvertible files raw = true := by
  have env : Returns (parseEnv (raw.get "environment") (raw.get "env_file") files path) ↔
      (mappingConvertible (raw.get "environment") && envFilesFound files (raw.get "env_file")) = true := by
    rw [returns_env_iff, Bool.and_eq_true]
  unfold parseContainer containerConvertible
  simp only [Bool.and_assoc]
  refine returns_next (returns_stringArray_iff _ _) (fun _ => ?_)
  refine returns_next (returns_stringArray_iff _ _) (fun _ => ?_)
  rw [← Bool.and_assoc]
  refine returns_next env (fun _ => ?_)
  refine returns_sure (returns_list (returns_port _) _ _) (fun _ => ?_)
  refine returns_next (returns_volumeMounts_iff _ _) (fun _ => ?_)
  refine returns_next (returns_healthcheck_iff _ _) (fun _ => ?_)
  refine returns_next (returns_dependsOn_iff _ _) (fun _ => ?_)
  refine returns_next (returns_restart_iff _ _) (fun _ => ?_)
  refine returns_next (returns_user_iff _ _) (fun _ => ?_)
  refine returns_sure (returns_tmpfs _ _) (fun _ => ?_)
  refine returns_sure (returns_stopGracePeriod _ _) (fun _ => ?_)
  refine (returns_then (fun _ => ?_)).trans (returns_labels_iff _ _)
  refine (returns_then (fun _ => ?_)).mpr (returns_serviceFileMounts _ _ _)
  exact (returns_then (fun _ => returns_pure _)).mpr (returns_serviceFileMounts _ _ _)

theorem returns_rejectFields (path : String) (raw : Fields) (fields : List String) :
    Returns (rejectFields path raw fields) := by
  induction fields with
  | nil => exact returns_pure ()
  | cons field rest ih =>
    unfold rejectFields
    split
    · exact (returns_then (fun _ => ih)).mpr (returns_reject _ _ _)
    · exact ih

theorem returns_service_iff (name : String) (raw : Value) (files : Option (Record String)) :
    Returns (parseService name raw files) ↔ serviceConvertible files raw = true := by
  cases raw with
  | object raw =>
    refine returns_sure (returns_rejectFields _ _ _) (fun _ => ?_)
    have privileged : Returns (rejectPrivileged s!"services.{name}" raw) := by
      unfold rejectPrivileged
      split
      · exact returns_reject _ _ _
      · exact returns_pure ()
    refine returns_sure privileged (fun _ => ?_)
    have init : Returns (warnInit s!"services.{name}" raw) := by
      unfold warnInit
      split
      · exact returns_warn () _ _ _
      · exact returns_pure ()
    refine returns_sure init (fun _ => ?_)
    refine returns_sure (returns_capAdd _ _) (fun _ => ?_)
    refine returns_next (returns_sysctls_iff _ _) (fun _ => ?_)
    cases (textOf (Fields.get raw "image")).filter (· ≠ "") with
    | none => exact iff_of_true (returns_fail none _ _ _) rfl
    | some image =>
      refine (returns_then (fun _ => returns_pure _)).trans ?_
      exact returns_container_iff _ raw files _ _ image
  | _ => exact iff_of_true (returns_fail none _ _ _) rfl

theorem returns_serviceEntry_iff (files : Option (Record String)) (entry : String × Value) :
    Returns (serviceEntry files entry) ↔ namedServiceConvertible files entry = true := by
  unfold serviceEntry namedServiceConvertible
  dsimp only
  cases customNameRe entry.1 with
  | false => exact iff_of_true (returns_fail none _ _ _) rfl
  | true => exact (returns_then (fun _ => returns_pure _)).trans (returns_service_iff _ _ _)

theorem returns_inlineContent (inlines : InlineFiles) (name content : String) :
    Returns (inlineContent inlines name content) := by
  unfold inlineContent
  split
  · exact returns_fail none _ _ _
  · exact returns_pure _

theorem returns_inlineBody_iff (inlines : InlineFiles) (files : Option (Record String)) (name : String)
    (def_ : Fields) : Returns (inlineBody inlines files name def_) ↔ inlineBodyFound files def_ = true := by
  unfold inlineBody inlineBodyFound
  cases textOf (def_.get "content") with
  | some content => exact iff_of_true (returns_inlineContent _ _ _) rfl
  | none =>
    cases textOf (def_.get "file") with
    | none => exact iff_of_true (returns_fail none _ _ _) rfl
    | some file =>
      dsimp only
      unfold ownName
      cases upload files file with
      | content content => exact iff_of_true (returns_inlineContent _ _ _) rfl
      | inherited => exact iff_of_false (fun runs => nomatch runs) Bool.false_ne_true
      | missing => exact iff_of_true (returns_fail none _ _ _) rfl

theorem returns_inlineFile_iff (inlines : InlineFiles) (files : Option (Record String)) (entry : String × Value) :
    Returns (inlineFile inlines files entry) ↔ inlineFileFound files entry = true := by
  unfold inlineFile inlineFileFound
  dsimp only
  cases customNameRe entry.1 with
  | false => exact iff_of_true (returns_fail none _ _ _) rfl
  | true =>
    cases isTrue ((fieldsOf entry.2).get "external") with
    | true => exact iff_of_true (returns_fail none _ _ _) rfl
    | false => exact returns_inlineBody_iff inlines files entry.1 (fieldsOf entry.2)

theorem returns_inlineFiles_iff (inlines : InlineFiles) (raw : Option Value) (files : Option (Record String)) :
    Returns (extractInlineFiles inlines raw files) ↔ inlineFilesFound files raw = true := by
  unfold extractInlineFiles inlineFilesFound
  cases raw with
  | none => exact iff_of_true (returns_pure []) rfl
  | some v =>
    cases v with
    | object fields =>
      rw [returns_collect (fun _ entry => returns_inlineFile_iff inlines files entry), all_eq_true]
    | _ => exact iff_of_true (returns_fail [] _ _ _) rfl

theorem returns_volumes (raw : Option Value) : Returns (parseVolumes raw) := by
  unfold parseVolumes
  split
  · exact returns_pure _
  · refine (returns_then (fun _ => returns_pure _)).mpr ?_
    refine (returns_collect (p := fun _ => True) (fun _ entry => iff_of_true ?_ trivial) 0).mpr
      (fun _ _ => trivial)
    unfold volumeEntry
    dsimp only
    split
    · exact returns_fail none _ _ _
    split
    · exact returns_failWithHint none _ _ _ _
    · exact returns_pure _
  · exact returns_fail _ _ _ _

theorem returns_autoDeclareMounts (svcName : String) (volumes : Record VolumeDef)
    (mounts : List VolumeMount) : Returns (autoDeclareMounts svcName volumes mounts) := by
  induction mounts generalizing volumes with
  | nil => exact returns_pure volumes
  | cons vm rest ih =>
    unfold autoDeclareMounts
    split
    · exact ih volumes
    · exact (returns_then (fun _ => ih _)).mpr (returns_report _)

theorem returns_autoDeclare (volumes : Record VolumeDef) (services : List (String × Service)) :
    Returns (autoDeclare volumes services) := by
  induction services generalizing volumes with
  | nil => exact returns_pure volumes
  | cons entry rest ih =>
    exact (returns_then (fun next => ih next)).mpr (returns_autoDeclareMounts _ _ _)

theorem returns_stack_iff (doc services : Fields) (files : Option (Record String)) :
    Returns (parseStack doc services files) ↔
      (inlineFilesFound files (doc.get "configs") && (inlineFilesFound files (doc.get "secrets") &&
        services.all (namedServiceConvertible files))) = true := by
  refine returns_sure (returns_volumes _) (fun volumes => ?_)
  refine returns_next (returns_inlineFiles_iff _ _ _) (fun _ => ?_)
  refine returns_next (returns_inlineFiles_iff _ _ _) (fun _ => ?_)
  have entries := returns_collect (fun _ => returns_serviceEntry_iff files) (l := services) 0
  refine (returns_then (fun entries => ?_)).trans (entries.trans all_eq_true.symm)
  dsimp only
  split
  · exact returns_pure none
  · exact (returns_then (fun _ => returns_pure _)).mpr (returns_autoDeclare _ _)

theorem returns_services_iff (doc : Fields) (files : Option (Record String)) :
    Returns (parseServices doc files) ↔ stackConvertible files doc = true := by
  unfold parseServices stackConvertible
  cases doc.get "services" with
  | none => exact iff_of_true (returns_fail none _ _ _) rfl
  | some value =>
    cases value with
    | object services =>
      dsimp only
      split
      · rename_i empty
        exact iff_of_true (returns_fail none _ _ _) (by simp [empty])
      rename_i some
      split
      · rename_i many
        exact iff_of_true (returns_fail none _ _ _) (by simp [many])
      rename_i few
      simp only [few, beq_eq_false_iff_ne.mpr some]
      rw [Bool.and_assoc]
      exact returns_stack_iff doc services files
    | _ => exact iff_of_true (returns_fail none _ _ _) rfl

theorem returns_document_iff (doc : Value) (files : Option (Record String)) :
    Returns (parseDocument doc files) ↔ documentConvertible files doc = true := by
  unfold parseDocument documentConvertible
  cases doc with
  | object doc =>
    dsimp only
    split
    · rename_i deep
      exact iff_of_true (returns_fail none _ _ _) (by simp [deep])
    rename_i shallow
    simp only [shallow, decide_false]
    have networks : Returns (warnNetworks doc) := by
      unfold warnNetworks
      split
      · exact returns_warn () _ _ _
      · exact returns_pure ()
    refine returns_sure networks (fun _ => ?_)
    have keys : Returns (collect (fun _ key => topLevelKey key) 0 (Fields.keys doc) : Parse (List Unit)) := by
      refine (returns_collect (p := fun _ => True) (fun _ key => iff_of_true ?_ trivial) 0).mpr
        (fun _ _ => trivial)
      unfold topLevelKey
      split
      · exact returns_pure none
      · exact returns_failWithHint none _ _ _ _
    exact returns_sure keys (fun _ => returns_services_iff doc files)
  | _ => exact iff_of_true (returns_fail none _ _ _) rfl

/-- The parser comes to a result exactly when the document does not load, or the values that it
coerces are convertible and the files go by names of their own. -/
theorem parseCompose_returns_iff (load : YamlLoad) (input : ComposeParseInput) :
    (∃ result, parseCompose load input = .ok result) ↔
      ∀ doc, load.run input.composeYaml = .ok doc → documentConvertible input.envFiles doc = true := by
  have same : (∃ result, parseCompose load input = .ok result) ↔ Returns (parse load input) := by
    unfold parseCompose
    split
    · rename_i thrown runs
      refine iff_of_false nofun ?_
      rintro ⟨spec, issues, other⟩
      exact nomatch runs.symm.trans other
    · rename_i spec issues runs
      exact iff_of_true ⟨_, rfl⟩ ⟨spec, issues, runs⟩
  rw [same, parse]
  cases load.run input.composeYaml with
  | error message => exact iff_of_true (returns_fail none _ _ _) nofun
  | ok doc =>
    refine (returns_document_iff doc input.envFiles).trans ?_
    simp

/- a command whose word is a mapping with a key `toString` -/
def shadowedDocument : Value :=
  .object [("services", .object [("web", .object [("image", .string "nginx:1.27.3"),
    ("command", .array [.object [("toString", .null)]])])])]

def shadowedYaml : String :=
  "services:\n  web:\n    image: nginx:1.27.3\n    command:\n      - toString: null\n"

/- an `env_file` that goes by the name of an inherited property -/
def inheritedDocument : Value :=
  .object [("services", .object [("web", .object [("image", .string "nginx:1.27.3"),
    ("env_file", .string "constructor")])])]

def inheritedYaml : String :=
  "services:\n  web:\n    image: nginx:1.27.3\n    env_file: constructor\n"

/-- A word that has no text makes the parser throw, and so does the name of an inherited
property. -/
theorem parseCompose_throws : parseCompose (.only shadowedYaml shadowedDocument (by decide)) ⟨shadowedYaml, none⟩ =
        .error "Cannot convert object to primitive value" ∧
      parseCompose (.only inheritedYaml inheritedDocument (by decide)) ⟨inheritedYaml, some .empty⟩ =
        .error "content.split is not a function" :=
  ⟨rfl, rfl⟩

end HostingPlatform.CustomDeployments
