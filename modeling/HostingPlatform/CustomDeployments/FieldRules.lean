import HostingPlatform.CustomDeployments.Fields

/-! What each field of a compose service must look like for its parser to report no error
(`faultless`), and what more the schema of the spec asks of it (`fits`). The parsers check the
first and leave the second open. -/
namespace HostingPlatform.CustomDeployments

open List Js Diagnosis Diagnosed

section rules

variable {A : Type} {post : A → Prop} {ok : Bool}

theorem checks_fail (a : A) (code path message : String) :
    Checks isError (fail a code path message) false post := Checks.fails rfl

theorem checks_failWithHint (a : A) (code path message hint : String) :
    Checks isError (failWithHint a code path message hint) false post := Checks.fails rfl

theorem checks_warn {a : A} (holds : post a) (code path message : String) :
    Checks isError (warn a code path message) true post := Checks.warns rfl (Checks.pure holds)

theorem checks_reject {next : Parse A} (path field : String) (hint : Option String) :
    Checks isError (reject path field hint >>= fun _ => next) false post := Checks.fails rfl

end rules

def coercesTo (p : String → Bool) (v : Value) : Bool :=
  match v.coerce with
  | .ok text => p text
  | .error _ => false

theorem coerceAll_all {items : List Value} {texts : List String} (coerced : coerceAll items = .ok texts)
    (p : String → Bool) : texts.length = items.length ∧ texts.all p = items.all (coercesTo p) := by
  induction items generalizing texts with
  | nil =>
    cases coerced
    exact ⟨rfl, rfl⟩
  | cons v rest ih =>
    cases first : v.coerce with
    | error thrown =>
      simp only [coerceAll, first] at coerced
      contradiction
    | ok text =>
      cases later : coerceAll rest with
      | error thrown =>
        simp only [coerceAll, first, later] at coerced
        contradiction
      | ok more =>
        simp only [coerceAll, first, later] at coerced
        cases coerced
        obtain ⟨length, all⟩ := ih later
        exact ⟨by simp [length], by simp [coercesTo, first, all]⟩

def capAllowed (v : Value) : Bool :=
  match v with
  | .string cap => allowedCapAdd.contains cap
  | _ => false

def capAddFaultless (raw : Option Value) : Bool :=
  match raw with
  | some (.array items) => items.all capAllowed
  | _ => true

def capAddFits (raw : Option Value) : Bool :=
  match raw with
  | some (.array items) => items.length ≤ 1
  | _ => true

theorem capAddLoop_checks (path : String) (items : List Value) :
    Checks isError (capAddLoop path items) (items.all capAllowed)
      (fun caps => caps.length = items.length ∧ caps.all allowedCapAdd.contains = true) := by
  induction items with
  | nil => exact Checks.pure ⟨rfl, rfl⟩
  | cons v rest ih =>
    rw [all_cons]
    cases v with
    | string cap =>
      by_cases allowed : cap ∈ allowedCapAdd
      · have contains : allowedCapAdd.contains cap = true := contains_iff_mem.mpr allowed
        rw [capAddLoop, if_pos allowed, capAllowed, contains]
        refine Checks.map ih ?_
        rintro caps ⟨length, all⟩
        exact ⟨by simp [length], by rw [all_cons, contains, all]; rfl⟩
      · have contains : allowedCapAdd.contains cap = false := by simpa using allowed
        rw [capAddLoop, if_neg allowed, capAllowed, contains]
        exact checks_reject path "cap_add" (some capAddHint)
    | _ => exact checks_reject path "cap_add" (some capAddHint)

theorem parseCapAdd_checks (raw : Option Value) (path : String) :
    Checks isError (parseCapAdd raw path) (capAddFaultless raw) (fun caps =>
      (decide (caps.length ≤ 1) && caps.all allowedCapAdd.contains) = capAddFits raw) := by
  cases raw with
  | none => exact Checks.pure rfl
  | some v =>
    cases v with
    | array items =>
      refine Checks.weaken (capAddLoop_checks path items) ?_
      rintro _ caps ⟨length, all⟩
      rw [length, all, Bool.and_true]
      rfl
    | _ => exact Checks.pure rfl

def sysctlsFaultless (raw : Option Value) : Bool :=
  match sysctlEntries raw with
  | .ok entries => entries.all (fun entry => allowedSysctls.contains entry.1)
  | .error _ => true

def sysctlsFits (raw : Option Value) : Bool :=
  match sysctlEntries raw with
  | .ok entries => entries.getLast?.all (fun entry => sysctlValueRe entry.2)
  | .error _ => true

def sysctlsOf (sysctls : Record String) : Option (Record String) :=
  if sysctls.entries = [] then none else some sysctls

/-- A record of the one allowed sysctl, with the value it was given last. -/
def HasLast (sysctls : Record String) (last : Option (String × String)) : Prop :=
  sysctls.entries = last.toList ∧ ∀ entry, last = some entry → entry.1 ∈ allowedSysctls

theorem eq_of_allowed {key other : String} (allowed : key ∈ allowedSysctls)
    (allowed' : other ∈ allowedSysctls) : key = other :=
  (mem_singleton.mp allowed).trans (mem_singleton.mp allowed').symm

variable {sysctls : Record String} {last : Option (String × String)} {A : Type}

theorem hasLast_set {key : String} (value : String) (has : HasLast sysctls last)
    (allowed : key ∈ allowedSysctls) : HasLast (sysctls.set key value) (some (key, value)) := by
  obtain ⟨entries, keys⟩ := has
  constructor
  · cases last with
    | none => simp [Record.set, entries]
    | some entry =>
      have same : entry.1 = key := eq_of_allowed (keys entry rfl) allowed
      simp [Record.set, Record.overwrite, entries, same]
  · intro entry here
    rw [← Option.some.inj here]
    exact allowed

theorem sysctlsLoop_checks (path : String) (entries : List (String × String)) (has : HasLast sysctls last) :
    Checks isError (sysctlsLoop path sysctls entries) (entries.all (fun entry => allowedSysctls.contains entry.1))
      (fun out => HasLast out (entries.getLast?.or last)) := by
  induction entries generalizing sysctls last with
  | nil => exact Checks.pure has
  | cons entry rest ih =>
    obtain ⟨key, value⟩ := entry
    rw [all_cons]
    by_cases allowed : key ∈ allowedSysctls
    · have contains : allowedSysctls.contains key = true := contains_iff_mem.mpr allowed
      rw [sysctlsLoop, if_pos allowed, contains]
      refine Checks.weaken (ih (hasLast_set value has allowed)) ?_
      intro _ out holds
      have last : ((key, value) :: rest).getLast? = rest.getLast?.or (some (key, value)) :=
        getLast?_cons.trans (by cases rest.getLast? <;> rfl)
      rw [last]
      cases end_ : rest.getLast? <;> rw [end_] at holds <;> exact holds
    · have contains : allowedSysctls.contains key = false := by simpa using allowed
      rw [sysctlsLoop, if_neg allowed, contains]
      exact checks_reject path "sysctls" (some sysctlsHint)

theorem sysctlsSchema_of_last (has : HasLast sysctls last) :
    (sysctlsOf sysctls).all sysctlsSchema = last.all (fun entry => sysctlValueRe entry.2) := by
  obtain ⟨entries, keys⟩ := has
  cases last with
  | none => simp [sysctlsOf, entries]
  | some entry =>
    have allowed := keys entry rfl
    have one : ∀ key ∈ allowedSysctls, key ∈ sysctls.keys := by
      intro key mem
      simp [Record.keys, entries, eq_of_allowed mem allowed]
    simpa [sysctlsOf, entries, sysctlsSchema, allowed] using fun _ => one

theorem parseSysctls_checks (raw : Option Value) (path : String) :
    Checks isError (parseSysctls raw path) (sysctlsFaultless raw) (fun sysctls =>
      (sysctlsOf sysctls).all sysctlsSchema = sysctlsFits raw) := by
  refine Checks.lifted ?_
  intro entries read
  unfold sysctlsFaultless sysctlsFits
  rw [read]
  have start : HasLast .empty none := ⟨rfl, nofun⟩
  refine Checks.weaken (sysctlsLoop_checks path entries start) ?_
  intro _ sysctls has
  rw [Option.or_none] at has
  exact sysctlsSchema_of_last has

def argvFaultless (raw : Option Value) : Bool :=
  match raw with
  | none => true
  | some (.array _) => true
  | some _ => false

def argvFits (raw : Option Value) : Bool :=
  match raw with
  | some (.array items) =>
    items.length ≤ 64 && items.all (coercesTo (fun arg => length arg ≤ 4096))
  | _ => true

theorem parseStringArray_checks (raw : Option Value) (path : String) :
    Checks isError (parseStringArray raw path) (argvFaultless raw)
      (fun argv => argv.all argvSchema = argvFits raw) := by
  cases raw with
  | none => exact Checks.pure rfl
  | some v =>
    cases v with
    | array items =>
      refine Checks.lifted ?_
      intro texts coerced
      obtain ⟨length, all⟩ := coerceAll_all coerced (fun arg => length arg ≤ 4096)
      exact Checks.pure (by rw [Option.all_some, argvSchema, length, all]; rfl)
    | string s | _ => exact checks_fail none _ _ _

def isText (v : Value) : Bool :=
  match v with
  | .string _ => true
  | _ => false

def environmentFaultless (raw : Option Value) : Bool :=
  match raw with
  | none => true
  | some (.object _) => true
  | some (.array items) => items.all isText
  | some _ => false

def valueText (v : Value) : String :=
  match environmentValue v with
  | .ok text => text
  | .error _ => ""

def entryVariable (v : Value) : Option (String × String) :=
  match v with
  | .string s => cut '=' s
  | _ => none

def inlineVariables (raw : Option Value) : List (String × String) :=
  match raw with
  | some (.object fields) => fields.map (fun (key, v) => (key, valueText v))
  | some (.array items) => items.filterMap entryVariable
  | _ => []

def setLiteral (variable_ : String × String) : Env := literal variable_.1 variable_.2

theorem environmentFields_eq {fields : Fields} {env : List Env} (read : environmentFields fields = .ok env) :
    env = (fields.map (fun (key, v) => (key, valueText v))).map setLiteral := by
  induction fields generalizing env with
  | nil =>
    cases read
    rfl
  | cons field rest ih =>
    obtain ⟨key, v⟩ := field
    cases first : environmentValue v with
    | error thrown =>
      simp only [environmentFields, first] at read
      contradiction
    | ok text =>
      cases later : environmentFields rest with
      | error thrown =>
        simp only [environmentFields, first, later] at read
        contradiction
      | ok more =>
        simp only [environmentFields, first, later] at read
        cases read
        rw [ih later]
        simp [valueText, first, setLiteral]

theorem filterMap_setLiteral (g : A → Option (String × String)) (l : List A) :
    l.filterMap (fun a => (g a).map setLiteral) = (l.filterMap g).map setLiteral :=
  (map_filterMap).symm

theorem environmentEntry_checks (path : String) (v : Value) : Checks isError (environmentEntry path v) (isText v)
      (fun o => o = (entryVariable v).map setLiteral) := by
  cases v with
  | string s =>
    unfold environmentEntry entryVariable
    dsimp only
    split
    · rename_i missing
      exact checks_warn (by rw [missing]; rfl) _ _ _
    · rename_i name value found
      exact Checks.pure (by rw [found]; rfl)
  | _ => exact checks_fail none _ _ _

theorem parseEnvironment_checks (raw : Value) (path : String) :
    Checks isError (parseEnvironment raw path) (environmentFaultless (some raw))
      (fun env => env = (inlineVariables (some raw)).map setLiteral) := by
  cases raw with
  | object fields => exact Checks.lift (fun env read => environmentFields_eq read)
  | array items =>
    refine Checks.weaken (Checks.collect (fun _ v _ => environmentEntry_checks path v) 0) ?_
    rintro _ env ⟨os, turns, rfl⟩
    rw [collected_eq turns, filterMap_setLiteral]
    rfl
  | _ => exact checks_fail [] _ _ _

/- the variables of an uploaded file, if there is one -/
def lineVariable (line : String) : Option (String × String) :=
  let trimmed := trim line
  if trimmed = "" ∨ startsWith trimmed "#" then none
  else (cut '=' trimmed).map (fun (key, value) => (trim key, trim value))

def fileVariables (files : Option (Record String)) (fname : Value) : Option (List (String × String)) :=
  match fname with
  | .string fname =>
    match upload files fname with
    | .content text => some ((lines text).filterMap lineVariable)
    | _ => none
  | _ => none

def isUploaded (files : Option (Record String)) (fname : Value) : Bool :=
  match fname with
  | .string fname =>
    match upload files fname with
    | .missing => false
    | _ => true
  | _ => true

def envFilesFaultless (raw : Option Value) (files : Option (Record String)) : Bool :=
  match raw with
  | none => true
  | some (.string fname) => isUploaded files (.string fname)
  | some (.array fnames) => fnames.all (isUploaded files)
  | some _ => false

def filesVariables (raw : Option Value) (files : Option (Record String)) : List (String × String) :=
  match raw with
  | some (.string fname) => ([Value.string fname].filterMap (fileVariables files)).flatten
  | some (.array fnames) => (fnames.filterMap (fileVariables files)).flatten
  | _ => []

theorem envFileLine_checks (path fname line : String) : Checks isError (envFileLine path fname line) true
      (fun o => o = (lineVariable line).map setLiteral) := by
  unfold envFileLine lineVariable
  dsimp only
  split
  · exact Checks.pure rfl
  split
  · rename_i missing
    exact checks_warn (by rw [missing]; rfl) _ _ _
  · rename_i key value found
    exact Checks.pure (by rw [found]; rfl)

theorem envFile_checks (files : Option (Record String)) (path : String) (fname : Value) :
    Checks isError (envFile files path fname) (isUploaded files fname)
      (fun o => o = (fileVariables files fname).map (map setLiteral)) := by
  cases fname with
  | string fname =>
    unfold envFile isUploaded fileVariables
    dsimp only
    cases upload files fname with
    | missing => exact checks_failWithHint none _ _ _ _
    | inherited => exact fun _ _ runs => by contradiction
    | content text =>
      have turns := Checks.collect (fun _ line _ => envFileLine_checks path fname line) 0
        (l := lines text) (f := fun _ line => envFileLine path fname line)
      rw [all_eq_true.mpr (fun _ _ => rfl)] at turns
      refine Checks.map turns ?_
      rintro env ⟨os, turns, rfl⟩
      rw [collected_eq turns, filterMap_setLiteral]
      rfl
  | _ => exact Checks.pure rfl

theorem flatten_setLiteral (g : A → Option (List (String × String))) (l : List A) :
    (l.filterMap (fun a => (g a).map (map setLiteral))).flatten = ((l.filterMap g).flatten).map setLiteral := by
  rw [map_flatten, map_filterMap]

theorem parseEnvFiles_checks (raw : Value) (files : Option (Record String)) (path : String) :
    Checks isError (parseEnvFiles raw files path) (envFilesFaultless (some raw) files)
      (fun env => env = (filesVariables (some raw) files).map setLiteral) := by
  have turns (l : List Value) := Checks.collect (fun _ fname _ => envFile_checks files path fname) 0
    (l := l) (f := fun _ fname => envFile files path fname)
  cases raw with
  | string fname =>
    have one := turns [.string fname]
    rw [all_cons, all_nil, Bool.and_true] at one
    refine Checks.map one ?_
    rintro env ⟨os, turns, rfl⟩
    rw [collected_eq turns, flatten_setLiteral]
    rfl
  | array fnames =>
    refine Checks.map (turns fnames) ?_
    rintro env ⟨os, turns, rfl⟩
    rw [collected_eq turns, flatten_setLiteral]
    rfl
  | _ => exact checks_fail [] _ _ _

/-- The variables of a service: those of the files give way to those set inline. -/
def declaredVariables (environment envFile : Option Value) (files : Option (Record String)) :
    List (String × String) :=
  let inline := inlineVariables environment
  inline ++ (filesVariables envFile files).filter (fun v => !(inline.map Prod.fst).contains v.1)

def envFits (environment envFile : Option Value) (files : Option (Record String)) : Bool :=
  let set := declaredVariables environment envFile files
  set.length ≤ 200 && set.all (fun v => envNameRe v.1 && length v.2 ≤ 32 * 1024)

theorem customEnvSchema_literal (v : String × String) :
    customEnvSchema (setLiteral v) = (envNameRe v.1 && decide (length v.2 ≤ 32 * 1024)) := by
  simp [customEnvSchema, setLiteral, literal]

theorem names_setLiteral (vs : List (String × String)) : (vs.map setLiteral).map Env.name = vs.map Prod.fst := by
  rw [map_map]
  rfl

theorem parseEnv_checks (environment envFile : Option Value) (files : Option (Record String)) (path : String) :
    Checks isError (parseEnv environment envFile files path)
      (environmentFaultless environment && envFilesFaultless envFile files) (fun env =>
      (decide (env.length ≤ 200) && env.all customEnvSchema) = envFits environment envFile files) := by
  have read (env : List Env) (same : env = (declaredVariables environment envFile files).map setLiteral) :
      (decide (env.length ≤ 200) && env.all customEnvSchema) = envFits environment envFile files := by
    rw [same, length_map, all_map]
    congr 2
    funext v
    exact customEnvSchema_literal v
  have inline : Checks isError (inlineEnv environment path) (environmentFaultless environment)
      (fun env => env = (inlineVariables environment).map setLiteral) := by
    cases environment with
    | none => exact Checks.pure rfl
    | some raw => exact parseEnvironment_checks raw _
  refine Checks.bind inline ?_
  rintro _ _ rfl
  cases envFile with
  | none => exact Checks.pure (read _ (by simp [declaredVariables, filesVariables]))
  | some raw =>
    refine Checks.map (parseEnvFiles_checks raw files _) ?_
    rintro _ rfl
    refine read _ ?_
    rw [names_setLiteral, declaredVariables, map_append, filter_map]
    rfl

def itemsOf (raw : Option Value) : List Value :=
  match raw with
  | some (.array items) => items
  | _ => []

def listFaultless (faultless : Value → Bool) (raw : Option Value) : Bool :=
  match raw with
  | none => true
  | some (.array items) => items.all faultless
  | some _ => false

theorem parseList_checks {B : Type} {parseEntry : Nat → Value → Parse (Option B)}
    {faultless fits : Value → Bool} {schema : B → Bool} (entries : ∀ i v, Checks isError (parseEntry i v) (faultless v)
      (fun o => ∃ b, o = some b ∧ schema b = fits v)) (raw : Option Value) (path : String) :
    Checks isError (parseList parseEntry raw path) (listFaultless faultless raw)
      (fun out => out.length = (itemsOf raw).length ∧ out.all schema = (itemsOf raw).all fits) := by
  cases raw with
  | none => exact Checks.pure ⟨rfl, rfl⟩
  | some v =>
    cases v with
    | array items =>
      refine Checks.weaken (Checks.collect (fun i v _ => entries i v) 0) ?_
      rintro _ out ⟨os, turns, rfl⟩
      exact collected_some turns
    | _ => exact checks_fail [] _ _ _

def portFaultless (entry : Value) : Bool :=
  match entry with
  | .string entry => (portSpec entry).isSome
  | .object fields => (numberOf (Fields.get fields "target")).isSome
  | _ => false

/- a name of the service's own is checked for all but the hyphens -/
def portNameFits (entry : Fields) : Bool :=
  match textOf (entry.get "name") with
  | some name => !(portNameRe name && includes name "--")
  | none => true

def portFits (entry : Value) : Bool :=
  match entry with
  | .string entry =>
    match portSpec entry with
    | some (ds, _) => intIn 1 65535 (parseInt ds)
    | none => false
  | .object fields =>
    match numberOf (Fields.get fields "target") with
    | some target =>
      intIn 1 65535 target && portProtocols.contains (longFormProtocol fields) && portNameFits fields
    | none => false
  | _ => false

theorem customPortSchema_named {target : Number} {name protocol : String} {named : Bool}
    (valid : intIn 1 65535 target = true → portProtocols.contains protocol = true →
      portNameRe name = true ∧ (!includes name "--") = named) : customPortSchema (publishedPort target name protocol) =
      (intIn 1 65535 target && portProtocols.contains protocol && named) := by
  simp only [customPortSchema, publishedPort]
  cases legal : intIn 1 65535 target with
  | false => rfl
  | true =>
    cases known : portProtocols.contains protocol with
    | false => rw [Bool.and_false]; rfl
    | true =>
      obtain ⟨name, hyphens⟩ := valid legal known
      rw [name, hyphens, Bool.and_true]

theorem longFormName_valid (fields : Fields) {target : Number} {protocol : String} (idx : Nat)
    (legal : intIn 1 65535 target = true) (known : portProtocols.contains protocol = true) :
    portNameRe (longFormName fields target idx protocol) = true ∧
      (!includes (longFormName fields target idx protocol) "--") = portNameFits fields := by
  obtain ⟨name, hyphens⟩ := synthesised_valid legal known idx
  unfold longFormName portNameFits
  cases textOf (fields.get "name") with
  | none => exact ⟨name, by rw [hyphens]; rfl⟩
  | some own =>
    dsimp only
    cases valid : portNameRe own with
    | true => exact ⟨valid, rfl⟩
    | false => exact ⟨name, by rw [if_neg Bool.false_ne_true, hyphens]; rfl⟩

theorem parsePort_checks (path : String) (idx : Nat) (entry : Value) :
    Checks isError (parsePort path idx entry) (portFaultless entry)
      (fun o => ∃ p, o = some p ∧ customPortSchema p = portFits entry) := by
  cases entry with
  | string entry =>
    unfold parsePort portFaultless portFits
    dsimp only
    cases parsed : portSpec entry with
    | none => exact checks_fail none _ _ _
    | some result =>
      obtain ⟨ds, suffix⟩ := result
      have known := portSpec_protocol parsed
      have named : customPortSchema (publishedPort (parseInt ds)
          (synthesisePortName (parseInt ds) idx (toUpperCase (suffix.getD "TCP")))
          (toUpperCase (suffix.getD "TCP"))) =
            (intIn 1 65535 (parseInt ds) && portProtocols.contains (toUpperCase (suffix.getD "TCP")) && true) := by
        refine customPortSchema_named ?_
        intro legal known
        obtain ⟨name, hyphens⟩ := synthesised_valid legal known idx
        exact ⟨name, by rw [hyphens]; rfl⟩
      rw [known, Bool.and_true, Bool.and_true] at named
      exact Checks.pure ⟨_, rfl, named⟩
  | object fields =>
    unfold parsePort portFaultless portFits
    dsimp only
    cases numberOf (Fields.get fields "target") with
    | none => exact checks_fail none _ _ _
    | some target =>
      exact Checks.pure ⟨_, rfl, customPortSchema_named (longFormName_valid fields idx)⟩
  | _ => exact checks_fail none _ _ _

def volumeMountFaultless (entry : Value) : Bool :=
  match entry with
  | .string entry =>
    match split ':' entry with
    | source :: _ :: _ => !(startsWith source "/" || startsWith source ".") && volumeNameRe source
    | _ => false
  | .object fields =>
    match volumeType fields with
    | .ok type =>
      type == "volume" && (textOf (Fields.get fields "source")).any volumeNameRe &&
        (textOf (Fields.get fields "target")).isSome
    | .error _ => true
  | _ => false

def volumeMountFits (entry : Value) : Bool :=
  match entry with
  | .string entry =>
    match split ':' entry with
    | _ :: target :: _ => containerPathSchema target
    | _ => false
  | .object fields => (textOf (Fields.get fields "target")).any containerPathSchema
  | _ => false

theorem shortVolume_checks (path : String) (i : Nat) (entry : String) :
    Checks isError (shortVolume path i entry) (volumeMountFaultless (.string entry)) (fun o =>
      ∃ vm, o = some vm ∧ customVolumeMountSchema vm = volumeMountFits (.string entry)) := by
  unfold shortVolume volumeMountFaultless volumeMountFits
  dsimp only
  cases split ':' entry with
  | nil => exact checks_fail none _ _ _
  | cons source rest =>
    cases rest with
    | nil => exact checks_fail none _ _ _
    | cons target rest =>
      dsimp only
      by_cases bind : startsWith source "/" = true ∨ startsWith source "." = true
      · rw [if_pos bind, Bool.or_eq_true_iff.mpr bind]
        exact checks_failWithHint none _ _ _ _
      rw [if_neg bind]
      rw [← Bool.or_eq_true, Bool.not_eq_true] at bind
      rw [bind, Bool.not_false]
      cases named : volumeNameRe source with
      | true => exact Checks.pure ⟨_, rfl, by simp [customVolumeMountSchema, named]⟩
      | false => exact checks_fail none _ _ _

theorem longVolume_checks (path : String) (i : Nat) (fields : Fields) :
    Checks isError (longVolume path i fields) (volumeMountFaultless (.object fields)) (fun o =>
      ∃ vm, o = some vm ∧ customVolumeMountSchema vm = volumeMountFits (.object fields)) := by
  refine Checks.lifted ?_
  intro type read
  unfold volumeMountFaultless volumeMountFits
  dsimp only
  rw [read]
  dsimp only
  by_cases bind : type = "bind"
  · subst bind
    exact checks_fail none _ _ _
  rw [if_neg bind]
  by_cases volume : type = "volume"
  · subst volume
    cases textOf (fields.get "source") with
    | none => exact checks_fail none _ _ _
    | some source =>
      cases textOf (fields.get "target") with
      | none =>
        rw [Option.isSome_none, Bool.and_false]
        exact checks_fail none _ _ _
      | some target =>
        dsimp only
        rw [Option.any_some]
        cases named : volumeNameRe source with
        | true => exact Checks.pure ⟨_, rfl, by simp [customVolumeMountSchema, named]⟩
        | false => exact checks_fail none _ _ _
  · rw [if_pos volume, beq_eq_false_iff_ne.mpr volume]
    exact checks_fail none _ _ _

theorem parseVolumeMount_checks (path : String) (i : Nat) (entry : Value) :
    Checks isError (parseVolumeMount path i entry) (volumeMountFaultless entry) (fun o =>
      ∃ vm, o = some vm ∧ customVolumeMountSchema vm = volumeMountFits entry) := by
  cases entry with
  | string entry => exact shortVolume_checks path i entry
  | object fields => exact longVolume_checks path i fields
  | _ => exact checks_fail none _ _ _

end HostingPlatform.CustomDeployments
