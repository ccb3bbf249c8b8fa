import HostingPlatform.CustomDeployments.RuntimeRules
import HostingPlatform.CustomDeployments.ComposeService

/-! The same for a whole document: its top-level keys, volumes, inline files and services. -/
namespace HostingPlatform.CustomDeployments

open Option List Js Diagnosis Diagnosed

def volumeFaultless (entry : String × Value) : Bool :=
  volumeNameRe entry.1 && !isTrue ((fieldsOf entry.2).get "external")

def volumesFaultless (raw : Option Value) : Bool :=
  match raw with
  | none => true
  | some (.object fields) => fields.all volumeFaultless
  | some _ => false

def Declared (volumes : Record VolumeDef) : Prop :=
  ∀ entry ∈ volumes.entries, volumeNameRe entry.1 = true ∧ customVolumeDefSchema entry.2 = true

variable {name : String} {files : Option (Record String)} {services : Fields}
  {entries : List (String × Service)} {spec : Spec} {load : YamlLoad} {input : ComposeParseInput}
  {issues : List Issue} {ctx : ValidatorContext} {db : Database} {platform : Platform} {role : CallerRole}
  {settings : SystemSettings}

theorem declared_set {volumes : Record VolumeDef} (declared : Declared volumes)
    (valid : volumeNameRe name = true) : Declared (volumes.set name ⟨none⟩) := by
  intro entry mem
  rcases Record.mem_set mem with old | rfl
  · exact declared entry old
  · exact ⟨valid, rfl⟩

theorem volumeEntry_checks (entry : String × Value) : Checks isError (volumeEntry entry) (volumeFaultless entry)
      (fun o => ∃ b, o = some b ∧ b = (entry.1, VolumeDef.mk none) ∧ volumeNameRe entry.1 = true) := by
  unfold volumeEntry volumeFaultless
  dsimp only
  cases valid : volumeNameRe entry.1 with
  | false => exact checks_fail none _ _ _
  | true =>
    cases isTrue ((fieldsOf entry.2).get "external") with
    | true => exact checks_failWithHint none _ _ _ _
    | false => exact Checks.pure ⟨_, rfl, rfl, rfl⟩

theorem parseVolumes_checks (raw : Option Value) :
    Checks isError (parseVolumes raw) (volumesFaultless raw) Declared := by
  cases raw with
  | none => exact Checks.pure nofun
  | some v =>
    cases v with
    | object fields =>
      refine Checks.map (Checks.collect (fun _ entry _ => volumeEntry_checks entry) 0) ?_
      rintro volumes ⟨os, turns, rfl⟩ entry mem
      rcases Record.mem_foldl_set mem with none | given
      · contradiction
      · obtain ⟨field, _, rfl, valid⟩ := forall₂_mem (collected turns) given
        exact ⟨valid, rfl⟩
    | _ => exact checks_fail _ _ _ _

theorem autoDeclareMounts_checks (svcName : String) (volumes : Record VolumeDef) (mounts : List VolumeMount) :
    Checks isError (autoDeclareMounts svcName volumes mounts) true (fun out =>
      Declared volumes → (∀ vm ∈ mounts, volumeNameRe vm.name = true) → Declared out) := by
  induction mounts generalizing volumes with
  | nil => exact Checks.pure (fun declared _ => declared)
  | cons vm rest ih =>
    unfold autoDeclareMounts
    split
    · refine Checks.weaken (ih volumes) ?_
      intro _ out declares declared names
      exact declares declared (fun vm mem => names vm (mem_cons_of_mem _ mem))
    · refine Checks.warns rfl (Checks.weaken (ih (volumes.set vm.name ⟨none⟩)) ?_)
      intro _ out declares declared names
      refine declares (declared_set declared (names vm mem_cons_self)) ?_
      exact fun vm mem => names vm (mem_cons_of_mem _ mem)

theorem autoDeclare_checks (volumes : Record VolumeDef) (services : List (String × Service)) :
    Checks isError (autoDeclare volumes services) true (fun out => Declared volumes →
      (∀ entry ∈ services, ∀ vm ∈ entry.2.volumeMounts, volumeNameRe vm.name = true) → Declared out) := by
  induction services generalizing volumes with
  | nil => exact Checks.pure (fun declared _ => declared)
  | cons entry rest ih =>
    obtain ⟨svcName, svc⟩ := entry
    refine Checks.sure (autoDeclareMounts_checks svcName volumes svc.volumeMounts) ?_
    intro next declares
    refine Checks.weaken (ih next) ?_
    intro _ out later declared names
    refine later (declares declared (names (svcName, svc) mem_cons_self)) ?_
    exact fun entry mem => names entry (mem_cons_of_mem _ mem)

def contentFaultless (content : String) : Bool := byteLength content ≤ maxInlineConfigBytes

def bodyFaultless (files : Option (Record String)) (def_ : Fields) : Bool :=
  match textOf (def_.get "content"), textOf (def_.get "file") with
  | some content, _ => contentFaultless content
  | none, some file =>
    match upload files file with
    | .content content => contentFaultless content
    | .inherited => true
    | .missing => false
  | none, none => false

def inlineFileFaultless (files : Option (Record String)) (entry : String × Value) : Bool :=
  customNameRe entry.1 && (!isTrue ((fieldsOf entry.2).get "external") &&
    bodyFaultless files (fieldsOf entry.2))

def inlineFilesFaultless (files : Option (Record String)) (raw : Option Value) : Bool :=
  match raw with
  | none => true
  | some (.object fields) => fields.all (inlineFileFaultless files)
  | some _ => false

def fieldCount (raw : Option Value) : Nat :=
  match raw with
  | some (.object fields) => fields.length
  | _ => 0

section inline

variable {inlines : InlineFiles} {files : Option (Record String)}

/-- A file of the name, which its schema accepts. -/
def IsFile (o : Option InlineFile) : Prop := ∃ f, o = some f ∧ inlineFileSchema f = true

section

variable (mode : inlines.defaultMode ≤ 0o777)
include mode

theorem inlineContent_checks {name content : String} (valid : customNameRe name = true) :
    Checks isError (inlineContent inlines name content) (contentFaultless content) IsFile := by
  unfold inlineContent contentFaultless
  by_cases large : maxInlineConfigBytes < byteLength content
  · rw [if_pos large, decide_eq_false (Nat.not_le.mpr large)]
    exact checks_fail none _ _ _
  have small := Nat.not_lt.mp large
  rw [if_neg large, decide_eq_true small]
  have short : length content ≤ 1024 * 1024 := (length_le_byteLength content).trans small
  exact Checks.pure ⟨_, rfl, by simp [inlineFileSchema, valid, short, mode]⟩

theorem inlineBody_checks {name : String} (def_ : Fields) (valid : customNameRe name = true) :
    Checks isError (inlineBody inlines files name def_) (bodyFaultless files def_) IsFile := by
  unfold inlineBody bodyFaultless
  cases textOf (def_.get "content") with
  | some content => exact inlineContent_checks mode valid
  | none =>
    cases textOf (def_.get "file") with
    | none => exact checks_fail none _ _ _
    | some file =>
      dsimp only
      cases upload files file with
      | content content => exact inlineContent_checks mode valid
      | inherited => exact fun _ _ runs => by contradiction
      | missing => exact checks_fail none _ _ _

theorem inlineFile_checks (entry : String × Value) :
    Checks isError (inlineFile inlines files entry) (inlineFileFaultless files entry) IsFile := by
  unfold inlineFile inlineFileFaultless
  dsimp only
  cases valid : customNameRe entry.1 with
  | false => exact checks_fail none _ _ _
  | true =>
    cases isTrue ((fieldsOf entry.2).get "external") with
    | true => exact checks_fail none _ _ _
    | false => exact inlineBody_checks mode (fieldsOf entry.2) valid

theorem extractInlineFiles_checks (raw : Option Value) :
    Checks isError (extractInlineFiles inlines raw files) (inlineFilesFaultless files raw)
      (fun out => out.length = fieldCount raw ∧ out.all inlineFileSchema = true) := by
  cases raw with
  | none => exact Checks.pure ⟨rfl, rfl⟩
  | some v =>
    cases v with
    | object fields =>
      refine Checks.weaken (Checks.collect (fun _ entry _ => inlineFile_checks mode entry) 0) ?_
      rintro _ out ⟨os, turns, rfl⟩
      obtain ⟨length, all⟩ := collected_some (q := fun _ => true) turns
      exact ⟨length, all.trans (all_eq_true.mpr (fun _ _ => rfl))⟩
    | _ => exact checks_fail [] _ _ _

end

end inline

def namedServiceFaultless (files : Option (Record String)) (entry : String × Value) : Bool :=
  customNameRe entry.1 && serviceFaultless files entry.2

def servicesFit (files : Option (Record String)) (services : Fields) : Bool :=
  services.all (fun entry => serviceFits files entry.2)

def IsService (files : Option (Record String)) (entry : String × Value) (out : String × Service) :
    Prop :=
  out.1 = entry.1 ∧ customNameRe entry.1 = true ∧
    customServiceSchema out.2 = (serviceFits files entry.2 && out.2.dependsOn.all customNameRe)

theorem serviceEntry_checks (files : Option (Record String)) (entry : String × Value) :
    Checks isError (serviceEntry files entry) (namedServiceFaultless files entry)
      (fun o => ∃ out, o = some out ∧ IsService files entry out) := by
  unfold serviceEntry namedServiceFaultless
  dsimp only
  cases valid : customNameRe entry.1 with
  | false => exact checks_fail none _ _ _
  | true =>
    refine Checks.map (parseService_checks entry.1 entry.2 files) ?_
    rintro _ ⟨svc, rfl, schema⟩
    exact ⟨_, rfl, rfl, valid, schema⟩

section

variable (related : List.Forall₂ (IsService files) services entries)
include related

theorem services_keys : entries.map Prod.fst = Fields.keys services := by
  induction related with
  | nil => rfl
  | cons first _ ih =>
    rw [map_cons, ih, first.1]
    rfl

theorem services_named (mem : name ∈ entries.map Prod.fst) : customNameRe name = true := by
  obtain ⟨out, memOut, rfl⟩ := mem_map.mp mem
  obtain ⟨entry, _, named, valid, _⟩ := forall₂_mem related memOut
  rw [named]
  exact valid

theorem services_schema (dependsOn : ∀ entry ∈ entries, ∀ dep ∈ entry.2.dependsOn, customNameRe dep = true) :
    entries.all (fun entry => customNameRe entry.1 && customServiceSchema entry.2) =
      servicesFit files services := by
  induction related with
  | nil => rfl
  | @cons entry out _ _ first _ ih =>
    obtain ⟨named, valid, schema⟩ := first
    have deps : out.2.dependsOn.all customNameRe = true := all_eq_true.mpr (dependsOn out mem_cons_self)
    rw [all_cons, ih (fun entry mem => dependsOn entry (mem_cons_of_mem _ mem)), named,
      valid, schema, deps, Bool.and_true]
    rfl

end

def stackFaultless (doc services : Fields) (files : Option (Record String)) : Bool :=
  volumesFaultless (doc.get "volumes") && (inlineFilesFaultless files (doc.get "configs") &&
    (inlineFilesFaultless files (doc.get "secrets") && services.all (namedServiceFaultless files)))

/-- The configs and secrets, which the parser does not count, and the services. -/
def stackFits (doc services : Fields) (files : Option (Record String)) : Bool :=
  servicesFit files services && decide (fieldCount (doc.get "configs") ≤ 20) &&
    decide (fieldCount (doc.get "secrets") ≤ 20)

/-- A spec that, once the validator accepts it, has what its schema asks for if the stack fits. -/
def FitsWhenAccepted (fits : Bool) (o : Option Spec) : Prop :=
  ∃ spec, o = some spec ∧
    ∀ ctx, Accepted spec ctx → customDeploymentSpecSchema spec = fits

theorem mounts_named {svc : Service} (schema : customServiceSchema svc = true) :
    ∀ vm ∈ svc.volumeMounts, volumeNameRe vm.name = true := by
  intro vm mem
  have mounts : svc.volumeMounts.all customVolumeMountSchema = true := by
    unfold customServiceSchema at schema
    simp only [Bool.and_eq_true] at schema
    tauto
  exact (Bool.and_eq_true_iff.mp (all_eq_true.mp mounts vm mem)).1

theorem schema_of_parts {fits : Bool} (version : spec.specVersion = customSpecVersion)
    (services : spec.services.entries.all
      (fun entry => customNameRe entry.1 && customServiceSchema entry.2) = fits)
    (some : 1 ≤ spec.services.keys.length) (few : spec.services.keys.length ≤ 10)
    (volumes : (∀ entry ∈ spec.services.entries, ∀ vm ∈ entry.2.volumeMounts,
      volumeNameRe vm.name = true) → Declared spec.volumes) (configMaps : spec.configMaps.all inlineFileSchema = true)
    (secrets : spec.secrets.all inlineFileSchema = true) (credential : spec.pullCredentialId = none) :
    customDeploymentSpecSchema spec = (fits && decide (spec.configMaps.length ≤ 20) &&
      decide (spec.secrets.length ≤ 20)) := by
  subst services
  unfold customDeploymentSpecSchema
  rw [version, decide_eq_true some, decide_eq_true few, configMaps, secrets, credential]
  cases fit : spec.services.entries.all (fun entry => customNameRe entry.1 && customServiceSchema entry.2) with
  | false => rfl
  | true =>
    have declared : Declared spec.volumes := by
      refine volumes (fun entry mem => mounts_named ?_)
      exact (Bool.and_eq_true_iff.mp (all_eq_true.mp fit entry mem)).2
    have all : spec.volumes.entries.all
        (fun entry => volumeNameRe entry.1 && customVolumeDefSchema entry.2) = true :=
      all_eq_true.mpr (fun entry mem => Bool.and_eq_true_iff.mpr (declared entry mem))
    rw [all]
    simp

theorem parseStack_checks (doc services : Fields) (files : Option (Record String))
    (distinct : (Fields.keys services).Nodup) (some : services.length ≠ 0) (few : services.length ≤ maxServices) :
    Checks isError (parseStack doc services files) (stackFaultless doc services files)
      (FitsWhenAccepted (stackFits doc services files)) := by
  refine Checks.bind (parseVolumes_checks _) ?_
  intro _ volumes declared
  refine Checks.bind (extractInlineFiles_checks (by decide) _) ?_
  rintro _ configMaps ⟨configsLength, configsAll⟩
  refine Checks.bind (extractInlineFiles_checks (by decide) _) ?_
  rintro _ secrets ⟨secretsLength, secretsAll⟩
  rw [← Bool.and_true (services.all _)]
  refine Checks.bind (Checks.collect (fun _ entry _ => serviceEntry_checks files entry) 0) ?_
  rintro _ _ ⟨os, turns, rfl⟩
  have related := collected turns
  generalize os.flatMap toList = entries at related
  have named := services_keys related
  have parsed : (entries.foldl assign .empty).entries = entries :=
    Record.entries_foldl_set (by rw [← named] at distinct; exact distinct)
  have keys : (entries.foldl assign .empty).keys = Fields.keys services := by
    rw [Record.keys, parsed, named]
  have count : (entries.foldl assign .empty).keys.length = services.length := by
    rw [keys, Fields.keys, length_map]
  have more : entries ≠ [] := by
    rintro rfl
    exact some (count.symm.trans rfl)
  dsimp only
  rw [parsed, if_neg more]
  refine Checks.map (autoDeclare_checks volumes entries) ?_
  intro out declares
  refine ⟨_, rfl, ?_⟩
  intro ctx accepted
  have dependsOn : ∀ entry ∈ entries, ∀ dep ∈ entry.2.dependsOn, customNameRe dep = true := by
    intro entry mem dep memDep
    have declared := ((accepted.services entry (parsed.symm ▸ mem)).dependsOn dep memDep).1
    exact services_named related (by rwa [keys, ← named] at declared)
  have schemas : (entries.foldl assign .empty).entries.all
      (fun entry => customNameRe entry.1 && customServiceSchema entry.2) =
        servicesFit files services := by rw [parsed, services_schema related dependsOn]
  refine (schema_of_parts rfl schemas ?_ ?_ ?_ configsAll secretsAll rfl).trans ?_
  · exact (Nat.one_le_iff_ne_zero.mpr some).trans_eq count.symm
  · exact count.trans_le few
  · exact fun names => declares declared (parsed ▸ names)
  · rw [configsLength, secretsLength, stackFits]

/- the services of a document, when they are a mapping -/
def servicesOf (doc : Fields) : Option Fields :=
  match doc.get "services" with
  | some (.object services) => some services
  | _ => none

def servicesFaultless (doc : Fields) (files : Option (Record String)) : Bool :=
  (servicesOf doc).any (fun services => services.length != 0 &&
    (decide (services.length ≤ maxServices) && stackFaultless doc services files))

def servicesFits (doc : Fields) (files : Option (Record String)) : Bool :=
  (servicesOf doc).any (fun services => stackFits doc services files)

theorem parseServices_checks (doc : Fields) (files : Option (Record String))
    (keyed : Value.keyed (.object doc) = true) : Checks isError (parseServices doc files) (servicesFaultless doc files)
      (FitsWhenAccepted (servicesFits doc files)) := by
  unfold parseServices servicesFaultless servicesFits servicesOf
  cases found : doc.get "services" with
  | none => exact checks_fail none _ _ _
  | some v =>
    cases v with
    | object services =>
      dsimp only
      rw [any_some]
      by_cases empty : services.length = 0
      · rw [empty]
        exact checks_fail none _ _ _
      rw [if_neg empty, bne_iff_ne.mpr empty]
      by_cases many : maxServices < services.length
      · rw [if_pos many, decide_eq_false (Nat.not_le.mpr many)]
        exact checks_fail none _ _ _
      have few := Nat.not_lt.mp many
      rw [if_neg many, decide_eq_true few]
      exact parseStack_checks doc services files (keyed_distinct (keyed_get keyed found)) empty few
    | _ => exact checks_fail none _ _ _

def knownKey (key : String) : Bool := knownTop.contains key || startsWith key "x-"

theorem topLevelKey_checks (key : String) : Checks isError (topLevelKey key) (knownKey key) (fun _ => True) := by
  unfold topLevelKey knownKey
  cases knownTop.contains key || startsWith key "x-" with
  | true => exact Checks.pure trivial
  | false => exact checks_failWithHint none _ _ _ _

theorem warnNetworks_checks (doc : Fields) : Checks isError (warnNetworks doc) true (fun _ => True) := by
  unfold warnNetworks
  split
  · exact checks_warn trivial _ _ _
  · exact Checks.pure trivial

def shallow (doc : Value) : Bool := Value.depth (maxYamlDepth + 1) 0 doc ≤ maxYamlDepth

def documentFaultless (doc : Value) (files : Option (Record String)) : Bool :=
  match doc with
  | .object fields =>
    shallow (.object fields) && ((Fields.keys fields).all knownKey && servicesFaultless fields files)
  | _ => false

def documentFits (doc : Value) (files : Option (Record String)) : Bool :=
  match doc with
  | .object fields => servicesFits fields files
  | _ => false

theorem parseDocument_checks (doc : Value) (files : Option (Record String)) (keyed : doc.keyed = true) :
    Checks isError (parseDocument doc files) (documentFaultless doc files)
      (FitsWhenAccepted (documentFits doc files)) := by
  cases doc with
  | object fields =>
    unfold parseDocument documentFaultless documentFits shallow
    dsimp only
    by_cases deep : maxYamlDepth < Value.depth (maxYamlDepth + 1) 0 (.object fields)
    · rw [if_pos deep, decide_eq_false (Nat.not_le.mpr deep)]
      exact checks_fail none _ _ _
    rw [if_neg deep, decide_eq_true (Nat.not_lt.mp deep), Bool.true_and]
    refine Checks.sure (warnNetworks_checks fields) ?_
    intro _ _
    refine Checks.bind (Checks.collect (fun _ key _ => topLevelKey_checks key) 0) ?_
    intro _ _ _
    exact parseServices_checks fields files keyed
  | _ => exact checks_fail none _ _ _

/-- The document of a request, and whether the parser finds no fault with it. -/
def composeFaultless (load : YamlLoad) (input : ComposeParseInput) : Bool :=
  match load.run input.composeYaml with
  | .ok doc => documentFaultless doc input.envFiles
  | .error _ => false

/- what the schema asks of a document past what its parser asks -/
def composeFits (load : YamlLoad) (input : ComposeParseInput) : Bool :=
  match load.run input.composeYaml with
  | .ok doc => documentFits doc input.envFiles
  | .error _ => false

theorem parse_checks (load : YamlLoad) (input : ComposeParseInput) :
    Checks isError (parse load input) (composeFaultless load input)
      (FitsWhenAccepted (composeFits load input)) := by
  unfold parse composeFaultless composeFits
  cases loaded : load.run input.composeYaml with
  | error message => exact checks_fail none _ _ _
  | ok doc => exact parseDocument_checks doc input.envFiles (load.keyed _ doc loaded)

theorem parseCompose_clean {spec : Option Spec} (parsed : parseCompose load input = .ok ⟨spec, issues⟩) :
    clean isError issues = composeFaultless load input ∧
      (composeFaultless load input = true → FitsWhenAccepted (composeFits load input) spec) := by
  unfold parseCompose at parsed
  split at parsed
  · contradiction
  rename_i spec' issues' runs
  cases parsed
  exact parse_checks load input spec issues runs

/-! The specs that come out of compose documents without an error, against the schema that the
specs of the simple form go through. -/

/-- A spec that neither the parser nor the validator finds an error with satisfies its schema
exactly when its document fits what the parser leaves open. -/
theorem conforms_iff {load : YamlLoad} {input : ComposeParseInput} {ctx : ValidatorContext}
    {spec : Spec} {issues : List Issue} (parsed : parseCompose load input = .ok ⟨some spec, issues⟩)
    (noError : clean isError issues = true) (valid : clean isError (validateCustomSpec spec ctx).issues = true) :
    customDeploymentSpecSchema spec = true ↔ composeFits load input = true := by
  obtain ⟨same, fits⟩ := parseCompose_clean parsed
  obtain ⟨_, yields, schema⟩ := fits (same.symm.trans noError)
  cases yields
  rw [← ok_eq_clean, validateCustomSpec_ok_iff] at valid
  rw [schema ctx valid]

/- the spec of a document that neither the parser nor the validator finds an error with -/
def passed (load : YamlLoad) (input : ComposeParseInput) (ctx : ValidatorContext) : Option Spec :=
  match parseCompose load input with
  | .ok ⟨some spec, issues⟩ =>
    if clean isError issues && clean isError (validateCustomSpec spec ctx).issues then some spec
    else none
  | _ => none

theorem passed_eq (is : passed load input ctx = some spec) :
    ∃ issues, parseCompose load input = .ok ⟨some spec, issues⟩ ∧ clean isError issues = true ∧
      clean isError (validateCustomSpec spec ctx).issues = true := by
  unfold passed at is
  split at is
  · rename_i out issues runs
    split at is
    · rename_i both
      cases is
      exact ⟨issues, runs, Bool.and_eq_true_iff.mp both⟩
    · contradiction
  · contradiction

def tenantContext : ValidatorContext := ⟨.tenantAdmin, true, false, some "shop"⟩

def plainYaml : String := "services:\n  web:\n    image: nginx:1.27.3\n    ports:\n    - '8080:80'\n"

def plainDocument : Value :=
  .object [("services", .object [("web", .object [("image", .string "nginx:1.27.3"),
    ("ports", .array [.string "8080:80"])])])]

theorem plain_conforms : ∃ spec issues, parseCompose
      (.only plainYaml plainDocument (by decide)) ⟨plainYaml, none⟩ = .ok ⟨some spec, issues⟩ ∧
    customDeploymentSpecSchema spec = true := by
  have fit : composeFits (.only plainYaml plainDocument (by decide)) ⟨plainYaml, none⟩ = true := by
    decide +kernel
  have some : (passed (.only plainYaml plainDocument (by decide)) ⟨plainYaml, none⟩
      tenantContext).isSome = true := by decide +kernel
  obtain ⟨spec, is⟩ := isSome_iff_exists.mp some
  obtain ⟨issues, parsed, noError, valid⟩ := passed_eq is
  exact ⟨spec, issues, parsed, (conforms_iff parsed noError valid).mpr fit⟩

def reservedYaml : String :=
  "services:\n  web:\n    image: nginx:1.27.3\n    tmpfs: /proc\n    ports:\n    - '70000'\n"

/- a memory file system over a reserved path, and a port that there is not -/
def reservedDocument : Value :=
  .object [("services", .object [("web", .object [("image", .string "nginx:1.27.3"),
    ("tmpfs", .string "/proc"), ("ports", .array [.string "70000"])])])]

theorem reserved_passes : ¬ ∀ (load : YamlLoad) (input : ComposeParseInput) (ctx : ValidatorContext)
    (spec : Spec) (issues : List Issue), parseCompose load input = .ok ⟨some spec, issues⟩ →
      clean isError issues = true → clean isError (validateCustomSpec spec ctx).issues = true →
        customDeploymentSpecSchema spec = true := by
  intro always
  have broken : (passed (.only reservedYaml reservedDocument (by decide)) ⟨reservedYaml, none⟩
      tenantContext).map customDeploymentSpecSchema = some false := by decide +kernel
  obtain ⟨spec, is, breaks⟩ := map_eq_some_iff.mp broken
  obtain ⟨issues, parsed, noError, valid⟩ := passed_eq is
  have fine := always _ _ _ spec issues parsed noError valid
  exact Bool.false_ne_true (breaks.symm.trans fine)

def parserInput (input : CreateComposeInput) : ComposeParseInput := ⟨input.composeYaml, input.envFiles⟩

def NoErrors (load : YamlLoad) (input : ComposeParseInput) (ctx : ValidatorContext) : Prop :=
  ∃ spec issues, parseCompose load input = .ok ⟨some spec, issues⟩ ∧ clean isError issues = true ∧
    clean isError (validateCustomSpec spec ctx).issues = true

/-- The parser gives a spec, and the validator accepts it. -/
def PassesGate (load : YamlLoad) (input : ComposeParseInput) (ctx : ValidatorContext) : Prop :=
  ∃ spec issues, parseCompose load input = .ok ⟨some spec, issues⟩ ∧ Accepted spec ctx

/-- A row is persisted or changed, or the deployer is called. -/
def Traced (db : Database) (outcome : Outcome) : Prop :=
  outcome.db.deployments ≠ db.deployments ∨ outcome.deployed ≠ []

def CreatesWithoutErrors (platform : Platform) (db : Database) (tenantId id : Nat)
    (input : CreateComposeInput) (role : CallerRole) : Prop :=
  Traced db (createComposeDeployment platform db tenantId id input role) →
    NoErrors platform.load (parserInput input) (composeContext db.settings role input.name)

/-- A preview is fine when its issues have no error among them, and only then. -/
def PreviewsErrors (platform : Platform) (settings : SystemSettings) (input : CreateComposeInput)
    (role : CallerRole) : Prop :=
  ∀ preview, validateComposeSpec platform settings input role = .ok preview →
    preview.ok = clean isError preview.issues

theorem noErrors_iff : NoErrors load input ctx ↔ PassesGate load input ctx ∧ composeFaultless load input = true := by
  constructor
  · rintro ⟨spec, issues, parsed, noError, valid⟩
    rw [← ok_eq_clean, validateCustomSpec_ok_iff] at valid
    exact ⟨⟨spec, issues, parsed, valid⟩, (parseCompose_clean parsed).1.symm.trans noError⟩
  · rintro ⟨⟨spec, issues, parsed, valid⟩, faultless⟩
    rw [← validateCustomSpec_ok_iff, ok_eq_clean] at valid
    exact ⟨spec, issues, parsed, (parseCompose_clean parsed).1.trans faultless, valid⟩

theorem refused_untraced {failure : Failure} : ¬ Traced db (refused db failure) := by
  rintro (changed | deployed)
  · exact changed rfl
  · exact deployed rfl

theorem traced_passes {tenantId id : Nat} {input : CreateComposeInput}
    (traced : Traced db (createComposeDeployment platform db tenantId id input role)) :
    db.settings.customDeploymentsAllowCompose = true ∧
      PassesGate platform.load (parserInput input) (composeContext db.settings role input.name) := by
  unfold createComposeDeployment at traced
  split at traced
  · exact absurd traced refused_untraced
  split at traced
  · exact absurd traced refused_untraced
  rename_i allowed
  split at traced
  · exact absurd traced refused_untraced
  rename_i name named
  have given : input.name = some name := (filter_eq_some_iff.mp named).1
  split at traced
  · exact absurd traced refused_untraced
  split at traced
  · exact absurd traced refused_untraced
  rename_i parsed runs
  obtain ⟨yielded, issues⟩ := parsed
  cases yielded with
  | none => exact absurd traced refused_untraced
  | some spec =>
    dsimp only at traced
    split at traced
    · exact absurd traced refused_untraced
    rename_i valid
    rw [given]
    exact ⟨not_not.mp allowed, spec, issues, runs, (validateCustomSpec_ok_iff spec _).mp (not_not.mp valid)⟩

theorem validateComposeSpec_errors {input : CreateComposeInput} {role : CallerRole}
    (allowed : settings.customDeploymentsAllowCompose = true)
    (parsed : parseCompose platform.load (parserInput input) = .ok ⟨some spec, issues⟩) :
    let semantic := validateCustomSpec spec (composeContext settings role input.name)
    validateComposeSpec platform settings input role =
      .ok ⟨semantic.ok, issues ++ semantic.issues, some spec⟩ := by
  unfold validateComposeSpec
  rw [if_neg (not_not.mpr allowed)]
  unfold parserInput at parsed
  rw [parsed]

theorem previews_iff {input : CreateComposeInput} : PreviewsErrors platform settings input role ↔
      (settings.customDeploymentsAllowCompose = true →
        PassesGate platform.load (parserInput input) (composeContext settings role input.name) →
          composeFaultless platform.load (parserInput input) = true) := by
  constructor
  · rintro honest allowed ⟨spec, issues, parsed, valid⟩
    have same := honest _ (validateComposeSpec_errors allowed parsed)
    rw [← validateCustomSpec_ok_iff] at valid
    rw [clean_append, ← ok_eq_clean, valid, Bool.and_true, (parseCompose_clean parsed).1] at same
    exact same.symm
  intro faultless preview shown
  unfold validateComposeSpec at shown
  split at shown
  · contradiction
  rename_i allowed
  split at shown
  · contradiction
  rename_i parsed runs
  obtain ⟨yielded, issues⟩ := parsed
  cases yielded with
  | none =>
    -- a document that yields no spec has a fault
    cases shown
    cases errors : clean isError issues with
    | false => rfl
    | true =>
      obtain ⟨same, fits⟩ := parseCompose_clean runs
      obtain ⟨_, never, _⟩ := fits (same.symm.trans errors)
      contradiction
  | some spec =>
    cases shown
    rw [clean_append, ← ok_eq_clean, (parseCompose_clean runs).1]
    cases valid : (validateCustomSpec spec (composeContext settings role input.name)).ok with
    | false => rw [Bool.and_false]
    | true =>
      rw [validateCustomSpec_ok_iff] at valid
      rw [Bool.and_true]
      exact (faultless (not_not.mp allowed) ⟨spec, issues, runs, valid⟩).symm

/-- Where compose deployments are allowed, nothing is created with errors and the preview tells
of them exactly when a document that passes the gate has no fault. -/
theorem gate_iff (platform : Platform) (db : Database) (tenantId id : Nat)
    (input : CreateComposeInput) (role : CallerRole) : (CreatesWithoutErrors platform db tenantId id input role ∧
      PreviewsErrors platform db.settings input role) ↔
      (db.settings.customDeploymentsAllowCompose = true →
        PassesGate platform.load (parserInput input) (composeContext db.settings role input.name) →
          composeFaultless platform.load (parserInput input) = true) := by
  rw [previews_iff]
  constructor
  · exact And.right
  intro faultless
  refine ⟨?_, faultless⟩
  intro traced
  obtain ⟨allowed, passes⟩ := traced_passes traced
  exact noErrors_iff.mpr ⟨passes, faultless allowed passes⟩

def privilegedDocument : Value :=
  .object [("services", .object [("web", .object [("image", .string "nginx:1.27.3"),
    ("privileged", .bool true)])])]

def privilegedYaml : String :=
  "services:\n  web:\n    image: nginx:1.27.3\n    privileged: true\n"

def privilegedLoad : YamlLoad := .only privilegedYaml privilegedDocument (by decide)

def privilegedInput : CreateComposeInput := ⟨some "shop", privilegedYaml, none, none⟩

def readyPlatform : Platform := ⟨privilegedLoad, fun _ => .ok false, fun _ => .ok ()⟩

def readyDatabase : Database where
  settings := ⟨true, true, true⟩
  tenants := ⟨[⟨1, "tenant-1", none, "standard"⟩], by decide⟩
  deployments := .empty

/-- The parser refuses the privileged service, and it is deployed. -/
theorem privileged_deployed : ¬ (CreatesWithoutErrors readyPlatform readyDatabase 1 7 privilegedInput .tenantAdmin ∧
      PreviewsErrors readyPlatform readyDatabase.settings privilegedInput .tenantAdmin) := by
  rintro ⟨creates, _⟩
  have deployed : (createComposeDeployment readyPlatform readyDatabase 1 7 privilegedInput
      .tenantAdmin).deployed.length = 1 := by decide +kernel
  have traced : Traced readyDatabase
      (createComposeDeployment readyPlatform readyDatabase 1 7 privilegedInput .tenantAdmin) := by
    refine .inr ?_
    intro none
    rw [none] at deployed
    contradiction
  have fault : composeFaultless privilegedLoad (parserInput privilegedInput) = false := by
    decide +kernel
  have faultless := (noErrors_iff.mp (creates traced)).2
  exact Bool.false_ne_true (fault.symm.trans faultless)

end HostingPlatform.CustomDeployments
