import HostingPlatform.CustomDeployments.FieldRules
import HostingPlatform.CustomDeployments.ComposeParser

/-! The same for the fields of a service that say how it runs: its health check, its restarts,
its user, its memory file systems and how it stops. -/
namespace HostingPlatform.CustomDeployments

open Option Js Diagnosis Diagnosed

variable {n : Number} {test : Value} {command : List String} {rest : List Value} {image : String}

theorem parseDuration_whole {v : Value} (parsed : parseDurationSeconds v = some n) : n.isWhole = true := by
  unfold parseDurationSeconds at parsed
  split at parsed
  · cases parsed
    exact Number.floor_whole _
  · split at parsed
    · cases parsed
    · obtain ⟨seconds, _, rfl⟩ := map_eq_some_iff.mp parsed
      exact Number.floor_whole _
  · cases parsed

def durationFaultless (least : Int) (raw : Option Value) : Bool :=
  match raw with
  | none => true
  | some v => (parseDurationSeconds v).any (fun n => n.isFinite && !n.lt (.finite least))

def durationFits (most : Int) (raw : Option Value) : Bool :=
  match raw with
  | none => true
  | some v => (parseDurationSeconds v).any (fun n => n.le (.finite most))

theorem le_of_not_lt {x : Number} {q : ℚ} (finite : x.isFinite = true)
    (notLess : x.lt (.finite q) = false) : Number.le (.finite q) x = true := by
  cases x with
  | finite p => simpa [Number.lt, Number.le] using notLess
  | nan | infinity n => contradiction

theorem resolveDuration_checks {low high : Int} {default_ : Number}
    (fits : intIn low high default_ = true) (raw : Option Value) (path message : String) :
    Checks isError (resolveDuration raw (.finite low) default_ path message) (durationFaultless low raw)
      (fun o => ∃ n, o = some n ∧ intIn low high n = durationFits high raw) := by
  cases raw with
  | none => exact Checks.pure ⟨default_, rfl, fits⟩
  | some v =>
    unfold resolveDuration durationFaultless durationFits
    dsimp only
    cases parsed : parseDurationSeconds v with
    | none => exact checks_fail none _ _ _
    | some n =>
      dsimp only
      rw [any_some, any_some]
      by_cases good : n.isFinite = true ∧ ¬ n.lt (.finite low) = true
      · obtain ⟨finite, notLess⟩ := good
        rw [Bool.not_eq_true] at notLess
        rw [finite, notLess]
        refine Checks.pure ⟨n, rfl, ?_⟩
        rw [intIn_whole (parseDuration_whole parsed), le_of_not_lt finite notLess, Bool.true_and]
      rw [if_neg good]
      have bad : (n.isFinite && !n.lt (.finite low)) = false := by
        rw [Bool.and_eq_false_iff, Bool.not_eq_false']
        rwa [Classical.not_and_iff_not_or_not, not_not, Bool.not_eq_true] at good
      rw [bad]
      exact checks_fail none _ _ _

def testProbes (test : Value) : Bool :=
  match test with
  | .array (head :: _) => coercesTo (fun kind => kind == "CMD" || kind == "CMD-SHELL") head
  | .string line => line != "NONE"
  | _ => false

def testFaultless (test : Value) : Bool :=
  match test with
  | .array (head :: rest) =>
    match head.coerce with
    | .ok kind => kind == "CMD" && !rest.isEmpty || kind == "CMD-SHELL" || kind == "NONE"
    | .error _ => true
  | .string _ => true
  | _ => false

def testFits (test : Value) : Bool :=
  match test with
  | .array (head :: rest) =>
    if coercesTo (· == "CMD") head then
      rest.length ≤ 64 && rest.all (coercesTo (fun arg => length arg ≤ 4096))
    else
      match shellLine rest with
      | .ok line => length line ≤ 4096
      | .error _ => false
  | .string line => length line ≤ 4096
  | _ => true

/-- A probe where the test asks for one, and then of the command's size. -/
def TestGives (test : Value) (o : Option (List String)) : Prop :=
  o.isSome = testProbes test ∧
    ∀ command, o = some command → probeSchema (.exec command) = testFits test

theorem shell_fits (line : String) : probeSchema (.exec (shell line)) = decide (length line ≤ 4096) := by
  have fixed : length "/bin/sh" ≤ 4096 ∧ length "-c" ≤ 4096 := by decide
  simp [probeSchema, argvSchema, shell, fixed]

theorem testGives_none (no : testProbes test = false) : TestGives test none :=
  ⟨no.symm, nofun⟩

theorem testGives_some (yes : testProbes test = true) (fits : probeSchema (.exec command) = testFits test) :
    TestGives test (some command) := by
  refine ⟨yes.symm, ?_⟩
  intro given same
  cases same
  exact fits

theorem cmd_fits (coerced : coerceAll rest = .ok command) (more : command ≠ []) : probeSchema (.exec command) =
      (decide (rest.length ≤ 64) && rest.all (coercesTo (fun arg => length arg ≤ 4096))) := by
  obtain ⟨length, all⟩ := coerceAll_all coerced (fun arg => length arg ≤ 4096)
  have positive : decide (1 ≤ command.length) = true := decide_eq_true (List.length_pos_iff.mpr more)
  rw [probeSchema, positive, Bool.true_and, argvSchema, length, all]

theorem coerceAll_nil (coerced : coerceAll rest = .ok command) : command = [] ↔ rest = [] := by
  have length := (coerceAll_all coerced (fun _ => true)).1
  rw [← List.length_eq_zero_iff, ← List.length_eq_zero_iff, length]

theorem healthcheckTest_checks (test : Value) (path : String) :
    Checks isError (healthcheckTest test path) (testFaultless test) (TestGives test) := by
  cases test with
  | array items =>
    cases items with
    | nil => exact checks_fail none _ _ _
    | cons head rest =>
      refine Checks.lifted ?_
      intro kind coerced
      have probes : testProbes (.array (head :: rest)) = (kind == "CMD" || kind == "CMD-SHELL") := by
        simp [testProbes, coercesTo, coerced]
      have faultless : testFaultless (.array (head :: rest)) =
          (kind == "CMD" && !rest.isEmpty || kind == "CMD-SHELL" || kind == "NONE") := by
        simp [testFaultless, coerced]
      have fits : testFits (.array (head :: rest)) =
          if kind = "CMD" then
            (decide (rest.length ≤ 64) && rest.all (coercesTo (fun arg => length arg ≤ 4096)))
          else
            match shellLine rest with
            | .ok line => decide (length line ≤ 4096)
            | .error _ => false := by
        simp [testFits, coercesTo, coerced]
      rw [faultless]
      by_cases cmd : kind = "CMD"
      · subst cmd
        refine Checks.lifted ?_
        intro command all
        by_cases empty : command = []
        · rw [if_pos empty, (coerceAll_nil all).mp empty]
          exact checks_fail none _ _ _
        have more : rest.isEmpty = false := by
          rw [List.isEmpty_eq_false_iff]
          exact fun none => empty ((coerceAll_nil all).mpr none)
        rw [if_neg empty, more]
        exact Checks.pure (testGives_some probes (by rw [fits, if_pos rfl, cmd_fits all empty]))
      · rw [if_neg cmd]
        by_cases shell : kind = "CMD-SHELL"
        · subst shell
          refine Checks.lifted ?_
          intro line read
          refine Checks.pure (testGives_some probes ?_)
          rw [fits, if_neg cmd, read, shell_fits]
        have no : testProbes (.array (head :: rest)) = false := by
          rw [probes, beq_eq_false_iff_ne.mpr cmd, beq_eq_false_iff_ne.mpr shell]
          rfl
        rw [if_neg shell, beq_eq_false_iff_ne.mpr cmd, beq_eq_false_iff_ne.mpr shell]
        by_cases none : kind = "NONE"
        · rw [none]
          exact Checks.pure (testGives_none no)
        · rw [if_neg none, beq_eq_false_iff_ne.mpr none]
          exact checks_fail _ _ _ _
  | string line =>
    unfold healthcheckTest
    dsimp only
    by_cases none : line = "NONE"
    · rw [if_pos none]
      exact Checks.pure (testGives_none (by simp [testProbes, none]))
    · rw [if_neg none]
      exact Checks.pure (testGives_some (by simp [testProbes, none]) (shell_fits line))
  | _ => exact checks_fail none _ _ _

theorem retries_fit (raw : Fields) : intIn 1 20 (healthcheckRetries raw) = true := by
  unfold healthcheckRetries
  cases numberOf (raw.get "retries") with
  | none => decide
  | some n =>
    dsimp only
    split
    · rename_i positive
      obtain ⟨finite, atLeast⟩ := positive
      cases n with
      | finite q =>
        have one : 1 ≤ q.floor := Rat.le_floor_iff.mpr (by simpa [Number.le] using atLeast)
        by_cases many : (20 : ℚ) < q.floor
        · have capped : Number.min 20 (Number.floor (.finite q)) = 20 := by
            simp [Number.min, Number.floor, Number.lt, many]
          rw [capped]
          decide
        have kept : Number.min 20 (Number.floor (.finite q)) = .finite q.floor := by
          simp [Number.min, Number.floor, Number.lt, many]
        rw [kept]
        have least : (1 : ℚ) ≤ q.floor := by exact_mod_cast one
        simpa [intIn, least] using many
      | nan | infinity negative => contradiction
    · decide

/- the durations of a probe as the service gives them -/
def durationsFaultless (raw : Fields) : Bool :=
  durationFaultless 1 (raw.get "interval") &&
    (durationFaultless 1 (raw.get "timeout") && durationFaultless 0 (raw.get "start_period"))

def durationsFit (raw : Fields) : Bool :=
  durationFits 3600 (raw.get "interval") && durationFits 60 (raw.get "timeout") &&
    durationFits 3600 (raw.get "start_period")

theorem healthcheckProbe_checks (raw : Fields) (command : List String) (path : String) :
    Checks isError (healthcheckProbe raw command path) (durationsFaultless raw) (fun o =>
      ∃ h, o = some h ∧ customHealthCheckSchema h = (probeSchema (.exec command) && durationsFit raw)) := by
  have ten : intIn 1 3600 10 = true := by decide
  have one : intIn 1 60 1 = true := by decide
  have zero : intIn 0 3600 0 = true := by decide
  refine Checks.bind (resolveDuration_checks ten _ _ _) ?_
  rintro _ _ ⟨interval, rfl, intervalFits⟩
  refine Checks.bind (resolveDuration_checks one _ _ _) ?_
  rintro _ _ ⟨timeout, rfl, timeoutFits⟩
  rw [← Bool.and_true (durationFaultless 0 _)]
  refine Checks.bind (resolveDuration_checks zero _ _ _) ?_
  rintro _ _ ⟨startPeriod, rfl, startFits⟩
  refine Checks.pure ⟨_, rfl, ?_⟩
  have success : intIn 1 10 1 = true := by decide
  simp only [customHealthCheckSchema, durationsFit, retries_fit, intervalFits, timeoutFits, startFits, success]
  ac_rfl

/- the fields of a check that its service has not disabled, with its test -/
def enabledCheck (raw : Option Value) : Option (Fields × Value) :=
  match raw with
  | some (.object fields) =>
    if isTrue (Fields.get fields "disable") then none
    else (Fields.get fields "test").map (fun test => (fields, test))
  | _ => none

def isMapping (raw : Option Value) : Bool :=
  match raw with
  | none => true
  | some (.object _) => true
  | some _ => false

def healthcheckFaultless (raw : Option Value) : Bool :=
  isMapping raw && (enabledCheck raw).all (fun (fields, test) =>
    testFaultless test && (!testProbes test || durationsFaultless fields))

def healthcheckFits (raw : Option Value) : Bool :=
  (enabledCheck raw).all (fun (fields, test) =>
    !testProbes test || testFits test && durationsFit fields)

theorem parseHealthcheck_checks (raw : Option Value) (path : String) :
    Checks isError (parseHealthcheck raw path) (healthcheckFaultless raw)
      (fun o => o.all customHealthCheckSchema = healthcheckFits raw) := by
  cases raw with
  | none => exact Checks.pure rfl
  | some v =>
    cases v with
    | object fields =>
      unfold parseHealthcheck healthcheckFaultless healthcheckFits isMapping enabledCheck
      dsimp only
      split
      · exact Checks.pure rfl
      cases Fields.get fields "test" with
      | none => exact Checks.pure rfl
      | some test =>
        rw [Bool.true_and, map_some, all_some, all_some]
        refine Checks.bind (healthcheckTest_checks test path) ?_
        rintro _ command ⟨probes, fits⟩
        rw [← probes]
        cases command with
        | none => exact Checks.pure rfl
        | some command =>
          refine Checks.weaken (healthcheckProbe_checks fields command path) ?_
          rintro _ _ ⟨check, rfl, schema⟩
          rw [all_some, schema, fits command rfl]
          rfl
    | _ => exact checks_fail none _ _ _

/- an array, an object or nothing -/
def isCollection (raw : Option Value) : Bool :=
  match raw with
  | none => true
  | some (.array _) => true
  | some (.object _) => true
  | some _ => false

def dependsOnFits (raw : Option Value) : Bool :=
  match raw with
  | some (.array items) => items.length ≤ 10
  | some (.object fields) => fields.length ≤ 10
  | _ => true

theorem parseDependsOn_checks (raw : Option Value) (path : String) :
    Checks isError (parseDependsOn raw path) (isCollection raw)
      (fun names => decide (names.length ≤ 10) = dependsOnFits raw) := by
  cases raw with
  | none => exact Checks.pure rfl
  | some v =>
    cases v with
    | array items =>
      refine Checks.lift ?_
      intro names coerced
      rw [(coerceAll_all coerced (fun _ => true)).1]
      rfl
    | object fields =>
      refine Checks.pure ?_
      rw [Fields.keys, List.length_map]
      rfl
    | _ => exact checks_fail [] _ _ _

def restartFaultless (raw : Option Value) : Bool :=
  match raw with
  | none => true
  | some v =>
    match v.coerce with
    | .ok key => (restartMap key).isSome
    | .error _ => true

/- the lookup of a restart policy finds what every object inherits -/
def restartFits (raw : Option Value) : Bool := raw.all (coercesTo (fun key => !inherited.contains key))

theorem restartMap_fits {key : String} {policy : RestartPolicy} (found : restartMap key = some policy) :
    restartPolicySchema policy = !inherited.contains key := by
  unfold restartMap at found
  split at found
  · rename_i named
    rcases named with rfl | rfl <;> cases found <;> decide
  split at found
  · rename_i named
    subst named
    cases found
    decide
  split at found
  · rename_i named
    subst named
    cases found
    decide
  split at found
  · rename_i lookedUp
    cases found
    rw [List.contains_iff_mem.mpr lookedUp]
    rfl
  · contradiction

theorem parseRestart_checks (raw : Option Value) (path : String) :
    Checks isError (parseRestart raw path) (restartFaultless raw)
      (fun policy => restartPolicySchema policy = restartFits raw) := by
  cases raw with
  | none => exact Checks.pure rfl
  | some v =>
    refine Checks.lifted ?_
    intro key coerced
    unfold restartFaultless restartFits coercesTo
    dsimp only
    rw [all_some, coerced]
    dsimp only
    cases found : restartMap key with
    | none => exact checks_fail _ _ _ _
    | some policy => exact Checks.pure (restartMap_fits found)

def idFaultless (text : String) : Bool := idInRange (parseInt text)

def userFaultless (raw : Option Value) : Bool :=
  match raw with
  | none => true
  | some v =>
    match v.coerce with
    | .ok u => idFaultless ((split ':' u).headD "") && (split ':' u)[1]?.all idFaultless
    | .error _ => true

theorem parseId_checks (text path message : String) : Checks isError (parseId text path message) (idFaultless text)
      (fun o => o.all uidGidSchema = true) := by
  unfold parseId idFaultless
  dsimp only
  cases inRange : idInRange (parseInt text) with
  | true =>
    refine Checks.pure ?_
    rw [all_some, uidGidSchema, intIn_whole (parseInt_whole text)]
    unfold idInRange at inRange
    rw [Bool.and_assoc] at inRange
    exact (Bool.and_eq_true_iff.mp inRange).2
  | false => exact checks_fail none _ _ _

theorem parseUser_checks (raw : Option Value) (path : String) : Checks isError (parseUser raw path) (userFaultless raw)
      (fun user => user.1.all uidGidSchema = true ∧ user.2.all uidGidSchema = true) := by
  cases raw with
  | none => exact Checks.pure ⟨rfl, rfl⟩
  | some v =>
    refine Checks.lifted ?_
    intro u coerced
    unfold userFaultless
    dsimp only
    rw [coerced]
    refine Checks.bind (parseId_checks _ _ _) ?_
    intro _ uid fits
    cases (split ':' u)[1]? with
    | none => exact Checks.pure ⟨fits, rfl⟩
    | some gid => exact Checks.map (parseId_checks gid _ _) (fun gid fits' => ⟨fits, fits'⟩)

def tmpfsEntries (raw : Option Value) : List String :=
  match raw with
  | some (.string entry) => [entry]
  | some (.array entries) => entries.filterMap (fun v => textOf (some v))
  | _ => []

def tmpfsPath (entry : String) : String := (split ':' entry).headD ""

def tmpfsEntrySize (entry : String) : Number := tmpfsSize (split ':' entry)[1]?

def tmpfsShaped (raw : Option Value) : Bool :=
  match raw with
  | none => true
  | some (.string _) => true
  | some (.array _) => true
  | some _ => false

def tmpfsFaultless (raw : Option Value) : Bool :=
  tmpfsShaped raw && (tmpfsEntries raw).all (fun entry => startsWith (tmpfsPath entry) "/")

def tmpfsEntryFits (entry : String) : Bool :=
  mountDirSchema (tmpfsPath entry) && Number.le 1 (tmpfsEntrySize entry)

def tmpfsFits (raw : Option Value) : Bool :=
  (tmpfsEntries raw).length ≤ 10 && (tmpfsEntries raw).all tmpfsEntryFits

def tmpfsOf (entry : String) : Tmpfs := ⟨tmpfsPath entry, .min (tmpfsEntrySize entry) 256⟩

theorem tmpfsSize_whole (option : Option String) : (tmpfsSize option).isWhole = true := by
  unfold tmpfsSize
  split
  · rfl
  split
  · exact Number.mul_whole (z := 1024) (parseInt_whole _)
  · exact parseInt_whole _

theorem capped_fits (whole : n.isWhole = true) : intIn 1 256 (.min n 256) = Number.le 1 n := by
  rw [intIn_whole (Number.min_whole whole rfl)]
  cases n with
  | nan => rfl
  | infinity negative => cases negative <;> decide
  | finite q =>
    by_cases less : q < 256
    · have kept : Number.min (.finite q) 256 = .finite q := by simp [Number.min, Number.lt, less]
      have most : Number.le (.finite q) 256 = true := by simp [Number.le, less.le]
      rw [kept]
      exact (congrArg _ most).trans (Bool.and_true _)
    have capped : Number.min (.finite q) 256 = 256 := by simp [Number.min, Number.lt, less]
    have least : Number.le 1 (.finite q) = true := by
      simp [Number.le]
      linarith
    rw [capped, least]
    decide

theorem customTmpfsSchema_tmpfsOf (entry : String) : customTmpfsSchema (tmpfsOf entry) = tmpfsEntryFits entry := by
  unfold customTmpfsSchema tmpfsOf tmpfsEntryFits tmpfsEntrySize
  rw [capped_fits (tmpfsSize_whole _)]

def tmpfsEntryFaultless (entry : Value) : Bool :=
  (textOf (some entry)).all (fun text => startsWith (tmpfsPath text) "/")

theorem parseTmpfsEntry_checks (path : String) (entry : Value) :
    Checks isError (parseTmpfsEntry path entry) (tmpfsEntryFaultless entry)
      (fun o => o = (textOf (some entry)).map tmpfsOf) := by
  cases entry with
  | string entry =>
    unfold parseTmpfsEntry tmpfsEntryFaultless textOf tmpfsPath
    dsimp only
    rw [all_some]
    cases absolute : startsWith ((split ':' entry).headD "") "/" with
    | true => exact Checks.pure rfl
    | false => exact checks_fail none _ _ _
  | _ => exact Checks.pure rfl

theorem all_filterMap {A B : Type} (g : A → Option B) (p : B → Bool) (l : List A) :
    (l.filterMap g).all p = l.all (fun a => (g a).all p) := by
  induction l with
  | nil => rfl
  | cons a rest ih =>
    rw [List.filterMap_cons, List.all_cons, ← ih]
    cases g a <;> rfl

theorem parseTmpfs_checks (raw : Option Value) (path : String) :
    Checks isError (parseTmpfs raw path) (tmpfsFaultless raw)
      (fun out => (decide (out.length ≤ 10) && out.all customTmpfsSchema) = tmpfsFits raw) := by
  have turns (l : List Value) := Checks.collect (fun _ entry _ => parseTmpfsEntry_checks path entry) 0
    (l := l) (f := fun _ entry => parseTmpfsEntry path entry)
  have read (out : List Tmpfs) (same : out = (tmpfsEntries raw).map tmpfsOf) :
      (decide (out.length ≤ 10) && out.all customTmpfsSchema) = tmpfsFits raw := by
    have each : customTmpfsSchema ∘ tmpfsOf = tmpfsEntryFits := by
      funext entry
      rw [Function.comp_apply, customTmpfsSchema_tmpfsOf]
    rw [same, List.length_map, List.all_map, each]
    rfl
  cases raw with
  | none => exact Checks.pure rfl
  | some v =>
    cases v with
    | string entry =>
      have faultless : tmpfsFaultless (some (.string entry)) = [.string entry].all tmpfsEntryFaultless := by
        simp [tmpfsFaultless, tmpfsShaped, tmpfsEntries, tmpfsEntryFaultless, textOf, List.all_nil]
      rw [faultless]
      refine Checks.weaken (turns [.string entry]) ?_
      rintro _ out ⟨os, turns, rfl⟩
      refine read _ ?_
      rw [collected_eq turns]
      rfl
    | array entries =>
      unfold tmpfsFaultless tmpfsShaped tmpfsEntries
      rw [all_filterMap]
      refine Checks.weaken (turns entries) ?_
      rintro _ out ⟨os, turns, rfl⟩
      refine read _ ?_
      rw [collected_eq turns, tmpfsEntries, List.map_filterMap]
    | _ => exact checks_fail [] _ _ _

def stopGraceFaultless (raw : Option Value) : Bool :=
  raw.all (fun v => (parseDurationSeconds v).any (fun n => !n.lt 0 && !Number.lt 300 n))

/- the bounds refuse nothing that is no number -/
def stopGraceFits (raw : Option Value) : Bool :=
  raw.all (fun v => parseDurationSeconds v != some .nan)

theorem stopGrace_fits (whole : n.isWhole = true) (least : n.lt 0 = false) (most : Number.lt 300 n = false) :
    intIn 0 300 n = (some n != some .nan) := by
  rw [intIn_whole whole]
  cases n with
  | nan => rfl
  | infinity negative => cases negative <;> contradiction
  | finite q =>
    have low : (0 : ℚ) ≤ q := by simpa [Number.lt] using least
    have high : q ≤ 300 := by simpa [Number.lt] using most
    simp [Number.le, low, high]

theorem parseStopGracePeriod_checks (raw : Option Value) (path : String) :
    Checks isError (parseStopGracePeriod raw path) (stopGraceFaultless raw)
      (fun secs => secs.all (intIn 0 300) = stopGraceFits raw) := by
  cases raw with
  | none => exact Checks.pure rfl
  | some v =>
    unfold parseStopGracePeriod stopGraceFaultless stopGraceFits
    dsimp only
    rw [all_some, all_some]
    cases parsed : parseDurationSeconds v with
    | none => exact checks_fail none _ _ _
    | some n =>
      dsimp only
      rw [any_some]
      cases least : n.lt 0 with
      | true => exact checks_fail none _ _ _
      | false =>
        cases most : Number.lt 300 n with
        | true => exact checks_fail none _ _ _
        | false => exact Checks.pure (stopGrace_fits (parseDuration_whole parsed) least most)

theorem parseLabels_checks (raw : Option Value) (path : String) :
    Checks isError (parseLabels raw path) (isCollection raw) (fun _ => True) := by
  cases raw with
  | none => exact Checks.pure trivial
  | some v =>
    cases v with
    | object fields | array items => exact Checks.lifted (fun _ _ => Checks.pure trivial)
    | _ => exact checks_fail none _ _ _

def mountSource (entry : Value) : Option (String × Option String) :=
  match entry with
  | .string sourceName => some (sourceName, none)
  | .object fields =>
    match textOf (Fields.get fields "source") with
    | some sourceName =>
      if sourceName = "" then none else some (sourceName, textOf (Fields.get fields "target"))
    | none => none
  | _ => none

def fileMountFaultless (mounts : FileMounts) (entry : Value) : Bool :=
  (mountSource entry).any (fun (sourceName, target) => (fileTarget mounts sourceName target).isSome)

def fileMountFits (mounts : FileMounts) (entry : Value) : Bool :=
  (mountSource entry).any (fun (sourceName, target) =>
    volumeNameRe sourceName && (fileTarget mounts sourceName target).any containerPathSchema)

theorem fileMount_checks (mounts : FileMounts) (path : String) (i : Nat) (sourceName : String)
    (target : Option String) : Checks isError (fileMount mounts path i sourceName target)
      (fileTarget mounts sourceName target).isSome (fun o =>
      ∃ vm, o = some vm ∧ customVolumeMountSchema vm =
        (volumeNameRe sourceName && (fileTarget mounts sourceName target).any containerPathSchema)) := by
  unfold fileMount
  cases fileTarget mounts sourceName target with
  | none => exact checks_failWithHint none _ _ _ _
  | some targetPath => exact Checks.pure ⟨_, rfl, rfl⟩

theorem parseFileMount_checks (mounts : FileMounts) (path : String) (i : Nat) (entry : Value) :
    Checks isError (parseFileMount mounts path i entry) (fileMountFaultless mounts entry) (fun o =>
      ∃ vm, o = some vm ∧ customVolumeMountSchema vm = fileMountFits mounts entry) := by
  cases entry with
  | string sourceName => exact fileMount_checks mounts path i sourceName none
  | object fields =>
    unfold parseFileMount fileMountFaultless fileMountFits mountSource
    dsimp only
    cases textOf (Fields.get fields "source") with
    | none => exact checks_fail none _ _ _
    | some sourceName =>
      dsimp only
      split
      · exact checks_fail none _ _ _
      · exact fileMount_checks mounts path i sourceName _
  | _ => exact checks_fail none _ _ _

theorem rejectFields_checks (path : String) (raw : Fields) (fields : List String) :
    Checks isError (rejectFields path raw fields) (fields.all (fun field => (raw.get field).isNone))
      (fun _ => True) := by
  induction fields with
  | nil => exact Checks.pure trivial
  | cons field rest ih =>
    rw [rejectFields, List.all_cons]
    cases raw.get field with
    | none => exact ih
    | some v => exact checks_reject path field _

def workingDirFits (raw : Fields) : Bool :=
  ((textOf (raw.get "working_dir")).filter (· ≠ "")).all mountDirSchema

theorem nonEmpty_fits (argv : Option (List String)) : (nonEmpty argv).all argvSchema = argv.all argvSchema := by
  cases argv with
  | none => rfl
  | some args => cases args <;> rfl

/- the fields after the image, in the order in which they are read -/
def containerFaultless (raw : Fields) (files : Option (Record String)) : Bool :=
  argvFaultless (raw.get "entrypoint") && (argvFaultless (raw.get "command") &&
    (environmentFaultless (raw.get "environment") && envFilesFaultless (raw.get "env_file") files &&
    (listFaultless portFaultless (raw.get "ports") &&
    (listFaultless volumeMountFaultless (raw.get "volumes") &&
    (healthcheckFaultless (raw.get "healthcheck") && (isCollection (raw.get "depends_on") &&
    (restartFaultless (raw.get "restart") && (userFaultless (raw.get "user") &&
    (tmpfsFaultless (raw.get "tmpfs") && (stopGraceFaultless (raw.get "stop_grace_period") &&
    (isCollection (raw.get "labels") &&
    (listFaultless (fileMountFaultless configMounts) (raw.get "configs") &&
    listFaultless (fileMountFaultless secretMounts) (raw.get "secrets")))))))))))))

def portsFit (raw : Option Value) : Bool :=
  (itemsOf raw).length ≤ 20 && (itemsOf raw).all portFits

/- the mounts of volumes, configs and secrets count together -/
def mountsFit (raw : Fields) : Bool :=
  let volumes := itemsOf (raw.get "volumes")
  let configs := itemsOf (raw.get "configs")
  let secrets := itemsOf (raw.get "secrets")
  volumes.length + (configs.length + secrets.length) ≤ 50 &&
    (volumes.all volumeMountFits &&
      (configs.all (fileMountFits configMounts) && secrets.all (fileMountFits secretMounts)))

def containerFits (raw : Fields) (files : Option (Record String)) : Bool :=
  argvFits (raw.get "command") && argvFits (raw.get "entrypoint") &&
    envFits (raw.get "environment") (raw.get "env_file") files && portsFit (raw.get "ports") &&
    mountsFit raw && healthcheckFits (raw.get "healthcheck") && restartFits (raw.get "restart") &&
    workingDirFits raw && tmpfsFits (raw.get "tmpfs") && stopGraceFits (raw.get "stop_grace_period") &&
    dependsOnFits (raw.get "depends_on")

theorem defaultResources_fit : customResourcesSchema ⟨"100m", "128Mi", none, none⟩ = true := by
  decide

theorem parseContainer_checks (path : String) (raw : Fields) (files : Option (Record String))
    {capAdd : List String} {sysctls : Record String} {caps allowed : Bool}
    (capsFit : (decide (capAdd.length ≤ 1) && capAdd.all allowedCapAdd.contains) = caps)
    (sysctlsFit : (sysctlsOf sysctls).all sysctlsSchema = allowed) :
    Checks isError (parseContainer path raw files capAdd sysctls image) (containerFaultless raw files)
      (fun svc => customServiceSchema svc =
        (decide (1 ≤ length image) && decide (length image ≤ 500) && caps && allowed &&
          containerFits raw files && svc.dependsOn.all customNameRe)) := by
  refine Checks.bind (parseStringArray_checks _ _) ?_
  intro _ entrypoint entrypointFits
  refine Checks.bind (parseStringArray_checks _ _) ?_
  intro _ command commandFits
  refine Checks.bind (parseEnv_checks _ _ _ _) ?_
  intro _ env envFit
  refine Checks.bind (parseList_checks (parsePort_checks _) _ _) ?_
  rintro _ ports ⟨portsLength, portsAll⟩
  refine Checks.bind (parseList_checks (parseVolumeMount_checks _) _ _) ?_
  rintro _ volumes ⟨volumesLength, volumesAll⟩
  refine Checks.bind (parseHealthcheck_checks _ _) ?_
  intro _ healthCheck healthFits
  refine Checks.bind (parseDependsOn_checks _ _) ?_
  intro _ dependsOn dependsFit
  refine Checks.bind (parseRestart_checks _ _) ?_
  intro _ restart restartFit
  refine Checks.bind (parseUser_checks _ _) ?_
  rintro _ user ⟨uidFits, gidFits⟩
  refine Checks.bind (parseTmpfs_checks _ _) ?_
  intro _ tmpfs tmpfsFit
  refine Checks.bind (parseStopGracePeriod_checks _ _) ?_
  intro _ stopGrace stopFits
  refine Checks.bind (parseLabels_checks _ _) ?_
  intro _ labels _
  refine Checks.bind (parseList_checks (parseFileMount_checks configMounts _) _ _) ?_
  rintro _ configs ⟨configsLength, configsAll⟩
  refine Checks.map (parseList_checks (parseFileMount_checks secretMounts _) _ _) ?_
  rintro secrets ⟨secretsLength, secretsAll⟩
  have portsFits : (decide (ports.length ≤ 20) && ports.all customPortSchema) = portsFit (raw.get "ports") := by
    rw [portsLength, portsAll, portsFit]
  have mountsFits : (decide ((volumes ++ (configs ++ secrets)).length ≤ 50) &&
      (volumes ++ (configs ++ secrets)).all customVolumeMountSchema) = mountsFit raw := by
    rw [List.length_append, List.length_append, List.all_append, List.all_append, volumesLength,
      configsLength, secretsLength, volumesAll, configsAll, secretsAll, mountsFit]
  have allowedFits := sysctlsFit
  unfold sysctlsOf at allowedFits
  simp only [customServiceSchema, containerFits, nonEmpty_fits, commandFits, entrypointFits, envFit,
    portsFits, mountsFits, defaultResources_fit, healthFits, restartFit, uidFits, gidFits, tmpfsFit,
    capsFit, allowedFits, stopFits, dependsFit, workingDirFits]
  ac_rfl

def rejectedAbsent (raw : Fields) : Bool := rejectedFields.all (fun field => (raw.get field).isNone)

def imageOf (raw : Fields) : Option String := (textOf (raw.get "image")).filter (· ≠ "")

def serviceFaultless (files : Option (Record String)) (raw : Value) : Bool :=
  match raw with
  | .object raw =>
    rejectedAbsent raw && (!isTrue (Fields.get raw "privileged") &&
      (capAddFaultless (Fields.get raw "cap_add") && (sysctlsFaultless (Fields.get raw "sysctls") &&
      ((imageOf raw).isSome && containerFaultless raw files))))
  | _ => false

def serviceFits (files : Option (Record String)) (raw : Value) : Bool :=
  match raw with
  | .object raw =>
    (imageOf raw).any (fun image => length image ≤ 500) && capAddFits (Fields.get raw "cap_add") &&
      sysctlsFits (Fields.get raw "sysctls") && containerFits raw files
  | _ => false

theorem image_length {raw : Fields} (given : imageOf raw = some image) : 1 ≤ length image := by
  have some : image ≠ "" := by simpa using (filter_eq_some_iff.mp given).2
  exact length_pos some

theorem rejectPrivileged_checks (path : String) (raw : Fields) :
    Checks isError (rejectPrivileged path raw) (!isTrue (raw.get "privileged")) (fun _ => True) := by
  unfold rejectPrivileged
  cases isTrue (raw.get "privileged") with
  | true => exact Checks.report rfl
  | false => exact Checks.pure trivial

theorem warnInit_checks (path : String) (raw : Fields) : Checks isError (warnInit path raw) true (fun _ => True) := by
  unfold warnInit
  split
  · exact checks_warn trivial _ _ _
  · exact Checks.pure trivial

theorem parseService_checks (name : String) (raw : Value) (files : Option (Record String)) :
    Checks isError (parseService name raw files) (serviceFaultless files raw) (fun o =>
      ∃ svc, o = some svc ∧
        customServiceSchema svc = (serviceFits files raw && svc.dependsOn.all customNameRe)) := by
  cases raw with
  | object raw =>
    refine Checks.bind (rejectFields_checks _ _ _) ?_
    intro _ _ _
    refine Checks.bind (rejectPrivileged_checks _ _) ?_
    intro _ _ _
    refine Checks.sure (warnInit_checks _ _) ?_
    intro _ _
    refine Checks.bind (parseCapAdd_checks _ _) ?_
    intro _ capAdd capsFit
    refine Checks.bind (parseSysctls_checks _ _) ?_
    intro _ sysctls sysctlsFit
    unfold serviceFits
    dsimp only
    have read : (textOf (Fields.get raw "image")).filter (· ≠ "") = imageOf raw := rfl
    rw [read]
    cases given : imageOf raw with
    | none => exact checks_fail none _ _ _
    | some image =>
      refine Checks.map (parseContainer_checks _ raw files capsFit sysctlsFit) ?_
      intro svc schema
      refine ⟨svc, rfl, ?_⟩
      rw [schema, decide_eq_true (image_length given), any_some, Bool.true_and]
  | _ => exact checks_fail none _ _ _

end HostingPlatform.CustomDeployments
