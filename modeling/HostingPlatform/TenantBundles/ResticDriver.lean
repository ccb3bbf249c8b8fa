import HostingPlatform.Js.Value
import HostingPlatform.Transition

/-! The calls of restic: how the events of a child process settle the promise that each of them returns. -/
namespace HostingPlatform.TenantBundles.ResticDriver

open Option Js Transition

inductive Call where
  | runResticBackup | runResticRestore | addResticKey | ensureResticRepoInitialised
  deriving DecidableEq

inductive Phase where
  | running | resolved | rejected | crashed
  deriving DecidableEq

/- the pipeline of the input; an error of EPIPE, or of an abort, is taken for benign -/
inductive Input where
  | flowing | ended | benign
  deriving DecidableEq

/- the code of the first exit or close, which is null after a signal; whether the child's stdin is closed, and whether
a piece of the input has been dropped -/
structure World where
  phase : Phase
  exited : Option (Option Int)
  (stdout stderr : String)
  input : Input
  (closed lost aborted : Bool)
  deriving DecidableEq

def World.begin : World := ⟨.running, none, "", "", .flowing, false, false, false⟩

/- `settle` is the reaction to the last event that the call waits for -/
inductive Action where
  | stdout (text : String) | stderr (text : String)
  | exit (code : Option Int) | error
  | stdinClose | chunk (epipe : Bool) | inputEnd | inputError (benign : Bool)
  | abort | timeout | settle
  deriving DecidableEq

/- the id of the last summary; the totals beside it are not read -/
def parseResticSummary (parse : String → Option Value) (stdout : String) : Option String :=
  ((split '\n' stdout).filter (fun line => trim line ≠ "")).reverse.findSome? fun line =>
    if startsWith line "\x7b" then
      match parse line with
      | some (.object fields) =>
        if textOf (Fields.get fields "message_type") = some "summary" then textOf (Fields.get fields "snapshot_id") else none
      | _ => none
    else none

/- the output of an init that finds a repository -/
def World.exists_ (w : World) : Bool :=
  let combined := toLowerCase (w.stderr ++ w.stdout)
  includes combined "already" && (includes combined "exists" || includes combined "initialized")

/- `code ?? 0` -/
def settled (parse : String → Option Value) (c : Call) (w : World) (code : Option Int) : Phase :=
  match c with
  | .runResticBackup =>
    if w.aborted || code.getD 0 != 0 || (parseResticSummary parse w.stdout).isNone then .rejected else .resolved
  | .runResticRestore | .addResticKey => if code.getD 0 = 0 then .resolved else .rejected
  | .ensureResticRepoInitialised => if code.getD 0 = 0 || w.exists_ then .resolved else .rejected

def step (parse : String → Option Value) (c : Call) (w : World) (a : Action) : Option World :=
  if w.phase != .running then none
  else
    match a with
    | .stdout text => some { w with stdout := w.stdout ++ text }
    | .stderr text => some { w with stderr := w.stderr ++ text }
    | .exit code => some { w with exited := some (w.exited.getD code) }
    -- nothing listens to it
    | .error => some { w with phase := .crashed }
    | .stdinClose => some { w with closed := true }
    | .chunk epipe =>
      if c = .runResticBackup ∧ w.input = .flowing then some { w with lost := w.lost || w.closed || epipe } else none
    | .inputEnd => if c = .runResticBackup ∧ w.input = .flowing then some { w with input := .ended } else none
    | .inputError benign =>
      if c = .runResticBackup ∧ w.input = .flowing then
        some (if benign then { w with input := .benign } else { w with phase := .rejected })
      else none
    | .abort => if c = .runResticBackup then some { w with aborted := true } else none
    | .timeout => if c = .runResticBackup then some { w with phase := .rejected } else none
    | .settle =>
      if c = .runResticBackup ∧ w.input = .flowing then none
      else w.exited.map fun code => { w with phase := settled parse c w code }

/-- The child has exited by itself with a code of success, and of a backup the whole input has been taken and a
snapshot reported. -/
def Truthful (parse : String → Option Value) (c : Call) (w : World) : Prop :=
  w.phase = .resolved →
    (∃ code, w.exited = some (some code) ∧ (code = 0 ∨ c = .ensureResticRepoInitialised ∧ w.exists_ = true)) ∧
      (c = .runResticBackup → w.input = .ended ∧ w.lost = false ∧ (parseResticSummary parse w.stdout).isSome)

/-- Where the child was killed by a signal, a piece of the input dropped or the input broken off, the call is a backup
that fails for another reason. -/
def Honest (parse : String → Option Value) (c : Call) (w : World) (a : Action) : Prop :=
  a = .settle → (w.exited = some none ∨ c = .runResticBackup ∧ (w.lost = true ∨ w.input = .benign)) →
    c = .runResticBackup ∧ ∀ code, w.exited = some code →
      w.aborted = true ∨ code.getD 0 ≠ 0 ∨ parseResticSummary parse w.stdout = none

variable {parse : String → Option Value} {c : Call} {w v : World} {a : Action}

theorem truthful_settled (honest : Honest parse c w .settle) {code : Option Int} (exited : w.exited = some code)
    (drained : ¬ (c = .runResticBackup ∧ w.input = .flowing)) :
    Truthful parse c { w with phase := settled parse c w code } := by
  intro resolved
  change settled parse c w code = .resolved at resolved
  have sound : ¬ (w.exited = some none ∨ c = .runResticBackup ∧ (w.lost = true ∨ w.input = .benign)) := by
    intro bad
    obtain ⟨rfl, reason⟩ := honest rfl bad
    have fails := reason code exited
    simp only [settled] at resolved
    split at resolved
    · cases resolved
    · rename_i passed
      simp_all
  obtain ⟨byItself, whole⟩ := not_or.mp sound
  cases code with
  | none => exact absurd exited byItself
  | some n =>
    cases c with
    | runResticBackup =>
      simp only [settled] at resolved
      split at resolved
      · cases resolved
      rename_i passed
      simp only [Bool.or_eq_true, not_or, bne_iff_ne, not_not] at passed
      refine ⟨⟨n, exited, .inl passed.1.2⟩, fun _ => ⟨?_, ?_, ?_⟩⟩
      · cases input : w.input with
        | flowing => exact absurd ⟨rfl, input⟩ drained
        | ended => rfl
        | benign => exact absurd ⟨rfl, .inr input⟩ whole
      · exact Bool.eq_false_iff.mpr fun lost => whole ⟨rfl, .inl lost⟩
      · simpa [isSome_iff_ne_none] using passed.2
    | runResticRestore | addResticKey =>
      simp only [settled] at resolved
      split at resolved
      · rename_i zero
        exact ⟨⟨n, exited, .inl zero⟩, nofun⟩
      · cases resolved
    | ensureResticRepoInitialised =>
      simp only [settled] at resolved
      split at resolved
      · rename_i passed
        rw [Bool.or_eq_true, decide_eq_true_iff] at passed
        exact ⟨⟨n, exited, passed.imp_right fun found => ⟨rfl, found⟩⟩, nofun⟩
      · cases resolved

theorem truthful_step (honest : Honest parse c w a) (stepped : step parse c w a = some v) : Truthful parse c v := by
  unfold step at stepped
  split at stepped
  · cases stepped
  rename_i going
  have running : w.phase ≠ .resolved := by
    intro resolved
    simp [resolved] at going
  cases a with
  | settle =>
    simp only at stepped
    split at stepped
    · cases stepped
    · rename_i drained
      obtain ⟨code, exited, rfl⟩ := map_eq_some_iff.mp stepped
      exact truthful_settled honest exited drained
  | inputError benign =>
    simp only at stepped
    split at stepped
    · cases stepped
      cases benign
      · exact nofun
      · exact fun resolved => absurd resolved running
    · cases stepped
  | error =>
    cases stepped
    exact nofun
  | timeout =>
    simp only at stepped
    split at stepped <;> cases stepped
    exact nofun
  | stdout text | stderr text | exit code | stdinClose =>
    cases stepped
    exact fun resolved => absurd resolved running
  | chunk epipe | inputEnd | abort =>
    simp only at stepped
    split at stepped <;> cases stepped
    exact fun resolved => absurd resolved running

/-- In a run whose promise is settled honestly, the promise of a call is resolved only after a success. -/
theorem resolved_truthful (parse : String → Option Value) (c : Call) {actions : List Action}
    (ran : exec (step parse c) .begin actions = some w)
    (honest : Guarded (step parse c) (Honest parse c) .begin actions) : Truthful parse c w :=
  guarded_invariant (fun _ _ _ _ => truthful_step) (fun resolved => by cases resolved) honest ran

def summarised (_ : String) : Option Value :=
  some (.object [("message_type", .string "summary"), ("snapshot_id", .string "40dc1520")])

theorem resolved_truthful_backup :
    Truthful summarised .runResticBackup ⟨.resolved, some (some 0), "\x7b", "", .ended, false, false, false⟩ :=
  resolved_truthful summarised .runResticBackup
    (by decide +kernel : exec _ _ [.stdout "\x7b", .chunk false, .inputEnd, .exit (some 0), .settle] = _)
    ⟨nofun, nofun, nofun, nofun, by simp [Honest, World.begin], trivial⟩

/-- A restore that is killed counts as one that succeeded, and so does a backup of which a piece was dropped. -/
theorem killed_restore_resolves : (∃ w, exec (step summarised .runResticRestore) .begin [.exit none, .settle] = some w ∧
    ¬ Truthful summarised .runResticRestore w) ∧
    ∃ w, exec (step summarised .runResticBackup) .begin [.stdout "\x7b", .chunk true, .inputEnd, .exit (some 0), .settle] =
      some w ∧ ¬ Truthful summarised .runResticBackup w := by
  constructor
  · refine ⟨⟨.resolved, some none, "", "", .flowing, false, false, false⟩, by decide +kernel, fun truthful => ?_⟩
    obtain ⟨⟨code, other, _⟩, _⟩ := truthful rfl
    cases other
  · refine ⟨⟨.resolved, some (some 0), "\x7b", "", .ended, false, true, false⟩, by decide +kernel, fun truthful => ?_⟩
    obtain ⟨_, whole⟩ := truthful rfl
    cases (whole rfl).2.1

end HostingPlatform.TenantBundles.ResticDriver
