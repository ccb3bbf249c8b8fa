import HostingPlatform.Js.Text
import HostingPlatform.Storage.Lifecycle

/-! How much of a volume is used, as the file manager of its tenant measures it for the dry run of a resize. -/
namespace HostingPlatform.Storage

open Interleaving

structure Pod where
  (name phase : Option String)

/- the object of the callback may be missing, and so may its status -/
inductive ExecEnd where
  | failed
  | closed (object : Option (Option String))

/- `pods` is missing where they cannot be listed; `du` is its exec in a pod, with what it prints -/
structure FileManager where
  pods : Option (List Pod)
  du : String → ExecEnd × String

def ExecEnd.resolves : ExecEnd → Bool
  | .closed none | .closed (some none) | .closed (some (some "Success")) => true
  | _ => false

def FileManager.stdout (fm : FileManager) : Option String :=
  match (fm.pods.getD []).find? (·.phase = some "Running") with
  | none | some ⟨none, _⟩ | some ⟨some "", _⟩ => none
  | some ⟨some name, _⟩ => if (fm.du name).1.resolves then some (fm.du name).2 else none

/- /^(\d+)/ -/
def leadingDigits (stdout : String) : List Char := stdout.toList.takeWhile Char.isDigit

/- 0 where there are no digits; numbers of bytes are below 2^53, where `parseInt` loses none -/
def measurePvcUsed (fm : FileManager) : Nat :=
  match fm.stdout with
  | none => 0
  | some stdout => Js.decimal (leadingDigits stdout)

/-- A running file manager with a name has run `du` to its end, and that has printed a number. -/
def FileManager.Measured (fm : FileManager) : Prop := ∃ stdout ∈ fm.stdout, leadingDigits stdout ≠ []

/-- A number that `du` prints is that of the bytes in use. -/
def FileManager.Reports (fm : FileManager) (used : Nat) : Prop :=
  ∀ stdout ∈ fm.stdout, leadingDigits stdout ≠ [] → Js.decimal (leadingDigits stdout) = used

def StartsShrink (ext : External) (db : Db) (newMib tenantId : Nat) : Prop :=
  (advance ext db (.resizeDryRun newMib tenantId)).2 = .next (.claim (runResizeDestructive newMib) tenantId none none)

/- the dry run goes through, and the request is for less than the volume has -/
def Shrinks (db : Db) (newMib tenantId : Nat) : Prop :=
  db.cluster.failure = none ∧ ∃ tenant ∈ findTenant db tenantId, newMib < currentMib db tenant

variable {ext : External} {db : Db} {fm : FileManager} {newMib tenantId used : Nat}

theorem startsShrink_iff : StartsShrink ext db newMib tenantId ↔
    Shrinks db newMib tenantId ∧ willFit ext db tenantId newMib = true := by
  unfold StartsShrink Shrinks advance attempt
  cases db.cluster.failure with
  | some message => simp
  | none =>
    cases found : findTenant db tenantId with
    | none => simp [found]
    | some tenant =>
      rcases lt_trichotomy newMib (currentMib db tenant) with less | same | more
      · cases fits : willFit ext db tenantId newMib <;> simp [found, less, less.ne, not_lt_of_gt less, fits]
      · simp [found, same]
      · simp [found, more, more.ne', not_lt_of_gt more]

theorem measurePvcUsed_measured (reports : fm.Reports used) (measured : fm.Measured) : measurePvcUsed fm = used := by
  obtain ⟨stdout, given, digits⟩ := measured
  rw [← reports stdout given digits, measurePvcUsed, Option.mem_def.mp given]

theorem measurePvcUsed_unmeasured (unmeasured : ¬ fm.Measured) : measurePvcUsed fm = 0 := by
  unfold measurePvcUsed
  cases given : fm.stdout with
  | none => rfl
  | some stdout =>
    have empty : leadingDigits stdout = [] := by_contra (fun digits => unmeasured ⟨stdout, given, digits⟩)
    simp only [empty]
    rfl

/-- A destructive shrink is started only where what is in use has been measured and fits if and only if it is measured
before each request for less than the volume has. -/
theorem shrinks_measured_iff (nothing : ext.requiredBytes 0 = 0) (reports : fm.Reports used)
    (counted : db.cluster.usedBytes tenantId = measurePvcUsed fm) :
    (StartsShrink ext db newMib tenantId → fm.Measured ∧ ext.requiredBytes used ≤ newMib * 1048576) ↔
      (Shrinks db newMib tenantId → fm.Measured) := by
  constructor
  · intro safe shrinks
    by_contra unmeasured
    have fits : willFit ext db tenantId newMib = true := by
      simp [willFit, counted, measurePvcUsed_unmeasured unmeasured, nothing]
    exact unmeasured (safe (startsShrink_iff.mpr ⟨shrinks, fits⟩)).1
  intro measures starts
  obtain ⟨shrinks, fits⟩ := startsShrink_iff.mp starts
  have measured := measures shrinks
  rw [willFit, counted, measurePvcUsed_measured reports measured] at fits
  exact ⟨measured, of_decide_eq_true fits⟩

def tenths : External where
  requiredBytes := fun usedBytes => (usedBytes * 11 + 9) / 10
  gib := fun bytes => toString (bytes / 1073741824)
  mib := fun bytes => toString (bytes / 1048576)

/- a tenant whose volume has 2 GiB -/
def holding (usedBytes : Nat) : Db :=
  { Db.empty with
    tenants := ⟨[⟨1, .active, 1, none, .idle, none⟩], by decide⟩
    cluster := { Cluster.empty with pvcMib := fun _ => some 2048, usedBytes := fun _ => usedBytes } }

def running (stdout : String) : FileManager :=
  ⟨some [⟨some "file-manager-0", some "Running"⟩], fun _ => (.closed (some (some "Success")), stdout)⟩

theorem measured_shrink_fits : (running "1000000\t/data").Measured ∧ tenths.requiredBytes 1000000 ≤ 1024 * 1048576 :=
  (shrinks_measured_iff rfl (by rintro _ ⟨⟩ _; decide +kernel) (by decide +kernel)).mpr
    (fun _ => ⟨"1000000\t/data", rfl, by decide +kernel⟩)
    (startsShrink_iff.mpr ⟨⟨rfl, _, rfl, by decide⟩, by decide +kernel⟩ : StartsShrink tenths (holding 1000000) 1024 1)

/-- No file manager runs, and a volume of which more is in use is shrunk to 1 GiB. -/
theorem unmeasured_shrink_starts : StartsShrink tenths (holding (measurePvcUsed ⟨some [], fun _ => (.failed, "")⟩)) 1024 1 ∧
    ¬ tenths.requiredBytes 2000000000 ≤ 1024 * 1048576 :=
  ⟨startsShrink_iff.mpr ⟨⟨rfl, _, rfl, by decide⟩, by decide⟩, by decide⟩

end HostingPlatform.Storage
