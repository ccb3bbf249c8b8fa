import HostingPlatform.ResourceQuotas.HeadroomGate
import HostingPlatform.Transition

/-! What the tenants may ask for in all, along the requests that change it. The sums are those of
JavaScript, so that the order of the tenants is part of them. -/
namespace HostingPlatform.ResourceQuotas

open Table List Js Transition

def World.row (w : World) (tenantId : Nat) : QuotaRow :=
  (w.quotas.select (fun r => r.tenantId == tenantId)).getD (emptyQuota tenantId)

def World.total (w : World) (limit : QuotaRow → Number) (tenants : List Nat) : Number :=
  Number.sum (tenants.map (fun t => limit (w.row t)))

def Within (w : World) (tenants : List Nat) (headroom : FailoverHeadroom) : Prop :=
  Number.le (w.total cpuOf tenants) headroom.tenantAvailableCpu = true ∧
    Number.le (w.total memoryOf tenants) headroom.tenantAvailableMemoryGi = true

instance (w : World) (tenants : List Nat) (headroom : FailoverHeadroom) : Decidable (Within w tenants headroom) :=
  inferInstanceAs (Decidable (_ ∧ _))

def World.others (w : World) (tenantId : Nat) : List QuotaRow :=
  w.quotas.rows.filter (fun r => r.tenantId != tenantId)

/- the tenants that have a row, that of a request last -/
def counted (w : World) (tenantId : Nat) : List Nat := (w.others tenantId).map QuotaRow.tenantId ++ [tenantId]

variable {w : World} {tenantId : Nat} {columns : Columns} {r : Request} {input : UpdateQuotaInput}
  {values : UpdateValues}

theorem row_mem {row : QuotaRow} (mem : row ∈ w.quotas) : w.row row.tenantId = row := by
  rw [World.row, select_key mem]
  rfl

theorem total_counted (w : World) (limit : QuotaRow → Number) (tenantId : Nat) : w.total limit (counted w tenantId) =
      (Number.sum ((w.others tenantId).map limit)).add (limit (w.row tenantId)) := by
  have rows : (w.others tenantId).map (fun r => limit (w.row r.tenantId)) = (w.others tenantId).map limit := by
    apply map_congr_left
    intro row mem
    rw [row_mem (mem_filter.mp mem).1]
  rw [World.total, counted, Number.sum]
  simp [Function.comp_def, rows, Number.sum]

def Complete (w : World) : Prop := ∀ t ∈ w.tenants, ∃ row ∈ w.quotas, row.tenantId = t

theorem counted_perm (complete : Complete w) (there : tenantId ∈ w.tenants) : (counted w tenantId).Perm w.tenants := by
  have split : (w.others tenantId).map QuotaRow.tenantId =
      (w.quotas.rows.map QuotaRow.tenantId).filter (· != tenantId) := by
    rw [filter_map]
    rfl
  have once : (counted w tenantId).Nodup := by
    rw [counted, split, nodup_append]
    refine ⟨w.quotas.keyed.filter _, nodup_singleton _, ?_⟩
    intro t mem t' last same
    rw [mem_singleton] at last
    simp [← last, ← same] at mem
  apply (perm_ext_iff_of_nodup once w.distinct).mpr
  intro t
  rw [counted, split, mem_append, mem_filter, mem_singleton, bne_iff_ne]
  constructor
  · rintro (⟨mem, _⟩ | rfl)
    · obtain ⟨row, old, rfl⟩ := mem_map.mp mem
      exact w.known row old
    · exact there
  intro mem
  by_cases same : t = tenantId
  · exact .inr same
  · obtain ⟨row, old, rfl⟩ := complete t mem
    exact .inl ⟨mem_map_of_mem old, same⟩

theorem getResourceQuota_effect {w' : World} (made : w.getResourceQuota tenantId = some w') :
    (∃ row ∈ w'.quotas, row.tenantId = tenantId) ∧ w'.row tenantId = w.row tenantId ∧
      w'.others tenantId = w.others tenantId ∧ w'.tenants = w.tenants ∧ ∀ row ∈ w.quotas, row ∈ w'.quotas := by
  unfold World.getResourceQuota at made
  split at made
  · rename_i found
    cases made
    obtain ⟨row, mem, same⟩ := any_eq_true.mp found
    exact ⟨⟨row, mem, beq_iff_eq.mp same⟩, rfl, rfl, rfl, fun _ old => old⟩
  rename_i missing
  split at made
  · cases made
    have differs (row : QuotaRow) (mem : row ∈ w.quotas) : row.tenantId ≠ tenantId := by
      intro same
      exact missing (any_eq_true.mpr ⟨row, mem, beq_iff_eq.mpr same⟩)
    have missed : w.quotas.select (fun r => r.tenantId == tenantId) = none := by
      apply find?_eq_none.mpr
      intro row mem
      simpa using differs row mem
    have new : emptyQuota tenantId ∈ w.quotas.put (emptyQuota tenantId) := mem_put.mpr (.inl rfl)
    refine ⟨⟨_, new, rfl⟩, ?_, ?_, rfl, ?_⟩
    · rw [World.row, World.row, missed]
      exact (congrArg (Option.getD · (emptyQuota tenantId)) (select_key new)).trans rfl
    · simp [World.others, put, emptyQuota]
    · intro row mem
      exact mem_put.mpr (.inr ⟨mem, differs row mem⟩)
  · contradiction

theorem update_effect (values : UpdateValues) (there : ∃ row ∈ w.quotas, row.tenantId = tenantId) :
    (w.update tenantId values).row tenantId = values.set (w.row tenantId) ∧
      (w.update tenantId values).others tenantId = w.others tenantId := by
  constructor
  · obtain ⟨row, mem, rfl⟩ := there
    have new : values.set row ∈ (w.update row.tenantId values).quotas :=
      (@mem_update _ _ w.quotas (fun r => r.tenantId == row.tenantId) values.set (fun _ => rfl) _).mpr
        (.inr ⟨row, mem, beq_iff_eq.mpr rfl, rfl⟩)
    rw [row_mem mem]
    exact row_mem new
  · unfold World.others World.update update
    dsimp only
    induction w.quotas.rows with
    | nil => rfl
    | cons row rest ih =>
      rw [map_cons, filter_cons, ih]
      by_cases same : row.tenantId = tenantId
      · simp [apply, same, UpdateValues.set]
      · simp [apply, same]

theorem selfRow_limit (w : World) (limit : QuotaRow → Number) (tenantId : Nat) :
    ((w.quotas.rows.find? (fun r => r.tenantId == tenantId)).map limit).getD (limit (emptyQuota tenantId)) =
      limit (w.row tenantId) := by
  unfold World.row select
  cases w.quotas.rows.find? (fun r => r.tenantId == tenantId) <;> rfl

/- what the gate compares with the headroom -/
def World.projected (w : World) (limit : QuotaRow → Number) (tenantId : Nat) (given : Option Number) : Number :=
  (Number.sum ((w.others tenantId).map limit)).add (given.getD (limit (w.row tenantId)))

theorem gate_allowed_iff (w : World) (r : Request) (input : UpdateQuotaInput) : (gateOf w r input).allowed = true ↔
      Number.max 0 ((w.projected cpuOf r.tenantId (numberOf input.cpuCoresLimit)).sub
          r.headroom.tenantAvailableCpu) = 0 ∧
        Number.max 0 ((w.projected memoryOf r.tenantId (numberOf input.memoryGbLimit)).sub
          r.headroom.tenantAvailableMemoryGi) = 0 ∧
        r.headroom.headroomClamped = false := by
  have parts : (gateOf w r input).allowed =
      (decide (Number.max 0 ((w.projected cpuOf r.tenantId (numberOf input.cpuCoresLimit)).sub
          r.headroom.tenantAvailableCpu) = 0) &&
        decide (Number.max 0 ((w.projected memoryOf r.tenantId (numberOf input.memoryGbLimit)).sub
          r.headroom.tenantAvailableMemoryGi) = 0) &&
        !r.headroom.headroomClamped) := by
    unfold World.projected
    rw [← selfRow_limit w cpuOf, ← selfRow_limit w memoryOf]
    rfl
  rw [parts, Bool.and_eq_true, Bool.and_eq_true, decide_eq_true_iff, decide_eq_true_iff, Bool.not_eq_true', and_assoc]

theorem projected_onGrid (w : World) (limit : QuotaRow → Number) (tenantId : Nat) (given : Option Number) :
    Number.OnGrid (w.projected limit tenantId given) := Number.add_onGrid _ _

theorem headroom_onGrid (r : Request) :
    Number.OnGrid r.headroom.tenantAvailableCpu ∧ Number.OnGrid r.headroom.tenantAvailableMemoryGi :=
  tenantAvailable_onGrid r.nodes r.pods

def Response.isAccepted : Response → Bool
  | .accepted => true
  | _ => false

def Response.isRefused : Response → Bool
  | .refused _ => true
  | _ => false

/- one of the two limits is given as a number -/
def Request.gated (r : Request) : Bool := (readBody r.body).any gateApplies

theorem patch_accepted (accepted : (patch columns w r).2.isAccepted = true) :
    ∃ input w' values, readBody r.body = some input ∧
      (gateApplies input = true → (gateOf w r input).allowed = true) ∧
      w.getResourceQuota r.tenantId = some w' ∧ updateValues columns input = some values ∧
      (patch columns w r).1 = w'.update r.tenantId values := by
  unfold patch at accepted ⊢
  cases body : readBody r.body with
  | none => simp [body, Response.isAccepted] at accepted
  | some input =>
    rw [body] at accepted
    dsimp only at accepted ⊢
    by_cases against : (gateApplies input && !(gateOf w r input).allowed) = true
    · rw [if_pos against] at accepted
      contradiction
    rw [if_neg against] at accepted ⊢
    cases made : w.getResourceQuota r.tenantId with
    | none => simp [made, Response.isAccepted] at accepted
    | some w' =>
      cases set : updateValues columns input with
      | none => simp [made, set, Response.isAccepted] at accepted
      | some values =>
        refine ⟨input, w', values, rfl, ?_, rfl, set, rfl⟩
        simpa using against

theorem patch_refused (refused : (patch columns w r).2.isRefused = true) :
    ∃ input, readBody r.body = some input ∧ gateApplies input = true ∧ (gateOf w r input).allowed = false := by
  unfold patch at refused
  cases body : readBody r.body with
  | none => simp [body, Response.isRefused] at refused
  | some input =>
    rw [body] at refused
    dsimp only at refused
    by_cases against : (gateApplies input && !(gateOf w r input).allowed) = true
    · refine ⟨input, rfl, ?_⟩
      simpa using against
    rw [if_neg against] at refused
    split at refused
    · contradiction
    · split at refused <;> contradiction

/- CPU and memory limits are given as numbers only, and the columns hold no more than these -/
def Unraised (columns : Columns) (r : Request) : Prop :=
  ∀ input, readBody r.body = some input →
    (∀ v, input.cpuCoresLimit = some v →
      ∃ n, v = .number n ∧ ∀ x, columns.numeric v = some x → Number.le x.number n = true) ∧
    (∀ v, input.memoryGbLimit = some v →
      ∃ n, v = .number n ∧
        ∀ x, columns.integer v = some x → ∃ k : Int, x = some k ∧ Number.le (.finite k) n = true)

/-- The numbers that the gate reads are at most what the tenant has. -/
def Lowers (w : World) (r : Request) : Prop :=
  ∀ input, readBody r.body = some input →
    (∀ n, numberOf input.cpuCoresLimit = some n → Number.le n (cpuOf (w.row r.tenantId)) = true) ∧
    (∀ n, numberOf input.memoryGbLimit = some n → Number.le n (memoryOf (w.row r.tenantId)) = true)

structure Clear (headroom : FailoverHeadroom) : Prop where
  unclamped : headroom.headroomClamped = false
  cpu : ∃ q, headroom.tenantAvailableCpu = .finite q
  memory : ∃ q, headroom.tenantAvailableMemoryGi = .finite q

structure Kept (columns : Columns) (w : World) (r : Request) : Prop where
  within : (patch columns w r).2.isAccepted = true → r.gated = true → Unraised columns r →
    Within (patch columns w r).1 (counted (patch columns w r).1 r.tenantId) r.headroom ∧
      r.headroom.headroomClamped = false
  lowering : Lowers w r → Within w (counted w r.tenantId) r.headroom → Clear r.headroom →
    (patch columns w r).2.isRefused = false
  ungated : r.gated = false → (patch columns w r).2.isRefused = false

theorem number_finite (x : Numeric) (negative : Bool) : x.number ≠ .infinity negative := by
  cases x with
  | nan => exact Number.noConfusion
  | value k =>
    obtain ⟨k, low, high⟩ := k
    have range : |(k : ℚ) / 100| ≤ Number.large := by
      have low' : (-100000 : ℚ) < k := by exact_mod_cast low
      have high' : (k : ℚ) < 100000 := by exact_mod_cast high
      have far : (1000 : ℚ) ≤ Number.large := by
        rw [Number.large]
        calc (1000 : ℚ) ≤ 2 ^ 10 := by norm_num
          _ ≤ 2 ^ 1000 := pow_le_pow_right₀ one_le_two (by norm_num)
      rw [abs_le]
      constructor <;> linarith
    obtain ⟨q, same, _⟩ := Number.nearest_near range
    intro infinite
    rw [Numeric.number, same] at infinite
    contradiction

theorem cpuOf_finite (row : QuotaRow) (negative : Bool) : cpuOf row ≠ .infinity negative := by
  unfold cpuOf
  cases row.cpuCoresLimit with
  | none => exact Number.noConfusion
  | some x => exact number_finite x negative

theorem memoryOf_finite (row : QuotaRow) (negative : Bool) : memoryOf row ≠ .infinity negative := by
  unfold memoryOf
  cases row.memoryGbLimit <;> exact Number.noConfusion

theorem held_le {s given held h : Number} (number : ∀ negative, held ≠ .infinity negative)
    (no_more : held = given ∨ Number.le held given = true) (under : Number.le (s.add given) h = true) :
    Number.le (s.add held) h = true := by
  rcases no_more with rfl | less
  · exact under
  · exact Number.add_le less under (.inl (number true))

theorem updateValues_parts (done : updateValues columns input = some values) :
    converted columns.numeric input.cpuCoresLimit = some values.cpuCoresLimit ∧
      converted columns.integer input.memoryGbLimit = some values.memoryGbLimit := by
  obtain ⟨cpu, hasCpu, rest⟩ := Option.bind_eq_some_iff.mp done
  obtain ⟨memory, hasMemory, rest⟩ := Option.bind_eq_some_iff.mp rest
  obtain ⟨storage, _, rest⟩ := Option.bind_eq_some_iff.mp rest
  obtain ⟨bandwidth, _, rest⟩ := Option.bind_eq_some_iff.mp rest
  cases rest
  exact ⟨hasCpu, hasMemory⟩

theorem converted_some {A : Type} {convert : Value → Option A} {v : Value} {x : Option A}
    (done : converted convert (some v) = some x) : ∃ a, convert v = some a ∧ x = some a := by
  obtain ⟨a, made, rfl⟩ := Option.map_eq_some_iff.mp done
  exact ⟨a, made, rfl⟩

theorem set_cpu (row : QuotaRow) (done : updateValues columns input = some values)
    (unraised : ∀ v, input.cpuCoresLimit = some v →
      ∃ n, v = .number n ∧ ∀ x, columns.numeric v = some x → Number.le x.number n = true) :
    cpuOf (values.set row) = (numberOf input.cpuCoresLimit).getD (cpuOf row) ∨
      Number.le (cpuOf (values.set row)) ((numberOf input.cpuCoresLimit).getD (cpuOf row)) = true := by
  have held := (updateValues_parts done).1
  cases given : input.cpuCoresLimit with
  | none =>
    rw [given] at held
    have kept : values.cpuCoresLimit = none := (Option.some.inj held).symm
    exact .inl (by simp [cpuOf, UpdateValues.set, kept, numberOf])
  | some v =>
    obtain ⟨n, rfl, no_more⟩ := unraised v given
    rw [given] at held
    obtain ⟨x, made, set⟩ := converted_some held
    refine .inr ?_
    simpa [cpuOf, UpdateValues.set, set, numberOf] using no_more x made

theorem set_memory (row : QuotaRow) (done : updateValues columns input = some values)
    (unraised : ∀ v, input.memoryGbLimit = some v → ∃ n, v = .number n ∧
      ∀ x, columns.integer v = some x → ∃ k : Int, x = some k ∧ Number.le (.finite k) n = true) :
    memoryOf (values.set row) = (numberOf input.memoryGbLimit).getD (memoryOf row) ∨
      Number.le (memoryOf (values.set row)) ((numberOf input.memoryGbLimit).getD (memoryOf row)) = true := by
  have held := (updateValues_parts done).2
  cases given : input.memoryGbLimit with
  | none =>
    rw [given] at held
    have kept : values.memoryGbLimit = none := (Option.some.inj held).symm
    exact .inl (by simp [memoryOf, UpdateValues.set, kept, numberOf])
  | some v =>
    obtain ⟨n, rfl, no_more⟩ := unraised v given
    rw [given] at held
    obtain ⟨x, made, set⟩ := converted_some held
    obtain ⟨k, rfl, less⟩ := no_more x made
    refine .inr ?_
    simpa [memoryOf, UpdateValues.set, set, numberOf] using less

theorem lowering_projected {limit : QuotaRow → Number} {given : Option Number} {h : ℚ}
    (less : ∀ n, given = some n → Number.le n (limit (w.row tenantId)) = true)
    (under : Number.le (w.total limit (counted w tenantId)) (.finite h) = true) :
    Number.le (w.projected limit tenantId given) (.finite h) = true := by
  rw [total_counted] at under
  cases given with
  | none => exact under
  | some n => exact Number.add_le (less n rfl) under (.inr Number.noConfusion)

theorem kept (columns : Columns) (w : World) (r : Request) : Kept columns w r where
  within := by
    intro accepted gated unraised
    obtain ⟨input, w', values, body, gate, made, done, result⟩ := patch_accepted accepted
    rw [Request.gated, body] at gated
    obtain ⟨noneCpu, noneMemory, unclamped⟩ := (gate_allowed_iff w r input).mp (gate gated)
    obtain ⟨gridCpu, gridMemory⟩ := headroom_onGrid r
    obtain ⟨there, sameRow, sameOthers, _⟩ := getResourceQuota_effect made
    obtain ⟨newRow, newOthers⟩ := update_effect values there
    obtain ⟨cpu, memory⟩ := unraised input body
    rw [result, Within, total_counted, total_counted, newOthers, newRow, sameOthers, sameRow]
    refine ⟨⟨?_, ?_⟩, unclamped⟩
    · refine held_le (cpuOf_finite _) (set_cpu _ done cpu) ?_
      exact Number.le_of_over (projected_onGrid w cpuOf _ _) gridCpu noneCpu
    · refine held_le (memoryOf_finite _) (set_memory _ done memory) ?_
      exact Number.le_of_over (projected_onGrid w memoryOf _ _) gridMemory noneMemory
  lowering := by
    intro lowers before clear
    apply Bool.eq_false_iff.mpr
    intro refused
    obtain ⟨input, body, _, against⟩ := patch_refused refused
    obtain ⟨lessCpu, lessMemory⟩ := lowers input body
    obtain ⟨unclamped, ⟨cpu, isCpu⟩, memory, isMemory⟩ := clear
    obtain ⟨gridCpu, gridMemory⟩ := headroom_onGrid r
    rw [isCpu] at gridCpu
    rw [isMemory] at gridMemory
    rw [Within, isCpu, isMemory] at before
    have allowed : (gateOf w r input).allowed = true := by
      rw [gate_allowed_iff, isCpu, isMemory]
      refine ⟨?_, ?_, unclamped⟩
      · exact Number.over_of_le (projected_onGrid w cpuOf _ _) gridCpu (lowering_projected lessCpu before.1)
      · exact Number.over_of_le (projected_onGrid w memoryOf _ _) gridMemory (lowering_projected lessMemory before.2)
    rw [allowed] at against
    contradiction
  ungated := by
    intro ungated
    apply Bool.eq_false_iff.mpr
    intro refused
    obtain ⟨input, body, gated, _⟩ := patch_refused refused
    rw [Request.gated, body] at ungated
    exact absurd (gated.symm.trans ungated) (by decide)

def step (columns : Columns) (w : World) (r : Request) : Option World := some (patch columns w r).1

theorem patch_keeps (columns : Columns) (w : World) (r : Request) :
    (patch columns w r).1.tenants = w.tenants ∧ (Complete w → Complete (patch columns w r).1) := by
  unfold patch
  cases readBody r.body with
  | none => exact ⟨rfl, id⟩
  | some input =>
    dsimp only
    split
    · exact ⟨rfl, id⟩
    cases made : w.getResourceQuota r.tenantId with
    | none => exact ⟨rfl, id⟩
    | some w' =>
      obtain ⟨_, _, _, same, stays⟩ := getResourceQuota_effect made
      have complete (full : Complete w) : Complete w' := by
        intro t mem
        obtain ⟨row, old, its⟩ := full t (same ▸ mem)
        exact ⟨row, stays row old, its⟩
      cases updateValues columns input with
      | none => exact ⟨same, complete⟩
      | some values =>
        refine ⟨same, ?_⟩
        intro full t mem
        obtain ⟨row, old, same_tenant⟩ := complete full t mem
        let its (x : QuotaRow) : Bool := x.tenantId == r.tenantId
        have set := @apply_mem_update _ _ w'.quotas its values.set (fun _ => rfl) row old
        exact ⟨_, set, (apply_column QuotaRow.tenantId its values.set (fun _ => rfl) row).trans same_tenant⟩

theorem run_keeps {u : World} {requests : List Request} (run : exec (step columns) w requests = some u) :
    u.tenants = w.tenants ∧ (Complete w → Complete u) := by
  induction requests generalizing w with
  | nil =>
    cases run
    exact ⟨rfl, id⟩
  | cons r rest ih =>
    obtain ⟨t, taken, tail⟩ := exec_cons run
    cases taken
    obtain ⟨same, full⟩ := patch_keeps columns w r
    obtain ⟨same', full'⟩ := ih tail
    exact ⟨same'.trans same, fun complete => full' (full complete)⟩

/-- Each request of a run is kept its promise, and where every tenant had a row at the start, the
tenants that are counted are all of them. -/
theorem patches_kept (columns : Columns) {w u : World} {front : List Request} (r : Request)
    (run : exec (step columns) w front = some u) : Kept columns u r ∧ (Complete w → r.tenantId ∈ w.tenants →
      (counted (patch columns u r).1 r.tenantId).Perm w.tenants) := by
  refine ⟨kept columns u r, ?_⟩
  intro complete there
  obtain ⟨same, full⟩ := run_keeps run
  obtain ⟨same', full'⟩ := patch_keeps columns u r
  rw [← same, ← same'] at there ⊢
  exact counted_perm (full' (full complete)) there

def server (name : String) : NodeLike where
  name := some name
  labels := [(SERVER_LABEL_KEY, SERVER_LABEL_VAL)]
  allocatableCpu := some "4"
  allocatableMemory := some "16Gi"
  conditions := [(some "Ready", some "True")]
  taints := []

/- to hundredths -/
def numericOf (q : ℚ) : Option Numeric :=
  let k := if q < 0 then -(1 / 2 - 100 * q).floor else (100 * q + 1 / 2).floor
  if range : -100000 < k ∧ k < 100000 then some (.value ⟨k, range⟩) else none

/- of numbers, and of texts of digits -/
def decimal : Value → Option ℚ
  | .number (.finite q) => some q
  | .string s =>
    if s.toList.all Char.isDigit then
      match toNumber s with
      | .finite q => some q
      | _ => none
    else none
  | _ => none

def decimals : Columns where
  numeric v := (decimal v).bind numericOf
  integer
    | .null => some none
    | v => (decimal v).bind (fun q => if q.den = 1 then some (some q.num) else none)

def patchOf (fields : Fields) (tenantId : Nat) : Request where
  tenantId
  body := some (.object fields)
  nodes := [server "a", server "b", server "c"]
  pods := []

/- two tenants, with the rows of some -/
def twoTenants (rows : List QuotaRow) (keyed : (rows.map QuotaRow.tenantId).Nodup)
    (known : ∀ row ∈ rows, row.tenantId ∈ [1, 2]) : World where
  tenants := [1, 2]
  distinct := by decide
  quotas := ⟨rows, keyed⟩
  known := known

def byDefault : World := twoTenants [emptyQuota 1, emptyQuota 2] (by decide) (by decide)

/- … the second of twenty cores -/
def beyond : World :=
  twoTenants [emptyQuota 1, ⟨2, some (.value ⟨2000, by decide⟩), none, none, none⟩] (by decide) (by decide)

def raising : Request := patchOf [("cpu_cores_limit", .number 6)] 1

def lowering : Request := patchOf [("cpu_cores_limit", .number 1), ("memory_gb_limit", .number 2)] 1

theorem raising_unraised : Unraised decimals raising := by
  intro input read
  cases read
  constructor
  · intro v there
    cases there
    refine ⟨6, rfl, ?_⟩
    intro x made
    have held : decimals.numeric (.number 6) = some (.value ⟨600, by decide⟩) := by decide +kernel
    rw [held] at made
    cases made
    decide +kernel
  · intro v there
    contradiction

theorem lowering_lowers (w : World) (cpu : Number.le 1 (cpuOf (w.row 1)) = true)
    (memory : Number.le 2 (memoryOf (w.row 1)) = true) : Lowers w lowering := by
  intro input read
  cases read
  constructor
  · intro n there
    cases there
    exact cpu
  · intro n there
    cases there
    exact memory

/-- One tenant is raised, and lowered again. -/
theorem raised_lowered : ∃ u, exec (step decimals) byDefault [raising] = some u ∧
    Within u [2, 1] raising.headroom ∧ (patch decimals u lowering).2.isRefused = false ∧
      (counted (patch decimals u lowering).1 1).Perm [1, 2] := by
  have start := patches_kept decimals raising (rfl : exec (step decimals) byDefault [] = some byDefault)
  have first := start.1.within (by decide +kernel) (by decide +kernel) raising_unraised
  have next := patches_kept decimals lowering
    (rfl : exec (step decimals) byDefault [raising] = some (patch decimals byDefault raising).1)
  have two : counted (patch decimals byDefault raising).1 1 = [2, 1] := by decide +kernel
  have clear : Clear lowering.headroom := ⟨by decide +kernel, ⟨8, by decide +kernel⟩, ⟨32, by decide +kernel⟩⟩
  have within : Within (patch decimals byDefault raising).1 [2, 1] raising.headroom := two ▸ first.1
  refine ⟨_, rfl, within, ?_, ?_⟩
  · refine next.1.lowering (lowering_lowers _ (by decide +kernel) (by decide +kernel)) ?_ clear
    exact (congrArg (Within _ · lowering.headroom) two).mpr within
  refine next.2 ?_ (by decide)
  show ∀ t ∈ [1, 2], ∃ row ∈ [emptyQuota 1, emptyQuota 2], row.tenantId = t
  decide

/-- Accepted, while all tenants together are beyond the headroom. -/
def Exceeds (w : World) (r : Request) : Prop :=
  (patch decimals w r).2.isAccepted = true ∧ ¬ Within (patch decimals w r).1 w.tenants r.headroom

instance (w : World) (r : Request) : Decidable (Exceeds w r) := inferInstanceAs (Decidable (_ ∧ _))

/-- A text is not checked, a tenant without a row is not counted, and a request for storage is
neither; and where the sum is too great already, a request that lowers it is refused. -/
theorem headroom_exceeded : Exceeds byDefault (patchOf [("cpu_cores_limit", .string "900")] 1) ∧
      Exceeds (twoTenants [] (by decide) (by decide)) (patchOf [("cpu_cores_limit", .number 7)] 1) ∧
      Exceeds beyond (patchOf [("storage_gb_limit", .number 60)] 1) ∧
      Lowers beyond lowering ∧ (patch decimals beyond lowering).2.isRefused = true := by
  refine ⟨by decide +kernel, by decide +kernel, by decide +kernel, ?_, by decide +kernel⟩
  exact lowering_lowers beyond (by decide +kernel) (by decide +kernel)

end HostingPlatform.ResourceQuotas
