import Mathlib.Data.List.Sort

/-! The pages of a list of tenants, each begun after the time that the cursor of the last one carries. -/
namespace HostingPlatform.Tenants.Listing

open List

/- the time in microseconds, as the column has it -/
structure TenantRow where
  (id name : String)
  createdAt : Int
  deriving DecidableEq

inductive Direction where
  | asc | desc

/- its text is read back as it was written; the time is in milliseconds, as an ISO text has them -/
structure CursorData where
  resource : String
  sort : Int
  id : String

structure Page where
  data : List TenantRow
  cursor : Option CursorData
  hasMore : Bool
  (pageSize totalCount : Nat)

def escapeLike (search : String) : String :=
  String.ofList (search.toList.flatMap (fun c => if c = '%' ∨ c = '_' then [Char.ofNat 92, c] else [c]))

/- `like` is the operator of the database -/
def searched (like : String → String → Bool) (search : Option String) (table : List TenantRow) : List TenantRow :=
  match search with
  | none | some "" => table
  | some search => table.filter (fun t => like s!"%{escapeLike search}%" t.name)

def past (direction : Direction) (cursor : Option CursorData) (t : TenantRow) : Bool :=
  match cursor, direction with
  | none, _ => true
  | some decoded, .desc => t.createdAt < decoded.sort * 1000
  | some decoded, .asc => decoded.sort * 1000 < t.createdAt

/- `rows` are those that are searched for, and `orderBy` the order in which the database gives them -/
def listTenants (orderBy : List TenantRow → List TenantRow) (rows : List TenantRow) (limit : Nat)
    (direction : Direction) (cursor : Option CursorData) : Page :=
  let selected := rows.filter (past direction cursor)
  let rows := (orderBy selected).take (limit + 1)
  let hasMore := limit < rows.length
  let data := rows.take limit
  { data
    cursor := if hasMore then data.getLast?.map (fun last => ⟨"tenant", last.createdAt / 1000, last.id⟩) else none
    hasMore
    pageSize := data.length
    totalCount := selected.length }

/-- The order of the times that a query asks for. -/
def Precedes : Direction → Int → Int → Prop
  | .asc, a, b => a ≤ b
  | .desc, a, b => b ≤ a

instance : (direction : Direction) → DecidableRel (Precedes direction)
  | .asc => fun a b => inferInstanceAs (Decidable (a ≤ b))
  | .desc => fun a b => inferInstanceAs (Decidable (b ≤ a))

/-- The rows come sorted by their times; equal ones may come in any order, and in another one each time. -/
def Orders (direction : Direction) (orderBy : List TenantRow → List TenantRow) : Prop :=
  ∀ rows, (orderBy rows).Perm rows ∧ ((orderBy rows).map TenantRow.createdAt).Pairwise (Precedes direction)

section calls

variable (orderBy : Nat → List TenantRow → List TenantRow) (rows : List TenantRow) (limit : Nat) (direction : Direction)

/- the pages of the calls up to the one that has no more; no result where the fuel does not last -/
def follow : Nat → Nat → Option CursorData → Option (List (List TenantRow))
  | 0, _, _ => none
  | fuel + 1, call, cursor =>
    let listing := listTenants (orderBy call) rows limit direction cursor
    match listing.hasMore with
    | true => (follow fuel (call + 1) listing.cursor).map (listing.data :: ·)
    | false => some [listing.data]

/-- Every row is returned once, and the calls end. -/
def ReturnsAll : Prop := ∃ fuel pages, follow orderBy rows limit direction fuel 0 none = some pages ∧ pages.flatten.Perm rows

end calls

/-- The time that the cursor keeps of one row still divides it from the next row. -/
def Apart : Direction → Int → Int → Prop
  | .asc, a, b => a % 1000 = 0 ∧ a < b
  | .desc, a, b => b < a / 1000 * 1000

/-- The last time of each full page is apart from the first time of the page after it. -/
def Boundaries (limit : Nat) (direction : Direction) (times : List Int) : Prop :=
  ∀ k, 0 < k → ∀ a ∈ times[k * limit - 1]?, ∀ b ∈ times[k * limit]?, Apart direction a b

section proofs

variable {orderBy : Nat → List TenantRow → List TenantRow} {rows page rest : List TenantRow} {limit call fuel : Nat}
  {direction : Direction} {cursor : Option CursorData} {pages : List (List TenantRow)}

def cursorAt (last : TenantRow) : CursorData := ⟨"tenant", last.createdAt / 1000, last.id⟩

theorem follow_step (orders : ∀ i, Orders direction (orderBy i)) (positive : 0 < limit) (fuel call : Nat)
    (cursor : Option CursorData) : (∃ page, page.Perm (rows.filter (past direction cursor)) ∧ page.length ≤ limit ∧
      follow orderBy rows limit direction (fuel + 1) call cursor = some [page]) ∨
    ∃ front last next rest, (front ++ last :: next :: rest).Perm (rows.filter (past direction cursor)) ∧
      front.length + 1 = limit ∧
      ((front ++ last :: next :: rest).map TenantRow.createdAt).Pairwise (Precedes direction) ∧
      follow orderBy rows limit direction (fuel + 1) call cursor =
        (follow orderBy rows limit direction fuel (call + 1) (some (cursorAt last))).map ((front ++ [last]) :: ·) := by
  obtain ⟨perm, sorted⟩ := orders call (rows.filter (past direction cursor))
  rw [follow]
  simp only [listTenants]
  obtain ⟨given, is⟩ : ∃ given, orderBy call (rows.filter (past direction cursor)) = given := ⟨_, rfl⟩
  rw [is] at perm sorted ⊢
  by_cases more : limit < given.length
  · right
    obtain ⟨front, tail, rfl, size⟩ : ∃ front tail, given = front ++ tail ∧ front.length + 1 = limit :=
      ⟨given.take (limit - 1), given.drop (limit - 1), (take_append_drop _ _).symm, by simp; omega⟩
    match tail, more with
    | [], more | [last], more => simp at more; omega
    | last :: next :: rest, _ =>
      subst size
      refine ⟨front, last, next, rest, perm, rfl, sorted, ?_⟩
      have taken : (front ++ last :: next :: rest).take (front.length + 1 + 1) = (front ++ [last]) ++ [next] := by
        rw [show front ++ last :: next :: rest = front ++ [last] ++ [next] ++ rest by simp]
        exact take_left' (by simp)
      have kept : (front ++ [last] ++ [next]).take (front.length + 1) = front ++ [last] := take_left' (by simp)
      simp only [taken, kept]
      simp [cursorAt]
  · left
    refine ⟨given, perm, not_lt.mp more, ?_⟩
    rw [take_of_length_le (by omega), take_of_length_le (by omega)]
    simp [more]

theorem past_asc {last t : TenantRow} : past .asc (some (cursorAt last)) t = true ↔
    last.createdAt / 1000 * 1000 < t.createdAt := decide_eq_true_iff

theorem past_desc {last t : TenantRow} : past .desc (some (cursorAt last)) t = true ↔
    t.createdAt < last.createdAt / 1000 * 1000 := decide_eq_true_iff

theorem past_mono {last : TenantRow} (selected : past direction cursor last = true) {t : TenantRow}
    (later : past direction (some (cursorAt last)) t = true) : past direction cursor t = true := by
  cases cursor with
  | none => rfl
  | some decoded =>
    cases direction with
    | asc =>
      rw [past_asc] at later
      simp only [past, decide_eq_true_eq] at selected ⊢
      omega
    | desc =>
      rw [past_desc] at later
      simp only [past, decide_eq_true_eq] at selected ⊢
      omega

theorem follow_mem (orders : ∀ i, Orders direction (orderBy i)) (positive : 0 < limit)
    (ended : follow orderBy rows limit direction fuel call cursor = some pages) :
    ∀ t ∈ pages.flatten, t ∈ rows.filter (past direction cursor) := by
  induction fuel generalizing call cursor pages with
  | zero => contradiction
  | succ fuel ih =>
    rcases follow_step orders positive fuel call cursor with
      ⟨page, perm, _, step⟩ | ⟨front, last, next, rest, perm, _, _, step⟩
    · cases step.symm.trans ended
      simpa using fun t mem => perm.mem_iff.mp mem
    obtain ⟨others, further, rfl⟩ := Option.map_eq_some_iff.mp (step.symm.trans ended)
    intro t mem
    rcases mem_append.mp (flatten_cons ▸ mem) with mem | mem
    · exact perm.mem_iff.mp (by simp at mem ⊢; tauto)
    obtain ⟨inRows, later⟩ := mem_filter.mp (ih further t mem)
    have selected := (mem_filter.mp (perm.mem_iff.mp (mem_append_right front mem_cons_self))).2
    exact mem_filter.mpr ⟨inRows, past_mono selected later⟩

theorem follow_unrounded (orders : ∀ i, Orders .asc (orderBy i)) (positive : 0 < limit)
    (ended : follow orderBy rows limit .asc fuel call cursor = some pages) {t : TenantRow}
    (selected : t ∈ rows.filter (past .asc cursor)) (part : t.createdAt % 1000 ≠ 0) : t ∈ pages.flatten := by
  induction fuel generalizing call cursor pages with
  | zero => contradiction
  | succ fuel ih =>
    rcases follow_step orders positive fuel call cursor with
      ⟨page, perm, _, step⟩ | ⟨front, last, next, rest, perm, _, sorted, step⟩
    · cases step.symm.trans ended
      simpa using perm.mem_iff.mpr selected
    obtain ⟨others, further, rfl⟩ := Option.map_eq_some_iff.mp (step.symm.trans ended)
    rw [flatten_cons, mem_append]
    have placed := perm.mem_iff.mpr selected
    rw [show front ++ last :: next :: rest = (front ++ [last]) ++ next :: rest by simp] at placed sorted
    refine (mem_append.mp placed).imp_right (fun after => ?_)
    rw [map_append] at sorted
    have order : last.createdAt ≤ t.createdAt :=
      (pairwise_append.mp sorted).2.2 _ (by simp) _ (mem_map_of_mem after)
    refine ih further (mem_filter.mpr ⟨(mem_filter.mp selected).1, ?_⟩)
    rw [past_asc]
    omega

theorem boundaries_short {times : List Int} (short : times.length ≤ limit) : Boundaries limit direction times := by
  intro k positive a _ b second
  have reach := (List.getElem?_eq_some_iff.mp second).1
  have far : limit ≤ k * limit := Nat.le_mul_of_pos_left limit positive
  omega

theorem boundaries_cons {front rest : List Int} {last next : Int} (size : front.length + 1 = limit) :
    Boundaries limit direction (front ++ last :: next :: rest) ↔
      Apart direction last next ∧ Boundaries limit direction (next :: rest) := by
  have further : ∀ i, (front ++ last :: next :: rest)[limit + i]? = (next :: rest)[i]? := by
    intro i
    rw [← size, show front ++ last :: next :: rest = front ++ [last] ++ next :: rest by simp,
      getElem?_append_right (by simp)]
    simp
  have first : (front ++ last :: next :: rest)[limit - 1]? = some last := by simp [← size]
  have shift : ∀ k, 0 < k → (k + 1) * limit = limit + k * limit ∧ (k + 1) * limit - 1 = limit + (k * limit - 1) := by
    intro k positive
    have far : 0 < k * limit := Nat.mul_pos positive (by omega)
    rw [Nat.succ_mul]
    omega
  constructor
  · intro apart
    refine ⟨apart 1 Nat.one_pos last (by simpa using first) next (by simpa using further 0), ?_⟩
    intro k positive a there b then_
    refine apart (k + 1) (Nat.succ_pos k) a ?_ b ?_
    · rwa [(shift k positive).2, further]
    · rwa [(shift k positive).1, further]
  · rintro ⟨apart, later⟩ k positive a there b then_
    obtain ⟨k, rfl⟩ := Nat.exists_eq_add_one.mpr positive
    rcases Nat.eq_zero_or_pos k with rfl | positive
    · simp only [Nat.zero_add, Nat.one_mul, first] at there
      simp only [Nat.zero_add, Nat.one_mul] at then_
      rw [← Nat.add_zero limit, further] at then_
      cases there
      cases then_
      exact apart
    · rw [(shift k positive).2, further] at there
      rw [(shift k positive).1, further] at then_
      exact later k positive a there b then_

theorem times_unique {times times' : List Int} (sorted : times.Pairwise (Precedes direction))
    (sorted' : times'.Pairwise (Precedes direction)) (perm : times.Perm times') : times = times' :=
  perm.eq_of_pairwise (fun a b _ _ upto back => by cases direction <;> simp only [Precedes] at upto back <;> omega)
    sorted sorted'

section page

variable {front rest : List TenantRow} {last next : TenantRow}
  (perm : (front ++ last :: next :: rest).Perm (rows.filter (past direction cursor)))
  (sorted : ((front ++ last :: next :: rest).map TenantRow.createdAt).Pairwise (Precedes direction))
include perm sorted

theorem remaining (apart : Apart direction last.createdAt next.createdAt) :
    (rows.filter (past direction (some (cursorAt last)))).Perm (next :: rest) := by
  have selected : past direction cursor last = true :=
    (mem_filter.mp (perm.mem_iff.mp (mem_append_right front mem_cons_self))).2
  have narrower : rows.filter (past direction (some (cursorAt last))) =
      (rows.filter (past direction cursor)).filter (past direction (some (cursorAt last))) := by
    rw [filter_filter]
    refine filter_congr (fun t _ => ?_)
    cases later : past direction (some (cursorAt last)) t with
    | false => rfl
    | true => simp [past_mono selected later]
  simp only [map_append, map_cons, pairwise_append, pairwise_cons, mem_cons, mem_map,
    forall_exists_index, and_imp, forall_apply_eq_imp_iff₂] at sorted
  have gone : front.filter (past direction (some (cursorAt last))) = [] := by
    refine filter_eq_nil_iff.mpr (fun t mem => ?_)
    have order := sorted.2.2 t mem _ (.inl rfl)
    cases direction <;> simp only [past_asc, past_desc, Precedes, Apart] at * <;> omega
  have lastGone : past direction (some (cursorAt last)) last = false := by
    rw [Bool.eq_false_iff]
    cases direction <;> simp only [ne_eq, past_asc, past_desc, Apart] at * <;> omega
  have stays : (next :: rest).filter (past direction (some (cursorAt last))) = next :: rest := by
    refine filter_eq_self.mpr (fun t mem => ?_)
    rcases mem_cons.mp mem with rfl | mem
    · cases direction <;> simp only [past_asc, past_desc, Apart] at * <;> omega
    · have order := sorted.2.1.2.1 t mem
      cases direction <;> simp only [past_asc, past_desc, Precedes, Apart] at * <;> omega
  rw [narrower]
  refine (perm.symm.filter _).trans ?_
  rw [filter_append, gone, filter_cons_of_neg (by simp [lastGone]), stays]
  exact Perm.refl _

end page

theorem boundaries_of_follow (orders : ∀ i, Orders direction (orderBy i)) (positive : 0 < limit) (distinct : rows.Nodup)
    (ended : follow orderBy rows limit direction fuel call cursor = some pages)
    (once : pages.flatten.Perm (rows.filter (past direction cursor))) {times : List Int}
    (sorted : times.Pairwise (Precedes direction))
    (all : times.Perm ((rows.filter (past direction cursor)).map TenantRow.createdAt)) :
    Boundaries limit direction times := by
  induction fuel generalizing call cursor pages times with
  | zero => contradiction
  | succ fuel ih =>
    rcases follow_step orders positive fuel call cursor with
      ⟨page, perm, short, _⟩ | ⟨front, last, next, rest, perm, size, ordered, step⟩
    · refine boundaries_short ?_
      rw [all.length_eq, length_map, ← perm.length_eq]
      exact short
    obtain ⟨others, further, rfl⟩ := Option.map_eq_some_iff.mp (step.symm.trans ended)
    obtain rfl := times_unique sorted ordered (all.trans (perm.symm.map _))
    have left : others.flatten.Perm (next :: rest) := by
      refine (perm_append_left_iff (front ++ [last])).mp ?_
      simpa using once.trans perm.symm
    have later : past direction (some (cursorAt last)) next = true :=
      (mem_filter.mp (follow_mem orders positive further next (left.mem_iff.mpr mem_cons_self))).2
    have apart : Apart direction last.createdAt next.createdAt := by
      cases direction with
      | desc => exact past_desc.mp later
      | asc =>
        have less := past_asc.mp later
        by_cases part : last.createdAt % 1000 = 0
        · exact ⟨part, by omega⟩
        -- the last row would be returned again
        have inRows := (mem_filter.mp (perm.mem_iff.mp (mem_append_right front mem_cons_self))).1
        have again := follow_unrounded orders positive further
          (mem_filter.mpr ⟨inRows, past_asc.mpr (by omega)⟩) part
        have alone := (nodup_append'.mp (perm.nodup_iff.mpr (distinct.filter _))).2.1
        exact absurd (left.mem_iff.mp again) (nodup_cons.mp alone).1
    have next_rows := remaining perm ordered apart
    rw [map_append, map_cons, map_cons, boundaries_cons (by simpa using size)]
    refine ⟨apart, ih further (left.trans next_rows.symm) ?_ (next_rows.symm.map _)⟩
    exact (pairwise_append.mp (map_append ▸ ordered)).2.1.of_cons

variable (call) in
theorem follow_of_boundaries (orders : ∀ i, Orders direction (orderBy i)) (positive : 0 < limit) {times : List Int}
    (sorted : times.Pairwise (Precedes direction))
    (all : times.Perm ((rows.filter (past direction cursor)).map TenantRow.createdAt))
    (apart : Boundaries limit direction times) (enough : times.length ≤ fuel) :
    ∃ pages, follow orderBy rows limit direction (fuel + 1) call cursor = some pages ∧
      pages.flatten.Perm (rows.filter (past direction cursor)) := by
  induction fuel generalizing call cursor times with
  | zero =>
    rcases follow_step orders positive 0 call cursor with
      ⟨page, perm, _, step⟩ | ⟨front, last, next, rest, perm, _⟩
    · exact ⟨[page], step, by simpa using perm⟩
    have same := all.length_eq.trans (by rw [List.length_map, ← perm.length_eq])
    simp at same
    omega
  | succ fuel ih =>
    rcases follow_step orders positive (fuel + 1) call cursor with
      ⟨page, perm, _, step⟩ | ⟨front, last, next, rest, perm, size, ordered, step⟩
    · exact ⟨[page], step, by simpa using perm⟩
    obtain rfl := times_unique sorted ordered (all.trans (perm.symm.map _))
    rw [List.map_append, List.map_cons, List.map_cons, boundaries_cons (by simpa using size)] at apart
    have next_rows := remaining perm ordered apart.1
    obtain ⟨others, further, once⟩ := @ih (call + 1) (some (cursorAt last)) _
      (List.pairwise_append.mp (List.map_append ▸ ordered)).2.1.of_cons
      (next_rows.symm.map _) apart.2 (by simp at enough ⊢; omega)
    refine ⟨(front ++ [last]) :: others, by rw [step, further]; rfl, ?_⟩
    refine List.Perm.trans ?_ perm
    simpa using ((once.trans next_rows).append_left (front ++ [last]))

end proofs

/-- The cursors lead once through all tenants that are searched for if and only if each full page ends at a time
that its cursor still divides from the next tenant's: in ascending order at a whole millisecond with a later time
after it, in descending order with a time before that millisecond after it. -/
theorem listing_returns_all (like : String → String → Bool) (search : Option String) {table : List TenantRow}
    (distinct : table.Nodup) {limit : Nat} (positive : 0 < limit) {direction : Direction}
    {orderBy : Nat → List TenantRow → List TenantRow} (orders : ∀ i, Orders direction (orderBy i)) :
    ReturnsAll orderBy (searched like search table) limit direction ↔
      Boundaries limit direction (((searched like search table).map TenantRow.createdAt).insertionSort
        (Precedes direction)) := by
  have all := perm_insertionSort (Precedes direction) ((searched like search table).map TenantRow.createdAt)
  have total : Std.Total (Precedes direction) := ⟨fun a b => by cases direction <;> simp only [Precedes] <;> omega⟩
  have trans : IsTrans Int (Precedes direction) :=
    ⟨fun a b c => by cases direction <;> simp only [Precedes] <;> omega⟩
  have sorted := pairwise_insertionSort (Precedes direction) ((searched like search table).map TenantRow.createdAt)
  have every : (searched like search table).filter (past direction none) = searched like search table :=
    filter_eq_self.mpr (fun _ _ => rfl)
  have selected : (((searched like search table).map TenantRow.createdAt).insertionSort (Precedes direction)).Perm
      (((searched like search table).filter (past direction none)).map TenantRow.createdAt) := by
    rw [every]
    exact all
  have distinct' : (searched like search table).Nodup := by
    unfold searched
    split
    · exact distinct
    · exact distinct
    · exact distinct.filter _
  constructor
  · rintro ⟨fuel, pages, ended, once⟩
    exact boundaries_of_follow orders positive distinct' ended (every.symm ▸ once) sorted selected
  intro apart
  obtain ⟨pages, ended, once⟩ := follow_of_boundaries 0 orders positive sorted selected apart le_rfl
  exact ⟨_, pages, ended, every ▸ once⟩

/- the order of a database that gives equal times as they are in the table -/
def stableOrder (direction : Direction) (rows : List TenantRow) : List TenantRow :=
  rows.insertionSort (fun s t => Precedes direction s.createdAt t.createdAt)

theorem stableOrder_orders (direction : Direction) : Orders direction (stableOrder direction) := by
  have total : Std.Total (fun s t : TenantRow => Precedes direction s.createdAt t.createdAt) :=
    ⟨fun a b => by cases direction <;> simp only [Precedes] <;> omega⟩
  have trans : IsTrans TenantRow (fun s t => Precedes direction s.createdAt t.createdAt) :=
    ⟨fun a b c => by cases direction <;> simp only [Precedes] <;> omega⟩
  exact fun rows => ⟨perm_insertionSort _ rows, pairwise_map.mpr (pairwise_insertionSort _ rows)⟩

theorem whole_milliseconds_returned : ReturnsAll (fun _ => stableOrder .asc)
    (searched (fun _ _ => true) (some "a") [⟨"2", "ab", 5000⟩, ⟨"1", "a", 3000⟩]) 1 .asc :=
  (listing_returns_all (fun _ _ => true) (some "a") (by decide) one_pos (fun _ => stableOrder_orders .asc)).mpr
    ((@boundaries_cons 1 .asc [] _ _ _ rfl).mpr ⟨⟨rfl, by decide⟩, boundaries_short le_rfl⟩)

/-- Two tenants of the same time, one on a page: the second one is never returned. -/
theorem same_time_left_out :
    ¬ ReturnsAll (fun _ => stableOrder .desc) [⟨"1", "a", 3000⟩, ⟨"2", "b", 3000⟩] 1 .desc := by
  rintro ⟨fuel, pages, ended, once⟩
  match fuel with
  | 0 | 1 => contradiction
  | n + 2 =>
    obtain rfl : [[⟨"1", "a", 3000⟩], []] = pages := Option.some.inj ended
    exact absurd once.length_eq (by decide)

end HostingPlatform.Tenants.Listing
