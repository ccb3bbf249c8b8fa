import Mathlib.Data.List.Nodup

/-! A database table: rows with a primary key. Every operation is one statement
and keeps the key unique, so a table with two rows of one key cannot be built. -/
namespace HostingPlatform

open List

structure Table (R : Type) (key : R → Nat) where
  rows : List R
  keyed : (rows.map key).Nodup

namespace Table

open List

def empty {R : Type} {key : R → Nat} : Table R key := ⟨[], List.nodup_nil⟩

/- SELECT … WHERE p LIMIT 1 -/
def select {R : Type} {key : R → Nat} (t : Table R key) (p : R → Bool) : Option R :=
  t.rows.find? p

/- SELECT … WHERE p -/
def selectAll {R : Type} {key : R → Nat} (t : Table R key) (p : R → Bool) : List R :=
  t.rows.filter p

def apply {R : Type} (p : R → Bool) (f : R → R) (r : R) : R := if p r then f r else r

/- UPDATE … SET f WHERE p; the assignment leaves the primary key alone -/
def update {R : Type} {key : R → Nat} (t : Table R key) (p : R → Bool) (f : R → R)
    (keeps : ∀ r, key (f r) = key r) : Table R key where
  rows := t.rows.map (apply p f)
  keyed := by
    have same : key ∘ apply p f = key := by
      funext r
      simp only [Function.comp_apply, apply]
      split
      · exact keeps r
      · rfl
    rw [List.map_map, same]
    exact t.keyed

/- INSERT; a duplicate key is an error of the database -/
def insert {R : Type} {key : R → Nat} (t : Table R key) (r : R) : Option (Table R key) :=
  if fresh : key r ∉ t.rows.map key then
    some ⟨r :: t.rows, List.nodup_cons.mpr ⟨fresh, t.keyed⟩⟩
  else none

/- DELETE … WHERE p -/
def delete {R : Type} {key : R → Nat} (t : Table R key) (p : R → Bool) : Table R key where
  rows := t.rows.filter (fun r => !p r)
  keyed := t.keyed.sublist (List.filter_sublist.map key)

/- INSERT … ON CONFLICT (key) DO UPDATE -/
def put {R : Type} {key : R → Nat} (t : Table R key) (r : R) : Table R key where
  rows := r :: t.rows.filter (fun old => key old != key r)
  keyed := by
    refine List.nodup_cons.mpr ⟨?_, t.keyed.sublist (List.filter_sublist.map key)⟩
    intro mem
    obtain ⟨old, memOld, same⟩ := List.mem_map.mp mem
    have differs := (List.mem_filter.mp memOld).2
    simp [same] at differs

instance {R : Type} {key : R → Nat} : Membership R (Table R key) := ⟨fun t r => r ∈ t.rows⟩

variable {R : Type} {key : R → Nat} {t t' : Table R key} {r new : R} {p q : R → Bool} {f : R → R}

theorem mem_rows : r ∈ t ↔ r ∈ t.rows := Iff.rfl

theorem eq_of_key (t : Table R key) {r' : R} (mem : r ∈ t) (mem' : r' ∈ t) (same : key r = key r') : r = r' :=
  inj_on_of_nodup_map t.keyed mem mem' same

theorem not_mem_empty (r : R) : r ∉ (empty : Table R key) := not_mem_nil

theorem mem_of_select (found : t.select p = some r) : r ∈ t ∧ p r = true :=
  ⟨mem_of_find?_eq_some found, find?_some found⟩

theorem select_none (missing : t.select p = none) : ∀ r ∈ t, p r = false := by
  intro r mem
  have absent := find?_eq_none.mp missing r mem
  exact Bool.eq_false_iff.mpr absent

theorem select_key (mem : r ∈ t) : t.select (fun x => key x == key r) = some r := by
  cases found : t.select (fun x => key x == key r) with
  | none =>
    have other := select_none found r mem
    simp at other
  | some x =>
    obtain ⟨there, same⟩ := mem_of_select found
    rw [t.eq_of_key there mem (beq_iff_eq.mp same)]

theorem mem_selectAll : r ∈ t.selectAll p ↔ r ∈ t ∧ p r = true := mem_filter

theorem selectAll_length_le_one (unique : ∀ r ∈ t, ∀ r' ∈ t, p r = true → p r' = true → r = r') :
    (t.selectAll p).length ≤ 1 := by
  have distinct : (t.selectAll p).Nodup := (Nodup.of_map key t.keyed).filter p
  rcases found : t.selectAll p with _ | ⟨r, _ | ⟨r', rest⟩⟩
  · exact Nat.zero_le 1
  · exact Nat.le_refl 1
  have mem : r ∈ t.selectAll p := by simp [found]
  have mem' : r' ∈ t.selectAll p := by simp [found]
  have same : r = r' := unique r (mem_selectAll.mp mem).1 r' (mem_selectAll.mp mem').1
      (mem_selectAll.mp mem).2 (mem_selectAll.mp mem').2
  rw [found, same] at distinct
  simp at distinct

theorem exists_other (k : Nat) (many : 1 < (t.selectAll p).length) : ∃ r ∈ t, p r = true ∧ key r ≠ k := by
  by_contra none
  push Not at none
  have one : (t.selectAll p).length ≤ 1 := by
    refine selectAll_length_le_one ?_
    intro r mem r' mem' selected selected'
    exact t.eq_of_key mem mem' ((none r mem selected).trans (none r' mem' selected').symm)
  omega

theorem one_lt_selectAll {r' : R} (mem : r ∈ t) (mem' : r' ∈ t) (selected : p r = true)
    (selected' : p r' = true) (differ : r ≠ r') : 1 < (t.selectAll p).length := by
  have both := mem_selectAll.mpr ⟨mem, selected⟩
  have both' := mem_selectAll.mpr ⟨mem', selected'⟩
  rcases found : t.selectAll p with _ | ⟨first, _ | ⟨second, rest⟩⟩
  · simp [found] at both
  · rw [found, mem_singleton] at both both'
    exact absurd (both.trans both'.symm) differ
  · simp

theorem left_iff {gone : R → Bool} (k : Nat) (keyed : ∀ r, gone r = true → key r = k) (some : ∃ r ∈ t, p r = true) :
    (∃ r ∈ t, p r = true ∧ gone r = false) ↔
      (t.rows.any (fun r => gone r && p r) = true → 1 < (t.selectAll p).length) := by
  simp only [any_eq_true, Bool.and_eq_true]
  constructor
  · rintro ⟨r, mem, selected, stays⟩ ⟨r', mem', goes, selected'⟩
    refine one_lt_selectAll mem mem' selected selected' ?_
    rintro rfl
    rw [stays] at goes
    contradiction
  intro many
  obtain ⟨r, mem, selected⟩ := some
  by_cases goes : gone r = true
  · obtain ⟨other, there, its, differs⟩ := exists_other k (many ⟨r, mem, goes, selected⟩)
    refine ⟨other, there, its, Bool.eq_false_iff.mpr ?_⟩
    intro gone
    exact differs (keyed other gone)
  · exact ⟨r, mem, selected, Bool.eq_false_iff.mpr goes⟩

section

variable {R : Type} {key : R → Nat} {t : Table R key} {p : R → Bool} {f : R → R} (keeps : ∀ r, key (f r) = key r)
  {r : R}
include keeps

theorem mem_update : r ∈ t.update p f keeps ↔ r ∈ t ∧ p r = false ∨ ∃ old ∈ t, p old = true ∧ f old = r := by
  constructor
  · intro mem
    obtain ⟨old, memOld, rfl⟩ := mem_map.mp mem
    by_cases selected : p old = true
    · rw [apply, if_pos selected]
      exact .inr ⟨old, memOld, selected, rfl⟩
    · rw [apply, if_neg selected]
      exact .inl ⟨memOld, Bool.eq_false_iff.mpr selected⟩
  · rintro (⟨mem, unselected⟩ | ⟨old, memOld, selected, rfl⟩)
    · exact mem_map.mpr ⟨r, mem, by simp [apply, unselected]⟩
    · exact mem_map.mpr ⟨old, memOld, by simp [apply, selected]⟩

theorem apply_mem_update (mem : r ∈ t) : apply p f r ∈ t.update p f keeps :=
  mem_map_of_mem mem

end

theorem apply_column {V : Type} (column : R → V) (p : R → Bool) (f : R → R)
    (kept : ∀ r, column (f r) = column r) (r : R) : column (apply p f r) = column r := by
  unfold apply
  split
  · exact kept r
  · rfl

theorem select_update (keeps : ∀ r, key (f r) = key r) (kept : ∀ r, q (f r) = q r) :
    (t.update p f keeps).select q = (t.select q).map (apply p f) := by
  have same : q ∘ apply p f = q := by
    funext r
    exact apply_column q p f kept r
  rw [select, select, update, find?_map, same]

theorem mem_update_iff (keeps : ∀ r, key (f r) = key r) (mem : r ∈ t) : r ∈ t.update p f keeps ↔ apply p f r = r := by
  constructor
  · intro updated
    obtain ⟨old, there, same⟩ := mem_map.mp updated
    have kept : key old = key r := (apply_column key p f keeps old).symm.trans (congrArg key same)
    rw [t.eq_of_key there mem kept] at same
    exact same
  · intro same
    exact same ▸ apply_mem_update keeps mem

/- … and after two statements -/
theorem mem_update_update_iff {g : R → R} (keepsF : ∀ r, key (f r) = key r)
    (keepsG : ∀ r, key (g r) = key r) (mem : r ∈ t) :
    r ∈ (t.update p f keepsF).update q g keepsG ↔ apply q g (apply p f r) = r := by
  constructor
  · intro updated
    obtain ⟨between, there, same⟩ := mem_map.mp updated
    obtain ⟨old, old_there, rfl⟩ := mem_map.mp there
    have kept : key old = key r := by
      rw [← same, apply_column key q g keepsG, apply_column key p f keepsF]
    rw [t.eq_of_key old_there mem kept] at same
    exact same
  · intro same
    exact same ▸ apply_mem_update keepsG (apply_mem_update keepsF mem)

theorem rows_insert (done : t.insert new = some t') : t'.rows = new :: t.rows := by
  unfold insert at done
  split at done
  · cases done
    rfl
  · contradiction

theorem mem_insert (done : t.insert new = some t') : r ∈ t' ↔ r = new ∨ r ∈ t := by
  rw [mem_rows, rows_insert done]
  exact mem_cons

theorem mem_delete : r ∈ t.delete p ↔ r ∈ t ∧ p r = false := by
  simp [mem_rows, delete]

theorem mem_put : r ∈ t.put new ↔ r = new ∨ r ∈ t ∧ key r ≠ key new := by
  simp [mem_rows, put]

theorem length_selectAll_update (keeps : ∀ r, key (f r) = key r) (kept : ∀ r, q (f r) = q r) :
    ((t.update p f keeps).selectAll q).length = (t.selectAll q).length := by
  have same : q ∘ apply p f = q := by
    funext r
    exact apply_column q p f kept r
  rw [selectAll, selectAll, update, filter_map, length_map, same]

theorem length_selectAll_delete : ((t.delete p).selectAll q).length ≤ (t.selectAll q).length :=
  (filter_sublist.filter q).length_le

theorem length_selectAll_insert (done : t.insert new = some t') :
    (t'.selectAll q).length = (t.selectAll q).length + (q new).toNat := by
  rw [selectAll, rows_insert done, filter_cons]
  cases q new <;> rfl

theorem length_selectAll_put {R : Type} {key : R → Nat} {t : Table R key} {q : R → Bool} {new : R}
    (fresh : ∀ r ∈ t, key r ≠ key new) : ((t.put new).selectAll q).length = (t.selectAll q).length + (q new).toNat := by
  have others : t.rows.filter (fun old => key old != key new) = t.rows := by
    refine filter_eq_self.mpr ?_
    intro r mem
    simpa using fresh r mem
  simp only [selectAll, put, others, filter_cons]
  cases q new <;> rfl

theorem length_selectAll_delete_key {R : Type} {key : R → Nat} {t : Table R key} {q : R → Bool} {r : R} (mem : r ∈ t) :
    ((t.delete (fun x => key x == key r)).selectAll q).length + (q r).toNat = (t.selectAll q).length := by
  obtain ⟨rows, keyed⟩ := t
  simp only [selectAll, delete] at mem ⊢
  induction rows with
  | nil => exact absurd mem not_mem_nil
  | cons x rest ih =>
    have tail := (nodup_cons.mp keyed).2
    rcases mem_cons.mp mem with rfl | later
    · have others : rest.filter (fun y => !(key y == key r)) = rest := by
        refine filter_eq_self.mpr ?_
        intro y there
        have differs : key y ≠ key r := fun same =>
          (nodup_cons.mp keyed).1 (mem_map.mpr ⟨y, there, same⟩)
        simpa using differs
      rw [filter_cons_of_neg (by simp), others, filter_cons]
      cases q r <;> rfl
    · have differs : key x ≠ key r := fun same =>
        (nodup_cons.mp keyed).1 (mem_map.mpr ⟨r, later, same.symm⟩)
      rw [filter_cons_of_pos (by simpa using differs), filter_cons, filter_cons]
      have next := ih tail later
      cases q x
      · exact next
      · simp only [if_true, length_cons]
        omega

end Table

end HostingPlatform
