import Mathlib.Data.List.Nodup

/-! Plain objects as maps from texts: an object with two entries of one key cannot be built.
The keys stand in the order in which they were first assigned. -/
namespace HostingPlatform.Js

open List

structure Record (V : Type) where
  entries : List (String × V)
  keyed : (entries.map Prod.fst).Nodup

namespace Record

open List

variable {V : Type}

def empty : Record V := ⟨[], List.nodup_nil⟩

def keys (r : Record V) : List String := r.entries.map Prod.fst

def values (r : Record V) : List V := r.entries.map Prod.snd

def get (r : Record V) (key : String) : Option V := r.entries.lookup key

def overwrite (key : String) (v : V) (entry : String × V) : String × V :=
  if entry.1 = key then (key, v) else entry

theorem overwrite_key (key : String) (v : V) (entry : String × V) : (overwrite key v entry).1 = entry.1 := by
  unfold overwrite
  split
  · rename_i same
    exact same.symm
  · rfl

/- `r[key] = v` -/
def set (r : Record V) (key : String) (v : V) : Record V :=
  if fresh : key ∈ r.entries.map Prod.fst then
    { entries := r.entries.map (overwrite key v)
      keyed := by
        have same : Prod.fst ∘ overwrite key v = Prod.fst := by
          funext entry
          exact overwrite_key key v entry
        rw [List.map_map, same]
        exact r.keyed }
  else
    { entries := r.entries ++ [(key, v)]
      keyed := by
        rw [List.map_append, List.map_cons, List.map_nil]
        exact List.nodup_append'.mpr
          ⟨r.keyed, List.nodup_singleton key, List.disjoint_singleton.mpr fresh⟩ }

variable {r : Record V} {key : String} {v : V} {entry : String × V} {es : List (String × V)}

theorem mem_set (mem : entry ∈ (r.set key v).entries) : entry ∈ r.entries ∨ entry = (key, v) := by
  unfold set at mem
  split at mem
  · obtain ⟨old, memOld, rfl⟩ := mem_map.mp mem
    unfold overwrite
    split
    · exact .inr rfl
    · exact .inl memOld
  · rcases mem_append.mp mem with old | new
    · exact .inl old
    · exact .inr (mem_singleton.mp new)

theorem eq_of_entries {r' : Record V} (same : r.entries = r'.entries) : r = r' := by
  cases r
  cases r'
  cases same
  rfl

theorem get_of_mem (mem : (key, v) ∈ r.entries) : r.get key = some v := by
  obtain ⟨before, after, split⟩ := append_of_mem mem
  have distinct := r.keyed
  rw [split, map_append] at distinct
  refine lookup_eq_some_iff.mpr ⟨before, after, split, ?_⟩
  intro entry earlier
  refine bne_iff_ne.mpr ?_
  intro same
  exact (nodup_append.mp distinct).2.2 entry.1 (mem_map_of_mem earlier) key mem_cons_self same.symm

theorem mem_of_get (found : r.get key = some v) : (key, v) ∈ r.entries := by
  obtain ⟨before, after, split, _⟩ := lookup_eq_some_iff.mp found
  rw [split]
  exact mem_append_right _ mem_cons_self

theorem entries_set (present : key ∈ r.keys) (v : V) : (r.set key v).entries = r.entries.map (overwrite key v) := by
  unfold keys at present
  rw [set, dif_pos present]

theorem keys_set (present : key ∈ r.keys) (v : V) : (r.set key v).keys = r.keys := by
  have same : Prod.fst ∘ overwrite key v = Prod.fst := funext (overwrite_key key v)
  rw [keys, entries_set present, map_map, same]
  rfl

theorem get_set (present : key ∈ r.keys) (v : V) : (r.set key v).get key = some v := by
  apply get_of_mem
  rw [entries_set present]
  obtain ⟨entry, mem, rfl⟩ := mem_map.mp present
  exact mem_map.mpr ⟨entry, mem, if_pos rfl⟩

theorem get_set_other {other : String} (present : key ∈ r.keys) (v : V) (differ : other ≠ key) :
    (r.set key v).get other = r.get other := by
  unfold get
  rw [entries_set present]
  induction r.entries with
  | nil => rfl
  | cons entry rest ih =>
    rw [map_cons, lookup_cons, lookup_cons, ih, overwrite_key]
    by_cases here : other = entry.1
    · have beside : entry.1 ≠ key := here ▸ differ
      rw [overwrite, if_neg beside]
    · rw [beq_eq_false_iff_ne.mpr here]

theorem set_set (present : key ∈ r.keys) (v w : V) : (r.set key v).set key w = r.set key w := by
  apply eq_of_entries
  rw [entries_set (keys_set present v ▸ present), entries_set present, entries_set present, map_map]
  apply map_congr_left
  intro entry _
  by_cases same : entry.1 = key
  · simp [overwrite, same]
  · simp [overwrite, same]

theorem set_get (found : r.get key = some v) : r.set key v = r := by
  have here := mem_of_get found
  apply eq_of_entries
  rw [entries_set (mem_map_of_mem here)]
  conv_rhs => rw [← map_id r.entries]
  apply map_congr_left
  intro entry mem
  unfold overwrite
  split
  · rename_i same
    have again := get_of_mem (show (entry.1, entry.2) ∈ r.entries from mem)
    rw [same, found] at again
    rw [Option.some.inj again, ← same]
    rfl
  · rfl

theorem entries_foldl_set (distinct : ((r.entries ++ es).map Prod.fst).Nodup) :
    (es.foldl (fun r entry => r.set entry.1 entry.2) r).entries = r.entries ++ es := by
  induction es generalizing r with
  | nil => exact (append_nil _).symm
  | cons entry rest ih =>
    have fresh : entry.1 ∉ r.entries.map Prod.fst := by
      intro present
      rw [map_append] at distinct
      exact (nodup_append.mp distinct).2.2 entry.1 present entry.1 mem_cons_self rfl
    have set : (r.set entry.1 entry.2).entries = r.entries ++ [entry] := by
      rw [Record.set, dif_neg fresh]
    have next : (((r.set entry.1 entry.2).entries ++ rest).map Prod.fst).Nodup := by
      rw [set, append_assoc]
      exact distinct
    rw [foldl_cons, ih next, set, append_assoc]
    rfl

theorem mem_foldl_set (mem : entry ∈ (es.foldl (fun r entry => r.set entry.1 entry.2) r).entries) :
    entry ∈ r.entries ∨ entry ∈ es := by
  induction es generalizing r with
  | nil => exact .inl mem
  | cons first rest ih =>
    rcases ih mem with before | later
    · rcases mem_set before with old | new
      · exact .inl old
      · exact .inr (new ▸ mem_cons_self)
    · exact .inr (mem_cons_of_mem first later)

end Record

end HostingPlatform.Js
