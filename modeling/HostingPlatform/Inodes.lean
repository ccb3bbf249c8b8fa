import Mathlib.Data.List.Nodup

/-! A volume as directory entries that point at inodes. No place holds two entries. A file or a
directory is gone when no entry points at it any more, whatever its name was. -/
namespace HostingPlatform.Inodes

open List

abbrev Name := List Char

abbrev Place := Nat × Name

structure Entry where
  place : Place
  inode : Nat
  deriving DecidableEq

/- what a file holds; a directory holds nothing -/
abbrev Node := Option (List Char)

structure Volume where
  entries : List Entry
  placed : (entries.map Entry.place).Nodup
  nodes : Nat → Node

namespace Volume

open List

def find (v : Volume) (p : Place) : Option Nat :=
  (v.entries.find? (fun e => e.place = p)).map Entry.inode

def lookup (v : Volume) : Nat → List Name → Option Nat
  | d, [] => some d
  | d, n :: rest => (v.find (d, n)).bind (fun i => lookup v i rest)

def locate (v : Volume) (root : Nat) (ns : List Name) : Option Place :=
  match ns.getLast? with
  | none => none
  | some n => (v.lookup root ns.dropLast).map (·, n)

def remove (v : Volume) (p : Place) : Volume where
  entries := v.entries.filter (fun e => e.place ≠ p)
  placed := v.placed.sublist (List.filter_sublist.map Entry.place)
  nodes := v.nodes

def add (v : Volume) (e : Entry) : Volume where
  entries := e :: (v.remove e.place).entries
  placed := by
    refine List.nodup_cons.mpr ⟨?_, (v.remove e.place).placed⟩
    intro mem
    obtain ⟨old, kept, same⟩ := List.mem_map.mp mem
    have differs := (List.mem_filter.mp kept).2
    simp [same] at differs
  nodes := v.nodes

def setNode (v : Volume) (i : Nat) (node : Node) : Volume :=
  { v with nodes := fun j => if j = i then node else v.nodes j }

def linked (v : Volume) (i : Nat) : Bool := v.entries.any (fun e => e.inode == i)

def isDirectory (v : Volume) (i : Nat) : Bool := (v.nodes i).isNone

def isEmpty (v : Volume) (i : Nat) : Bool := v.entries.all (fun e => e.place.1 != i)

end Volume

inductive Effect where
  | write (inode : Nat) (content : List Char)
  | create (e : Entry) (node : Node)
  | remove (p : Place)
  | rename (source target : Place)

/-- A new entry needs a free place and an inode of its own; a rename takes the place of what is there. -/
def Effect.apply (v : Volume) : Effect → Volume
  | .write i content => v.setNode i (some content)
  | .create e node =>
    if v.find e.place = none ∧ v.linked e.inode = false then (v.setNode e.inode node).add e else v
  | .remove p => v.remove p
  | .rename source target =>
    match v.find source with
    | none => v
    | some i => (v.remove source).add ⟨target, i⟩

/- nothing is new and nothing has changed -/
structure Shrinks (v w : Volume) : Prop where
  entries : ∀ e ∈ w.entries, e ∈ v.entries
  nodes : w.nodes = v.nodes

def Keeps (v w : Volume) : Prop := ∀ i, v.linked i = true → w.linked i = true

theorem Shrinks.refl (v : Volume) : Shrinks v v := ⟨fun _ mem => mem, rfl⟩

variable {v : Volume} {i : Nat} {p : Place}

theorem Shrinks.trans {u w : Volume} (first : Shrinks u v) (second : Shrinks v w) : Shrinks u w :=
  ⟨fun e mem => first.entries e (second.entries e mem), second.nodes.trans first.nodes⟩

theorem Keeps.refl (v : Volume) : Keeps v v := fun _ linked => linked

theorem Keeps.trans {u w : Volume} (first : Keeps u v) (second : Keeps v w) : Keeps u w :=
  fun i linked => second i (first i linked)

theorem linked_iff : v.linked i = true ↔ ∃ e ∈ v.entries, e.inode = i := by
  simp [Volume.linked]

theorem find_none (none : v.find p = none) : ∀ e ∈ v.entries, e.place ≠ p := by
  intro e mem same
  have absent := find?_eq_none.mp (Option.map_eq_none_iff.mp none) e mem
  exact absent (by simp [same])

theorem find_some (found : v.find p = some i) : (⟨p, i⟩ : Entry) ∈ v.entries := by
  obtain ⟨e, here, same⟩ := Option.map_eq_some_iff.mp found
  have place : e.place = p := by simpa using find?_some here
  rw [← place, ← same]
  exact mem_of_find?_eq_some here

theorem shrinks_remove (v : Volume) (p : Place) : Shrinks v (v.remove p) :=
  ⟨fun _ mem => (mem_filter.mp mem).1, rfl⟩

theorem keeps_setNode (v : Volume) (i : Nat) (node : Node) : Keeps v (v.setNode i node) :=
  fun _ linked => linked

theorem keeps_add {e : Entry} (free : ∀ old ∈ v.entries, old.place = e.place → old.inode = e.inode) :
    Keeps v (v.add e) := by
  intro i linked
  obtain ⟨old, mem, rfl⟩ := linked_iff.mp linked
  refine linked_iff.mpr ?_
  by_cases same : old.place = e.place
  · exact ⟨e, mem_cons_self, (free old mem same).symm⟩
  · exact ⟨old, mem_cons_of_mem e (mem_filter.mpr ⟨mem, by simpa using same⟩), rfl⟩

theorem keeps_rename {source target : Place} (free : v.find target = none) :
    Keeps v (Effect.apply v (.rename source target)) := by
  cases found : v.find source with
  | none =>
    simp only [Effect.apply, found]
    exact Keeps.refl v
  | some i =>
    simp only [Effect.apply, found]
    intro j linked
    obtain ⟨old, mem, rfl⟩ := linked_iff.mp linked
    refine linked_iff.mpr ?_
    have elsewhere := find_none free old mem
    by_cases moved : old.place = source
    · refine ⟨⟨target, i⟩, mem_cons_self, ?_⟩
      have same := inj_on_of_nodup_map v.placed mem (find_some found) moved
      rw [same]
    · refine ⟨old, mem_cons_of_mem _ ?_, rfl⟩
      have left : old ∈ (v.remove source).entries := mem_filter.mpr ⟨mem, by simpa using moved⟩
      exact mem_filter.mpr ⟨left, by simpa using elsewhere⟩

theorem keeps_write (v : Volume) (i : Nat) (content : List Char) :
    Keeps v (Effect.apply v (.write i content)) := keeps_setNode v i (some content)

theorem keeps_create (v : Volume) (e : Entry) (node : Node) : Keeps v (Effect.apply v (.create e node)) := by
  rw [Effect.apply]
  split
  · rename_i free
    refine (keeps_setNode v e.inode node).trans (keeps_add ?_)
    intro old mem same
    exact absurd same (find_none free.1 old mem)
  · exact Keeps.refl v

end HostingPlatform.Inodes
