import HostingPlatform.Transition
import Mathlib.Data.List.Nodup

/-! The gate that caps the captures of all replicas: a table with a row for each slot, the
statements that the holders of slots run on it, and the sweep that reaps what they left. -/
namespace HostingPlatform.TenantBundles.ClusterConcurrency

open List Transition

inductive Component where
  | files | mailboxes | config | secrets
  deriving DecidableEq

structure Key where
  bundleId : Nat
  component : Component
  deriving DecidableEq

/- a row of tenant_bundle_in_flight; the times are those of the database, in milliseconds -/
structure InFlight where
  key : Key
  refreshedAt : Int

/- the primary key is (bundle_id, component) -/
structure InFlights where
  rows : List InFlight
  keyed : (rows.map InFlight.key).Nodup

def staleAfterMs : Int := 5 * 60 * 1000

def InFlight.active (now : Int) (r : InFlight) : Bool := decide (now - staleAfterMs < r.refreshedAt)

namespace InFlights

open List

/- SELECT COUNT(*) … WHERE refreshed_at > NOW() - STALE_AFTER_MS -/
def countActive (t : InFlights) (now : Int) : Nat := (t.rows.filter (InFlight.active now)).length

theorem keyed_filter {rows : List InFlight} (keyed : (rows.map InFlight.key).Nodup)
    (p : InFlight → Bool) : ((rows.filter p).map InFlight.key).Nodup :=
  keyed.sublist (filter_sublist.map InFlight.key)

/- INSERT … ON CONFLICT (bundle_id, component) DO UPDATE -/
def upsert (t : InFlights) (key : Key) (now : Int) : InFlights where
  rows := ⟨key, now⟩ :: t.rows.filter (fun r => r.key != key)
  keyed := by
    rw [List.map_cons, List.nodup_cons]
    constructor
    · simp
    · exact keyed_filter t.keyed _

def refreshRow (key : Key) (now : Int) (r : InFlight) : InFlight :=
  if r.key = key then { r with refreshedAt := now } else r

theorem refreshRow_key (key : Key) (now : Int) (r : InFlight) : (refreshRow key now r).key = r.key := by
  unfold refreshRow
  split <;> rfl

/- UPDATE … SET refreshed_at = NOW(); it is no error that no row has the key -/
def refresh (t : InFlights) (key : Key) (now : Int) : InFlights where
  rows := t.rows.map (refreshRow key now)
  keyed := by
    have same : InFlight.key ∘ refreshRow key now = InFlight.key := funext (refreshRow_key key now)
    rw [List.map_map, same]
    exact t.keyed

def delete (t : InFlights) (key : Key) : InFlights :=
  ⟨t.rows.filter (fun r => r.key != key), keyed_filter t.keyed _⟩

def reapStaleInFlight (t : InFlights) (now : Int) : InFlights :=
  ⟨t.rows.filter (fun r => !decide (r.refreshedAt < now - staleAfterMs * 2)), keyed_filter t.keyed _⟩

end InFlights

/- where a caller is that acquireGlobalSlot has given a handle: its last heartbeats went well, one
failed, or release was called and its DELETE is still to run -/
inductive Phase where
  | held | missedHeartbeat | releasing
  deriving DecidableEq

structure SlotHandle where
  id : Nat
  key : Key
  phase : Phase

/- a transaction of tryAcquireOnce that has the advisory lock and has found a slot; its NOW() is
the time of its begin -/
structure Acquiring where
  id : Nat
  key : Key
  now : Int

structure Gate where
  inFlight : InFlights
  lock : Option Acquiring
  handles : List SlotHandle

def Gate.initial (inFlight : InFlights) : Gate := ⟨inFlight, none, []⟩

/- the statements of the replicas, in any order. `crash` is the end of a process without one. -/
inductive Action where
  | count (id : Nat) (key : Key) (now : Int)
  | insert
  | rollback
  | heartbeat (id : Nat) (now : Int)
  | heartbeatFails (id : Nat)
  | release (id : Nat)
  | deleteSlot (id : Nat)
  | deleteFails (id : Nat)
  | crash (id : Nat)
  | reap (now : Int)
  deriving DecidableEq

def Gate.find (g : Gate) (id : Nat) : Option SlotHandle := g.handles.find? (fun h => h.id == id)

def Gate.without (g : Gate) (id : Nat) : List SlotHandle := g.handles.filter (fun h => h.id != id)

def moved (id : Nat) (phase : Phase) (h : SlotHandle) : SlotHandle :=
  if h.id = id then { h with phase } else h

def Gate.move (g : Gate) (id : Nat) (phase : Phase) : List SlotHandle := g.handles.map (moved id phase)

/-- Where the cap is 0 a caller gets a handle at once, which stands for no slot. -/
def step (cap : Nat) (g : Gate) : Action → Option Gate
  | .count id key now =>
    if cap = 0 then some g
    else if g.lock.isSome then none
    else if (g.find id).isSome then none
    else if cap ≤ g.inFlight.countActive now then some g
    else some { g with lock := some ⟨id, key, now⟩ }
  | .insert => g.lock.map fun a =>
    { inFlight := g.inFlight.upsert a.key a.now, lock := none, handles := ⟨a.id, a.key, .held⟩ :: g.handles }
  | .rollback => g.lock.map fun _ => { g with lock := none }
  | .heartbeat id now => (g.find id).map fun h => { g with inFlight := g.inFlight.refresh h.key now }
  | .heartbeatFails id => (g.find id).bind fun h =>
    if h.phase = .releasing then none else some { g with handles := g.move id .missedHeartbeat }
  | .release id => (g.find id).bind fun h =>
    if h.phase = .releasing then some g else some { g with handles := g.move id .releasing }
  | .deleteSlot id => (g.find id).bind fun h =>
    if h.phase = .releasing then
      some { g with inFlight := g.inFlight.delete h.key, handles := g.without id }
    else none
  | .deleteFails id => (g.find id).bind fun h =>
    if h.phase = .releasing then some { g with handles := g.without id } else none
  | .crash id => (g.find id).map fun _ => { g with handles := g.without id }
  | .reap now => some { g with inFlight := g.inFlight.reapStaleInFlight now }

/- those who believe that they have a slot -/
def Gate.holders (g : Gate) : List SlotHandle := g.handles.filter (fun h => h.phase == .held)

/- no slot is taken under the key of a handle whose DELETE is still to run -/
def Unshared (g : Gate) : Action → Prop
  | .insert => ∀ a ∈ g.lock, ∀ h ∈ g.handles, h.key ≠ a.key
  | _ => True

/- whoever counts finds the row of every holder, and finds it fresh -/
def Punctual (g : Gate) : Action → Prop
  | .count _ _ now => ∀ h ∈ g.holders, ∃ r ∈ g.inFlight.rows, r.key = h.key ∧ r.active now = true
  | _ => True

instance decUnshared (g : Gate) (a : Action) : Decidable (Unshared g a) := by
  unfold Unshared
  split <;> infer_instance

instance decPunctual (g : Gate) (a : Action) : Decidable (Punctual g a) := by
  unfold Punctual
  split <;> infer_instance

def Distinct (g : Gate) : Prop := (g.handles.map SlotHandle.key).Nodup

structure Within (cap : Nat) (g : Gate) : Prop where
  distinct : Distinct g
  holders : g.holders.length ≤ cap
  acquiring : g.lock.isSome = true → g.holders.length < cap

theorem moved_key (id : Nat) (phase : Phase) (h : SlotHandle) : (moved id phase h).key = h.key := by
  unfold moved
  split <;> rfl

theorem keys_move (g : Gate) (id : Nat) (phase : Phase) :
    (g.move id phase).map SlotHandle.key = g.handles.map SlotHandle.key := by
  have same : SlotHandle.key ∘ moved id phase = SlotHandle.key := funext (moved_key id phase)
  rw [Gate.move, map_map, same]

theorem held_move_le {phase : Phase} (given : phase ≠ .held) (id : Nat) (l : List SlotHandle) :
    ((l.map (moved id phase)).filter (fun h => h.phase == .held)).length ≤
      (l.filter (fun h => h.phase == .held)).length := by
  induction l with
  | nil => exact Nat.le_refl _
  | cons h rest ih =>
    rw [map_cons, filter_cons, filter_cons]
    by_cases own : h.id = id
    · have gone : ((moved id phase h).phase == .held) = false := by
        simp [moved, own, given]
      rw [gone, if_neg Bool.false_ne_true]
      split
      · exact Nat.le_succ_of_le ih
      · exact ih
    · have same : moved id phase h = h := if_neg own
      rw [same]
      split
      · exact Nat.succ_le_succ ih
      · exact ih

theorem held_without_le (g : Gate) (id : Nat) :
    ((g.without id).filter (fun h => h.phase == .held)).length ≤ g.holders.length :=
  (filter_sublist.filter _).length_le

variable {cap : Nat} {g g' : Gate} {a : Action}

theorem step_shrinks (taken : step cap g a = some g') (other : a ≠ .insert) :
    (g'.handles.map SlotHandle.key).Sublist (g.handles.map SlotHandle.key) ∧ g'.holders.length ≤ g.holders.length ∧
      (g'.lock.isSome = true → g.lock.isSome = true ∨
        ∃ id key now, a = .count id key now ∧ g.inFlight.countActive now < cap) := by
  cases a with
  | insert => contradiction
  | count id key now =>
    simp only [step] at taken
    split at taken
    · cases taken
      exact ⟨Sublist.refl _, Nat.le_refl _, .inl⟩
    split at taken
    · contradiction
    split at taken
    · contradiction
    split at taken
    · cases taken
      exact ⟨Sublist.refl _, Nat.le_refl _, .inl⟩
    rename_i few
    cases taken
    exact ⟨Sublist.refl _, Nat.le_refl _, fun _ => .inr ⟨id, key, now, rfl, Nat.lt_of_not_le few⟩⟩
  | rollback =>
    obtain ⟨_, _, rfl⟩ := Option.map_eq_some_iff.mp taken
    exact ⟨Sublist.refl _, Nat.le_refl _, .inl ∘ fun locked => absurd locked (by simp)⟩
  | heartbeat id now =>
    obtain ⟨_, _, rfl⟩ := Option.map_eq_some_iff.mp taken
    exact ⟨Sublist.refl _, Nat.le_refl _, .inl⟩
  | heartbeatFails id =>
    obtain ⟨h, _, taken⟩ := Option.bind_eq_some_iff.mp taken
    split at taken
    · contradiction
    cases taken
    refine ⟨?_, held_move_le (by decide) id g.handles, .inl⟩
    rw [keys_move]
  | release id =>
    obtain ⟨h, _, taken⟩ := Option.bind_eq_some_iff.mp taken
    split at taken
    · cases taken
      exact ⟨Sublist.refl _, Nat.le_refl _, .inl⟩
    cases taken
    refine ⟨?_, held_move_le (by decide) id g.handles, .inl⟩
    rw [keys_move]
  | deleteSlot id | deleteFails id =>
    obtain ⟨h, _, taken⟩ := Option.bind_eq_some_iff.mp taken
    split at taken
    · cases taken
      exact ⟨filter_sublist.map _, held_without_le g id, .inl⟩
    · contradiction
  | crash id =>
    obtain ⟨_, _, rfl⟩ := Option.map_eq_some_iff.mp taken
    exact ⟨filter_sublist.map _, held_without_le g id, .inl⟩
  | reap now =>
    cases taken
    exact ⟨Sublist.refl _, Nat.le_refl _, .inl⟩

theorem distinct_initial (inFlight : InFlights) : Distinct (Gate.initial inFlight) := nodup_nil

theorem distinct_step (distinct : Distinct g) (unshared : Unshared g a) (taken : step cap g a = some g') :
    Distinct g' := by
  by_cases insert : a = .insert
  · subst insert
    obtain ⟨acquiring, locked, rfl⟩ := Option.map_eq_some_iff.mp taken
    refine nodup_cons.mpr ⟨?_, distinct⟩
    intro mem
    obtain ⟨h, there, same⟩ := mem_map.mp mem
    exact unshared acquiring locked h there same
  · exact distinct.sublist (step_shrinks taken insert).1

theorem holders_le_count {now : Int} (distinct : Distinct g)
    (fresh : ∀ h ∈ g.holders, ∃ r ∈ g.inFlight.rows, r.key = h.key ∧ r.active now = true) :
    g.holders.length ≤ g.inFlight.countActive now := by
  have keys : (g.holders.map SlotHandle.key).Nodup := distinct.sublist (filter_sublist.map _)
  have counted : g.holders.map SlotHandle.key ⊆
      (g.inFlight.rows.filter (InFlight.active now)).map InFlight.key := by
    intro key mem
    obtain ⟨h, held, rfl⟩ := mem_map.mp mem
    obtain ⟨r, there, same, active⟩ := fresh h held
    exact mem_map.mpr ⟨r, mem_filter.mpr ⟨there, active⟩, same⟩
  have le := keys.length_le_of_subset counted
  rwa [length_map, length_map] at le

theorem within_initial (cap : Nat) (inFlight : InFlights) : Within cap (Gate.initial inFlight) where
  distinct := distinct_initial inFlight
  holders := Nat.zero_le cap
  acquiring := fun locked => absurd locked Bool.false_ne_true

theorem within_step (within : Within cap g) (ok : Unshared g a ∧ Punctual g a)
    (taken : step cap g a = some g') : Within cap g' := by
  have distinct := distinct_step within.distinct ok.1 taken
  by_cases insert : a = .insert
  · subst insert
    obtain ⟨acquiring, locked, rfl⟩ := Option.map_eq_some_iff.mp taken
    have room := within.acquiring (by rw [locked]; rfl)
    constructor
    · exact distinct
    · exact room
    · intro locked'
      contradiction
  · obtain ⟨_, fewer, locks⟩ := step_shrinks taken insert
    constructor
    · exact distinct
    · exact Nat.le_trans fewer within.holders
    intro locked
    rcases locks locked with before | ⟨id, key, now, rfl, room⟩
    · exact Nat.lt_of_le_of_lt fewer (within.acquiring before)
    · have counted := holders_le_count within.distinct ok.2
      omega

/-- The DELETE of one handle leaves the row of every other. -/
def KeepsOthers (cap : Nat) (g : Gate) : Prop :=
  ∀ id g', step cap g (.deleteSlot id) = some g' → ∀ h ∈ g.handles, h.id ≠ id →
    ∀ r ∈ g.inFlight.rows, r.key = h.key → r ∈ g'.inFlight.rows

theorem Distinct.keeps_others (distinct : Distinct g) : KeepsOthers cap g := by
  intro id g' taken h mem other r there own
  obtain ⟨released, found, taken⟩ := Option.bind_eq_some_iff.mp taken
  split at taken
  · cases taken
    have its : released.id = id := by simpa using find?_some found
    refine mem_filter.mpr ⟨there, bne_iff_ne.mpr ?_⟩
    intro same
    have one : h = released := inj_on_of_nodup_map distinct mem (mem_of_find?_eq_some found) (own.symm.trans same)
    exact other (one ▸ its)
  · contradiction

/-- Where no key is shared, a release leaves the slots of others; where also no holder is late,
the holders are never more than the cap. -/
theorem slots_within_cap (cap : Nat) (inFlight : InFlights) (actions : List Action) (g : Gate)
    (unshared : Guarded (step cap) Unshared (Gate.initial inFlight) actions)
    (run : exec (step cap) (Gate.initial inFlight) actions = some g) : KeepsOthers cap g ∧
      (Guarded (step cap) Punctual (Gate.initial inFlight) actions → g.holders.length ≤ cap) := by
  constructor
  · have distinct : Distinct g := guarded_invariant
      (fun _ _ _ inv ok taken => distinct_step inv ok taken) (distinct_initial inFlight) unshared run
    exact distinct.keeps_others
  intro punctual
  have within : Within cap g := guarded_invariant
    (fun _ _ _ inv ok taken => within_step inv ok taken) (within_initial cap inFlight)
    (unshared.and punctual) run
  exact within.holders

def noRows : InFlights := ⟨[], List.nodup_nil⟩

/- one capture takes its slot, keeps it with a heartbeat and gives it back, and the next takes it -/
def inTurn : List Action :=
  [.count 1 ⟨1, .files⟩ 0, .insert, .heartbeat 1 60000, .release 1, .deleteSlot 1,
    .count 2 ⟨2, .files⟩ 70000, .insert]

theorem slots_within_cap_in_turn : ∃ g, exec (step 1) (Gate.initial noRows) inTurn = some g ∧ KeepsOthers 1 g ∧
      g.holders.length ≤ 1 := by
  refine ⟨_, rfl, ?_⟩
  have kept := slots_within_cap 1 noRows inTurn _ (by decide) rfl
  exact ⟨kept.1, kept.2 (by decide)⟩

/-- A holder without a heartbeat for five minutes is not counted: with a cap of one there are two. -/
theorem stale_holder_not_counted : ¬ ∀ (cap : Nat) (inFlight : InFlights) (actions : List Action) (g : Gate),
      exec (step cap) (Gate.initial inFlight) actions = some g → KeepsOthers cap g ∧ g.holders.length ≤ cap := by
  intro always
  have kept := always 1 noRows [.count 1 ⟨1, .files⟩ 0, .insert, .count 2 ⟨2, .files⟩ 300000, .insert] _ rfl
  exact absurd kept.2 (by decide)

end HostingPlatform.TenantBundles.ClusterConcurrency
