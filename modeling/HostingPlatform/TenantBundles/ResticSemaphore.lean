import HostingPlatform.Js.Number
import HostingPlatform.Transition

/-! The semaphore that bounds how many restic processes run at once. -/
namespace HostingPlatform.TenantBundles.Restic

open Js Transition

/- a waiter is a call of `acquire`, by its place among all calls -/
structure ResticConcurrencySemaphore where
  (cap inFlight : Int)
  waiters : List Nat
  deriving DecidableEq

def construct (cap : Number) : Except String ResticConcurrencySemaphore :=
  match cap with
  | .finite q =>
    if q < 1 then .error "ResticConcurrencySemaphore: cap must be a positive integer" else .ok ⟨⌊q⌋, 0, []⟩
  | _ => .error "ResticConcurrencySemaphore: cap must be a positive integer"

namespace ResticConcurrencySemaphore

/- the call that is given a handle now, if one is -/
def acquire (s : ResticConcurrencySemaphore) (call : Nat) : ResticConcurrencySemaphore × Option Nat :=
  if s.inFlight < s.cap then ({ s with inFlight := s.inFlight + 1 }, some call)
  else ({ s with waiters := s.waiters ++ [call] }, none)

def release (s : ResticConcurrencySemaphore) : ResticConcurrencySemaphore × Option Nat :=
  let inFlight := s.inFlight - 1
  match s.waiters with
  | [] => ({ s with inFlight }, none)
  | next :: waiters => ({ s with inFlight := inFlight + 1, waiters }, some next)

end ResticConcurrencySemaphore

inductive Action where
  | acquire
  | release (call : Nat)

/- how many calls there have been, which have been given handles, in this order, and whose are not released yet -/
structure Use where
  semaphore : ResticConcurrencySemaphore
  calls : Nat
  (granted outstanding : List Nat)
  deriving DecidableEq

def Use.initial (s : ResticConcurrencySemaphore) : Use := ⟨s, 0, [], []⟩

/- a handle is released once, after it has been given -/
def step (u : Use) : Action → Option Use
  | .acquire =>
    let (s, given) := u.semaphore.acquire u.calls
    some ⟨s, u.calls + 1, u.granted ++ given.toList, given.toList ++ u.outstanding⟩
  | .release call =>
    if call ∈ u.outstanding then
      let (s, given) := u.semaphore.release
      some ⟨s, u.calls, u.granted ++ given.toList, given.toList ++ u.outstanding.erase call⟩
    else none

/-- The counter counts the handles, a call waits only while all of them are given, and no call overtakes another. -/
structure Fair (u : Use) : Prop where
  counted : u.semaphore.inFlight = u.outstanding.length
  within : u.semaphore.inFlight ≤ u.semaphore.cap
  full : u.semaphore.waiters ≠ [] → u.semaphore.inFlight = u.semaphore.cap
  inOrder : u.granted ++ u.semaphore.waiters = List.range u.calls

variable {cap : Number} {s : ResticConcurrencySemaphore} {u v : Use} {a : Action}

theorem construct_bounds (made : construct cap = .ok s) : 1 ≤ s.cap ∧ s.inFlight = 0 ∧ s.waiters = [] := by
  unfold construct at made
  split at made
  · split at made
    · cases made
    rename_i q enough
    cases made
    exact ⟨Int.le_floor.mpr (by simpa using enough), rfl, rfl⟩
  · cases made

theorem fair_initial (made : construct cap = .ok s) : Fair (Use.initial s) := by
  obtain ⟨positive, free, empty⟩ := construct_bounds made
  exact ⟨by simp [Use.initial, free], by simp only [Use.initial]; omega, fun waits => absurd empty waits,
    by simp [Use.initial, empty]⟩

theorem fair_step (fair : Fair u) (taken : step u a = some v) : Fair v ∧ v.semaphore.cap = u.semaphore.cap := by
  obtain ⟨counted, within, full, inOrder⟩ := fair
  cases a with
  | acquire =>
    simp only [step, ResticConcurrencySemaphore.acquire] at taken
    split at taken
    · rename_i free
      have none : u.semaphore.waiters = [] := by
        by_contra waits
        have := full waits
        omega
      cases taken
      refine ⟨⟨by simp [counted], by simp only; omega, fun waits => absurd none waits, ?_⟩, rfl⟩
      simpa [none, List.range_succ] using inOrder
    · cases taken
      refine ⟨⟨counted, within, fun _ => by simp only; omega, ?_⟩, rfl⟩
      simpa [List.range_succ] using congrArg (· ++ [u.calls]) inOrder
  | release call =>
    simp only [step, ResticConcurrencySemaphore.release] at taken
    split at taken
    · rename_i there
      have left := List.length_erase_of_mem there
      have some := List.length_pos_of_mem there
      split at taken
      · rename_i none
        cases taken
        refine ⟨⟨by simp; omega, by simp only; omega, fun waits => absurd none waits, ?_⟩, rfl⟩
        simpa [none] using inOrder
      rename_i next waiters found
      have before := full (by simp [found])
      cases taken
      refine ⟨⟨by simp; omega, by simp only; omega, fun _ => by simp only; omega, ?_⟩, rfl⟩
      simpa [found] using inOrder
    · cases taken

theorem fair_run (fair : Fair u) {actions : List Action} (ran : exec step u actions = some v) :
    Fair v ∧ v.semaphore.cap = u.semaphore.cap := by
  induction actions generalizing u with
  | nil =>
    cases ran
    exact ⟨fair, rfl⟩
  | cons a rest ih =>
    obtain ⟨t, taken, later⟩ := exec_cons ran
    obtain ⟨fair', same⟩ := fair_step fair taken
    obtain ⟨last, capped⟩ := ih fair' later
    exact ⟨last, capped.trans same⟩

/-- At most as many handles as the cap are out; they are given in the order of the calls, and the calls that are
left without one wait only while the cap is reached. -/
theorem semaphore_fair (made : construct cap = .ok s) {actions : List Action}
    (ran : exec step (Use.initial s) actions = some u) :
    (u.outstanding.length : Int) ≤ s.cap ∧ u.granted <+: List.range u.calls ∧
      ((u.outstanding.length : Int) < s.cap → u.granted = List.range u.calls) := by
  obtain ⟨⟨counted, within, full, inOrder⟩, same⟩ := fair_run (fair_initial made) ran
  have capped : u.semaphore.cap = s.cap := same
  refine ⟨by omega, ⟨_, inOrder⟩, fun free => ?_⟩
  have none : u.semaphore.waiters = [] := by
    by_contra waits
    have := full waits
    omega
  simpa [none] using inOrder

theorem semaphore_fair_handed_on : ∃ u, exec step (Use.initial ⟨1, 0, []⟩) [.acquire, .acquire, .acquire, .release 0] =
    some u ∧ (u.outstanding.length : Int) ≤ 1 ∧ u.granted <+: List.range u.calls := by
  have ran : exec step (Use.initial ⟨1, 0, []⟩) [.acquire, .acquire, .acquire, .release 0] =
      some ⟨⟨1, 1, [2]⟩, 3, [0, 1], [1]⟩ := by decide
  have fair := semaphore_fair (by decide : construct (.finite 1) = .ok ⟨1, 0, []⟩) ran
  exact ⟨_, ran, fair.1, fair.2.1⟩

end HostingPlatform.TenantBundles.Restic
