import Mathlib.Data.List.Nodup

/-! A JMAP mail account as its clients see it. Every change gives the account a new state, and each
email is stamped with the state that its last change gave. A server is asked for a range of the
emails, for emails by their ids, and for what has changed since a state. -/
namespace HostingPlatform.Jmap

open List

structure Email where
  id : String
  blobId : Option String
  mailboxIds : List String
  /- those that are set -/
  keywords : List String
  (receivedAt blob : String)
  changed : Nat
  deriving DecidableEq

structure Mailbox where
  (id name : String)
  (parentId role : Option String)

/- `emails` stand in the order in which a query lists them -/
structure Account where
  mailboxes : List Mailbox
  emails : List Email
  state : Nat
  distinct : (emails.map Email.id).Nodup
  stamped : ∀ e ∈ emails, e.changed ≤ state

structure Follows (a b : Account) : Prop where
  state : a.state ≤ b.state
  emails : ∀ e ∈ b.emails, e ∈ a.emails ∨ a.state < e.changed

instance (a b : Account) : Decidable (Follows a b) :=
  decidable_of_iff (a.state ≤ b.state ∧ ∀ e ∈ b.emails, e ∈ a.emails ∨ a.state < e.changed)
    ⟨fun both => ⟨both.1, both.2⟩, fun follows => ⟨follows.state, follows.emails⟩⟩

theorem Follows.refl (a : Account) : Follows a a := ⟨Nat.le_refl _, fun _ mem => .inl mem⟩

theorem Follows.trans {a b c : Account} (first : Follows a b) (second : Follows b c) : Follows a c := by
  refine ⟨Nat.le_trans first.state second.state, ?_⟩
  intro e mem
  rcases second.emails e mem with old | new
  · exact first.emails e old
  · have older := first.state
    exact .inr (by omega)

theorem Follows.mem {a b : Account} (follows : Follows a b) {e : Email} (mem : e ∈ b.emails)
    (old : e.changed ≤ a.state) : e ∈ a.emails := by
  rcases follows.emails e mem with here | new
  · exact here
  · omega

/-- An account over a number of calls, as each of them finds it, and in the end. -/
structure Timeline where
  found : Nat → Account
  last : Account
  follows : ∀ n, Follows (found n) (found (n + 1))
  ends : ∀ n, Follows (found n) last

theorem Timeline.later (tl : Timeline) {m n : Nat} (le : m ≤ n) : Follows (tl.found m) (tl.found n) := by
  induction n with
  | zero =>
    obtain rfl : m = 0 := by omega
    exact Follows.refl _
  | succ n ih =>
    by_cases reached : m ≤ n
    · exact (ih reached).trans (tl.follows n)
    · obtain rfl : m = n + 1 := by omega
      exact Follows.refl _

def Timeline.still (a : Account) : Timeline :=
  ⟨fun _ => a, a, fun _ => Follows.refl a, fun _ => Follows.refl a⟩

/- Email/query -/
def Account.query (a : Account) (position limit : Nat) : List String :=
  ((a.emails.drop position).take limit).map Email.id

/- Email/get; an id that is not there any more is left out -/
def Account.get (a : Account) (ids : List String) : List Email :=
  ids.filterMap (fun id => a.emails.find? (fun e => e.id = id))

/- the answer to Email/changes -/
structure Changes where
  (created updated destroyed : List String)
  newState : Nat

/-- A server may stop at a state before its own; up to there it leaves nothing out. -/
structure Changes.Reports (c : Changes) (a : Account) (since : Nat) : Prop where
  since_le : since ≤ c.newState
  le_state : c.newState ≤ a.state
  complete : ∀ e ∈ a.emails, since < e.changed → e.changed ≤ c.newState → e.id ∈ c.created ++ c.updated

instance (c : Changes) (a : Account) (since : Nat) : Decidable (c.Reports a since) :=
  decidable_of_iff (since ≤ c.newState ∧ c.newState ≤ a.state ∧
      ∀ e ∈ a.emails, since < e.changed → e.changed ≤ c.newState → e.id ∈ c.created ++ c.updated)
    ⟨fun all => ⟨all.1, all.2.1, all.2.2⟩, fun reports =>
      ⟨reports.since_le, reports.le_state, reports.complete⟩⟩

theorem mem_get {a : Account} {ids : List String} {e : Email} : e ∈ a.get ids ↔ e ∈ a.emails ∧ e.id ∈ ids := by
  simp only [Account.get, mem_filterMap]
  constructor
  · rintro ⟨id, mem, found⟩
    have same : e.id = id := by simpa using find?_some found
    exact ⟨mem_of_find?_eq_some found, same ▸ mem⟩
  rintro ⟨mem, listed⟩
  refine ⟨e.id, listed, ?_⟩
  cases found : a.emails.find? (fun o => o.id = e.id) with
  | none =>
    have absent := find?_eq_none.mp found e mem
    simp at absent
  | some o =>
    have same : o.id = e.id := by simpa using find?_some found
    rw [inj_on_of_nodup_map a.distinct (mem_of_find?_eq_some found) mem same]

theorem eraseDups_of_nodup {ids : List String} (distinct : ids.Nodup) : ids.eraseDups = ids := by
  induction ids with
  | nil => rfl
  | cons id rest ih =>
    obtain ⟨fresh, distinctRest⟩ := nodup_cons.mp distinct
    have kept : rest.filter (fun other => !other == id) = rest := filter_eq_self.mpr (fun other mem => by
        have apart : other ≠ id := fun same => fresh (same ▸ mem)
        simp [apart])
    rw [eraseDups_cons, kept, ih distinctRest]

theorem get_all (a : Account) : a.get (a.emails.map Email.id) = a.emails := by
  have found : ∀ e ∈ a.emails, a.emails.find? (fun o => o.id = e.id) = some e := by
    intro e mem
    obtain ⟨o, first⟩ := Option.isSome_iff_exists.mp (find?_isSome.mpr ⟨e, mem, decide_eq_true rfl⟩ :
        (a.emails.find? (fun o => o.id = e.id)).isSome = true)
    have same : o.id = e.id := by simpa using find?_some first
    rw [first, inj_on_of_nodup_map a.distinct (mem_of_find?_eq_some first) mem same]
  have each : a.emails.filterMap (fun e => a.emails.find? (fun o => o.id = e.id)) =
      a.emails.filterMap some := filterMap_congr found
  rw [Account.get, filterMap_map]
  exact each.trans filterMap_some

end HostingPlatform.Jmap
