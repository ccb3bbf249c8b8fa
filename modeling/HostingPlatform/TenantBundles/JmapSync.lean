import HostingPlatform.Jmap

/-! jmap-sync.py: one mailbox captured over JMAP. The calls are made one after another on an account
that goes on changing; a run whose calls all succeed is what is modelled, since any other ends with a
non-zero status and fails its Job. -/
namespace HostingPlatform.TenantBundles.Mail

open List Jmap

def getBatch : Nat := 100

def queryPageLimit : Nat := 200

def maxQueryPages : Nat := 100

/-- What a run meets: the account at each call, the answer to Email/changes, where `none` is
cannotCalculateChanges, and the downloads that fail or cannot be written. -/
structure Server where
  timeline : Timeline
  changes : Option Changes
  fails : String → Bool

/- the loop of _full_pull_ids, with the pages that are left, the number of the next call and the ids so
far -/
def queryPages (tl : Timeline) : Nat → Nat → Nat → List String → List String × Nat
  | 0, call, _, ids => (ids, call)
  | pages + 1, call, position, ids =>
    let batch := (tl.found call).query position queryPageLimit
    if batch = [] then (ids, call + 1)
    else if batch.length < queryPageLimit then (ids ++ batch, call + 1)
    else queryPages tl pages (call + 1) (position + batch.length) (ids ++ batch)

/- the ids, the state token and the number of the next call -/
structure Pull where
  (ids destroyed : List String)
  (newState call : Nat)
  fullPull : Bool

/- the state is that of an Email/get after the last page -/
def fullPullIds (tl : Timeline) (call : Nat) : Pull :=
  let listed := queryPages tl maxQueryPages call 0 []
  { ids := listed.1, destroyed := [], newState := (tl.found listed.2).state, call := listed.2 + 1
    fullPull := true }

def incrementalIds (s : Server) : Pull :=
  match s.changes with
  | none => fullPullIds s.timeline 1
  | some c =>
    { ids := c.created ++ c.updated, destroyed := c.destroyed, newState := c.newState, call := 1
      fullPull := false }

def pull (s : Server) (sinceState : Option Nat) : Pull :=
  match sinceState with
  | none => fullPullIds s.timeline 0
  | some _ => incrementalIds s

def batches (size : Nat) : Nat → List String → List (List String)
  | 0, _ => []
  | fuel + 1, ids => if ids = [] then [] else ids.take size :: batches size fuel (ids.drop size)

def fetchBatches (tl : Timeline) : Nat → List (List String) → List Email
  | _, [] => []
  | call, batch :: rest => (tl.found call).get batch ++ fetchBatches tl (call + 1) rest

def fetchMessages (tl : Timeline) (call : Nat) (ids : List String) : List Email :=
  fetchBatches tl call (batches getBatch ids.length ids)

structure Summary where
  (fetched skipped destroyed newState : Nat)
  fullPull : Bool

/- `mailboxNames` is what Mailbox/get says, `messages` the emails whose files are in the tree -/
structure Synced where
  mailboxNames : List (String × String)
  messages : List Email
  summary : Summary
  /- lines on the error output: the fall back to a full pull and each message that is skipped -/
  errorLines : Nat

def downloads (s : Server) (e : Email) : Bool := e.blobId.isSome && !s.fails e.id

/- Email/changes can name an id twice; Mailbox/get is asked before the messages -/
def run (s : Server) (sinceState : Option Nat) : Synced :=
  let p := pull s sinceState
  let ids := p.ids.eraseDups
  let names := if ids = [] then [] else
    (s.timeline.found p.call).mailboxes.map (fun m => (m.id, m.name))
  let messages := fetchMessages s.timeline (p.call + 1) ids
  let written := messages.filter (downloads s)
  let skipped := messages.length - written.length
  { mailboxNames := names
    messages := written
    summary :=
      { fetched := written.length, skipped, destroyed := p.destroyed.length, newState := p.newState
        fullPull := p.fullPull }
    errorLines := skipped + if sinceState.isSome && s.changes.isNone then 1 else 0 }

theorem flatten_batches {size : Nat} (positive : 0 < size) {fuel : Nat} {ids : List String}
    (enough : ids.length ≤ fuel) : (batches size fuel ids).flatten = ids := by
  induction fuel generalizing ids with
  | zero =>
    have none : ids = [] := length_eq_zero_iff.mp (by omega)
    rw [none]
    rfl
  | succ fuel ih =>
    rw [batches]
    split
    · rename_i none
      rw [none]
      rfl
    · have shorter : (ids.drop size).length ≤ fuel := by
        rw [length_drop]
        omega
      rw [flatten_cons, ih shorter, take_append_drop]

variable {tl : Timeline} {call : Nat} {e : Email} {s : Server} {sinceState : Option Nat} {a : Account}

theorem mem_fetchBatches {groups : List (List String)} (held : e ∈ tl.last.emails)
    (old : e.changed ≤ (tl.found call).state) (asked : e.id ∈ groups.flatten) : e ∈ fetchBatches tl call groups := by
  induction groups generalizing call with
  | nil => simp at asked
  | cons batch rest ih =>
    rcases mem_append.mp asked with here | later
    · exact mem_append_left _ (mem_get.mpr ⟨(tl.ends call).mem held old, here⟩)
    · have goesOn := (tl.follows call).state
      exact mem_append_right _ (ih (by omega) later)

theorem mem_run (held : e ∈ s.timeline.last.emails)
    (old : e.changed ≤ (s.timeline.found (pull s sinceState).call).state)
    (asked : e.id ∈ (pull s sinceState).ids) (ok : downloads s e = true) : e ∈ (run s sinceState).messages := by
  refine mem_filter.mpr ⟨?_, ok⟩
  have goesOn := (s.timeline.follows (pull s sinceState).call).state
  refine mem_fetchBatches held (by omega) ?_
  rw [flatten_batches (by decide) (Nat.le_refl _)]
  exact mem_eraseDups.mpr asked

/- how many calls it takes to list an account of a size -/
def listingCalls (size : Nat) : Nat := min maxQueryPages (size / queryPageLimit + 1)

/-- From the first page to the sampling of the state nothing changes, and the pages hold everything. -/
structure Quiet (tl : Timeline) (call : Nat) : Prop where
  still : ∀ n ≤ listingCalls (tl.found call).emails.length, tl.found (call + n) = tl.found call
  fits : (tl.found call).emails.length ≤ maxQueryPages * queryPageLimit

theorem queryPages_still {tl : Timeline} {a : Account} {pages call position : Nat} {ids : List String}
    (still : ∀ n < min pages ((a.emails.length - position) / queryPageLimit + 1),
      tl.found (call + n) = a) (fits : a.emails.length - position ≤ pages * queryPageLimit) :
    queryPages tl pages call position ids = (ids ++ (a.emails.drop position).map Email.id,
        call + min pages ((a.emails.length - position) / queryPageLimit + 1)) := by
  have limit : queryPageLimit = 200 := rfl
  induction pages generalizing call position ids with
  | zero =>
    have none : a.emails.drop position = [] := drop_eq_nil_iff.mpr (by omega)
    simp [queryPages, none]
  | succ pages ih =>
    have atLeast := Nat.succ_pos ((a.emails.length - position) / queryPageLimit)
    have first : tl.found call = a := still 0 (by omega)
    have size : (a.query position queryPageLimit).length = min queryPageLimit (a.emails.length - position) := by
      simp [Account.query]
    rw [queryPages, first]
    by_cases short : a.emails.length - position < queryPageLimit
    · have all : a.query position queryPageLimit = (a.emails.drop position).map Email.id := by
        rw [Account.query, take_of_length_le]
        rw [length_drop]
        omega
      have calls : min (pages + 1) ((a.emails.length - position) / queryPageLimit + 1) = 1 := by
        rw [limit] at short ⊢
        omega
      rw [size, if_pos (by omega : min queryPageLimit (a.emails.length - position) < queryPageLimit), all, calls]
      split
      · rename_i none
        rw [none, append_nil]
      · rfl
    · have full : (a.query position queryPageLimit).length = queryPageLimit := by omega
      have some : a.query position queryPageLimit ≠ [] := by
        intro none
        rw [none] at full
        contradiction
      have next : (a.emails.length - (position + queryPageLimit)) / queryPageLimit + 1 + 1 =
          (a.emails.length - position) / queryPageLimit + 1 := by
        rw [limit] at short ⊢
        omega
      rw [if_neg some, full, if_neg (Nat.lt_irrefl _), ih]
      · refine Prod.ext ?_ ?_
        · rw [append_assoc, Account.query, ← map_append, ← drop_drop, take_append_drop]
        · omega
      · intro n less
        rw [Nat.add_assoc, Nat.add_comm 1 n]
        exact still (n + 1) (by omega)
      · rw [limit] at fits ⊢
        omega

theorem fullPullIds_quiet (quiet : Quiet tl call) : (fullPullIds tl call).ids = (tl.found call).emails.map Email.id ∧
      (fullPullIds tl call).newState = (tl.found call).state := by
  have all := @queryPages_still tl (tl.found call) maxQueryPages call 0 [] ?_ ?_
  · have sampled := quiet.still _ (Nat.le_refl _)
    rw [Nat.sub_zero] at all
    rw [listingCalls] at sampled
    simp only [fullPullIds, all, nil_append, drop_zero]
    exact ⟨trivial, by rw [sampled]⟩
  · intro n less
    exact quiet.still n (Nat.le_of_lt less)
  · exact quiet.fits

theorem quiet_still (size : a.emails.length ≤ maxQueryPages * queryPageLimit) : Quiet (Timeline.still a) 0 :=
  ⟨fun _ _ => rfl, size⟩

theorem fetchBatches_still (a : Account) (call : Nat) (groups : List (List String)) :
    fetchBatches (Timeline.still a) call groups = a.get groups.flatten := by
  induction groups generalizing call with
  | nil => rfl
  | cons batch rest ih =>
    rw [fetchBatches, ih]
    exact filterMap_append.symm

theorem run_still (still : s.timeline = Timeline.still a) (size : a.emails.length ≤ maxQueryPages * queryPageLimit) :
    (run s none).messages = a.emails.filter (downloads s) ∧
      (a.emails ≠ [] → (run s none).mailboxNames = a.mailboxes.map (fun m => (m.id, m.name))) := by
  have listed : (pull s none).ids = a.emails.map Email.id := by
    change (fullPullIds s.timeline 0).ids = _
    rw [still]
    exact (fullPullIds_quiet (quiet_still size)).1
  have once : (pull s none).ids.eraseDups = a.emails.map Email.id := by
    rw [listed]
    exact eraseDups_of_nodup a.distinct
  constructor
  · simp only [run, once, fetchMessages, still, fetchBatches_still]
    rw [flatten_batches (by decide) (Nat.le_refl _), get_all]
  intro some
  simp only [run, once]
  rw [if_neg (by simpa using some), still]
  rfl

theorem newState_le (reports : ∀ c, s.changes = some c → ∀ since, sinceState = some since →
      c.Reports (s.timeline.found 0) since) :
    (pull s sinceState).newState ≤ (s.timeline.found (pull s sinceState).call).state := by
  have sampled : ∀ call, (fullPullIds s.timeline call).newState ≤
      (s.timeline.found (fullPullIds s.timeline call).call).state :=
    fun call => (s.timeline.follows _).state
  cases sinceState with
  | none => exact sampled 0
  | some since =>
    simp only [pull, incrementalIds]
    cases answer : s.changes with
    | none => exact sampled 1
    | some c =>
      have reported := (reports c answer since rfl).le_state
      exact Nat.le_trans reported (s.timeline.follows 0).state

end HostingPlatform.TenantBundles.Mail
