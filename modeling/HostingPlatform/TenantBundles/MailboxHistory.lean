import HostingPlatform.TenantBundles.JmapSync
import HostingPlatform.Transition

/-! The mailboxes component of a bundle: one Job that captures every address of the tenant into a tree
of its own, the log in which it reports the new state tokens, and the rows in which they are kept for
the next capture. -/
namespace HostingPlatform.TenantBundles.Mail

open Option List Jmap

structure JmapStateUpdate where
  (address jmapId : String)
  (newState fetched skipped : Nat)
  fullPull : Bool

structure StateRow where
  mailboxAddress : String
  lastJmapState : Nat
  lastError : Option String

/- the rows of the tenant by mailbox_jmap_id -/
abbrev StateRows := String → Option StateRow

def reason (s : JmapStateUpdate) : Option String :=
  if s.fullPull then
    some ("Email/changes returned cannotCalculateChanges; full pull ran (" ++ toString s.fetched ++
      " fetched, " ++ toString s.skipped ++ " skipped)")
  else if s.skipped > 0 then
    some (toString s.skipped ++ " message(s) skipped on this run; will retry next run")
  else none

def upsert (rows : StateRows) (s : JmapStateUpdate) : StateRows := fun id =>
  if id = s.jmapId then some ⟨s.address, s.newState, reason s⟩ else rows id

def persistJmapStates (rows : StateRows) (states : List JmapStateUpdate) : StateRows :=
  states.foldl upsert rows

/- the address stands for the mailbox's id, so an address has one row -/
def loadPriorState (rows : StateRows) (address : String) : Option Nat :=
  (rows address).map StateRow.lastJmapState

inductive LogLine where
  | jmapDone (bundleId address : String) (summary : Summary)
  | mailboxesDone (bundleId : String) (sizeBytes : Nat)
  | other

def tailLines : Nat := 500

/- each address: its progress line, what the script writes on the error output, its summary -/
def addressLog (bundleId : String) (address : String) (synced : Synced) : List LogLine :=
  .other :: List.replicate synced.errorLines .other ++ [.jmapDone bundleId address synced.summary]

def jobLog (bundleId : String) (sizeBytes : Nat) (results : List (String × Synced)) : List LogLine :=
  results.flatMap (fun r => addressLog bundleId r.1 r.2) ++ [.other, .mailboxesDone bundleId sizeBytes]

/- what is read of a log, unless reading it fails -/
def readJobLogTail (readable : Bool) (log : List LogLine) : List LogLine :=
  if readable then log.drop (log.length - tailLines) else []

def LogLine.update (expectedBundleId : String) : LogLine → Option JmapStateUpdate
  | .jmapDone bundleId address summary =>
    if bundleId = expectedBundleId then
      some ⟨address, address, summary.newState, summary.fetched, summary.skipped, summary.fullPull⟩
    else none
  | .mailboxesDone .. | .other => none

def LogLine.size (expectedBundleId : String) : LogLine → Option Nat
  | .mailboxesDone bundleId sizeBytes => if bundleId = expectedBundleId then some sizeBytes else none
  | .jmapDone .. | .other => none

def parseMailboxesDone (log : List LogLine) (expectedBundleId : String) :
    List JmapStateUpdate × Nat :=
  (log.filterMap (LogLine.update expectedBundleId),
    ((log.filterMap (LogLine.size expectedBundleId)).getLast?).getD 0)

/-- What a capture meets besides the accounts: whether its log can be read, and how many rows are
written before a write fails. -/
structure Capture where
  bundleId : String
  sizeBytes : Nat
  servers : List (String × Server)
  distinct : (servers.map Prod.fst).Nodup
  readable : Bool
  persisted : Nat

/- the scratch directory is the Job's own, so the tree holds what this capture has written -/
structure Snapshot where
  bundleId : String
  tree : List (String × Email)

/- `written`: every message that a capture has written, by address and id, for the record -/
structure World where
  accounts : String → Account
  rows : StateRows
  snapshots : List Snapshot
  written : List (String × String)

def results (w : World) (c : Capture) : List (String × Synced) :=
  c.servers.map (fun p => (p.1, run p.2 (loadPriorState w.rows p.1)))

def tree (w : World) (c : Capture) : List (String × Email) :=
  (results w c).flatMap (fun r => r.2.messages.map (r.1, ·))

def newStates (w : World) (c : Capture) : List JmapStateUpdate :=
  (parseMailboxesDone (readJobLogTail c.readable (jobLog c.bundleId c.sizeBytes (results w c)))
    c.bundleId).1

def serverOf (c : Capture) (address : String) : Option Server :=
  (c.servers.find? (fun p => p.1 = address)).map Prod.snd

def captureMailboxes (w : World) (c : Capture) : World where
  accounts := fun address => (serverOf c address).elim (w.accounts address) (·.timeline.last)
  rows := persistJmapStates w.rows ((newStates w c).take c.persisted)
  snapshots := ⟨c.bundleId, tree w c⟩ :: w.snapshots
  written := (tree w c).map (fun p => (p.1, p.2.id)) ++ w.written

/-- The accounts at the first calls are those of the world or later ones, and the servers answer
Email/changes as they should. -/
def Meets (w : World) (c : Capture) : Prop :=
  ∀ p ∈ c.servers, Follows (w.accounts p.1) (p.2.timeline.found 0) ∧
    ∀ changes ∈ p.2.changes, ∀ since ∈ loadPriorState w.rows p.1,
      changes.Reports (p.2.timeline.found 0) since

instance (w : World) (c : Capture) : Decidable (Meets w c) :=
  inferInstanceAs (Decidable (∀ _ ∈ _, _))

/-- Mail changes, a bundle's capture succeeds, a bundle expires. A capture that fails leaves nothing. -/
inductive Action where
  | mail (address : String) (next : Account)
  | capture (c : Capture)
  | expire (bundleId : String)

def step (w : World) : Action → Option World
  | .mail address next =>
    if Follows (w.accounts address) next then
      some { w with accounts := fun a => if a = address then next else w.accounts a }
    else none
  | .capture c => if Meets w c then some (captureMailboxes w c) else none
  | .expire bundleId =>
    some { w with snapshots := w.snapshots.filter (fun s => s.bundleId ≠ bundleId) }

/-! Histories of mailbox captures. A message is safe when a capture has written it or the next one will
ask for it. The stored state token decides what is asked for, so nothing may be left out of a capture
that the new token does not leave to the next. -/

open Transition

/-- The next capture asks for it: everything where no token is stored, and else what has changed since. -/
def Due (w : World) (address : String) (e : Email) : Prop :=
  ∀ since ∈ loadPriorState w.rows address, since < e.changed

def NothingLost (w : World) : Prop :=
  ∀ address, ∀ e ∈ (w.accounts address).emails, (address, e.id) ∈ w.written ∨ Due w address e

/- the call at which a run begins to list the whole account, if it does -/
def fullPullCall (s : Server) (sinceState : Option Nat) : Option Nat :=
  match sinceState, s.changes with
  | none, _ => some 0
  | some _, none => some 1
  | some _, some _ => none

/-- No message is skipped that was never written before, and an account that is listed as a whole stays
as it is meanwhile and has no more messages than the pages hold. -/
structure Careful (w : World) (address : String) (s : Server) : Prop where
  downloads : ∀ n, ∀ e ∈ (s.timeline.found n).emails,
    (address, e.id) ∈ w.written ∨ downloads s e = true
  listing : ∀ call ∈ fullPullCall s (loadPriorState w.rows address), Quiet s.timeline call

def CarefulCapture (w : World) : Action → Prop
  | .capture c => ∀ p ∈ c.servers, Careful w p.1 p.2
  | .mail .. | .expire _ => True

variable {e : Email} {rows : StateRows} {u : JmapStateUpdate} {address : String} {k : Nat} {w : World}
  {c : Capture} {p : String × Server}

theorem mem_fullPullIds {tl : Timeline} {call : Nat} (quiet : Quiet tl call) (held : e ∈ tl.last.emails)
    (old : e.changed ≤ (tl.found call).state) : e.id ∈ (fullPullIds tl call).ids := by
  rw [(fullPullIds_quiet quiet).1]
  exact mem_map_of_mem ((tl.ends call).mem held old)

theorem mem_pull {s : Server} {sinceState : Option Nat}
    (reports : ∀ changes ∈ s.changes, ∀ since ∈ sinceState, changes.Reports (s.timeline.found 0) since)
    (listing : ∀ call ∈ fullPullCall s sinceState, Quiet s.timeline call)
    (held : e ∈ s.timeline.last.emails) (old : e.changed ≤ (pull s sinceState).newState)
    (new : ∀ since ∈ sinceState, since < e.changed) : e.id ∈ (pull s sinceState).ids := by
  have full : ∀ call, Quiet s.timeline call → e.changed ≤ (fullPullIds s.timeline call).newState →
      e.id ∈ (fullPullIds s.timeline call).ids := by
    intro call quiet stamped
    rw [(fullPullIds_quiet quiet).2] at stamped
    exact mem_fullPullIds quiet held stamped
  cases sinceState with
  | none => exact full 0 (listing 0 rfl) old
  | some since =>
    simp only [pull, incrementalIds] at old ⊢
    cases answer : s.changes with
    | none =>
      rw [answer] at old
      refine full 1 (listing 1 ?_) old
      simp [fullPullCall, answer]
    | some c =>
      rw [answer] at old
      have reported := reports c answer since rfl
      have present := (s.timeline.ends 0).mem held (Nat.le_trans old reported.le_state)
      exact reported.complete e present (new since rfl) old

theorem loadPriorState_upsert (stored : loadPriorState (upsert rows u) address = some k) :
    loadPriorState rows address = some k ∨ u.jmapId = address ∧ u.newState = k := by
  unfold loadPriorState upsert at stored
  split at stored
  · rename_i same
    exact .inr ⟨same.symm, by simpa using stored⟩
  · exact .inl stored

theorem loadPriorState_persist {us : List JmapStateUpdate}
    (stored : loadPriorState (persistJmapStates rows us) address = some k) :
    loadPriorState rows address = some k ∨ ∃ u ∈ us, u.jmapId = address ∧ u.newState = k := by
  induction us generalizing rows with
  | nil => exact .inl stored
  | cons u us ih =>
    rcases ih stored with before | ⟨v, mem, same⟩
    · rcases loadPriorState_upsert before with older | this
      · exact .inl older
      · exact .inr ⟨u, mem_cons_self, this⟩
    · exact .inr ⟨v, mem_cons_of_mem u mem, same⟩

theorem mem_jobLog {bundleId id : String} {sizeBytes : Nat} {summary : Summary}
    {rs : List (String × Synced)} (mem : .jmapDone id address summary ∈ jobLog bundleId sizeBytes rs) :
    ∃ r ∈ rs, r.1 = address ∧ r.2.summary = summary := by
  rcases mem_append.mp mem with line | line
  · obtain ⟨r, memr, own⟩ := mem_flatMap.mp line
    refine ⟨r, memr, ?_⟩
    simp [addressLog] at own
    exact ⟨own.2.1.symm, own.2.2.symm⟩
  · simp at line

theorem mem_newStates (mem : u ∈ newStates w c) : ∃ p ∈ c.servers, u.jmapId = p.1 ∧
      u.newState = (pull p.2 (loadPriorState w.rows p.1)).newState := by
  obtain ⟨line, inTail, read⟩ := mem_filterMap.mp mem
  have logged : line ∈ jobLog c.bundleId c.sizeBytes (results w c) := by
    unfold readJobLogTail at inTail
    split at inTail
    · exact mem_of_mem_drop inTail
    · exact absurd inTail not_mem_nil
  cases line with
  | mailboxesDone id size | other => simp [LogLine.update] at read
  | jmapDone id address summary =>
    obtain ⟨r, memr, rfl, rfl⟩ := mem_jobLog logged
    obtain ⟨p, memp, rfl⟩ := mem_map.mp memr
    simp only [LogLine.update] at read
    split at read
    · cases read
      exact ⟨p, memp, rfl, rfl⟩
    · contradiction

theorem serverOf_mem (mem : p ∈ c.servers) : serverOf c p.1 = some p.2 := by
  unfold serverOf
  cases found : c.servers.find? (fun q => q.1 = p.1) with
  | none =>
    have absent := find?_eq_none.mp found p mem
    simp at absent
  | some q =>
    have same : q.1 = p.1 := by simpa using find?_some found
    rw [inj_on_of_nodup_map c.distinct (mem_of_find?_eq_some found) mem same]
    rfl

theorem captured_account (mem : p ∈ c.servers) : (captureMailboxes w c).accounts p.1 = p.2.timeline.last := by
  simp only [captureMailboxes, serverOf_mem mem]
  rfl

theorem captured_follows (meets : Meets w c) (address : String) :
    Follows (w.accounts address) ((captureMailboxes w c).accounts address) := by
  simp only [captureMailboxes]
  unfold serverOf
  cases found : c.servers.find? (fun p => p.1 = address) with
  | none => exact Follows.refl _
  | some p =>
    have same : p.1 = address := by simpa using find?_some found
    rw [← same]
    exact (meets p (mem_of_find?_eq_some found)).1.trans (p.2.timeline.ends 0)

structure Covered (w : World) : Prop where
  state : ∀ address, ∀ k ∈ loadPriorState w.rows address, k ≤ (w.accounts address).state
  written : ∀ address, ∀ k ∈ loadPriorState w.rows address, ∀ e ∈ (w.accounts address).emails,
    e.changed ≤ k → (address, e.id) ∈ w.written

theorem Covered.nothingLost (covered : Covered w) : NothingLost w := by
  intro address e mem
  by_cases due : Due w address e
  · exact .inr due
  simp only [Due, not_forall, Nat.not_lt] at due
  obtain ⟨k, stored, old⟩ := due
  exact .inl (covered.written address k stored e mem old)

theorem mem_tree (memp : p ∈ c.servers) (mem : e ∈ (run p.2 (loadPriorState w.rows p.1)).messages) :
    (p.1, e) ∈ tree w c :=
  mem_flatMap.mpr ⟨_, mem_map_of_mem memp, mem_map_of_mem mem⟩

theorem written_of_tree (mem : (address, e) ∈ tree w c) : (address, e.id) ∈ (captureMailboxes w c).written :=
  mem_append_left _ (mem_map.mpr ⟨(address, e), mem, rfl⟩)

theorem written_of_careful (covered : Covered w) (meets : Meets w c) (memp : p ∈ c.servers)
    (careful : Careful w p.1 p.2) (held : e ∈ p.2.timeline.last.emails)
    (old : e.changed ≤ (pull p.2 (loadPriorState w.rows p.1)).newState) :
    (p.1, e.id) ∈ (captureMailboxes w c).written := by
  obtain ⟨first, reports⟩ := meets p memp
  have before : ∀ id, id ∈ w.written → id ∈ (captureMailboxes w c).written := fun _ mem => mem_append_right _ mem
  by_cases new : ∀ since ∈ loadPriorState w.rows p.1, since < e.changed
  · have asked := mem_pull reports careful.listing held old new
    have known : e.changed ≤ (p.2.timeline.found (pull p.2 (loadPriorState w.rows p.1)).call).state :=
      Nat.le_trans old (newState_le (fun changes answer since stored =>
        reports changes answer since stored))
    rcases careful.downloads _ e ((p.2.timeline.ends _).mem held known) with already | ok
    · exact before _ already
    · exact written_of_tree (mem_tree memp (mem_run held known asked ok))
  · simp only [not_forall, Nat.not_lt] at new
    obtain ⟨since, stored, covers⟩ := new
    have known := covered.state p.1 since stored
    have present := (first.trans (p.2.timeline.ends 0)).mem held (Nat.le_trans covers known)
    exact before _ (covered.written p.1 since stored e present covers)

theorem covered_capture (covered : Covered w) (meets : Meets w c)
    (careful : ∀ p ∈ c.servers, Careful w p.1 p.2) : Covered (captureMailboxes w c) := by
  have token : ∀ address, ∀ k ∈ loadPriorState (captureMailboxes w c).rows address,
      k ∈ loadPriorState w.rows address ∨ ∃ p ∈ c.servers, p.1 = address ∧
        (pull p.2 (loadPriorState w.rows p.1)).newState = k := by
    intro address k stored
    rcases loadPriorState_persist stored with older | ⟨u, mem, same, state⟩
    · exact .inl older
    · obtain ⟨p, memp, id, new⟩ := mem_newStates (mem_of_mem_take mem)
      exact .inr ⟨p, memp, id.symm.trans same, new.symm.trans state⟩
  constructor
  · intro address k stored
    have goesOn := (captured_follows meets address).state
    rcases token address k stored with older | ⟨p, memp, rfl, rfl⟩
    · exact Nat.le_trans (covered.state address k older) goesOn
    rw [captured_account memp]
    have known := newState_le (fun changes answer since stored => (meets p memp).2 changes answer since stored)
    exact Nat.le_trans known (p.2.timeline.ends _).state
  · intro address k stored e held old
    rcases token address k stored with older | ⟨p, memp, rfl, rfl⟩
    · have present := (captured_follows meets address).mem held (Nat.le_trans old (covered.state address k older))
      exact mem_append_right _ (covered.written address k older e present old)
    · rw [captured_account memp] at held
      exact written_of_careful covered meets memp (careful p memp) held old

theorem covered_step {w' : World} {a : Action} (covered : Covered w) (careful : CarefulCapture w a)
    (taken : step w a = some w') : Covered w' := by
  cases a with
  | mail address next =>
    simp only [step] at taken
    split at taken
    · rename_i follows
      cases taken
      constructor
      · intro other k stored
        dsimp only
        split
        · rename_i same
          rw [same] at stored
          exact Nat.le_trans (covered.state address k stored) follows.state
        · exact covered.state other k stored
      · intro other k stored e held old
        dsimp only at held
        split at held
        · rename_i same
          rw [same] at stored ⊢
          have present := follows.mem held (Nat.le_trans old (covered.state address k stored))
          exact covered.written address k stored e present old
        · exact covered.written other k stored e held old
    · contradiction
  | capture c =>
    simp only [step] at taken
    split at taken
    · rename_i meets
      cases taken
      exact covered_capture covered meets careful
    · contradiction
  | expire bundleId =>
    cases taken
    exact ⟨covered.state, covered.written⟩

def initial (accounts : String → Account) : World := ⟨accounts, fun _ => none, [], []⟩

def someAddress : String := "info@example.com"

def letter : Email := ⟨"a", some "b", ["inbox"], [], "2026-01-01T00:00:00Z", "hello", 1⟩

def emptyAccount : Account := ⟨[], [], 0, by decide, by decide⟩

def oneLetter : Account := ⟨[], [letter], 1, by decide, by decide⟩

def arrival : Timeline where
  found := fun n => if n = 0 then emptyAccount else oneLetter
  last := oneLetter
  follows := by
    intro n
    cases n with
    | zero => decide
    | succ n => exact Follows.refl oneLetter
  ends := by
    intro n
    cases n with
    | zero => decide
    | succ n => exact Follows.refl oneLetter

def capturing (bundleId : String) (s : Server) : Action :=
  .capture ⟨bundleId, 0, [(someAddress, s)], List.nodup_singleton someAddress, true, 1⟩

def again : Action :=
  capturing "second" ⟨Timeline.still oneLetter, some ⟨[], [], [], 1⟩, fun _ => false⟩

/- the letter is in the account, and neither written nor asked for -/
def letterLost (w : World) : Bool :=
  letter ∈ (w.accounts someAddress).emails && (someAddress, letter.id) ∉ w.written &&
    loadPriorState w.rows someAddress == some 1

theorem not_nothingLost (lost : letterLost w = true) : ¬ NothingLost w := by
  simp only [letterLost, Bool.and_eq_true, decide_eq_true_eq, beq_iff_eq] at lost
  intro nothing
  rcases nothing someAddress letter lost.1.1 with written | due
  · exact lost.1.2 written
  · exact absurd (due 1 lost.2) (by decide)

def SnapshotComplete (before after : World) (address : String) : Prop :=
  ∀ e ∈ (before.accounts address).emails,
    after.snapshots.head?.any (fun s => s.tree.any (fun file => file.1 == address && file.2.id == e.id))

instance (before after : World) (address : String) : Decidable (SnapshotComplete before after address) :=
  inferInstanceAs (Decidable (∀ _ ∈ _, _))

/-- Whatever bundles there are, the snapshot of a capture holds what has changed since the stored token:
every message that was there when the capture began and still is, unchanged, when it ends, if it is
stamped after that token and its download succeeds. Where no token is stored, or the server cannot say
what has changed, that is every message, as long as the account is quiet while it is listed. -/
theorem snapshot_holds_changes {w w' : World} {c : Capture} (taken : step w (.capture c) = some w')
    {p : String × Server} (memp : p ∈ c.servers) {e : Email} (held : e ∈ (w.accounts p.1).emails)
    (kept : e ∈ p.2.timeline.last.emails) (ok : downloads p.2 e = true)
    (changed : ∀ since ∈ loadPriorState w.rows p.1, ∀ changes ∈ p.2.changes,
      since < e.changed ∧ e.changed ≤ changes.newState)
    (quiet : ∀ call ∈ fullPullCall p.2 (loadPriorState w.rows p.1), Quiet p.2.timeline call) :
    ∃ s, w'.snapshots = s :: w.snapshots ∧ s.bundleId = c.bundleId ∧ (p.1, e) ∈ s.tree := by
  simp only [step] at taken
  split at taken
  · rename_i meets
    cases taken
    obtain ⟨first, reports⟩ := meets p memp
    have known : ∀ n, e.changed ≤ (p.2.timeline.found n).state := fun n =>
      Nat.le_trans ((w.accounts p.1).stamped e held) (first.trans (p.2.timeline.later (Nat.zero_le n))).state
    refine ⟨_, rfl, rfl, mem_tree memp (mem_run kept (known _) ?_ ok)⟩
    cases prior : loadPriorState w.rows p.1 with
    | none => exact mem_fullPullIds (quiet 0 (by simp [fullPullCall, prior])) kept (known 0)
    | some since =>
      simp only [pull, incrementalIds]
      cases answer : p.2.changes with
      | none => exact mem_fullPullIds (quiet 1 (by simp [fullPullCall, prior, answer])) kept (known 1)
      | some changes =>
        obtain ⟨new, covers⟩ := changed since prior changes answer
        have present := (p.2.timeline.ends 0).mem kept (known 0)
        exact (reports changes answer since prior).complete e present new covers
  · contradiction

/-- The second snapshot of a mailbox in which nothing has changed is empty. -/
theorem second_snapshot_empty : ∃ v w, exec step (initial fun _ => oneLetter)
        [capturing "first" ⟨Timeline.still oneLetter, none, fun _ => false⟩] = some v ∧
      step v again = some w ∧ ¬ SnapshotComplete v w someAddress := by
  have twice : (exec step (initial fun _ => oneLetter)
      [capturing "first" ⟨Timeline.still oneLetter, none, fun _ => false⟩]).any (fun v =>
        (step v again).any (fun w => ¬ SnapshotComplete v w someAddress)) = true := by
    decide +kernel
  obtain ⟨v, reached, next⟩ := (any_eq_true _ _).mp twice
  obtain ⟨w, taken, missing⟩ := (any_eq_true _ _).mp next
  exact ⟨v, w, reached, taken, by simpa using missing⟩

theorem snapshot_holds_changes_first : ∃ w, step (initial fun _ => oneLetter)
        (capturing "first" ⟨Timeline.still oneLetter, none, fun _ => false⟩) = some w ∧
      ∃ s, w.snapshots = [s] ∧ s.bundleId = "first" ∧ (someAddress, letter) ∈ s.tree := by
  obtain ⟨w, taken⟩ := isSome_iff_exists.mp (show (step (initial fun _ => oneLetter)
    (capturing "first" ⟨Timeline.still oneLetter, none, fun _ => false⟩)).isSome = true by
      decide +kernel)
  refine ⟨w, taken, ?_⟩
  exact snapshot_holds_changes taken (mem_singleton_self _) (mem_singleton_self letter)
    (mem_singleton_self letter) rfl nofun
    (fun call _ => ⟨fun _ _ => rfl, show oneLetter.emails.length ≤ _ by decide⟩)

end HostingPlatform.TenantBundles.Mail
