import HostingPlatform.NodeTerminal.Service

/-! What one statement of a node terminal task can do to the store, and which task it leaves. -/
namespace HostingPlatform.NodeTerminal

open Option Table List Interleaving

def Attached (d : Store) (sessionId : Nat) : Prop :=
  ∃ k ∈ d.sockets.rows, k.sessionId = sessionId ∧ k.isOpen = true ∧ k.closed = false

def HasRow (d : Store) (sessionId : Nat) : Prop := ∃ r ∈ d.rows.rows, r.id = sessionId

def HasPod (d : Store) (sessionId : Nat) : Prop := ∃ p ∈ d.pods.rows, p.sessionId = sessionId

instance (d : Store) (sessionId : Nat) : Decidable (Attached d sessionId) :=
  inferInstanceAs (Decidable (∃ k ∈ d.sockets.rows, _))

instance (d : Store) (sessionId : Nat) : Decidable (HasRow d sessionId) :=
  inferInstanceAs (Decidable (∃ r ∈ d.rows.rows, _))

instance (d : Store) (sessionId : Nat) : Decidable (HasPod d sessionId) :=
  inferInstanceAs (Decidable (∃ p ∈ d.pods.rows, _))

def attaching : Task → Option Nat
  | .claimOwnership _ a _ | .attachWs _ a _ => some a.sessionId
  | _ => none

def creating : Task → Option Nat
  | .waitForPodRunning sessionId _ | .insertSession sessionId _ _ => some sessionId
  | _ => none

def chosen : Task → List Nat
  | .terminateSession t after | .terminateFind t after | .terminatePod t after | .terminateRow t after =>
    if t.origin.deliberate then after.rest else t.sessionId :: after.rest
  | .orphanDelete sessionId _ => [sessionId]
  | _ => []

/- the session of which a row gets a grace period -/
def schedules : Task → Option Nat
  | .scheduleDelayedTermination k _ _ => some k.sessionId
  | _ => none

structure Effect (d : Store) (task : Task) (d' : Store) : Prop where
  now : d'.now = d.now
  rows : ∀ r' ∈ d'.rows,
    (∃ r ∈ d.rows, r.id = r'.id ∧ r.expiresAt = r'.expiresAt ∧
      (r'.terminateAfter = none ∨ r'.terminateAfter = r.terminateAfter ∨ schedules task = some r'.id)) ∨
    creating task = some r'.id ∧ (r'.id, r'.expiresAt) ∈ d'.granted ∧ r'.terminateAfter = none
  erased : ∀ s, HasRow d s → HasRow d' s ∨ ∃ t after, task = .terminateRow t after ∧ t.sessionId = s ∧
    (t.origin.deliberate = true → s ∈ d'.ended)
  pods : ∀ s, HasPod d' s → HasPod d s ∨ s = d.drawn ∧ d'.drawn = d.drawn + 1
  drawn : d.drawn ≤ d'.drawn
  attached : ∀ s, Attached d' s → Attached d s ∨ attaching task = some s
  granted : ∀ g ∈ d'.granted, g ∈ d.granted ∨ creating task = some g.1
  grants : ∀ g ∈ d.granted, g ∈ d'.granted
  frames : ∀ f ∈ d'.frames, f ∈ d.frames ∨ ∃ socket frame, task = .message socket frame ∧
    frame.isActivity = true ∧ ∃ k ∈ d.sockets, k.id = socket ∧ k.sessionId = f.1
  ended : ∀ s ∈ d.ended, s ∈ d'.ended

theorem Effect.refl (d : Store) (task : Task) : Effect d task d where
  now := rfl
  rows r mem := .inl ⟨r, mem, rfl, rfl, .inr (.inl rfl)⟩
  erased _ := .inl
  pods _ := .inl
  drawn := Nat.le_refl _
  attached _ := .inl
  granted _ := .inl
  grants _ := id
  frames _ := .inl
  ended _ := id

/- nothing but timers, entries of the registry and the numbers of sockets -/
structure Quiet (d d' : Store) : Prop where
  now : d'.now = d.now
  rows : d'.rows = d.rows
  pods : d'.pods = d.pods
  drawn : d'.drawn = d.drawn
  sockets : d'.sockets = d.sockets
  granted : d'.granted = d.granted
  frames : d'.frames = d.frames
  ended : d'.ended = d.ended

theorem Quiet.refl (d : Store) : Quiet d d := ⟨rfl, rfl, rfl, rfl, rfl, rfl, rfl, rfl⟩

theorem quiet_memory (d : Store) (registry : Nat → Nat → Option TerminalSession)
    (graceTimers : Nat → Nat → Option GraceTimer) (opened : Nat) :
    Quiet d { d with registry, graceTimers, opened } := ⟨rfl, rfl, rfl, rfl, rfl, rfl, rfl, rfl⟩

theorem quiet_begin (d : Store) (t : Termination) (after : After) : Quiet d (beginTermination d t after).1 :=
  quiet_memory d _ _ _

theorem quiet_continue (d : Store) (after : After) : Quiet d (continueAfter d after).1 := by
  match after with
  | .stop | .sweep _ .idle [] | .sweep _ .expired [] | .sweep _ .readyForTermination [] => exact Quiet.refl d
  | .sweep _ _ (_ :: _) => exact quiet_begin d _ _

theorem store_orphan (d : Store) (rest : List Nat) : (nextOrphan d rest).1 = d := by
  cases rest <;> rfl

variable {d d' : Store} {task left : Task} {s socket : Nat}

theorem Effect.quiet {d'' : Store} (effect : Effect d task d') (quiet : Quiet d' d'') : Effect d task d'' := by
  have rows : ∀ s, HasRow d'' s ↔ HasRow d' s := fun s => by rw [HasRow, HasRow, quiet.rows]
  have pods : ∀ s, HasPod d'' s ↔ HasPod d' s := fun s => by rw [HasPod, HasPod, quiet.pods]
  have sockets : ∀ s, Attached d'' s ↔ Attached d' s := fun s => by rw [Attached, Attached, quiet.sockets]
  refine ⟨quiet.now.trans effect.now, ?_, ?_, ?_, ?_, ?_, ?_, ?_, ?_, ?_⟩
  · rw [quiet.rows, quiet.granted]
    exact effect.rows
  · intro s here
    rw [rows, quiet.ended]
    exact effect.erased s here
  · intro s here
    rw [quiet.drawn]
    exact effect.pods s ((pods s).mp here)
  · rw [quiet.drawn]
    exact effect.drawn
  · intro s here
    exact effect.attached s ((sockets s).mp here)
  · rw [quiet.granted]
    exact effect.granted
  · rw [quiet.granted]
    exact effect.grants
  · rw [quiet.frames]
    exact effect.frames
  · rw [quiet.ended]
    exact effect.ended

theorem Quiet.effect (quiet : Quiet d d') (task : Task) : Effect d task d' :=
  (Effect.refl d task).quiet quiet

theorem Effect.update {change : Change}
    (keeps : ∀ r, (change.set r).terminateAfter = none ∨ (change.set r).terminateAfter = r.terminateAfter ∨
      schedules task = some s) : Effect d task (d.update s change) where
  now := rfl
  rows := by
    intro r' mem
    rcases (mem_update change.keepsId).mp mem with ⟨old, _⟩ | ⟨r, old, selected, rfl⟩
    · exact .inl ⟨r', old, rfl, rfl, .inr (.inl rfl)⟩
    refine .inl ⟨r, old, (change.keepsId r).symm, (change.keepsExpiry r).symm, ?_⟩
    have own : r.id = s := eq_of_beq selected
    rw [change.keepsId, own]
    exact keeps r
  erased := by
    rintro s' ⟨r, mem, same⟩
    refine .inl ⟨_, apply_mem_update change.keepsId mem, ?_⟩
    rw [apply_column SessionRow.id _ _ change.keepsId, same]
  pods _ := .inl
  drawn := Nat.le_refl _
  attached _ := .inl
  granted _ := .inl
  grants _ := id
  frames _ := .inl
  ended _ := id

theorem attached_change {change : SocketChange} (attached : Attached (d.change socket change) s) : Attached d s := by
  obtain ⟨k', mem, same, opens, closed⟩ := attached
  rcases (mem_update change.keepsId).mp mem with ⟨old, _⟩ | ⟨k, old, _, rfl⟩
  · exact ⟨k', old, same, opens, closed⟩
  refine ⟨k, old, (change.keepsSession k).symm.trans same, change.closes k opens, ?_⟩
  refine Bool.eq_false_iff.mpr ?_
  intro isClosed
  rw [change.finalizes k isClosed] at closed
  contradiction

theorem Effect.change (d : Store) (task : Task) (socket : Nat) (change : SocketChange) :
    Effect d task (d.change socket change) :=
  { Effect.refl d task with
    attached := fun _ attached => .inl (attached_change attached)
    now := rfl
    drawn := Nat.le_refl _ }

theorem hasPod_delete {d : Store} {sessionId s : Nat} (has : HasPod (deletePod d sessionId) s) : HasPod d s := by
  unfold deletePod at has
  split at has
  · exact has
  · obtain ⟨p, mem, same⟩ := has
    exact ⟨p, (mem_delete.mp mem).1, same⟩

theorem Effect.deletePod (d : Store) (task : Task) (sessionId : Nat) : Effect d task (deletePod d sessionId) := by
  have only : NodeTerminal.deletePod d sessionId =
      { d with pods := (NodeTerminal.deletePod d sessionId).pods } := by
    unfold NodeTerminal.deletePod
    split <;> rfl
  have here := @hasPod_delete d sessionId
  rw [only] at here ⊢
  exact { Effect.refl d task with
    pods := fun s has => .inl (here has)
    now := rfl
    drawn := Nat.le_refl _ }

theorem effect_createSession (d : Store) (c : Creation) : Effect d (.createSession c) (createSession d c).1 := by
  have drawn : Effect d (.createSession c) { d with drawn := d.drawn + 1 } := { Effect.refl d _ with
      now := rfl
      pods := fun _ => .inl
      drawn := Nat.le_succ _ }
  unfold createSession
  split
  · exact drawn
  split
  · exact drawn
  rename_i pods inserted
  exact { drawn with
    pods := by
      rintro s ⟨p, mem, same⟩
      rcases (mem_insert inserted).mp mem with rfl | old
      · exact .inr ⟨same.symm, rfl⟩
      · exact .inl ⟨p, old, same⟩
    now := rfl
    drawn := Nat.le_succ _ }

theorem effect_insertSession (d : Store) (sessionId : Nat) (c : Creation) (expiresAt : Nat) :
    Effect d (.insertSession sessionId c expiresAt) (insertSession d sessionId c expiresAt).1 := by
  unfold insertSession
  split
  · rename_i rows inserted
    split at inserted
    · contradiction
    exact { Effect.refl d _ with
      now := rfl
      drawn := Nat.le_refl _
      rows := by
        intro r' mem
        rcases (mem_insert inserted).mp mem with rfl | old
        · exact .inr ⟨rfl, mem_cons_self, rfl⟩
        · exact .inl ⟨r', old, rfl, rfl, .inr (.inl rfl)⟩
      erased := by
        rintro s ⟨r, mem, same⟩
        exact .inl ⟨r, (mem_insert inserted).mpr (.inr mem), same⟩
      granted := by
        intro g mem
        rcases mem_cons.mp mem with rfl | old
        · exact .inr rfl
        · exact .inl old
      grants := fun g mem => mem_cons_of_mem _ mem }
  · exact (quiet_memory d _ _ _).effect _

theorem effect_attachWs (d : Store) (socket : Nat) (a : Attach) (row : SessionRow) :
    Effect d (.attachWs socket a row) (attachWs d socket a row).1 :=
  { Effect.refl d _ with
    now := rfl
    drawn := Nat.le_refl _
    attached := by
      rintro s ⟨k, mem, same, opens, closed⟩
      rcases mem_put.mp mem with rfl | ⟨old, _⟩
      · exact .inr (congrArg some same)
      · exact .inl ⟨k, old, same, opens, closed⟩ }

theorem effect_finalize (d : Store) (task : Task) (socket : Nat) (reason : TerminateReason) :
    Effect d task (finalize d socket reason).1 := by
  have closed := Effect.change d task socket markClosed
  unfold finalize
  split
  · exact Effect.refl d _
  split
  · exact Effect.refl d _
  split
  · exact closed.quiet (quiet_begin _ _ _)
  split
  · exact closed.quiet (quiet_begin _ _ _)
  · exact closed.quiet (quiet_memory _ _ _ _)

theorem effect_message (d : Store) (socket : Nat) (frame : Frame) :
    Effect d (.message socket frame) (message d socket frame).1 := by
  unfold message
  split
  · exact Effect.refl d _
  rename_i k selected
  obtain ⟨mem, own⟩ := mem_of_select selected
  split
  · exact Effect.refl d _
  split
  · rename_i activity
    have marked : Effect d (.message socket frame) (markActivity d k.replica k.sessionId) :=
      (quiet_memory d _ _ _).effect _
    exact { marked with
      now := rfl
      drawn := Nat.le_refl _
      frames := by
        intro f mem'
        rcases mem_cons.mp mem' with rfl | old
        · exact .inr ⟨socket, frame, rfl, activity, k, mem, eq_of_beq own, rfl⟩
        · exact .inl old }
  · split
    · exact Effect.change d _ _ _
    · exact Effect.refl d _

theorem effect_terminateFind (d : Store) (task : Task) (t : Termination) (after : After) :
    Effect d task (terminateFind d t after).1 := by
  have removed : Quiet d { d with registry := assign d.registry t.replica t.sessionId none } :=
    ⟨rfl, rfl, rfl, rfl, rfl, rfl, rfl, rfl⟩
  unfold terminateFind
  split
  · exact (Effect.refl d task).quiet (quiet_continue d after)
  split
  · exact (removed.effect task).quiet (quiet_continue _ after)
  cases (d.registry t.replica t.sessionId).bind TerminalSession.ws with
  | none => exact removed.effect task
  | some socket =>
    have lost := Effect.change d task socket lose
    exact lost.quiet (quiet_memory _ _ _ _)

theorem effect_terminateRow (d : Store) (t : Termination) (after : After) :
    Effect d (.terminateRow t after) (terminateRow d t after).1 := by
  unfold terminateRow
  split
  · exact Quiet.effect (quiet_continue d after) _
  refine Effect.quiet ?_ (quiet_continue _ after)
  exact { Effect.refl d _ with
    now := rfl
    drawn := Nat.le_refl _
    rows := by
      intro r' mem
      exact .inl ⟨r', (mem_delete.mp mem).1, rfl, rfl, .inr (.inl rfl)⟩
    erased := by
      rintro s ⟨r, mem, same⟩
      by_cases own : t.sessionId = s
      · refine .inr ⟨t, after, rfl, own, ?_⟩
        intro deliberate
        rw [← own]
        simp [deliberate]
      · refine .inl ⟨r, mem_delete.mpr ⟨mem, ?_⟩, same⟩
        rw [beq_eq_false_iff_ne, same]
        exact fun eq => own eq.symm
    ended := by
      intro s mem
      split
      · exact mem_cons_of_mem _ mem
      · exact mem }

theorem Effect.updateIf (down : Bool) {change : Change}
    (keeps : ∀ r, (change.set r).terminateAfter = none ∨ (change.set r).terminateAfter = r.terminateAfter ∨
      schedules task = some s) : Effect d task (if down then d else d.update s change) := by
  cases down with
  | true => exact Effect.refl d task
  | false => exact Effect.update keeps

theorem advance_effect (d : Store) (task : Task) : Effect d task (advance d task).1 := by
  cases task with
  | createSession c => exact effect_createSession d c
  | waitForPodRunning sessionId c =>
    simp only [advance, waitForPodRunning]
    split
    · exact (quiet_memory d _ _ _).effect _
    · exact Effect.refl d _
  | insertSession sessionId c expiresAt => exact effect_insertSession d sessionId c expiresAt
  | cleanUp sessionId code => exact Effect.deletePod d _ sessionId
  | attachExec a =>
    have opened : Quiet d { d with opened := d.opened + 1 } := quiet_memory d _ _ _
    simp only [advance, attachExec]
    split
    · exact opened.effect _
    split
    · exact opened.effect _
    split
    · exact opened.effect _
    · exact opened.effect _
  | consumeToken socket a =>
    simp only [advance, consumeToken]
    split
    · exact Effect.refl d _
    split
    · exact Effect.refl d _
    · exact Effect.update (fun _ => .inl rfl)
  | claimOwnership socket a row =>
    simp only [advance, claimOwnership]
    split
    · exact Effect.refl d _
    · exact Effect.update (fun _ => .inr (.inl rfl))
  | attachWs socket a row => exact effect_attachWs d socket a row
  | cancelDelayedTermination socket a => exact Effect.updateIf d.dbDown (fun _ => .inl rfl)
  | listen socket => exact Effect.change d _ socket wire
  | openExec socket =>
    simp only [advance]
    split
    · exact effect_finalize d _ socket .error
    · exact Effect.refl d _
  | message socket frame => exact effect_message d socket frame
  | finalize socket reason => exact effect_finalize d _ socket reason
  | scheduleDelayedTermination k fireAt reason =>
    exact Effect.updateIf d.dbDown (fun _ => .inr (.inr rfl))
  | startGraceTimer k reason => exact (quiet_memory d _ _ _).effect _
  | graceTimer replica sessionId =>
    simp only [advance, graceTimer]
    split
    · exact Effect.refl d _
    split
    · exact Effect.refl d _
    · exact (quiet_memory d _ _ _).effect _
  | graceCheck replica sessionId =>
    simp only [advance, graceCheck]
    split
    · exact Effect.refl d _
    split
    · exact Effect.refl d _
    · exact Quiet.effect (quiet_begin d _ _) _
  | terminateSession t after => exact Quiet.effect (quiet_begin d t after) _
  | terminateFind t after => exact effect_terminateFind d _ t after
  | terminatePod t after => exact Effect.deletePod d _ t.sessionId
  | terminateRow t after => exact effect_terminateRow d t after
  | wsToken sessionId userId newToken =>
    simp only [advance, wsToken]
    split
    · exact Effect.refl d _
    split
    · exact Effect.refl d _
    · exact Effect.refl d _
  | refreshToken sessionId newToken =>
    simp only [advance, refreshToken]
    split
    · exact Effect.refl d _
    · exact Effect.update (fun _ => .inl rfl)
  | sweep replica sweep => exact Quiet.effect (quiet_continue d _) _
  | sweepOrphanPods =>
    simp only [advance, sweepOrphanPods]
    split
    · exact Effect.refl d _
    · rw [store_orphan]
      exact Effect.refl d _
  | orphanFind sessionId rest =>
    simp only [advance, orphanFind]
    split
    · rw [store_orphan]
      exact Effect.refl d _
    · exact Effect.refl d _
  | orphanDelete sessionId rest =>
    simp only [advance, store_orphan]
    exact Effect.deletePod d _ sessionId

def Chooses (d : Store) (task : Task) (sessionId : Nat) : Prop :=
  match task with
  | .sweep _ sweep => ∃ r ∈ d.rows, r.id = sessionId ∧ sweep.selects d r = true
  | .graceCheck _ s => s = sessionId ∧ ∃ r ∈ d.rows, r.id = s ∧ r.terminateAfter ≠ none
  | .orphanFind s _ => s = sessionId ∧ (d.dbDown = true ∨ findById d s = none)
  | _ => False

/- the row of a session whose token is taken, in the store after it -/
structure Taken (d d' : Store) (sessionId : Nat) : Prop where
  row : ∃ r ∈ d.rows, r.id = sessionId
  noGrace : ∀ r ∈ d'.rows, r.id = sessionId → r.terminateAfter = none

structure Next (d : Store) (task : Task) (d' : Store) (left : Task) : Prop where
  attaching : ∀ s, attaching left = some s → attaching task = some s ∨
    ∃ socket a, task = .consumeToken socket a ∧ a.sessionId = s ∧ Taken d d' s
  chosen : ∀ s ∈ chosen left, s ∈ chosen task ∨ Chooses d task s
  creating : ∀ s, creating left = some s →
    creating task = some s ∨ s = d.drawn ∧ d'.drawn = d.drawn + 1

theorem Next.idle (attach : NodeTerminal.attaching left = none) (none : NodeTerminal.chosen left = [])
    (create : NodeTerminal.creating left = Option.none) : Next d task d' left where
  attaching s is := by
    rw [attach] at is
    contradiction
  chosen s mem := by
    rw [none] at mem
    exact absurd mem not_mem_nil
  creating s is := by
    rw [create] at is
    contradiction

theorem Next.reaping (attach : NodeTerminal.attaching left = none) (create : NodeTerminal.creating left = none)
    (chosen : ∀ s ∈ NodeTerminal.chosen left, s ∈ NodeTerminal.chosen task ∨ Chooses d task s) :
    Next d task d' left where
  attaching s is := by
    rw [attach] at is
    contradiction
  chosen := chosen
  creating s is := by
    rw [create] at is
    contradiction

theorem sweep_origin (sweep : Sweep) : sweep.origin.deliberate = false := by
  cases sweep <;> rfl

theorem continue_left {after : After} (next : (continueAfter d after).2 = .next left) :
    attaching left = none ∧ creating left = none ∧ chosen left = after.rest := by
  match after with
  | .stop => cases next
  | .sweep replica sweep (s :: rest) =>
    cases next
    refine ⟨rfl, rfl, ?_⟩
    rw [chosen, if_neg (by simp [sweep_origin])]
    rfl
  | .sweep _ .idle [] | .sweep _ .expired [] | .sweep _ .readyForTermination [] =>
    cases next
    exact ⟨rfl, rfl, rfl⟩

theorem orphan_left {rest : List Nat} (next : (nextOrphan d rest).2 = .next left) :
    attaching left = none ∧ creating left = none ∧ chosen left = [] := by
  cases rest with
  | nil => cases next
  | cons s rest =>
    cases next
    exact ⟨rfl, rfl, rfl⟩

theorem finalize_left {reason : TerminateReason} (next : (finalize d socket reason).2 = .next left) :
    attaching left = none ∧ creating left = none ∧ chosen left = [] := by
  unfold finalize at next
  split at next
  · cases next
  split at next
  · cases next
  split at next
  · cases next
    exact ⟨rfl, rfl, rfl⟩
  split at next
  · cases next
    exact ⟨rfl, rfl, rfl⟩
  · cases next
    exact ⟨rfl, rfl, rfl⟩

theorem taken_consumeToken {a : Attach} {row : SessionRow}
    (selected : d.rows.select (tokenMatches d a.sessionId a.presentedToken) = some row) :
    Taken d (d.update a.sessionId (consumeWsToken d.now)) a.sessionId where
  row := by
    obtain ⟨mem, is⟩ := mem_of_select selected
    simp only [tokenMatches, Bool.and_eq_true] at is
    exact ⟨row, mem, eq_of_beq is.1.1⟩
  noGrace := by
    intro r mem own
    rcases (mem_update (consumeWsToken d.now).keepsId).mp mem with ⟨_, other⟩ | ⟨old, _, _, rfl⟩
    · simp [own] at other
    · rfl

theorem findById_mem {sessionId : Nat} {r : SessionRow} (found : findById d sessionId = some r) :
    r ∈ d.rows ∧ r.id = sessionId := by
  obtain ⟨row, selected, same⟩ := bind_eq_some_iff.mp found
  obtain ⟨mem, own⟩ := mem_of_select selected
  split at same
  · contradiction
  · cases same
    exact ⟨mem, eq_of_beq own⟩

theorem advance_next (next : (advance d task).2 = .next left) : Next d task (advance d task).1 left := by
  cases task with
  | createSession c =>
    simp only [advance, createSession] at next ⊢
    split at next
    · cases next
    rename_i up
    rw [if_neg up]
    split at next
    · cases next
    cases next
    refine ⟨nofun, nofun, ?_⟩
    intro s is
    exact .inr ⟨(some.inj is).symm, rfl⟩
  | waitForPodRunning sessionId c =>
    simp only [advance, waitForPodRunning] at next ⊢
    split at next
    · cases next
      refine ⟨nofun, nofun, fun s is => .inl is⟩
    · cases next
      exact Next.idle rfl rfl rfl
  | insertSession sessionId c expiresAt =>
    simp only [advance, insertSession] at next
    split at next
    · cases next
    · cases next
      exact Next.idle rfl rfl rfl
  | cleanUp sessionId code | startGraceTimer k reason => cases next
  | attachExec a =>
    simp only [advance, attachExec] at next
    split at next
    · cases next
    split at next
    · cases next
    split at next
    · cases next
    · cases next
      exact Next.idle rfl rfl rfl
  | consumeToken socket a =>
    simp only [advance, consumeToken] at next ⊢
    split at next
    · cases next
    rename_i up
    split at next
    · cases next
    rename_i row selected
    cases next
    rw [if_neg up]
    refine ⟨?_, nofun, nofun⟩
    intro s is
    obtain rfl : a.sessionId = s := some.inj is
    exact .inr ⟨socket, a, rfl, rfl, taken_consumeToken selected⟩
  | claimOwnership socket a row =>
    simp only [advance, claimOwnership] at next
    split at next
    · cases next
    · cases next
      exact ⟨fun s is => .inl is, nofun, nofun⟩
  | attachWs socket a row | cancelDelayedTermination socket a | listen socket
  | scheduleDelayedTermination k fireAt reason =>
    cases next
    exact Next.idle rfl rfl rfl
  | openExec socket =>
    simp only [advance] at next
    split at next
    · obtain ⟨attach, create, none⟩ := finalize_left next
      exact Next.idle attach none create
    · cases next
  | message socket frame =>
    simp only [advance, message] at next
    split at next
    · cases next
    split at next
    · cases next
    split at next
    · cases next
    split at next
    · cases next
    · cases next
  | finalize socket reason =>
    obtain ⟨attach, create, none⟩ := finalize_left next
    exact Next.idle attach none create
  | graceTimer replica sessionId =>
    simp only [advance, graceTimer] at next
    split at next
    · cases next
    split at next
    · cases next
    · cases next
      exact Next.idle rfl rfl rfl
  | graceCheck replica sessionId =>
    simp only [advance, graceCheck] at next
    split at next
    · cases next
    rename_i terminateAfter found
    split at next
    · cases next
    cases next
    refine Next.reaping rfl rfl ?_
    intro s mem
    obtain rfl : s = sessionId := mem_singleton.mp mem
    split at found
    · contradiction
    obtain ⟨r, byId, due⟩ := bind_eq_some_iff.mp found
    obtain ⟨there, own⟩ := findById_mem byId
    refine .inr ⟨rfl, r, there, own, ?_⟩
    rw [due]
    nofun
  | terminateSession t after | terminatePod t after =>
    cases next
    exact Next.reaping rfl rfl (fun s mem => .inl mem)
  | terminateFind t after =>
    simp only [advance, terminateFind] at next
    have later : ∀ s ∈ after.rest, s ∈ chosen (.terminateFind t after) := by
      intro s mem
      rw [chosen]
      split
      · exact mem
      · exact mem_cons_of_mem _ mem
    split at next
    · obtain ⟨attach, create, rest⟩ := continue_left next
      exact Next.reaping attach create (fun s mem => .inl (later s (rest ▸ mem)))
    split at next
    · obtain ⟨attach, create, rest⟩ := continue_left next
      exact Next.reaping attach create (fun s mem => Or.inl (later s (rest ▸ mem)))
    · cases next
      exact Next.reaping rfl rfl (fun s mem => .inl mem)
  | terminateRow t after =>
    simp only [advance, terminateRow] at next
    have later : ∀ s ∈ after.rest, s ∈ chosen (.terminateRow t after) := by
      intro s mem
      rw [chosen]
      split
      · exact mem
      · exact mem_cons_of_mem _ mem
    split at next
    · obtain ⟨attach, create, rest⟩ := continue_left next
      exact Next.reaping attach create (fun s mem => .inl (later s (rest ▸ mem)))
    · obtain ⟨attach, create, rest⟩ := continue_left next
      exact Next.reaping attach create (fun s mem => .inl (later s (rest ▸ mem)))
  | wsToken sessionId userId newToken =>
    simp only [advance, wsToken] at next
    split at next
    · cases next
    split at next
    · cases next
    · cases next
      exact Next.idle rfl rfl rfl
  | refreshToken sessionId newToken =>
    simp only [advance, refreshToken] at next
    split at next
    · cases next
    · cases next
  | sweep replica sweep =>
    obtain ⟨attach, create, rest⟩ := continue_left next
    refine Next.reaping attach create ?_
    intro s mem
    rw [rest] at mem
    split at mem
    · contradiction
    obtain ⟨r, selected, own⟩ := mem_map.mp mem
    obtain ⟨there, selects⟩ := mem_selectAll.mp selected
    exact .inr ⟨r, there, own, selects⟩
  | sweepOrphanPods =>
    simp only [advance, sweepOrphanPods] at next
    split at next
    · cases next
    · obtain ⟨attach, create, none⟩ := orphan_left next
      exact Next.idle attach none create
  | orphanFind sessionId rest =>
    simp only [advance, orphanFind] at next
    split at next
    · obtain ⟨attach, create, none⟩ := orphan_left next
      exact Next.idle attach none create
    rename_i missing
    cases next
    refine Next.reaping rfl rfl ?_
    intro s mem
    obtain rfl : s = sessionId := mem_singleton.mp mem
    refine .inr ⟨rfl, ?_⟩
    split at missing
    · rename_i down
      exact .inl down
    · exact .inr missing
  | orphanDelete sessionId rest =>
    obtain ⟨attach, create, none⟩ := orphan_left next
    exact Next.idle attach none create

end HostingPlatform.NodeTerminal
