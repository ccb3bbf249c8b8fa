import HostingPlatform.NodeTerminal.Effects

/-! When the Pod of a session in use is deleted. Four reapers end sessions: the sweep of idle rows, the
sweep of rows whose grace period is over, the timers of grace periods, and the sweep of Pods without a
row. Each looks at a copy of what it is about, and none looks again before it deletes. -/
namespace HostingPlatform.NodeTerminal

open Option Table List Interleaving Transition

abbrev TerminalWorld := World Store Task Response

/-- A stdin or resize frame in the time that a session may be idle. -/
def UserActive (d : Store) (sessionId : Nat) : Prop :=
  ∃ f ∈ d.frames, f.1 = sessionId ∧ d.now ≤ f.2 + idleMs

def Expired (d : Store) (sessionId : Nat) : Prop := ∃ g ∈ d.granted, g.1 = sessionId ∧ g.2 < d.now

/-- A socket is attached, or will be since its token has been taken. -/
def InUse (w : TerminalWorld) (sessionId : Nat) : Prop :=
  Attached w.db sessionId ∨ ∃ p ∈ w.running.rows, attaching p.task = some sessionId

/-- There is a Pod that a reaper has chosen or, since the row is gone, will choose. -/
def Doomed (w : TerminalWorld) (sessionId : Nat) : Prop :=
  HasPod w.db sessionId ∧ sessionId ∉ w.db.ended ∧
    (¬HasRow w.db sessionId ∨ ∃ p ∈ w.running.rows, sessionId ∈ chosen p.task)

instance (d : Store) (sessionId : Nat) : Decidable (UserActive d sessionId) :=
  inferInstanceAs (Decidable (∃ f ∈ d.frames, _))

instance (d : Store) (sessionId : Nat) : Decidable (Expired d sessionId) :=
  inferInstanceAs (Decidable (∃ g ∈ d.granted, _))

instance (w : TerminalWorld) (sessionId : Nat) : Decidable (InUse w sessionId) :=
  inferInstanceAs (Decidable (_ ∨ ∃ p ∈ w.running.rows, _))

instance (w : TerminalWorld) (sessionId : Nat) : Decidable (Doomed w sessionId) :=
  inferInstanceAs (Decidable (_ ∧ _ ∧ (_ ∨ ∃ p ∈ w.running.rows, _)))

/- the session whose socket a statement closes, or whose Pod it deletes, without a deliberate termination -/
def reaps : Task → Option Nat
  | .terminateFind t _ | .terminatePod t _ => if t.origin.deliberate then none else some t.sessionId
  | .orphanDelete sessionId _ => some sessionId
  | _ => none

/-- A session that a statement reaps has no Pod, or has expired or was ended, or nobody is attached to it or
active in it. -/
def SparesUsed (d : Store) (task : Task) : Prop :=
  ∀ s ∈ reaps task, HasPod d s →
    Expired d s ∨ s ∈ d.ended ∨ ¬Attached d s ∨ ¬UserActive d s

instance (d : Store) (task : Task) : Decidable (SparesUsed d task) :=
  inferInstanceAs (Decidable (∀ s ∈ reaps task, _))

/-- While a reaper has a session, no token is taken if it has a recent user frame, and no user frame arrives
if it is in use. A grace period begins when no other socket is attached. Where rows are listed as idle, the sessions in use have no
frame that is not in the row. The sweep of Pods finds the row of a session that has one. -/
def Careful (w : TerminalWorld) : Task → Prop
  | .consumeToken _ a => HasRow w.db a.sessionId → UserActive w.db a.sessionId → ¬Doomed w a.sessionId
  | .message socket frame =>
    frame.isActivity = true → ∀ k ∈ w.db.sockets.rows, k.id = socket →
      InUse w k.sessionId → ¬Doomed w k.sessionId
  | .scheduleDelayedTermination k _ _ => ¬InUse w k.sessionId
  | .sweep _ .idle =>
    ∀ r ∈ w.db.rows.rows, isIdle w.db r = true → ¬(InUse w r.id ∧ UserActive w.db r.id)
  | .orphanFind sessionId _ => HasRow w.db sessionId → w.db.dbDown = false
  | _ => True

instance (w : TerminalWorld) : DecidablePred (Careful w) := by
  intro _
  unfold Careful
  split <;> infer_instance

structure Spared (w : TerminalWorld) : Prop where
  granted : ∀ r ∈ w.db.rows, (r.id, r.expiresAt) ∈ w.db.granted
  drawn : ∀ g ∈ w.db.granted, g.1 < w.db.drawn
  creating : ∀ p ∈ w.running, ∀ s, creating p.task = some s → s < w.db.drawn
  known : ∀ s, InUse w s → ∃ g ∈ w.db.granted, g.1 = s
  noGrace : ∀ s, InUse w s → ∀ r ∈ w.db.rows, r.id = s → r.terminateAfter = none
  spared : ∀ s, Doomed w s → InUse w s → UserActive w.db s → Expired w.db s
  log : ∀ e ∈ w.log, SparesUsed e.before e.task

variable {w : TerminalWorld} {p : Process Task} {s : Nat} {task : Task}

theorem task_run {q : Process Task} (memq : q ∈ (system.run w p).running) :
    q ∈ w.running ∨ Next w.db p.task (system.run w p).db q.task := by
  rcases mem_resume memq with ⟨old, _⟩ | ⟨left, outcome, rfl⟩
  · exact .inl old
  · exact .inr (advance_next outcome)

section statement

variable {w : TerminalWorld} {p : Process Task} {s : Nat} (mem : p ∈ w.running)
include mem

theorem inUse_run (use : InUse (system.run w p) s) : InUse w s ∨
    ∃ socket a, p.task = .consumeToken socket a ∧ a.sessionId = s ∧ Taken w.db (system.run w p).db s := by
  rcases use with attached | ⟨q, memq, attach⟩
  · rcases (advance_effect w.db p.task).attached s attached with before | attach
    · exact .inl (.inl before)
    · exact .inl (.inr ⟨p, mem, attach⟩)
  rcases task_run memq with old | next
  · exact .inl (.inr ⟨q, old, attach⟩)
  rcases next.attaching s attach with before | taken
  · exact .inl (.inr ⟨p, mem, before⟩)
  · exact .inr taken

theorem doomed_run (doom : Doomed (system.run w p) s) :
    Doomed w s ∨ (HasPod w.db s ∧ s ∉ w.db.ended ∧ Chooses w.db p.task s) ∨ s = w.db.drawn := by
  have effect := advance_effect w.db p.task
  obtain ⟨pod, notEnded, why⟩ := doom
  have goesOn : s ∉ w.db.ended := fun ended => notEnded (effect.ended s ended)
  rcases effect.pods s pod with before | ⟨new, _⟩
  · rcases why with noRow | ⟨q, memq, chosen⟩
    · by_cases row : HasRow w.db s
      · rcases effect.erased s row with still | ⟨t, after, task, own, deliberate⟩
        · exact absurd still noRow
        refine .inl ⟨before, goesOn, .inr ⟨p, mem, ?_⟩⟩
        have reaper : ¬t.origin.deliberate = true := fun ends => notEnded (deliberate ends)
        rw [task, NodeTerminal.chosen, if_neg reaper, own]
        exact mem_cons_self
      · exact .inl ⟨before, goesOn, .inl row⟩
    · rcases task_run memq with old | next
      · exact .inl ⟨before, goesOn, .inr ⟨q, old, chosen⟩⟩
      rcases next.chosen s chosen with before' | chooses
      · exact .inl ⟨before, goesOn, .inr ⟨p, mem, before'⟩⟩
      · exact .inr (.inl ⟨before, goesOn, chooses⟩)
  · exact .inr (.inr new)

end statement

theorem expired_run (expired : Expired w.db s) : Expired (system.run w p).db s := by
  have effect := advance_effect w.db p.task
  obtain ⟨g, mem, own, past⟩ := expired
  refine ⟨g, effect.grants g mem, own, ?_⟩
  rw [show (system.run w p).db.now = w.db.now from effect.now]
  exact past

theorem userActive_run (active : UserActive (system.run w p).db s) : UserActive w.db s ∨
      ∃ socket frame, p.task = .message socket frame ∧ frame.isActivity = true ∧
        ∃ k ∈ w.db.sockets, k.id = socket ∧ k.sessionId = s := by
  have effect := advance_effect w.db p.task
  obtain ⟨f, mem, rfl, recent⟩ := active
  rcases effect.frames f mem with old | new
  · refine .inl ⟨f, old, rfl, ?_⟩
    rw [show (system.run w p).db.now = w.db.now from effect.now] at recent
    exact recent
  · exact .inr new

section

variable (spared : Spared w)
include spared

theorem granted_run : ∀ r ∈ (system.run w p).db.rows, (r.id, r.expiresAt) ∈ (system.run w p).db.granted := by
  have effect := advance_effect w.db p.task
  intro r mem
  rcases effect.rows r mem with ⟨old, there, id, expiresAt, _⟩ | ⟨_, granted, _⟩
  · rw [← id, ← expiresAt]
    exact effect.grants _ (spared.granted old there)
  · exact granted

theorem known_run (mem : p ∈ w.running) (use : InUse (system.run w p) s) : ∃ g ∈ w.db.granted, g.1 = s := by
  rcases inUse_run mem use with before | ⟨_, _, _, _, taken⟩
  · exact spared.known s before
  · obtain ⟨r, there, own⟩ := taken.row
    exact ⟨_, spared.granted r there, own⟩

theorem noGrace_run (mem : p ∈ w.running) (careful : Careful w p.task) (use : InUse (system.run w p) s) :
    ∀ r ∈ (system.run w p).db.rows, r.id = s → r.terminateAfter = none := by
  intro r there own
  rcases inUse_run mem use with before | ⟨_, _, _, _, taken⟩
  · rcases (advance_effect w.db p.task).rows r there with ⟨old, was, id, _, grace⟩ | ⟨_, _, none⟩
    · rcases grace with none | same | schedules
      · exact none
      · rw [same]
        exact spared.noGrace s before old was (id.trans own)
      obtain ⟨id, task⟩ := p
      cases task with
      | scheduleDelayedTermination k fireAt reason =>
        obtain rfl : k.sessionId = s := (some.inj schedules).trans own
        exact absurd before careful
      | _ => cases schedules
    · exact none
  · exact taken.noGrace r there own

theorem chosen_spared (careful : Careful w task) (chooses : Chooses w.db task s)
    (use : InUse w s) (active : UserActive w.db s) : Expired w.db s ∨ ¬HasRow w.db s := by
  cases task with
  | sweep replica sweep =>
    obtain ⟨r, there, rfl, selects⟩ := chooses
    cases sweep with
    | idle => exact absurd ⟨use, active⟩ (careful r there selects)
    | expired => exact .inl ⟨_, spared.granted r there, rfl, of_decide_eq_true selects⟩
    | readyForTermination =>
      rw [Sweep.selects, isReadyForTermination, spared.noGrace r.id use r there rfl] at selects
      contradiction
  | graceCheck replica sessionId =>
    obtain ⟨rfl, r, there, own, grace⟩ := chooses
    exact absurd (spared.noGrace sessionId use r there own) grace
  | orphanFind sessionId rest =>
    obtain ⟨rfl, missing⟩ := chooses
    by_cases row : HasRow w.db sessionId
    · rcases missing with down | notFound
      · rw [careful row] at down
        contradiction
      left
      cases selected : w.db.rows.select (fun r => r.id == sessionId) with
      | none =>
        obtain ⟨r, there, own⟩ := row
        have other := select_none selected r there
        simp [own] at other
      | some r =>
        obtain ⟨there, own⟩ := mem_of_select selected
        rw [findById, selected, bind_some] at notFound
        split at notFound
        · rename_i past
          exact ⟨_, spared.granted r there, eq_of_beq own, past⟩
        · contradiction
    · exact .inr row
  | _ => exact absurd chooses id

theorem spared_run (mem : p ∈ w.running) (careful : Careful w p.task)
    (doom : Doomed (system.run w p) s) (use : InUse (system.run w p) s)
    (active : UserActive (system.run w p).db s) : Expired (system.run w p).db s := by
  obtain ⟨g, granted, own⟩ := known_run spared mem use
  have drawn : s ≠ w.db.drawn := by
    have less := spared.drawn g granted
    omega
  rcases userActive_run active with activeBefore | ⟨socket, frame, task, activity, k, there, id, session⟩
  · rcases inUse_run mem use with useBefore | ⟨socket, a, task, session, taken⟩
    · rcases doomed_run mem doom with doomBefore | ⟨pod, notEnded, chooses⟩ | new
      · exact expired_run (spared.spared s doomBefore useBefore activeBefore)
      · rcases chosen_spared spared careful chooses useBefore activeBefore with expired | noRow
        · exact expired_run expired
        · exact expired_run (spared.spared s ⟨pod, notEnded, .inl noRow⟩ useBefore activeBefore)
      · exact absurd new drawn
    · -- the token of a session is taken: no reaper had it, and none gets it here
      rw [task] at careful
      rcases doomed_run mem doom with doomBefore | ⟨_, _, chooses⟩ | new
      · exact absurd (session ▸ doomBefore) (careful (session ▸ taken.row) (session ▸ activeBefore))
      · rw [task] at chooses
        exact absurd chooses id
      · exact absurd new drawn
  · rw [task] at careful
    have useBefore : InUse w s := by
      rcases inUse_run mem use with before | ⟨_, _, other, _⟩
      · exact before
      · rw [task] at other
        contradiction
    rcases doomed_run mem doom with doomBefore | ⟨_, _, chooses⟩ | new
    · exact absurd (session ▸ doomBefore) (careful activity k there id (session ▸ useBefore))
    · rw [task] at chooses
      exact absurd chooses (fun none => none)
    · exact absurd new drawn

theorem sparesUsed_of_spared (mem : p ∈ w.running) : SparesUsed w.db p.task := by
  intro s reaped pod
  have chosen : s ∈ chosen p.task := by
    obtain ⟨id, task⟩ := p
    cases task with
    | terminateFind t after | terminatePod t after =>
      simp only [reaps] at reaped
      split at reaped
      · contradiction
      rename_i reaper
      cases reaped
      rw [NodeTerminal.chosen, if_neg reaper]
      exact mem_cons_self
    | orphanDelete sessionId rest =>
      cases reaped
      exact mem_singleton_self _
    | _ => cases reaped
  by_cases ended : s ∈ w.db.ended
  · exact .inr (.inl ended)
  by_cases use : Attached w.db s ∧ UserActive w.db s
  · exact .inl (spared.spared s ⟨pod, ended, .inr ⟨p, mem, chosen⟩⟩ (.inl use.1) use.2)
  refine .inr (.inr ?_)
  by_cases attached : Attached w.db s
  · exact .inr (fun active => use ⟨attached, active⟩)
  · exact .inl attached

theorem spared_advance (mem : p ∈ w.running) (careful : Careful w p.task) : Spared (system.run w p) where
  granted := granted_run spared
  drawn := by
    have effect := advance_effect w.db p.task
    intro g granted
    rcases effect.granted g granted with old | create
    · exact Nat.lt_of_lt_of_le (spared.drawn g old) effect.drawn
    · exact Nat.lt_of_lt_of_le (spared.creating p mem g.1 create) effect.drawn
  creating := by
    have effect := advance_effect w.db p.task
    intro q memq s create
    rcases task_run memq with old | next
    · exact Nat.lt_of_lt_of_le (spared.creating q old s create) effect.drawn
    rcases next.creating s create with before | ⟨rfl, drawn⟩
    · exact Nat.lt_of_lt_of_le (spared.creating p mem s before) effect.drawn
    · rw [drawn]
      exact Nat.lt_succ_self _
  known := by
    intro s use
    obtain ⟨g, granted, own⟩ := known_run spared mem use
    exact ⟨g, (advance_effect w.db p.task).grants g granted, own⟩
  noGrace := fun _ use => noGrace_run spared mem careful use
  spared := fun _ doom use active => spared_run spared mem careful doom use active
  log := by
    intro e logged
    rcases mem_cons.mp logged with rfl | old
    · exact sparesUsed_of_spared spared mem
    · exact spared.log e old

end

theorem request_idle (requested : request w task = true) :
    attaching task = none ∧ creating task = none ∧ chosen task = [] := by
  cases task with
  | terminateSession t after =>
    simp only [request, Bool.and_eq_true, beq_iff_eq] at requested
    obtain ⟨origin, rfl⟩ := requested
    exact ⟨rfl, rfl, by simp [chosen, origin, Origin.deliberate, After.rest]⟩
  | createSession | attachExec | wsToken | graceTimer | message | finalize | sweep => exact ⟨rfl, rfl, rfl⟩
  | _ => cases requested

theorem spared_arrive {running : Table (Process Task) Process.id} (spared : Spared w)
    (requested : request w p.task = true) (inserted : w.running.insert p = some running) :
    Spared { w with running } := by
  obtain ⟨attach, create, none⟩ := request_idle requested
  have use : ∀ s, InUse { w with running } s → InUse w s := by
    rintro s (attached | ⟨q, memq, attaches⟩)
    · exact .inl attached
    rcases (mem_insert inserted).mp memq with rfl | old
    · rw [attach] at attaches
      contradiction
    · exact .inr ⟨q, old, attaches⟩
  have doomed : ∀ s, Doomed { w with running } s → Doomed w s := by
    rintro s ⟨pod, notEnded, why⟩
    refine ⟨pod, notEnded, why.imp id ?_⟩
    rintro ⟨q, memq, chooses⟩
    rcases (mem_insert inserted).mp memq with rfl | old
    · rw [none] at chooses
      exact absurd chooses not_mem_nil
    · exact ⟨q, old, chooses⟩
  exact {
    granted := spared.granted
    drawn := spared.drawn
    creating := by
      intro q memq s creates
      rcases (mem_insert inserted).mp memq with rfl | old
      · rw [create] at creates
        contradiction
      · exact spared.creating q old s creates
    known := fun s used => spared.known s (use s used)
    noGrace := fun s used => spared.noGrace s (use s used)
    spared := fun s doom used => spared.spared s (doomed s doom) (use s used)
    log := spared.log }

theorem spared_environment (spared : Spared w) (change : Environment) :
    Spared { w with db := environment w.db change } := by
  cases change with
  | pass ms =>
    refine ⟨spared.granted, spared.drawn, spared.creating, spared.known, spared.noGrace, ?_, spared.log⟩
    rintro s doom use ⟨f, mem, own, recent⟩
    have before : w.db.now ≤ f.2 + idleMs := Nat.le_trans (Nat.le_add_right _ _) recent
    obtain ⟨g, granted, same, past⟩ := spared.spared s doom use ⟨f, mem, own, before⟩
    exact ⟨g, granted, same, Nat.lt_of_lt_of_le past (Nat.le_add_right _ _)⟩
  | lost socket =>
    have use : ∀ s, InUse { w with db := environment w.db (.lost socket) } s → InUse w s :=
      fun s used => used.imp attached_change id
    exact ⟨spared.granted, spared.drawn, spared.creating, fun s used => spared.known s (use s used),
      fun s used => spared.noGrace s (use s used),
      fun s doom used active => spared.spared s doom (use s used) active, spared.log⟩
  | database down | kubernetes down =>
    exact ⟨spared.granted, spared.drawn, spared.creating, spared.known, spared.noGrace, spared.spared,
      spared.log⟩

theorem spared_start (now : Nat) : Spared (World.initial (Store.start now)) where
  granted _ mem := absurd mem not_mem_nil
  drawn _ mem := absurd mem not_mem_nil
  creating _ mem := absurd mem not_mem_nil
  known := by
    rintro s (⟨k, mem, _⟩ | ⟨q, mem, _⟩)
    · exact absurd mem not_mem_nil
    · exact absurd mem not_mem_nil
  noGrace _ _ _ mem := absurd mem not_mem_nil
  spared := by
    rintro s ⟨⟨pod, mem, _⟩, _⟩
    exact absurd mem not_mem_nil
  log _ mem := absurd mem not_mem_nil

/-- In every careful run no Pod of a session in use is deleted but by a deliberate termination, however
the requests, frames, timers and ticks of the replicas come in between each other. -/
theorem used_sessions_spared {now : Nat} {actions : List (Action Task Environment)} {w : TerminalWorld}
    (careful : Guarded system.step (onAdvance Careful) (World.initial (Store.start now)) actions)
    (run : exec system.step (World.initial (Store.start now)) actions = some w) :
    ∀ e ∈ w.log, SparesUsed e.before e.task := by
  have spared := @System.invariant _ _ _ _ system Careful Spared
    (fun _ _ _ inv requested inserted => spared_arrive inv requested inserted)
    (fun _ _ inv mem allowed => spared_advance inv mem allowed)
    (fun _ change inv => spared_environment inv change) _ w actions (spared_start now) careful run
  exact spared.log

/- the administrator 7 opens a terminal (session 0, socket 0) and types -/
def opened : List (Action Task Environment) :=
  .arrive 1 (.createSession ⟨1, 7, "node-a", 100, true⟩) :: List.replicate 3 (.advance 1) ++
    .arrive 2 (.attachExec ⟨1, 0, 7, 100⟩) :: List.replicate 7 (.advance 2) ++
    [.arrive 3 (.message 0 .stdin), .advance 3]

/- the page is loaded again: a token (101), the socket 1 at another replica, and a frame on it -/
def reconnects : List (Action Task Environment) :=
  .arrive 4 (.wsToken 0 7 101) :: List.replicate 2 (.advance 4) ++
    .arrive 5 (.attachExec ⟨2, 0, 7, 101⟩) :: List.replicate 7 (.advance 5) ++
    [.arrive 6 (.message 1 .stdin), .advance 6]

/- the socket 0 is reported closed, and its grace period begins -/
def closes : List (Action Task Environment) :=
  .environment (.lost 0) :: .arrive 7 (.finalize 0 .clientClose) :: List.replicate 3 (.advance 7)

/- a tick of a third replica, as far as these statements -/
def ticks (statements : Nat) : List (Action Task Environment) :=
  .arrive 8 (.sweep 3 .idle) :: List.replicate statements (.advance 8)

/- closed, reconnected in time, closed again, and ended by the tick after the grace period -/
def inOrder : List (Action Task Environment) :=
  opened ++ closes ++ reconnects ++ [.environment (.lost 1), .arrive 9 (.finalize 1 .clientClose)] ++
    List.replicate 3 (.advance 9) ++ .environment (.pass 60001) :: ticks 5

theorem used_sessions_spared_in_order : ∃ w, exec system.step (World.initial (Store.start 0)) inOrder = some w ∧
      ∀ e ∈ w.log, SparesUsed e.before e.task := by
  have runs : (exec system.step (World.initial (Store.start 0)) inOrder).isSome = true := by
    decide +kernel
  obtain ⟨w, run⟩ := isSome_iff_exists.mp runs
  exact ⟨w, run, used_sessions_spared (by decide +kernel) run⟩

/- the old socket is reported closed after the new one is attached: its grace period runs out -/
def lateClose : List (Action Task Environment) :=
  opened ++ reconnects ++ closes ++
    .environment (.pass 60000) :: .arrive 9 (.graceTimer 1 0) :: List.replicate 4 (.advance 9)

/- frames after the attach leave the row as it is -/
def onlyInMemory : List (Action Task Environment) :=
  opened ++ .environment (.pass 600000) :: .arrive 9 (.message 0 .stdin) :: .advance 9 ::
    .environment (.pass 300001) :: ticks 3

/- a tick has listed the session when the reconnect clears terminate_after -/
def staleList : List (Action Task Environment) :=
  opened ++ closes ++ .environment (.pass 60001) :: ticks 3 ++ reconnects ++ List.replicate 2 (.advance 8)

def failedQuery : List (Action Task Environment) :=
  opened ++ .environment (.pass 300000) :: ticks 4 ++
    .environment (.database true) :: List.replicate 2 (.advance 8)

/-- The last statement deletes the Pod of the session 0 while it is in use. -/
def Kills (w : TerminalWorld) : Prop :=
  ¬HasPod w.db 0 ∧ ∃ e ∈ w.log.head?, HasPod e.before 0 ∧ ¬SparesUsed e.before e.task

instance (w : TerminalWorld) : Decidable (Kills w) :=
  inferInstanceAs (Decidable (_ ∧ ∃ e ∈ w.log.head?, _))

def EndsInUse (actions : List (Action Task Environment)) : Prop :=
  ∃ w, exec system.step (World.initial (Store.start 0)) actions = some w ∧ Kills w

theorem endsInUse_of_any {actions : List (Action Task Environment)}
    (kills : (exec system.step (World.initial (Store.start 0)) actions).any (decide <| Kills ·) = true) :
    EndsInUse actions := by
  obtain ⟨w, run, kills⟩ := (any_eq_true _ _).mp kills
  exact ⟨w, run, of_decide_eq_true kills⟩

/-- Each of the four reapers deletes the Pod of a session that a socket is attached to and somebody is
typing in. -/
theorem sessions_in_use_killed :
    EndsInUse lateClose ∧ EndsInUse onlyInMemory ∧ EndsInUse staleList ∧ EndsInUse failedQuery := by
  refine ⟨?_, ?_, ?_, ?_⟩
  · exact endsInUse_of_any (by decide +kernel)
  · exact endsInUse_of_any (by decide +kernel)
  · exact endsInUse_of_any (by decide +kernel)
  · exact endsInUse_of_any (by decide +kernel)

end HostingPlatform.NodeTerminal
