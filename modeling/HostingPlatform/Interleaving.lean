import HostingPlatform.Table
import HostingPlatform.Transition

/-! Requests that share one store. A request is a task, which says what it still
has to do; an action lets one request run its next statement, lets a new request
arrive, or lets something else change the store. The log keeps every statement
with the store it ran on, the newest first. -/
namespace HostingPlatform.Interleaving

open Option Table List Transition

inductive Outcome (T R : Type) where
  | next (task : T)
  | answer (response : R)

def Outcome.map {T T' R R' : Type} (f : T → T') (g : R → R') : Outcome T R → Outcome T' R'
  | .next task => .next (f task)
  | .answer response => .answer (g response)

structure Process (T : Type) where
  id : Nat
  task : T

structure Event (D T R : Type) where
  before : D
  task : T
  outcome : Outcome T R

structure World (D T R : Type) where
  db : D
  running : Table (Process T) Process.id
  log : List (Event D T R)

/- what requests have been answered, the newest answer first -/
def World.answers {D T R : Type} (w : World D T R) : List R :=
  w.log.filterMap (fun e => match e.outcome with
    | .answer response => some response
    | .next _ => none)

variable {D T R : Type}

variable {w : World D T R} {response : R} {running : Table (Process T) Process.id} {id : Nat}
  {outcome : Outcome T R} {ok : World D T R → T → Prop} {Inv : World D T R → Prop}

theorem mem_answers : response ∈ w.answers ↔ ∃ e ∈ w.log, e.outcome = .answer response := by
  simp only [World.answers, mem_filterMap]
  constructor
  · rintro ⟨e, mem, answered⟩
    cases outcome : e.outcome with
    | next task => simp [outcome] at answered
    | answer r =>
      simp only [outcome, some.injEq] at answered
      exact ⟨e, mem, by rw [outcome, answered]⟩
  · rintro ⟨e, mem, answered⟩
    exact ⟨e, mem, by rw [answered]⟩

inductive Action (T E : Type) where
  | arrive (id : Nat) (task : T)
  | advance (id : Nat)
  | environment (change : E)

structure System (D T R E : Type) where
  request : World D T R → T → Bool
  advance : D → T → D × Outcome T R
  environment : D → E → D

def World.initial {D T R : Type} (db : D) : World D T R := ⟨db, Table.empty, []⟩

def becomes {T : Type} (task : T) (p : Process T) : Process T := { p with task }

theorem becomes_id (task : T) (p : Process T) : (becomes task p).id = p.id := rfl

/- a request that has answered leaves the table -/
def resume {T R : Type} (running : Table (Process T) Process.id) (id : Nat) :
    Outcome T R → Table (Process T) Process.id
  | .next task => running.update (fun p => p.id == id) (becomes task) (becomes_id task)
  | .answer _ => running.delete (fun p => p.id == id)

def System.run {D T R E : Type} (sys : System D T R E) (w : World D T R) (p : Process T) :
    World D T R :=
  let result := sys.advance w.db p.task
  { db := result.1, running := resume w.running p.id result.2,
    log := ⟨w.db, p.task, result.2⟩ :: w.log }

def System.step {D T R E : Type} (sys : System D T R E) (w : World D T R) :
    Action T E → Option (World D T R)
  | .arrive id task =>
    if sys.request w task then (w.running.insert ⟨id, task⟩).map ({ w with running := · })
    else none
  | .advance id => (w.running.select (fun p => p.id == id)).map (sys.run w)
  | .environment change => some { w with db := sys.environment w.db change }

/-- A condition on the statements of a run, each on the world it runs in. -/
def onAdvance {D T R E : Type} (ok : World D T R → T → Prop) (w : World D T R) :
    Action T E → Prop
  | .advance id => ∀ p ∈ w.running.rows, p.id = id → ok w p.task
  | _ => True

instance decOnAdvance {D T R E : Type} (ok : World D T R → T → Prop)
    [∀ w task, Decidable (ok w task)] (w : World D T R) (a : Action T E) :
    Decidable (onAdvance ok w a) :=
  match a with
  | .advance id => inferInstanceAs (Decidable (∀ p ∈ w.running.rows, p.id = id → ok w p.task))
  | .arrive _ _ | .environment _ => isTrue trivial

variable {q : Process T}

theorem mem_resume_next {task : T} (mem : q ∈ resume running id (.next task : Outcome T R)) :
    q ∈ running ∧ q.id ≠ id ∨ q = ⟨id, task⟩ := by
  simp only [resume, mem_update] at mem
  rcases mem with ⟨old, other⟩ | ⟨old, _, same, rfl⟩
  · exact .inl ⟨old, by simpa using other⟩
  · refine .inr ?_
    rw [becomes, eq_of_beq same]

theorem mem_resume_answer {running : Table (Process T) Process.id} {id : Nat} {response : R}
    (mem : q ∈ resume running id (.answer response : Outcome T R)) : q ∈ running ∧ q.id ≠ id := by
  simp only [resume, mem_delete] at mem
  exact ⟨mem.1, by simpa using mem.2⟩

theorem mem_resume (mem : q ∈ resume running id outcome) :
    q ∈ running ∧ q.id ≠ id ∨ ∃ task, outcome = .next task ∧ q = ⟨id, task⟩ := by
  cases outcome with
  | next task =>
    rcases mem_resume_next mem with other | this
    · exact .inl other
    · exact .inr ⟨task, rfl, this⟩
  | answer response => exact .inl (mem_resume_answer mem)

theorem mem_resume_other (mem : q ∈ running) (other : q.id ≠ id) : q ∈ resume running id outcome := by
  cases outcome with
  | next task => exact (mem_update (becomes_id task)).mpr (.inl ⟨mem, by simpa using other⟩)
  | answer response => exact mem_delete.mpr ⟨mem, by simpa using other⟩

theorem mem_resume_self {running : Table (Process T) Process.id} {p : Process T} {task : T} (mem : p ∈ running) :
    (⟨p.id, task⟩ : Process T) ∈ resume running p.id (.next task : Outcome T R) :=
  (mem_update (becomes_id task)).mpr (.inr ⟨p, mem, by simp, rfl⟩)

variable {E : Type} {sys : System D T R E}

theorem answers_run {p : Process T} (mem : response ∈ (sys.run w p).answers) :
    response ∈ w.answers ∨ (sys.advance w.db p.task).2 = .answer response := by
  obtain ⟨e, meme, answered⟩ := mem_answers.mp mem
  rcases mem_cons.mp meme with rfl | old
  · exact .inr answered
  · exact .inl (mem_answers.mpr ⟨e, old, answered⟩)

section

variable
  (arrive : ∀ w running p, Inv w → sys.request w p.task = true → w.running.insert p = some running → Inv { w with running })
include arrive

theorem System.preserves (advance : ∀ w p, Inv w → p ∈ w.running → ok w p.task → Inv (sys.run w p))
    (environment : ∀ w change, Inv w → Inv { w with db := sys.environment w.db change }) (w : World D T R)
    (action : Action T E) (w' : World D T R) (inv : Inv w) (allowed : onAdvance ok w action)
    (taken : sys.step w action = some w') : Inv w' := by
  cases action with
  | arrive id task =>
    simp only [System.step] at taken
    split at taken
    · rename_i requested
      obtain ⟨running, inserted, rfl⟩ := map_eq_some_iff.mp taken
      exact arrive w running ⟨id, task⟩ inv requested inserted
    · contradiction
  | advance id =>
    obtain ⟨p, selected, rfl⟩ := map_eq_some_iff.mp taken
    obtain ⟨mem, same⟩ := mem_of_select selected
    exact advance w p inv mem (allowed p mem (eq_of_beq same))
  | environment change =>
    cases taken
    exact environment w change inv

theorem System.preserves_always (advance : ∀ w p, Inv w → p ∈ w.running → Inv (sys.run w p))
    (environment : ∀ w change, Inv w → Inv { w with db := sys.environment w.db change }) (w : World D T R)
    (action : Action T E) (w' : World D T R) (inv : Inv w) (taken : sys.step w action = some w') :
    Inv w' := by
  have allowed : onAdvance (fun _ _ => True) w action := by
    cases action with
    | advance id => exact fun _ _ _ => trivial
    | arrive | environment => trivial
  exact System.preserves arrive (fun v p inv mem _ => advance v p inv mem) environment w action w' inv
    allowed taken

end

theorem System.invariant {ok : World D T R → T → Prop} {Inv : World D T R → Prop}
    (arrive : ∀ w running p, Inv w → sys.request w p.task = true → w.running.insert p = some running →
      Inv { w with running }) (advance : ∀ w p, Inv w → p ∈ w.running → ok w p.task → Inv (sys.run w p))
    (environment : ∀ w change, Inv w → Inv { w with db := sys.environment w.db change })
    {w w' : World D T R} {actions : List (Action T E)} (initial : Inv w)
    (guarded : Guarded sys.step (onAdvance ok) w actions)
    (run : exec sys.step w actions = some w') : Inv w' :=
  guarded_invariant (System.preserves arrive advance environment) initial guarded run

variable {actions : List (Action T E)}

theorem System.invariant_always {Inv : World D T R → Prop}
    (arrive : ∀ w running p, Inv w → sys.request w p.task = true → w.running.insert p = some running →
      Inv { w with running }) (advance : ∀ w p, Inv w → p ∈ w.running → Inv (sys.run w p))
    (environment : ∀ w change, Inv w → Inv { w with db := sys.environment w.db change })
    {w w' : World D T R} (initial : Inv w) (run : exec sys.step w actions = some w') : Inv w' :=
  guarded_invariant (fun v a v' inv _ taken => System.preserves_always arrive advance environment v a v' inv taken)
    initial (guarded_of_forall (fun _ _ => trivial) w actions) run

theorem System.guarded_iff_always {P : World D T R → Prop}
    (arrive : ∀ w running p, Inv w → sys.request w p.task = true → w.running.insert p = some running →
      Inv { w with running }) (advance : ∀ w p, Inv w → p ∈ w.running → ok w p.task → Inv (sys.run w p))
    (environment : ∀ w change, Inv w → Inv { w with db := sys.environment w.db change })
    (holds : ∀ w, Inv w → P w) (breaks : ∀ w p, Inv w → p ∈ w.running → ¬ ok w p.task → ¬ P (sys.run w p))
    {w' : World D T R} (initial : Inv w) (run : exec sys.step w actions = some w') :
    Guarded sys.step (onAdvance ok) w actions ↔ Always sys.step P w actions := by
  refine Transition.guarded_iff_always (System.preserves arrive advance environment) holds ?_ initial run
  intro v action v' inv against taken
  cases action with
  | arrive id task | environment change => exact absurd trivial against
  | advance id =>
    obtain ⟨p, selected, rfl⟩ := map_eq_some_iff.mp taken
    obtain ⟨mem, same⟩ := mem_of_select selected
    refine breaks v p inv mem ?_
    intro allowed
    refine against ?_
    intro q memq own
    rw [v.running.eq_of_key memq mem (own.trans (eq_of_beq same).symm)]
    exact allowed

theorem System.log_faithful {db : D} (run : exec sys.step (World.initial db) actions = some w) :
    ∀ e ∈ w.log, (sys.advance e.before e.task).2 = e.outcome := by
  refine @System.invariant_always D T R E sys actions (fun v => ∀ e ∈ v.log, (sys.advance e.before e.task).2 = e.outcome)
    (fun _ _ _ inv _ _ => inv) ?_ (fun _ _ inv => inv) (World.initial db) w (fun e mem => absurd mem not_mem_nil) run
  intro v p inv _ e mem
  rcases mem_cons.mp mem with rfl | old
  · rfl
  · exact inv e old

theorem filter_length_le_one {A : Type} {p : A → Bool} {log : List A}
    (apart : log.Pairwise (fun later earlier => p earlier = true → p later = false)) : (log.filter p).length ≤ 1 := by
  induction log with
  | nil => exact Nat.zero_le 1
  | cons a rest ih =>
    obtain ⟨first, tail⟩ := pairwise_cons.mp apart
    by_cases kind : p a = true
    · have none : rest.filter p = [] := by
        refine filter_eq_nil_iff.mpr ?_
        intro b mem kind'
        rw [first b mem kind'] at kind
        contradiction
      rw [filter_cons_of_pos kind, none]
      exact Nat.le_refl 1
    · rw [filter_cons_of_neg kind]
      exact ih tail

end HostingPlatform.Interleaving
