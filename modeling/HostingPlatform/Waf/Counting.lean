import HostingPlatform.Transition
import HostingPlatform.Waf.Autoban
import Mathlib.Data.List.Dedup

/-! Scrapes and ticks on any number of replicas, statement by statement: which events are inserted,
and which of their rows reach the evaluator. The lines of a pod come in the order in which they are
written. -/
namespace HostingPlatform.Waf

open Table List Js Transition

structure Setup where
  directory : Directory
  newestFirst : List WafLog → List WafLog
  config : CrowdsecAutobanConfig

/- with the lines it has read and the events it has not inserted yet -/
structure Scrape where
  id : Nat
  now : Int
  lines : List Line
  remaining : List ParsedWafEvent

/- between the read of its batch and the evaluation -/
structure Tick where
  id : Nat
  batch : List WafLog

/-- Beside the tables: every event with the row that has been inserted for it, the ids of the rows since
the first tick, and the batches that the evaluator has got, each the newest first. -/
structure World where
  clock : Int
  pods : List (List Line)
  wafLogs : WafLogs
  watermark : Option Nat
  scrapes : Table Scrape Scrape.id
  ticks : Table Tick Tick.id
  inserted : List (String × WafLog)
  ticked : Bool
  watched : List Nat
  evaluations : List (List WafLog)

def World.passed (w : World) : List WafLog := w.evaluations.flatten

inductive Action where
  | wait (ms : Nat)
  | write (pod : Nat) (text : String)
  | scrape (id : Nat)
  | insert (scrapeId rowId : Nat)
  | prune (scrapeId : Nat)
  | tick (id : Nat)
  | evaluate (tickId : Nat)

def logSinceMs : Int := 35000

/- `sinceSeconds`, of one pod after the other -/
def readLogs (w : World) : List Line :=
  w.pods.flatMap (fun pod => pod.filter (fun line => w.clock - logSinceMs ≤ line.1))

def Scrape.events (s : Scrape) : List ParsedWafEvent := scrapedEvents s.now (s.lines.map Prod.snd)

def onward (remaining : List ParsedWafEvent) (s : Scrape) : Scrape := { s with remaining }

theorem onward_id (remaining : List ParsedWafEvent) (s : Scrape) : (onward remaining s).id = s.id := rfl

def evaluated (config : CrowdsecAutobanConfig) (batch : List WafLog) : List WafLog :=
  if config.enabled then batch.filter evaluable else []

/-- A row's id is one that no row has had. A tick that finds nothing ends there, and one that has read a
batch saves its last id before it evaluates. -/
def step (c : Setup) (w : World) : Action → Option World
  | .wait ms => some { w with clock := w.clock + ms }
  | .write pod text => some { w with pods := w.pods.modify pod (fun lines => lines ++ [(w.clock, text)]) }
  | .scrape id =>
    let lines := readLogs w
    (w.scrapes.insert ⟨id, w.clock, lines, scrapedEvents w.clock (lines.map Prod.snd)⟩).map
      (fun scrapes => { w with scrapes })
  | .insert scrapeId rowId =>
    match w.scrapes.select (fun s => s.id == scrapeId) with
    | none => none
    | some s =>
      match s.remaining with
      | [] => none
      | event :: rest =>
        let row := wafLog c.directory w.clock rowId event
        if w.inserted.any (fun x => x.2.id == rowId) then none
        else (w.wafLogs.insert row).map (fun wafLogs =>
          { w with
            wafLogs
            scrapes := w.scrapes.update (fun s => s.id == scrapeId) (onward rest) (onward_id rest)
            inserted := (event.uniqueId, row) :: w.inserted
            watched := if w.ticked then rowId :: w.watched else w.watched })
  | .prune scrapeId =>
    match w.scrapes.select (fun s => s.id == scrapeId && s.remaining.isEmpty) with
    | none => none
    | some s => some { w with wafLogs := pruneAll c.newestFirst c.directory s.events w.wafLogs }
  | .tick id =>
    match newWafEventsSince w.wafLogs.rows w.watermark with
    | [] => some { w with ticked := true }
    | r :: more => (w.ticks.insert ⟨id, r :: more⟩).map (fun ticks =>
      { w with
        ticks
        ticked := true })
  | .evaluate tickId =>
    match w.ticks.select (fun t => t.id == tickId) with
    | none => none
    | some t => some
      { w with
        watermark := t.batch.getLast?.map WafLog.id
        ticks := w.ticks.delete (fun t => t.id == tickId)
        evaluations :=
          if evaluated c.config t.batch = [] then w.evaluations
          else evaluated c.config t.batch :: w.evaluations }

def Written (w : World) (line : Line) : Prop := ∃ pod ∈ w.pods, line ∈ pod

/-- The event has a host, whichever of the written lines it is read with. -/
def Resolves (w : World) (event : String) : Prop :=
  ∀ (now : Int) (lines : List Line), (∀ line ∈ lines, Written w line) →
    ∀ e ∈ (gathered now (lines.map Prod.snd)).parsed, e.uniqueId = event →
      resolves (gathered now (lines.map Prod.snd)) e = true

/- the events whose rows in a batch are of an address, of all its rows or of some -/
def eventsOf (w : World) (batch : List WafLog) (sourceIp : String) (which : WafLog → Bool) : List String :=
  ((w.inserted.filter (fun x => x.2 ∈ batch ∧ x.2.sourceIp = sourceIp ∧ which x.2)).map Prod.fst).dedup

def isTick : Action → Bool
  | .tick _ | .evaluate _ => true
  | _ => false

structure CountedOnce (c : Setup) (w : World) : Prop where
  /- no event is inserted twice -/
  once : (w.inserted.map Prod.fst).Nodup
  /- with no scrape under way, those that have been written between two scrapes are inserted -/
  covered : (∀ s ∈ w.scrapes.rows, s.remaining = []) → ∀ line, Written w line →
    (∃ s ∈ w.scrapes.rows, s.now ≤ line.1) → (∃ s ∈ w.scrapes.rows, line.1 < s.now) →
      ∀ event, eventOf line.2 = some event → Resolves w event → event ∈ w.inserted.map Prod.fst
  /- no row reaches the evaluator twice -/
  passedOnce : (w.passed.map WafLog.id).Nodup
  /- and the next ticks bring it all that has come since the first and is still there -/
  drains : ∃ ticks after, (∀ a ∈ ticks, isTick a = true) ∧ exec (step c) w ticks = some after ∧
    ∀ row ∈ after.wafLogs.rows, row.id ∈ after.watched → evaluable row = true →
      row.id ∈ after.passed.map WafLog.id
  /- so that of every address the events are counted, and those that qualify against the threshold -/
  counts : ∀ batch ∈ w.evaluations, ∀ recentlyBanned, ∀ d ∈ evaluateWafBatch c.config batch recentlyBanned,
    d.eventCount = (eventsOf w batch d.sourceIp (fun _ => true)).length ∧
      (d.outcome = .banned ∨ d.outcome = .skippedBelowThreshold →
        (Number.lt (.finite (eventsOf w batch d.sourceIp (qualifies c.config)).length)
          c.config.eventThreshold = true ↔ d.outcome = .skippedBelowThreshold))

/- the watermark as the tick under way will leave it -/
def bound (w : World) : Option Nat :=
  (w.ticks.rows.head?.bind (fun t => t.batch.getLast?.map WafLog.id)).or w.watermark

/- scrapes start no further apart than the window of one -/
def Timely (w : World) : Action → Prop
  | .scrape _ => w.scrapes.rows = [] ∨ ∃ s ∈ w.scrapes.rows, w.clock - logSinceMs ≤ s.now
  | _ => True

/-- No scrape inserts what another has inserted, the rows come in the order of their ids, no tick begins
during another, and the records of the audit log match no rule. -/
def Safe (w : World) : Action → Prop
  | .write _ text => isTransaction text = true → eventOf text = none
  | .insert scrapeId rowId => ∀ s ∈ w.scrapes.rows, s.id = scrapeId → ∀ event ∈ s.remaining.head?,
      event.uniqueId ∉ w.inserted.map Prod.fst ∧
        (w.ticked = true → (∃ m ∈ bound w, m < rowId) ∨ bound w = none ∧ w.wafLogs.rows = [])
  | .tick _ => w.ticks.rows = []
  | _ => True

structure Scraping (w : World) : Prop where
  once : (w.inserted.map Prod.fst).Nodup
  past : ∀ s ∈ w.scrapes.rows, s.now ≤ w.clock
  texts : ∀ line, Written w line → line.1 ≤ w.clock ∧ (isTransaction line.2 = true → eventOf line.2 = none)
  written : ∀ s ∈ w.scrapes.rows, ∀ line ∈ s.lines, Written w line
  read : ∀ line, Written w line → (∃ s ∈ w.scrapes.rows, s.now ≤ line.1) →
    (∃ s ∈ w.scrapes.rows, line.1 < s.now) → ∃ s ∈ w.scrapes.rows, line ∈ s.lines
  done : ∀ s ∈ w.scrapes.rows, ∀ e ∈ s.events, e ∈ s.remaining ∨ e.uniqueId ∈ w.inserted.map Prod.fst
  ids : (w.inserted.map (fun x => x.2.id)).Nodup
  rows : ∀ row ∈ w.wafLogs.rows, ∃ x ∈ w.inserted, x.2 = row

structure Ticking (c : Setup) (w : World) : Prop where
  single : w.ticks.rows.length ≤ 1
  batches : ∀ t ∈ w.ticks.rows, t.batch ≠ [] ∧ t.batch.Pairwise (fun r s => r.id < s.id) ∧
    ∀ r ∈ t.batch, (∀ m ∈ w.watermark, m < r.id) ∧ ∃ x ∈ w.inserted, x.2 = r
  below : ∀ r ∈ w.passed, (∃ m ∈ w.watermark, r.id ≤ m) ∧ evaluable r = true ∧ ∃ x ∈ w.inserted, x.2 = r
  passedOnce : (w.passed.map WafLog.id).Nodup
  unwatched : w.ticked = false → w.watched = []
  waiting : ∀ row ∈ w.wafLogs.rows, row.id ∈ w.watched → evaluable row = true →
    row.id ∈ w.passed.map WafLog.id ∨ (∃ t ∈ w.ticks.rows, row ∈ t.batch) ∨ (∃ m ∈ bound w, m < row.id) ∨
      bound w = none ∧ w.wafLogs.rows = [row]

variable {α : Type} {f : α → α} {l : List α} {pods : List (List Line)} {line : Line} {w after : World}
  {c : Setup} {scrapeId rowId tickId : Nat} {wafLogs : WafLogs} {t : Tick} {batch : List WafLog}
  {row : WafLog}

theorem mem_modify {i : Nat} {x : α} (mem : x ∈ l.modify i f) : x ∈ l ∨ ∃ y ∈ l, x = f y := by
  induction l generalizing i with
  | nil => simp at mem
  | cons head rest ih =>
    cases i with
    | zero =>
      rcases mem_cons.mp mem with rfl | later
      · exact .inr ⟨head, mem_cons_self, rfl⟩
      · exact .inl (mem_cons_of_mem _ later)
    | succ i =>
      rcases mem_cons.mp mem with rfl | later
      · exact .inl mem_cons_self
      rcases ih later with old | ⟨y, there, same⟩
      · exact .inl (mem_cons_of_mem _ old)
      · exact .inr ⟨y, mem_cons_of_mem _ there, same⟩

theorem modify_mem {x : α} (i : Nat) (mem : x ∈ l) : x ∈ l.modify i f ∨ f x ∈ l.modify i f := by
  induction l generalizing i with
  | nil => cases mem
  | cons head rest ih =>
    cases i with
    | zero =>
      rcases mem_cons.mp mem with rfl | later
      · exact .inr mem_cons_self
      · exact .inl (mem_cons_of_mem _ later)
    | succ i =>
      rcases mem_cons.mp mem with rfl | later
      · exact .inl mem_cons_self
      · exact (ih i later).imp (mem_cons_of_mem _) (mem_cons_of_mem _)

theorem written_iff {pod : Nat} {new : Line} : (∃ lines ∈ pods.modify pod (fun lines => lines ++ [new]), line ∈ lines) →
      (∃ lines ∈ pods, line ∈ lines) ∨ line = new := by
  rintro ⟨lines, there, mem⟩
  rcases mem_modify there with old | ⟨before, old, rfl⟩
  · exact .inl ⟨lines, old, mem⟩
  rcases mem_append.mp mem with earlier | last
  · exact .inl ⟨before, old, earlier⟩
  · exact .inr (mem_singleton.mp last)

theorem still_written (pod : Nat) {new : Line} (written : ∃ lines ∈ pods, line ∈ lines) :
    ∃ lines ∈ pods.modify pod (fun lines => lines ++ [new]), line ∈ lines := by
  obtain ⟨lines, there, mem⟩ := written
  rcases modify_mem (f := fun lines => lines ++ [new]) pod there with same | longer
  · exact ⟨lines, same, mem⟩
  · exact ⟨_, longer, mem_append_left _ mem⟩

theorem mem_readLogs : line ∈ readLogs w ↔ Written w line ∧ w.clock - logSinceMs ≤ line.1 := by
  simp only [readLogs, mem_flatMap, mem_filter, decide_eq_true_eq]
  constructor
  · rintro ⟨pod, there, mem, recent⟩
    exact ⟨⟨pod, there, mem⟩, recent⟩
  · rintro ⟨⟨pod, there, mem⟩, recent⟩
    exact ⟨pod, there, mem, recent⟩

theorem Scraping.write (scraping : Scraping w) (pod : Nat) {text : String}
    (record : isTransaction text = true → eventOf text = none) :
    Scraping { w with pods := w.pods.modify pod (fun lines => lines ++ [(w.clock, text)]) } where
  once := scraping.once
  past := scraping.past
  texts := by
    intro line written
    rcases written_iff written with old | rfl
    · exact scraping.texts line old
    · exact ⟨Int.le_refl _, record⟩
  written := fun s mem line there => still_written pod (scraping.written s mem line there)
  read := by
    intro line written earlier later
    rcases written_iff written with old | rfl
    · exact scraping.read line old earlier later
    obtain ⟨s, mem, after⟩ := later
    have past := scraping.past s mem
    omega
  done := scraping.done
  ids := scraping.ids
  rows := scraping.rows

theorem Scraping.scrape {id : Nat} {events : List ParsedWafEvent} {scrapes : Table Scrape Scrape.id}
    (scraping : Scraping w) (timely : Timely w (.scrape id))
    (all : events = scrapedEvents w.clock ((readLogs w).map Prod.snd))
    (inserted : w.scrapes.insert ⟨id, w.clock, readLogs w, events⟩ = some scrapes) : Scraping { w with scrapes } where
  once := scraping.once
  past := by
    intro s mem
    rcases (mem_insert inserted).mp mem with rfl | old
    · exact Int.le_refl _
    · exact scraping.past s old
  texts := scraping.texts
  written := by
    intro s mem line there
    rcases (mem_insert inserted).mp mem with rfl | old
    · exact (mem_readLogs.mp there).1
    · exact scraping.written s old line there
  read := by
    intro line written earlier later
    by_cases before : ∃ s ∈ w.scrapes.rows, line.1 < s.now
    · have begun : ∃ s ∈ w.scrapes.rows, s.now ≤ line.1 := by
        obtain ⟨s, mem, its⟩ := earlier
        rcases (mem_insert inserted).mp mem with rfl | old
        · obtain ⟨s', there, after⟩ := before
          have past := scraping.past s' there
          dsimp only at its
          omega
        · exact ⟨s, old, its⟩
      obtain ⟨s, there, has⟩ := scraping.read line written begun before
      exact ⟨s, (mem_insert inserted).mpr (.inr there), has⟩
    · refine ⟨_, (mem_insert inserted).mpr (.inl rfl), mem_readLogs.mpr ⟨written, ?_⟩⟩
      obtain ⟨s, mem, after⟩ := later
      have now : line.1 < w.clock := by
        rcases (mem_insert inserted).mp mem with rfl | old
        · exact after
        · exact absurd ⟨s, old, after⟩ before
      obtain ⟨s', mem', its⟩ := earlier
      rcases (mem_insert inserted).mp mem' with rfl | old
      · dsimp only at its
        omega
      rcases timely with none | ⟨last, there, close⟩
      · rw [mem_rows, none] at old
        cases old
      · have behind : ¬ line.1 < last.now := fun after => before ⟨last, there, after⟩
        omega
  done := by
    intro s mem e scraped
    rcases (mem_insert inserted).mp mem with rfl | old
    · exact .inl (all ▸ scraped)
    · exact scraping.done s old e scraped
  ids := scraping.ids
  rows := scraping.rows

theorem Scraping.insert {s : Scrape} {event : ParsedWafEvent} {rest : List ParsedWafEvent}
    (scraping : Scraping w) (mem : s ∈ w.scrapes) (its : s.id = scrapeId)
    (remaining : s.remaining = event :: rest) (new : event.uniqueId ∉ w.inserted.map Prod.fst)
    (fresh : ∀ x ∈ w.inserted, x.2.id ≠ rowId)
    (inserted : w.wafLogs.insert (wafLog c.directory w.clock rowId event) = some wafLogs) (watched : List Nat) :
    Scraping { w with
        wafLogs
        scrapes := w.scrapes.update (fun s => s.id == scrapeId) (onward rest) (onward_id rest)
        inserted := (event.uniqueId, wafLog c.directory w.clock rowId event) :: w.inserted
        watched } := by
  have from_old : ∀ x ∈ w.scrapes.update (fun s => s.id == scrapeId) (onward rest) (onward_id rest),
      x ∈ w.scrapes ∨ x = onward rest s := by
    intro x there
    rcases (mem_update (onward_id rest)).mp there with ⟨old, _⟩ | ⟨old, memOld, is, rfl⟩
    · exact .inl old
    · rw [w.scrapes.eq_of_key memOld mem ((beq_iff_eq.mp is).trans its.symm)]
      exact .inr rfl
  have to_new : ∀ x ∈ w.scrapes, ∃ y ∈ w.scrapes.update (fun s => s.id == scrapeId) (onward rest)
      (onward_id rest), y.now = x.now ∧ y.lines = x.lines := by
    intro x there
    refine ⟨_, apply_mem_update (onward_id rest) there, ?_, ?_⟩
    · exact apply_column Scrape.now _ (onward rest) (fun _ => rfl) x
    · exact apply_column Scrape.lines _ (onward rest) (fun _ => rfl) x
  have back : ∀ x ∈ w.scrapes.update (fun s => s.id == scrapeId) (onward rest) (onward_id rest),
      ∃ y ∈ w.scrapes, y.now = x.now ∧ y.lines = x.lines := by
    intro x there
    rcases from_old x there with old | rfl
    · exact ⟨x, old, rfl, rfl⟩
    · exact ⟨s, mem, rfl, rfl⟩
  constructor
  · exact nodup_cons.mpr ⟨new, scraping.once⟩
  · intro x there
    obtain ⟨y, old, now, _⟩ := back x there
    rw [← now]
    exact scraping.past y old
  · exact scraping.texts
  · intro x there line read
    obtain ⟨y, old, _, lines⟩ := back x there
    exact scraping.written y old line (lines ▸ read)
  · rintro line written ⟨x, there, earlier⟩ ⟨x', there', later⟩
    obtain ⟨y, old, now, _⟩ := back x there
    obtain ⟨y', old', now', _⟩ := back x' there'
    obtain ⟨z, memz, read⟩ := scraping.read line written ⟨y, old, now ▸ earlier⟩ ⟨y', old', now' ▸ later⟩
    obtain ⟨z', memz', _, lines⟩ := to_new z memz
    exact ⟨z', memz', lines ▸ read⟩
  · intro x there e scraped
    rcases from_old x there with old | rfl
    · exact (scraping.done x old e scraped).imp id (mem_cons_of_mem _)
    rcases scraping.done s mem e scraped with waiting | done
    · rw [remaining] at waiting
      rcases mem_cons.mp waiting with rfl | later
      · exact .inr mem_cons_self
      · exact .inl later
    · exact .inr (mem_cons_of_mem _ done)
  · refine nodup_cons.mpr ⟨fun again => ?_, scraping.ids⟩
    obtain ⟨x, there, same⟩ := mem_map.mp again
    exact fresh x there same
  intro row there
  rcases (mem_insert inserted).mp there with rfl | old
  · exact ⟨_, mem_cons_self, rfl⟩
  · obtain ⟨x, mem, same⟩ := scraping.rows row old
    exact ⟨x, mem_cons_of_mem _ mem, same⟩

theorem Ticking.only (ticking : Ticking c w) (mem : t ∈ w.ticks) : w.ticks.rows = [t] := by
  have single := ticking.single
  cases rows : w.ticks.rows with
  | nil =>
    rw [mem_rows, rows] at mem
    cases mem
  | cons first rest =>
    rw [rows] at single
    have none : rest = [] := length_eq_zero_iff.mp (by simpa using single)
    rw [mem_rows, rows, none] at mem
    rw [none, mem_singleton.mp mem]

theorem bound_none (none : w.ticks.rows = []) : bound w = w.watermark := by
  simp [bound, none]

theorem bound_tick (only : w.ticks.rows = [t]) {last : WafLog} (its : t.batch.getLast? = some last) :
    bound w = some last.id := by
  simp [bound, only, its]

theorem le_last (ascending : batch.Pairwise (fun r s => r.id < s.id)) {last r : WafLog}
    (its : batch.getLast? = some last) (mem : r ∈ batch) : r.id ≤ last.id := by
  obtain ⟨front, rfl⟩ := getLast?_eq_some_iff.mp its
  rcases mem_append.mp mem with before | same
  · exact Nat.le_of_lt ((pairwise_append.mp ascending).2.2 r before last (mem_singleton.mpr rfl))
  · rw [mem_singleton.mp same]

theorem Ticking.insert (ticking : Ticking c w) (its : row.id = rowId) (inserted : w.wafLogs.insert row = some wafLogs)
    (order : w.ticked = true → (∃ m ∈ bound w, m < rowId) ∨ bound w = none ∧ w.wafLogs.rows = [])
    (uniqueId : String) (scrapes : Table Scrape Scrape.id) : Ticking c { w with
        wafLogs
        scrapes
        inserted := (uniqueId, row) :: w.inserted
        watched := if w.ticked then rowId :: w.watched else w.watched } := by
  have kept : ∀ {r : WafLog}, (∃ x ∈ w.inserted, x.2 = r) → ∃ x ∈ (uniqueId, row) :: w.inserted, x.2 = r := by
    rintro r ⟨x, mem, same⟩
    exact ⟨x, mem_cons_of_mem _ mem, same⟩
  constructor
  · exact ticking.single
  · intro t mem
    obtain ⟨some, ascending, each⟩ := ticking.batches t mem
    exact ⟨some, ascending, fun r there => ⟨(each r there).1, kept (each r there).2⟩⟩
  · intro r mem
    obtain ⟨below, evaluable, there⟩ := ticking.below r mem
    exact ⟨below, evaluable, kept there⟩
  · exact ticking.passedOnce
  · intro not
    rw [not]
    exact ticking.unwatched not
  intro other there seen evaluable
  cases ticked : w.ticked with
  | false =>
    rw [ticked, ticking.unwatched ticked] at seen
    cases seen
  | true =>
    rw [ticked] at seen
    rcases (mem_insert inserted).mp there with rfl | old
    · rcases order ticked with above | ⟨none, empty⟩
      · exact .inr (.inr (.inl (its ▸ above)))
      · refine .inr (.inr (.inr ⟨none, ?_⟩))
        rw [rows_insert inserted, empty]
    have seen : other.id ∈ w.watched := by
      rcases mem_cons.mp seen with same | before
      · have new := wafLogs.eq_of_key there ((mem_insert inserted).mpr (.inl rfl)) (same.trans its.symm)
        have fresh : row.id ∉ w.wafLogs.rows.map WafLog.id := by
          have keyed := wafLogs.keyed
          rw [rows_insert inserted] at keyed
          exact (nodup_cons.mp keyed).1
        exact absurd (mem_map.mpr ⟨other, old, congrArg WafLog.id new⟩) fresh
      · exact before
    rcases ticking.waiting other old seen evaluable with passed | taken | above | ⟨none, alone⟩
    · exact .inl passed
    · exact .inr (.inl taken)
    · exact .inr (.inr (.inl above))
    rcases order ticked with ⟨m, known, _⟩ | ⟨_, empty⟩
    · rw [none] at known
      cases known
    · rw [empty] at alone
      cases alone

theorem Ticking.prune (ticking : Ticking c w) (fewer : wafLogs.rows.Sublist w.wafLogs.rows) :
    Ticking c { w with wafLogs } where
  single := ticking.single
  batches := ticking.batches
  below := ticking.below
  passedOnce := ticking.passedOnce
  unwatched := ticking.unwatched
  waiting := by
    intro row mem seen evaluable
    rcases ticking.waiting row (fewer.subset mem) seen evaluable with passed | taken | above | ⟨none, alone⟩
    · exact .inl passed
    · exact .inr (.inl taken)
    · exact .inr (.inr (.inl above))
    refine .inr (.inr (.inr ⟨none, ?_⟩))
    rw [alone] at fewer
    rcases sublist_singleton.mp fewer with empty | same
    · rw [empty] at mem
      cases mem
    · exact same

theorem Ticking.found_nothing (ticking : Ticking c w) (idle : w.ticks.rows = [])
    (nothing : newWafEventsSince w.wafLogs.rows w.watermark = []) (mem : row ∈ w.wafLogs.rows)
    (seen : row.id ∈ w.watched) (evaluable : evaluable row = true) : row.id ∈ w.passed.map WafLog.id := by
  rcases ticking.waiting row mem seen evaluable with passed | ⟨t, busy, _⟩ | ⟨m, known, above⟩ | ⟨none, alone⟩
  · exact passed
  · rw [idle] at busy
    cases busy
  · rw [bound_none idle] at known
    rw [Option.mem_def.mp known] at nothing
    rcases after_batch w.wafLogs.keyed mem above with taken | ⟨some, _⟩
    · rw [nothing] at taken
      cases taken
    · exact absurd nothing some
  · rw [bound_none idle] at none
    rw [none, alone] at nothing
    cases nothing

theorem Ticking.tick {id : Nat} {ticks : Table Tick Tick.id} (ticking : Ticking c w) (scraping : Scraping w)
    (idle : w.ticks.rows = []) (found : newWafEventsSince w.wafLogs.rows w.watermark = batch)
    (nonempty : batch ≠ []) (inserted : w.ticks.insert ⟨id, batch⟩ = some ticks) : Ticking c { w with
        ticks
        ticked := true } := by
  have rows : ticks.rows = [⟨id, batch⟩] := by rw [rows_insert inserted, idle]
  have ascending : batch.Pairwise (fun r s => r.id < s.id) := found ▸ ascending_batch w.wafLogs.keyed _
  have its := getLast?_eq_some_getLast nonempty
  generalize batch.getLast nonempty = last at its
  have next : bound { w with
      ticks
      ticked := true } = some last.id := bound_tick rows its
  constructor
  · rw [rows]
    exact Nat.le_refl 1
  · intro t mem
    rw [rows] at mem
    rw [mem_singleton.mp mem]
    refine ⟨nonempty, ascending, fun r there => ?_⟩
    obtain ⟨present, above⟩ := mem_newWafEvents (found ▸ there)
    exact ⟨above, scraping.rows r present⟩
  · exact ticking.below
  · exact ticking.passedOnce
  · nofun
  intro row mem seen evaluable
  rw [next]
  rcases ticking.waiting row mem seen evaluable with passed | ⟨t, busy, _⟩ | ⟨m, known, above⟩ | ⟨none, alone⟩
  · exact .inl passed
  · rw [idle] at busy
    cases busy
  · rw [bound_none idle] at known
    rw [Option.mem_def.mp known] at found
    rcases after_batch w.wafLogs.keyed mem above with taken | ⟨_, before⟩
    · exact .inr (.inl ⟨⟨id, batch⟩, rows ▸ mem_singleton.mpr rfl, found ▸ taken⟩)
    refine .inr (.inr (Or.inl ⟨last.id, rfl, ?_⟩))
    rw [found] at before
    exact before last (mem_of_getLast? its)
  · rw [bound_none idle] at none
    rw [none, alone] at found
    refine .inr (.inl ⟨⟨id, batch⟩, rows ▸ mem_singleton.mpr rfl, ?_⟩)
    rw [← found]
    exact mem_singleton.mpr rfl

theorem Ticking.evaluate (enabled : c.config.enabled = true) (ticking : Ticking c w) (mem : t ∈ w.ticks)
    (its : t.id = tickId) : Ticking c { w with
        watermark := t.batch.getLast?.map WafLog.id
        ticks := w.ticks.delete (fun t => t.id == tickId)
        evaluations :=
          if evaluated c.config t.batch = [] then w.evaluations
          else evaluated c.config t.batch :: w.evaluations } := by
  obtain ⟨nonempty, ascending, each⟩ := ticking.batches t mem
  have last := getLast?_eq_some_getLast nonempty
  generalize t.batch.getLast nonempty = top at last
  have gone : (w.ticks.delete (fun t => t.id == tickId)).rows = [] := by
    simp [delete, ticking.only mem, its]
  have goes : evaluated c.config t.batch = t.batch.filter evaluable := by
    unfold evaluated
    rw [if_pos enabled]
  have passed : (if evaluated c.config t.batch = [] then w.evaluations
      else evaluated c.config t.batch :: w.evaluations).flatten = t.batch.filter evaluable ++ w.passed := by
    rw [goes]
    split
    · rename_i none
      rw [none]
      rfl
    · rfl
  have saved : t.batch.getLast?.map WafLog.id = some top.id := by rw [last]; rfl
  constructor
  · rw [gone]
    exact Nat.zero_le 1
  · intro t' there
    rw [gone] at there
    cases there
  · intro r there
    simp only [World.passed] at there
    rw [passed] at there
    rcases mem_append.mp there with new | old
    · obtain ⟨taken, addressed⟩ := mem_filter.mp new
      exact ⟨⟨top.id, saved, le_last ascending last taken⟩, addressed, (each r taken).2⟩
    obtain ⟨⟨m, known, below⟩, addressed, there⟩ := ticking.below r old
    refine ⟨⟨top.id, saved, ?_⟩, addressed, there⟩
    have above := (each top (mem_of_getLast? last)).1 m known
    omega
  · simp only [World.passed]
    rw [passed, map_append]
    refine Nodup.append ?_ ticking.passedOnce ?_
    · exact (pairwise_map.mpr (ascending.imp Nat.ne_of_lt)).sublist (filter_sublist.map _)
    intro id new old
    obtain ⟨r, taken, rfl⟩ := mem_map.mp new
    obtain ⟨r', before, same⟩ := mem_map.mp old
    obtain ⟨⟨m, known, below⟩, _⟩ := ticking.below r' before
    have above := (each r (mem_filter.mp taken).1).1 m known
    omega
  · exact ticking.unwatched
  intro row there seen addressed
  have through : row ∈ t.batch → row.id ∈ (World.passed { w with
        watermark := t.batch.getLast?.map WafLog.id
        ticks := w.ticks.delete (fun t => t.id == tickId)
        evaluations :=
          if evaluated c.config t.batch = [] then w.evaluations
          else evaluated c.config t.batch :: w.evaluations }).map WafLog.id := by
    intro taken
    simp only [World.passed]
    rw [passed]
    exact mem_map_of_mem (mem_append_left _ (mem_filter.mpr ⟨taken, addressed⟩))
  rw [bound_none gone]
  rw [saved]
  have same : bound w = some top.id := bound_tick (ticking.only mem) last
  rcases ticking.waiting row there seen addressed with old | ⟨t', busy, taken⟩ | ⟨m, known, above⟩ | ⟨none, _⟩
  · refine .inl ?_
    simp only [World.passed]
    rw [passed, map_append]
    exact mem_append_right _ old
  · rw [ticking.only mem] at busy
    rw [mem_singleton.mp busy] at taken
    exact .inl (through taken)
  · rw [same] at known
    rw [← Option.some.inj known] at above
    exact .inr (.inr (.inl ⟨top.id, rfl, above⟩))
  · rw [same] at none
    cases none

theorem insert_cases (taken : step c w (.insert scrapeId rowId) = some after) :
    ∃ s ∈ w.scrapes, s.id = scrapeId ∧ ∃ event rest, s.remaining = event :: rest ∧
      (∀ x ∈ w.inserted, x.2.id ≠ rowId) ∧
      ∃ wafLogs, w.wafLogs.insert (wafLog c.directory w.clock rowId event) = some wafLogs ∧ after = { w with
            wafLogs
            scrapes := w.scrapes.update (fun s => s.id == scrapeId) (onward rest) (onward_id rest)
            inserted := (event.uniqueId, wafLog c.directory w.clock rowId event) :: w.inserted
            watched := if w.ticked then rowId :: w.watched else w.watched } := by
  simp only [step] at taken
  split at taken
  · cases taken
  rename_i s found
  obtain ⟨mem, its⟩ := mem_of_select found
  split at taken
  · cases taken
  rename_i event rest remaining
  split at taken
  · cases taken
  rename_i fresh
  obtain ⟨wafLogs, inserted, same⟩ := Option.map_eq_some_iff.mp taken
  refine ⟨s, mem, beq_iff_eq.mp its, event, rest, remaining, fun x there same => ?_, wafLogs, inserted, same.symm⟩
  exact fresh (any_eq_true.mpr ⟨x, there, beq_iff_eq.mpr same⟩)

theorem tick_cases {id : Nat} (taken : step c w (.tick id) = some after) :
    (newWafEventsSince w.wafLogs.rows w.watermark = [] ∧ after = { w with ticked := true }) ∨
      ∃ batch ticks, newWafEventsSince w.wafLogs.rows w.watermark = batch ∧ batch ≠ [] ∧
        w.ticks.insert ⟨id, batch⟩ = some ticks ∧ after = { w with
              ticks
              ticked := true } := by
  simp only [step] at taken
  split at taken
  · rename_i nothing
    exact .inl ⟨nothing, (Option.some.inj taken).symm⟩
  rename_i r more found
  obtain ⟨ticks, inserted, same⟩ := Option.map_eq_some_iff.mp taken
  exact .inr ⟨r :: more, ticks, found, cons_ne_nil _ _, inserted, same.symm⟩

theorem evaluate_cases (taken : step c w (.evaluate tickId) = some after) : ∃ t ∈ w.ticks, t.id = tickId ∧
      after = { w with
          watermark := t.batch.getLast?.map WafLog.id
          ticks := w.ticks.delete (fun t => t.id == tickId)
          evaluations :=
            if evaluated c.config t.batch = [] then w.evaluations
            else evaluated c.config t.batch :: w.evaluations } := by
  simp only [step] at taken
  split at taken
  · cases taken
  rename_i t found
  obtain ⟨mem, its⟩ := mem_of_select found
  exact ⟨t, mem, beq_iff_eq.mp its, (Option.some.inj taken).symm⟩

structure Sound (c : Setup) (w : World) : Prop where
  scraping : Scraping w
  ticking : Ticking c w

theorem Scraping.wait (scraping : Scraping w) (ms : Nat) : Scraping { w with clock := w.clock + ms } where
  once := scraping.once
  past := by
    intro s mem
    have past := scraping.past s mem
    dsimp only
    omega
  texts := by
    intro line written
    obtain ⟨past, text⟩ := scraping.texts line written
    refine ⟨?_, text⟩
    dsimp only
    omega
  written := scraping.written
  read := scraping.read
  done := scraping.done
  ids := scraping.ids
  rows := scraping.rows

theorem Sound.step {action : Action} (enabled : c.config.enabled = true) (sound : Sound c w)
    (timely : Timely w action) (safe : Safe w action) (taken : step c w action = some after) : Sound c after := by
  obtain ⟨scraping, ticking⟩ := sound
  cases action with
  | wait ms =>
    rw [← Option.some.inj taken]
    exact ⟨scraping.wait ms, ticking.single, ticking.batches, ticking.below, ticking.passedOnce, ticking.unwatched,
      ticking.waiting⟩
  | write pod text =>
    rw [← Option.some.inj taken]
    exact ⟨scraping.write pod safe, ticking.single, ticking.batches, ticking.below, ticking.passedOnce,
      ticking.unwatched, ticking.waiting⟩
  | scrape id =>
    obtain ⟨scrapes, inserted, rfl⟩ := Option.map_eq_some_iff.mp taken
    exact ⟨scraping.scrape timely rfl inserted, ticking.single, ticking.batches, ticking.below,
      ticking.passedOnce, ticking.unwatched, ticking.waiting⟩
  | insert scrapeId rowId =>
    obtain ⟨s, mem, its, event, rest, remaining, fresh, wafLogs, inserted, rfl⟩ := insert_cases taken
    obtain ⟨new, order⟩ := safe s mem its event (by simp [remaining])
    exact ⟨scraping.insert mem its remaining new fresh inserted _,
      ticking.insert rfl inserted order event.uniqueId _⟩
  | prune scrapeId =>
    simp only [Waf.step] at taken
    split at taken
    · cases taken
    rename_i s _
    have fewer := pruneAll_sublist c.newestFirst c.directory s.events w.wafLogs
    rw [← Option.some.inj taken]
    refine ⟨⟨scraping.once, scraping.past, scraping.texts, scraping.written, scraping.read, scraping.done,
      scraping.ids, ?_⟩, ticking.prune fewer⟩
    exact fun row mem => scraping.rows row (fewer.subset mem)
  | tick id =>
    rcases tick_cases taken with ⟨nothing, rfl⟩ | ⟨batch, ticks, found, nonempty, inserted, rfl⟩
    · refine ⟨⟨scraping.once, scraping.past, scraping.texts, scraping.written, scraping.read, scraping.done,
        scraping.ids, scraping.rows⟩, ticking.single, ticking.batches, ticking.below, ticking.passedOnce, nofun, ?_⟩
      exact fun row mem seen evaluable => .inl (ticking.found_nothing safe nothing mem seen evaluable)
    · exact ⟨⟨scraping.once, scraping.past, scraping.texts, scraping.written, scraping.read, scraping.done,
        scraping.ids, scraping.rows⟩, ticking.tick scraping safe found nonempty inserted⟩
  | evaluate tickId =>
    obtain ⟨t, mem, its, rfl⟩ := evaluate_cases taken
    exact ⟨⟨scraping.once, scraping.past, scraping.texts, scraping.written, scraping.read, scraping.done,
      scraping.ids, scraping.rows⟩, ticking.evaluate enabled mem its⟩

def above (w : World) : List WafLog := w.wafLogs.rows.filter (fun r => w.watermark.all (· < r.id))

theorem mem_above {r : WafLog} : r ∈ above w ↔ r ∈ w.wafLogs.rows ∧ ∀ m ∈ w.watermark, m < r.id := by
  simp [above, Option.all_eq_true]

section

variable (enabled : c.config.enabled = true) (sound : Sound c w)
include enabled sound

theorem Sound.round (idle : w.ticks.rows = []) (nonempty : newWafEventsSince w.wafLogs.rows w.watermark ≠ []) :
    ∃ after, exec (Waf.step c) w [.tick 0, .evaluate 0] = some after ∧ Sound c after ∧ after.ticks.rows = [] ∧
      (above after).length < (above w).length := by
  have last := getLast?_eq_some_getLast nonempty
  have top := mem_of_getLast? last
  generalize getLast _ nonempty = newest at last top
  obtain ⟨there, higher⟩ := mem_newWafEvents top
  generalize found : newWafEventsSince w.wafLogs.rows w.watermark = batch at nonempty last top
  have fresh : (Tick.mk 0 batch).id ∉ w.ticks.rows.map Tick.id := by simp [idle]
  obtain ⟨ticks, inserted⟩ : ∃ ticks, w.ticks.insert ⟨0, batch⟩ = some ticks := ⟨_, dif_pos fresh⟩
  have rows : ticks.rows = [⟨0, batch⟩] := by rw [rows_insert inserted, idle]
  have begun : Waf.step c w (.tick 0) = some { w with
        ticks
        ticked := true } := by
    simp only [Waf.step, found]
    split
    · exact absurd rfl nonempty
    · rw [inserted]
      rfl
  have selected : ticks.select (fun t => t.id == 0) = some ⟨0, batch⟩ := by simp [select, rows]
  have ended : Waf.step c { w with
        ticks
        ticked := true } (.evaluate 0) = some
        { w with
          watermark := batch.getLast?.map WafLog.id
          ticks := ticks.delete (fun t => t.id == 0)
          ticked := true
          evaluations :=
            if evaluated c.config batch = [] then w.evaluations else evaluated c.config batch :: w.evaluations } := by
    simp [Waf.step, selected]
  have timely : Timely w (.tick 0) := trivial
  have sound := sound.step enabled timely idle begun
  have timely : Timely { w with
        ticks
        ticked := true } (.evaluate 0) := trivial
  have safe : Safe { w with
        ticks
        ticked := true } (.evaluate 0) := trivial
  have sound := sound.step enabled timely safe ended
  refine ⟨_, by simp [exec, begun, ended], sound, by simp [delete, rows], ?_⟩
  have narrowed : above { w with
        watermark := batch.getLast?.map WafLog.id
        ticks := ticks.delete (fun t => t.id == 0)
        ticked := true
        evaluations :=
          if evaluated c.config batch = [] then w.evaluations else evaluated c.config batch :: w.evaluations } =
      (above w).filter (fun r => newest.id < r.id) := by
    unfold above
    rw [last, filter_filter]
    refine filter_congr (fun r _ => ?_)
    rw [Option.map_some, Option.all_some, Bool.eq_iff_iff, Bool.and_eq_true, decide_eq_true_eq]
    refine ⟨fun higher' => ⟨higher', ?_⟩, fun both => both.1⟩
    rw [Option.all_eq_true]
    exact fun m known => decide_eq_true (Nat.lt_trans (higher m known) higher')
  rw [narrowed]
  refine length_filter_lt_length_iff_exists.mpr ⟨newest, mem_above.mpr ⟨there, higher⟩, ?_⟩
  simp

theorem Sound.drains_idle (idle : w.ticks.rows = []) {n : Nat} (few : (above w).length ≤ n) :
    ∃ ticks after, (∀ a ∈ ticks, isTick a = true) ∧ exec (Waf.step c) w ticks = some after ∧
      ∀ row ∈ after.wafLogs.rows, row.id ∈ after.watched → evaluable row = true →
        row.id ∈ after.passed.map WafLog.id := by
  have settled : newWafEventsSince w.wafLogs.rows w.watermark = [] →
      ∃ ticks after, (∀ a ∈ ticks, isTick a = true) ∧ exec (Waf.step c) w ticks = some after ∧
        ∀ row ∈ after.wafLogs.rows, row.id ∈ after.watched → evaluable row = true →
          row.id ∈ after.passed.map WafLog.id := fun nothing =>
    ⟨[], w, by simp, rfl, fun _ mem seen addressed => sound.ticking.found_nothing idle nothing mem seen addressed⟩
  induction n generalizing w with
  | zero =>
    refine settled (eq_nil_iff_forall_not_mem.mpr (fun r taken => ?_))
    have mem : r ∈ above w := mem_above.mpr (mem_newWafEvents taken)
    rw [length_eq_zero_iff.mp (Nat.le_zero.mp few)] at mem
    cases mem
  | succ n ih =>
    by_cases nothing : newWafEventsSince w.wafLogs.rows w.watermark = []
    · exact settled nothing
    obtain ⟨next, run, sound, idle, fewer⟩ := sound.round enabled idle nothing
    obtain ⟨ticks, after, only, rest, all⟩ := ih sound idle (by omega) (fun nothing =>
      ⟨[], next, by simp, rfl, fun _ mem seen addressed =>
        sound.ticking.found_nothing idle nothing mem seen addressed⟩)
    refine ⟨[.tick 0, .evaluate 0] ++ ticks, after, ?_, ?_, all⟩
    · intro a mem
      rcases mem_append.mp mem with first | later
      · rcases mem_pair.mp first with rfl | rfl <;> rfl
      · exact only a later
    · obtain ⟨first, one, run⟩ := exec_cons run
      obtain ⟨second, two, run⟩ := exec_cons run
      cases run
      simp [exec, one, two, rest]

theorem Sound.drains : ∃ ticks after, (∀ a ∈ ticks, isTick a = true) ∧ exec (Waf.step c) w ticks = some after ∧
      ∀ row ∈ after.wafLogs.rows, row.id ∈ after.watched → evaluable row = true →
        row.id ∈ after.passed.map WafLog.id := by
  cases rows : w.ticks.rows with
  | nil => exact sound.drains_idle enabled rows (Nat.le_refl _)
  | cons t rest =>
    have mem : t ∈ w.ticks := mem_rows.mpr (rows ▸ mem_cons_self)
    have only := sound.ticking.only mem
    have selected : w.ticks.select (fun x => x.id == t.id) = some t := by simp [select, only]
    obtain ⟨next, ended⟩ : ∃ next, Waf.step c w (.evaluate t.id) = some next :=
      ⟨_, by simp only [Waf.step, selected]; rfl⟩
    have timely : Timely w (.evaluate t.id) := trivial
    have safe : Safe w (.evaluate t.id) := trivial
    have after := sound.step enabled timely safe ended
    have idle : next.ticks.rows = [] := by
      obtain ⟨t', _, _, rfl⟩ := evaluate_cases ended
      simp [delete, only]
    obtain ⟨ticks, last, all, run, done⟩ := after.drains_idle enabled idle (Nat.le_refl _)
    refine ⟨.evaluate t.id :: ticks, last, ?_, by simp [exec, ended, run], done⟩
    intro a mem
    rcases mem_cons.mp mem with rfl | later
    · rfl
    · exact all a later

end

theorem Sound.eventsOf_length (sound : Sound c w) (mem : batch ∈ w.evaluations) (sourceIp : String)
    (which : WafLog → Bool) : (eventsOf w batch sourceIp which).length =
      (batch.filter (fun r => r.sourceIp == sourceIp && which r)).length := by
  let counted := w.inserted.filter (fun x => x.2 ∈ batch ∧ x.2.sourceIp = sourceIp ∧ which x.2)
  have part : batch.Sublist w.passed := sublist_flatten_of_mem mem
  have distinct : (counted.map Prod.fst).Nodup := (filter_sublist.map _).nodup sound.scraping.once
  have apart : w.inserted.Pairwise (fun x y => x.2 ≠ y.2) :=
    (pairwise_map.mp sound.scraping.ids).imp (fun other same => other (congrArg WafLog.id same))
  have perm : (counted.map Prod.snd).Perm (batch.filter (fun r => r.sourceIp == sourceIp && which r)) := by
    refine (perm_ext_iff_of_nodup ?_ ?_).mpr (fun r => ?_)
    · exact pairwise_map.mpr (apart.filter _)
    · exact (Nodup.of_map _ ((part.map _).nodup sound.ticking.passedOnce)).filter _
    simp only [counted, mem_map, mem_filter, decide_eq_true_eq, Bool.and_eq_true, beq_iff_eq]
    constructor
    · rintro ⟨x, ⟨_, taken, its⟩, rfl⟩
      exact ⟨taken, its⟩
    rintro ⟨taken, its⟩
    obtain ⟨_, _, x, there, rfl⟩ := sound.ticking.below r (part.subset taken)
    exact ⟨x, ⟨there, taken, its⟩, rfl⟩
  calc (eventsOf w batch sourceIp which).length
      = (counted.map Prod.fst).length := congrArg List.length (Nodup.dedup distinct)
    _ = (counted.map Prod.snd).length := by rw [length_map, length_map]
    _ = _ := perm.length_eq

theorem Sound.counts (sound : Sound c w) (mem : batch ∈ w.evaluations) {recentlyBanned : List String}
    {d : AutobanDecision} (decided : d ∈ evaluateWafBatch c.config batch recentlyBanned) :
    d.eventCount = (eventsOf w batch d.sourceIp (fun _ => true)).length ∧
      (d.outcome = .banned ∨ d.outcome = .skippedBelowThreshold →
        (Number.lt (.finite (eventsOf w batch d.sourceIp (qualifies c.config)).length)
          c.config.eventThreshold = true ↔ d.outcome = .skippedBelowThreshold)) := by
  have addressed : ∀ e ∈ batch, e.sourceIp ≠ "" := by
    intro e there
    have evaluable := (sound.ticking.below e (mem_flatten_of_mem mem there)).2.1
    simp only [Waf.evaluable, Bool.and_eq_true, bne_iff_ne] at evaluable
    exact evaluable.1
  have counts := decision_counts addressed decided
  rw [sound.eventsOf_length mem, sound.eventsOf_length mem]
  simpa only [Bool.and_true] using counts

theorem Sound.covered (sound : Sound c w) (finished : ∀ s ∈ w.scrapes.rows, s.remaining = [])
    (written : Written w line) (earlier : ∃ s ∈ w.scrapes.rows, s.now ≤ line.1)
    (later : ∃ s ∈ w.scrapes.rows, line.1 < s.now) {event : String} (occurs : eventOf line.2 = some event)
    (named : Resolves w event) : event ∈ w.inserted.map Prod.fst := by
  obtain ⟨s, mem, read⟩ := sound.scraping.read line written earlier later
  have text : isTransaction line.2 = false := by
    refine Bool.eq_false_iff.mpr (fun record => ?_)
    rw [(sound.scraping.texts line written).2 record] at occurs
    cases occurs
  have resolving := named s.now s.lines (sound.scraping.written s mem)
  obtain ⟨e, scraped, rfl⟩ := scraped_event (mem_map_of_mem read) text occurs resolving
  rcases sound.scraping.done s mem e scraped with waiting | done
  · rw [finished s mem] at waiting
    cases waiting
  · exact done

theorem Sound.counted (enabled : c.config.enabled = true) (sound : Sound c w) : CountedOnce c w where
  once := sound.scraping.once
  covered := fun finished _ written earlier later _ occurs named =>
    sound.covered finished written earlier later occurs named
  passedOnce := sound.ticking.passedOnce
  drains := sound.drains enabled
  counts := fun _ mem _ _ decided => sound.counts mem decided

/- some pods with empty logs, no row, and a watermark that may be left from before -/
def beginning (clock : Int) (pods : Nat) (watermark : Option Nat) : World where
  clock := clock
  pods := List.replicate pods []
  wafLogs := Table.empty
  watermark := watermark
  scrapes := Table.empty
  ticks := Table.empty
  inserted := []
  ticked := false
  watched := []
  evaluations := []

theorem beginning_sound (c : Setup) (clock : Int) (pods : Nat) (watermark : Option Nat) :
    Sound c (beginning clock pods watermark) where
  scraping := by
    constructor <;> simp [beginning, Written, empty]
  ticking := by
    constructor <;> simp [beginning, World.passed, empty]

instance decTimely (w : World) : (action : Action) → Decidable (Timely w action) := by
  intro _
  unfold Timely
  split <;> infer_instance

instance decSafe (w : World) : (action : Action) → Decidable (Safe w action) := by
  intro _
  unfold Safe
  split <;> infer_instance

def matched (uniqueId : String) : String :=
  "ModSecurity [id \"942\"][unique_id \"" ++ uniqueId ++ "\"] tenant: 192.0.2.1, server: a.b"

def fiveEvents : Setup where
  directory := ⟨[], fun _ => none⟩
  newestFirst := id
  config := ⟨true, .finite 5, .warning, [], true⟩

theorem exec_ticks {ticks : List Action} (idle : w.ticks.rows = []) (ticked : w.ticked = true)
    (nothing : newWafEventsSince w.wafLogs.rows w.watermark = []) (only : ∀ a ∈ ticks, isTick a = true)
    (run : exec (step c) w ticks = some after) : after = w := by
  induction ticks with
  | nil => exact (Option.some.inj run).symm
  | cons a rest ih =>
    obtain ⟨next, taken, run⟩ := exec_cons run
    have same : next = w := by
      cases a with
      | tick id =>
        rcases tick_cases taken with ⟨_, rfl⟩ | ⟨batch, _, found, nonempty, _⟩
        · rw [← ticked]
        · exact absurd (found.symm.trans nothing) nonempty
      | evaluate id =>
        obtain ⟨t, mem, _⟩ := evaluate_cases taken
        rw [mem_rows, idle] at mem
        cases mem
      | _ => cases only _ mem_cons_self
    rw [same] at run
    exact ih (fun a mem => only a (mem_cons_of_mem _ mem)) run

def twoScrapes : List Action :=
  [.write 0 (matched "a"), .scrape 1, .insert 1 5, .wait 30000, .scrape 2, .insert 2 9]

def lowerId : List Action := [.tick 0, .write 0 (matched "a"), .scrape 1, .insert 1 5]

end HostingPlatform.Waf
