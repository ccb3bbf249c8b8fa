import HostingPlatform.Js.Text
import HostingPlatform.Table
import Mathlib.Data.List.Sort

/-! The lines of the ModSecurity pods: rule matches, and the audit log's records in JSON. -/
namespace HostingPlatform.Waf

open List Js

def literal (t : String) (s : List Char) : Option (List Char) :=
  if t.toList.isPrefixOf s then some (s.drop t.toList.length) else none

/- one character or more of a class, as many as there are -/
def many1 (p : Char → Bool) (s : List Char) : Option (String × List Char) :=
  match s.takeWhile p with
  | [] => none
  | word => some (String.ofList word, s.dropWhile p)

def firstMatch {α : Type} (m : List Char → Option α) : List Char → Option α
  | [] => none
  | c :: rest => (m (c :: rest)).or (firstMatch m rest)

/- a captured group between two literals -/
def between (opening : String) (p : Char → Bool) (closing : String) (line : String) : Option String :=
  firstMatch (fun s => do
    let s ← literal opening s
    let (word, s) ← many1 p s
    let _ ← literal closing s
    pure word) line.toList

def isWord (c : Char) : Bool := c.isAlphanum || c == '_'

/- `request: "(\w+) ([^ ]+)` -/
def requestOf (line : String) : Option (String × String) :=
  firstMatch (fun s => do
    let s ← literal "request: \"" s
    let (method, s) ← many1 isWord s
    let s ← literal " " s
    let (uri, _) ← many1 (· ≠ ' ') s
    pure (method, uri)) line.toList

structure ParsedWafEvent where
  (uniqueId ruleId severity message requestUri requestMethod sourceIp hostname : String)

def server (line : String) : Option String := between "server: " (· ≠ ',') "" line

def severityOf (line : String) : String :=
  match between "[severity \"" Char.isDigit "\"]" line with
  | none => "info"
  | some digits =>
    if decimal digits.toList ≤ 2 then "critical"
    else if decimal digits.toList ≤ 4 then "warning"
    else "info"

def messageOf (line : String) : String :=
  let message := (between "[msg \"" (· ≠ '"') "\"]" line).getD "WAF event"
  match between "Total Score: " Char.isDigit "" message with
  | some score => "Score: " ++ score
  | none => message

/- the rule of a line, unless it only reports the final score -/
def ruleOf (line : String) : Option String :=
  if includes line "ModSecurity" then
    (between "[id \"" Char.isDigit "\"]" line).filter (fun id => id ≠ "980170" ∧ id ≠ "980130")
  else none

def uniqueIdOf (line : String) : Option String := between "[unique_id \"" (· ≠ '"') "\"]" line

/- a line without an id of its own gets one from the time at which it is read -/
def parseModSecurityLine (now : Int) (line : String) : Option ParsedWafEvent :=
  (ruleOf line).map (fun ruleId =>
    { uniqueId := (uniqueIdOf line).getD (toString now) ++ ":" ++ ruleId
      ruleId
      severity := severityOf line
      message := messageOf line
      requestUri := ((requestOf line).map Prod.snd).getD "/"
      requestMethod := ((requestOf line).map Prod.fst).getD "GET"
      sourceIp := (between "tenant: " (· ≠ ',') "" line).getD "0.0.0.0"
      hostname := ((server line).or (between "[hostname \"" (· ≠ '"') "\"]" line)).getD "" })

/- the event of a line: its unique id with its rule -/
def eventOf (line : String) : Option String :=
  (ruleOf line).bind (fun ruleId => (uniqueIdOf line).map (fun uid => uid ++ ":" ++ ruleId))

theorem parse_event {line event : String} (occurs : eventOf line = some event) (now : Int) :
    ∃ e, parseModSecurityLine now line = some e ∧ e.uniqueId = event := by
  obtain ⟨ruleId, rule, its⟩ := Option.bind_eq_some_iff.mp occurs
  obtain ⟨uid, known, rfl⟩ := Option.map_eq_some_iff.mp its
  unfold parseModSecurityLine
  rw [rule, known]
  exact ⟨_, rfl, rfl⟩

/- `"key":"value"`, where the value has no quote in it and is not too long -/
def extractJsonField (line key : String) : Option String :=
  (firstMatch (literal ("\"" ++ key ++ "\":\"")) line.toList).bind (fun s =>
    let value := String.ofList (s.takeWhile (· ≠ '"'))
    if s.contains '"' ∧ length value ≤ 512 then some value else none)

/- a record of the audit log -/
def isTransaction (line : String) : Bool :=
  line.toList.head? == some '\x7b' && includes line "\"transaction\""

example : between "[id \"" Char.isDigit "\"]" "x [id \"a\"] [id \"949110\"] y" = some "949110" := by decide

/-! What a scrape makes of the lines that it reads: the events, each once, with the hosts that other lines of
the same request name, and their rows. -/

/- a line with the time at which it was written, in milliseconds -/
abbrev Line := Int × String

/- what the first pass collects; the latest value of a key comes first -/
structure Gathered where
  parsed : List ParsedWafEvent
  (hostnames xfHosts realIps : List (String × String))

def uidPrefix (uniqueId : String) : String := String.ofList (uniqueId.toList.takeWhile (· ≠ ':'))

def field (line key : String) : Option String := (extractJsonField line key).filter (· ≠ "")

def gather (now : Int) (g : Gathered) (line : String) : Gathered :=
  if isTransaction line then
    match field line "unique_id" with
    | none => g
    | some uid =>
      { g with
        xfHosts := ((field line "X-Forwarded-Host").map (uid, ·)).toList ++ g.xfHosts
        realIps := ((field line "X-Real-Ip").map (uid, ·)).toList ++ g.realIps }
  else
    match parseModSecurityLine now line with
    | none => g
    | some event =>
      let uid := uidPrefix event.uniqueId
      { g with
        parsed := g.parsed ++ [event]
        hostnames :=
          ((server line).map (uid, ·)).toList ++
          (if event.sourceIp ≠ "0.0.0.0" then [(uid ++ ":ip", event.sourceIp)] else []) ++
          (if event.requestUri ≠ "/" then [(uid ++ ":uri", event.requestUri)] else []) ++
          (if event.requestMethod ≠ "GET" then [(uid ++ ":method", event.requestMethod)] else []) ++ g.hostnames }

def gathered (now : Int) (lines : List String) : Gathered := lines.foldl (gather now) ⟨[], [], [], []⟩

/- the first of each id -/
def distinct : List String → List ParsedWafEvent → List ParsedWafEvent
  | _, [] => []
  | seen, e :: rest =>
    if seen.contains e.uniqueId then distinct seen rest else e :: distinct (e.uniqueId :: seen) rest

def resolvedHostname (g : Gathered) (event : ParsedWafEvent) : String :=
  let uid := uidPrefix event.uniqueId
  ((g.xfHosts.lookup uid).or (g.hostnames.lookup uid)).getD event.hostname

def resolves (g : Gathered) (event : ParsedWafEvent) : Bool :=
  resolvedHostname g event != "" && resolvedHostname g event != "127.0.0.1"

def resolved (g : Gathered) (event : ParsedWafEvent) : ParsedWafEvent :=
  let uid := uidPrefix event.uniqueId
  let known (key : String) (value missing : String) : String :=
    if value ≠ missing then value else (g.hostnames.lookup (uid ++ key)).getD missing
  { event with
    hostname := resolvedHostname g event
    sourceIp := (g.realIps.lookup uid).getD (known ":ip" event.sourceIp "0.0.0.0")
    requestUri := known ":uri" event.requestUri "/"
    requestMethod := known ":method" event.requestMethod "GET" }

def scrapedEvents (now : Int) (lines : List String) : List ParsedWafEvent :=
  let g := gathered now lines
  ((distinct [] g.parsed).filter (resolves g)).map (resolved g)

structure WafLog where
  id : Nat
  (routeId tenantId : Option Nat)
  (hostname ruleId severity message requestUri requestMethod sourceIp : String)
  createdAt : Int
  deriving DecidableEq

abbrev WafLogs := Table WafLog WafLog.id

structure RouteHost where
  id : Nat
  hostname : String
  domainId : Nat

structure Directory where
  routes : List RouteHost
  tenantOf : Nat → Option Nat

def routeOf (d : Directory) (hostname : String) : Option RouteHost :=
  (d.routes.filter (fun r => r.hostname == hostname)).getLast?

def wafLog (d : Directory) (now : Int) (id : Nat) (event : ParsedWafEvent) : WafLog where
  id := id
  routeId := (routeOf d event.hostname).map RouteHost.id
  tenantId := (routeOf d event.hostname).bind (fun r => d.tenantOf r.domainId)
  hostname := slice event.hostname 255
  ruleId := event.ruleId
  severity := event.severity
  message := slice event.message 500
  requestUri := slice event.requestUri 2048
  requestMethod := event.requestMethod
  sourceIp := event.sourceIp
  createdAt := now

/-- Of a bucket's rows the newest are kept; rows of one instant come in any order. -/
def prune (newestFirst : List WafLog → List WafLog) (bucket : WafLog → Bool) (limit : Nat) (rows : WafLogs) :
    WafLogs :=
  if limit < (rows.selectAll bucket).length then
    let keepIds := ((newestFirst (rows.selectAll bucket)).take limit).map WafLog.id
    if keepIds = [] then rows else rows.delete (fun r => bucket r && !keepIds.contains r.id)
  else rows

/- the routes of the events, and the hosts without a route as one -/
def pruneAll (newestFirst : List WafLog → List WafLog) (d : Directory) (events : List ParsedWafEvent)
    (rows : WafLogs) : WafLogs :=
  let touched := d.routes.filter (fun r => events.any (fun e => e.hostname == r.hostname))
  let rows := touched.foldl (fun rows r => prune newestFirst (fun row => row.routeId == some r.id) 50 rows) rows
  if events.any (fun e => (routeOf d e.hostname).isNone) then
    prune newestFirst (fun row => row.routeId == none) 500 rows
  else rows

theorem prune_sublist (newestFirst : List WafLog → List WafLog) (bucket : WafLog → Bool) (limit : Nat)
    (rows : WafLogs) : (prune newestFirst bucket limit rows).rows.Sublist rows.rows := by
  unfold prune
  split
  · dsimp only
    split
    · exact Sublist.refl _
    · exact filter_sublist
  · exact Sublist.refl _

theorem pruneAll_sublist (newestFirst : List WafLog → List WafLog) (d : Directory)
    (events : List ParsedWafEvent) (rows : WafLogs) : (pruneAll newestFirst d events rows).rows.Sublist rows.rows := by
  have routes : ∀ (touched : List RouteHost) (rows : WafLogs), (touched.foldl (fun rows r =>
      prune newestFirst (fun row => row.routeId == some r.id) 50 rows) rows).rows.Sublist rows.rows := by
    intro touched
    induction touched with
    | nil => exact fun rows => Sublist.refl _
    | cons r rest ih => exact fun rows => (ih _).trans (prune_sublist _ _ _ _)
  unfold pruneAll
  split
  · exact (prune_sublist _ _ _ _).trans (routes _ _)
  · exact routes _ _

variable {seen lines : List String} {events : List ParsedWafEvent} {e : ParsedWafEvent} {now : Int}
  {rows : List WafLog} {r : WafLog}

theorem mem_distinct (mem : e ∈ distinct seen events) : e ∈ events ∧ e.uniqueId ∉ seen := by
  induction events generalizing seen with
  | nil => cases mem
  | cons head rest ih =>
    unfold distinct at mem
    split at mem
    · exact ⟨mem_cons_of_mem _ (ih mem).1, (ih mem).2⟩
    rename_i new
    rcases mem_cons.mp mem with rfl | later
    · exact ⟨mem_cons_self, fun old => new (contains_iff_mem.mpr old)⟩
    · obtain ⟨there, fresh⟩ := ih later
      exact ⟨mem_cons_of_mem _ there, fun old => fresh (mem_cons_of_mem _ old)⟩

theorem distinct_complete (mem : e ∈ events) (new : e.uniqueId ∉ seen) :
    ∃ e' ∈ distinct seen events, e'.uniqueId = e.uniqueId := by
  induction events generalizing seen with
  | nil => cases mem
  | cons head rest ih =>
    unfold distinct
    rcases mem_cons.mp mem with rfl | later
    · rw [if_neg (fun old => new (contains_iff_mem.mp old))]
      exact ⟨e, mem_cons_self, rfl⟩
    split
    · exact ih later new
    by_cases same : e.uniqueId = head.uniqueId
    · exact ⟨head, mem_cons_self, same.symm⟩
    · obtain ⟨e', there, its⟩ := ih later (not_mem_cons_of_ne_of_not_mem same new)
      exact ⟨e', mem_cons_of_mem _ there, its⟩

theorem gather_parsed (now : Int) (g : Gathered) (line : String) : (gather now g line).parsed =
      g.parsed ++ if isTransaction line then [] else (parseModSecurityLine now line).toList := by
  unfold gather
  split
  · cases field line "unique_id" <;> simp
  · cases parseModSecurityLine now line <;> simp

theorem mem_parsed : e ∈ (gathered now lines).parsed ↔
      ∃ line ∈ lines, isTransaction line = false ∧ parseModSecurityLine now line = some e := by
  have general : ∀ g, e ∈ (lines.foldl (gather now) g).parsed ↔ e ∈ g.parsed ∨
      ∃ line ∈ lines, isTransaction line = false ∧ parseModSecurityLine now line = some e := by
    induction lines with
    | nil => simp
    | cons line rest ih =>
      intro g
      have first : e ∈ (if isTransaction line then [] else (parseModSecurityLine now line).toList) ↔
          isTransaction line = false ∧ parseModSecurityLine now line = some e := by
        cases isTransaction line <;> simp
      rw [foldl_cons, ih, gather_parsed, mem_append, or_assoc, first, exists_mem_cons_iff]
  have all := general ⟨[], [], [], []⟩
  rw [show (lines.foldl (gather now) ⟨[], [], [], []⟩) = gathered now lines from rfl] at all
  simpa using all

theorem scraped_event {line event : String} (read : line ∈ lines) (text : isTransaction line = false)
    (occurs : eventOf line = some event)
    (named : ∀ e ∈ (gathered now lines).parsed, e.uniqueId = event → resolves (gathered now lines) e = true) :
    ∃ e ∈ scrapedEvents now lines, e.uniqueId = event := by
  obtain ⟨e, parsed, its⟩ := parse_event occurs now
  have mem := mem_parsed.mpr ⟨line, read, text, parsed⟩
  obtain ⟨first, there, same⟩ := distinct_complete mem (not_mem_nil)
  refine ⟨resolved (gathered now lines) first, mem_map_of_mem (mem_filter.mpr ⟨there, ?_⟩), same.trans its⟩
  exact named first (mem_distinct there).1 (same.trans its)

/-! The evaluator of new WAF events: which addresses are banned, by the events counted for each. How
long a ban lasts and the texts of the audit are left out. -/

inductive MinSeverity where
  | warning
  | critical

structure CrowdsecAutobanConfig where
  enabled : Bool
  eventThreshold : Number
  minSeverity : MinSeverity
  excludedRuleIds : List String
  includeTenantRoutes : Bool

inductive CrowdsecAutobanOutcome where
  | banned
  | skippedAlreadyBanned
  | skippedExcludedRule
  | skippedBelowThreshold

structure AutobanDecision where
  sourceIp : String
  hostname : Option String
  ruleIds : List String
  eventCount : Nat
  outcome : CrowdsecAutobanOutcome

def severityRank (severity : String) : Nat :=
  if severity = "critical" then 2 else if severity = "warning" then 1 else 0

def passesSeverity (severity : String) : MinSeverity → Bool
  | .warning => 1 ≤ severityRank severity
  | .critical => 2 ≤ severityRank severity

def qualifies (config : CrowdsecAutobanConfig) (e : WafLog) : Bool :=
  passesSeverity e.severity config.minSeverity && !config.excludedRuleIds.contains e.ruleId

/- of one address; the rules in the order in which they are first seen -/
structure Group where
  ruleIds : List String
  (eventCount severityPassedCount qualifyingCount : Nat)
  hostname : Option String
  sawTenantRoute : Bool

def count (config : CrowdsecAutobanConfig) (e : WafLog) (g : Group) : Group :=
  { ruleIds := if g.ruleIds.contains e.ruleId then g.ruleIds else g.ruleIds ++ [e.ruleId]
    eventCount := g.eventCount + 1
    severityPassedCount :=
      if passesSeverity e.severity config.minSeverity then g.severityPassedCount + 1 else g.severityPassedCount
    qualifyingCount := if qualifies config e then g.qualifyingCount + 1 else g.qualifyingCount
    hostname := if e.hostname ≠ "" then some e.hostname else g.hostname
    sawTenantRoute := g.sawTenantRoute || e.tenantId.isSome }

def emptyGroup : Group := ⟨[], 0, 0, 0, none, false⟩

/- the groups by their address, in the order in which they are first seen -/
def group (config : CrowdsecAutobanConfig) : List (String × Group) → WafLog → List (String × Group)
  | [], e => [(e.sourceIp, count config e emptyGroup)]
  | (ip, g) :: rest, e =>
    if ip = e.sourceIp then (ip, count config e g) :: rest else (ip, g) :: group config rest e

/- an event without an address is in no group -/
def groups (config : CrowdsecAutobanConfig) (events : List WafLog) : List (String × Group) :=
  (events.filter (fun e => e.sourceIp ≠ "")).foldl (group config) []

def onlyTenantRoutes (events : List WafLog) (sourceIp : String) (g : Group) : Bool :=
  g.sawTenantRoute && !g.ruleIds.any (fun id =>
    events.any (fun e => e.sourceIp == sourceIp && e.ruleId == id && e.tenantId == none))

def decision (config : CrowdsecAutobanConfig) (events : List WafLog) (recentlyBannedIps : List String)
    (entry : String × Group) : Option AutobanDecision :=
  let (sourceIp, g) := entry
  let as (outcome : CrowdsecAutobanOutcome) : AutobanDecision :=
    ⟨sourceIp, g.hostname, g.ruleIds.insertionSort (· ≤ ·), g.eventCount, outcome⟩
  if onlyTenantRoutes events sourceIp g && !config.includeTenantRoutes then none
  else if recentlyBannedIps.contains sourceIp then some (as .skippedAlreadyBanned)
  else if 0 < g.severityPassedCount ∧ g.qualifyingCount = 0 then some (as .skippedExcludedRule)
  else if Number.lt (.finite g.qualifyingCount) config.eventThreshold then
    some (as .skippedBelowThreshold)
  else some (as .banned)

def evaluateWafBatch (config : CrowdsecAutobanConfig) (events : List WafLog) (recentlyBannedIps : List String) :
    List AutobanDecision :=
  if config.enabled = false ∨ events = [] then []
  else (groups config events).filterMap (decision config events recentlyBannedIps)

def maxBatch : Nat := 1000

def byId (rows : List WafLog) : List WafLog := rows.insertionSort (fun r s => r.id ≤ s.id)

/- without a watermark the last row alone -/
def newWafEventsSince (rows : List WafLog) : Option Nat → List WafLog
  | some watermark => ((byId rows).filter (fun r => watermark < r.id)).take maxBatch
  | none => (byId rows).getLast?.toList

def evaluable (r : WafLog) : Bool := r.sourceIp != "" && r.sourceIp != "0.0.0.0"

theorem mem_byId : r ∈ byId rows ↔ r ∈ rows := mem_insertionSort _

theorem ascending_after (keyed : (rows.map WafLog.id).Nodup) (watermark : Nat) :
    ((byId rows).filter (fun r => watermark < r.id)).Pairwise (fun r s => r.id < s.id) := by
  have sorted : (byId rows).Pairwise (fun r s => r.id ≤ s.id) := by
    exact pairwise_insertionSort _ rows
  have apart : (byId rows).Pairwise (fun r s => r.id ≠ s.id) := by
    have nodup : ((byId rows).map WafLog.id).Nodup :=
      ((perm_insertionSort _ rows).map WafLog.id).nodup_iff.mpr keyed
    exact pairwise_map.mp nodup
  exact ((sorted.and apart).imp (fun both => Nat.lt_of_le_of_ne both.1 both.2)).filter _

theorem mem_newWafEvents {watermark : Option Nat} (mem : r ∈ newWafEventsSince rows watermark) :
    r ∈ rows ∧ ∀ m ∈ watermark, m < r.id := by
  cases watermark with
  | none =>
    refine ⟨mem_byId.mp (mem_of_getLast? (Option.mem_toList.mp mem)), nofun⟩
  | some m =>
    obtain ⟨there, above⟩ := mem_filter.mp (mem_of_mem_take mem)
    refine ⟨mem_byId.mp there, fun m' same => ?_⟩
    rw [← Option.some.inj same]
    exact of_decide_eq_true above

theorem ascending_batch (keyed : (rows.map WafLog.id).Nodup) (watermark : Option Nat) :
    (newWafEventsSince rows watermark).Pairwise (fun r s => r.id < s.id) := by
  cases watermark with
  | none =>
    unfold newWafEventsSince
    cases (byId rows).getLast? <;> simp
  | some m => exact (ascending_after keyed m).sublist (take_sublist _ _)

theorem after_batch (keyed : (rows.map WafLog.id).Nodup) {watermark : Nat} {row : WafLog} (mem : row ∈ rows)
    (above : watermark < row.id) : row ∈ newWafEventsSince rows (some watermark) ∨
      newWafEventsSince rows (some watermark) ≠ [] ∧
        ∀ r ∈ newWafEventsSince rows (some watermark), r.id < row.id := by
  let rest := (byId rows).filter (fun r => watermark < r.id)
  have waiting : row ∈ rest.take maxBatch ++ rest.drop maxBatch := by
    rw [take_append_drop]
    exact mem_filter.mpr ⟨mem_byId.mpr mem, decide_eq_true above⟩
  have ordered : (rest.take maxBatch ++ rest.drop maxBatch).Pairwise (fun r s => r.id < s.id) := by
    rw [take_append_drop]
    exact ascending_after keyed watermark
  rcases mem_append.mp waiting with taken | later
  · exact .inl taken
  refine .inr ⟨fun none => ?_, fun r there => (pairwise_append.mp ordered).2.2 r there row later⟩
  have none : rest.take maxBatch = [] := none
  rcases take_eq_nil_iff.mp none with zero | empty
  · cases zero
  · rw [empty] at later
    cases later

section

variable (config : CrowdsecAutobanConfig)
include config

theorem lookup_group (acc : List (String × Group)) (e : WafLog) (ip : String) : (group config acc e).lookup ip =
      if ip = e.sourceIp then some (count config e ((acc.lookup ip).getD emptyGroup)) else acc.lookup ip := by
  induction acc with
  | nil =>
    by_cases same : ip = e.sourceIp
    · simp [group, same]
    · simp [group, same, beq_eq_false_iff_ne.mpr same]
  | cons entry rest ih =>
    obtain ⟨key, g⟩ := entry
    unfold group
    by_cases here : key = e.sourceIp
    · by_cases same : ip = e.sourceIp
      · simp [here, same]
      · simp [here, same, lookup_cons, beq_eq_false_iff_ne.mpr same]
    · rw [if_neg here, lookup_cons, lookup_cons, ih]
      by_cases found : ip = key
      · simp [found, here]
      · simp [beq_eq_false_iff_ne.mpr found]

theorem keys_group (acc : List (String × Group)) (e : WafLog) : (group config acc e).map Prod.fst =
      if e.sourceIp ∈ acc.map Prod.fst then acc.map Prod.fst else acc.map Prod.fst ++ [e.sourceIp] := by
  induction acc with
  | nil => simp [group]
  | cons entry rest ih =>
    obtain ⟨key, g⟩ := entry
    unfold group
    by_cases here : key = e.sourceIp
    · simp [here]
    rw [if_neg here, map_cons, ih]
    by_cases later : e.sourceIp ∈ rest.map Prod.fst
    · rw [if_pos later, if_pos]
      · simp
      · exact mem_cons_of_mem _ later
    · rw [if_neg later, if_neg]
      · simp
      · exact not_mem_cons_of_ne_of_not_mem (fun same => here same.symm) later

theorem groups_keyed (events : List WafLog) : ((events.foldl (group config) []).map Prod.fst).Nodup := by
  induction events using reverseRecOn with
  | nil => exact nodup_nil
  | append_singleton before e ih =>
    rw [foldl_append, foldl_cons, foldl_nil, keys_group]
    split
    · exact ih
    · rename_i new
      exact Nodup.append ih (nodup_singleton _) (by simpa using new)

theorem group_counts (events : List WafLog) (ip : String) :
    let g := ((events.foldl (group config) []).lookup ip).getD emptyGroup
    g.eventCount = (events.filter (fun e => e.sourceIp == ip)).length ∧
      g.qualifyingCount = (events.filter (fun e => e.sourceIp == ip && qualifies config e)).length := by
  induction events using reverseRecOn with
  | nil => exact ⟨rfl, rfl⟩
  | append_singleton before e ih =>
    obtain ⟨all, counted⟩ := ih
    rw [foldl_append, foldl_cons, foldl_nil, lookup_group]
    by_cases same : ip = e.sourceIp
    · rw [if_pos same]
      have here : (e.sourceIp == ip) = true := beq_iff_eq.mpr same.symm
      constructor
      · simp [count, all, here]
      · cases counts : qualifies config e <;> simp [count, counted, here, counts]
    have other : (e.sourceIp == ip) = false := beq_eq_false_iff_ne.mpr (fun back => same back.symm)
    rw [if_neg same]
    constructor
    · simp [all, other]
    · simp [counted, other]

end

theorem lookup_of_mem {entries : List (String × Group)} (keyed : (entries.map Prod.fst).Nodup)
    {ip : String} {g : Group} (mem : (ip, g) ∈ entries) : entries.lookup ip = some g := by
  induction entries with
  | nil => cases mem
  | cons entry rest ih =>
    obtain ⟨key, first⟩ := entry
    obtain ⟨new, others⟩ := nodup_cons.mp keyed
    rw [lookup_cons]
    rcases mem_cons.mp mem with same | later
    · cases same
      simp
    have apart : ip ≠ key := by
      rintro rfl
      exact new (mem_map.mpr ⟨(ip, g), later, rfl⟩)
    rw [beq_eq_false_iff_ne.mpr apart]
    exact ih others later

theorem decision_counts {config : CrowdsecAutobanConfig} {events : List WafLog} {recentlyBannedIps : List String}
    {d : AutobanDecision} (addressed : ∀ e ∈ events, e.sourceIp ≠ "")
    (mem : d ∈ evaluateWafBatch config events recentlyBannedIps) :
    d.eventCount = (events.filter (fun e => e.sourceIp == d.sourceIp)).length ∧
      (d.outcome = .banned ∨ d.outcome = .skippedBelowThreshold →
        (Number.lt (.finite (events.filter (fun e => e.sourceIp == d.sourceIp && qualifies config e)).length)
          config.eventThreshold = true ↔ d.outcome = .skippedBelowThreshold)) := by
  unfold evaluateWafBatch at mem
  split at mem
  · cases mem
  obtain ⟨⟨ip, g⟩, entry, decided⟩ := mem_filterMap.mp mem
  have all : events.filter (fun e => e.sourceIp ≠ "") = events :=
    filter_eq_self.mpr (fun e mem => decide_eq_true (addressed e mem))
  rw [groups, all] at entry
  have counts := group_counts config events ip
  rw [lookup_of_mem (groups_keyed config events) entry] at counts
  unfold decision at decided
  dsimp only at decided
  split at decided
  · cases decided
  split at decided
  · rw [← Option.some.inj decided]
    exact ⟨counts.1, by simp⟩
  split at decided
  · rw [← Option.some.inj decided]
    exact ⟨counts.1, by simp⟩
  split at decided
  · rename_i few
    rw [← Option.some.inj decided]
    refine ⟨counts.1, fun _ => ⟨fun _ => rfl, fun _ => ?_⟩⟩
    rw [← counts.2]
    exact few
  rename_i reached
  rw [← Option.some.inj decided]
  refine ⟨counts.1, fun _ => ⟨fun few => absurd ?_ reached, nofun⟩⟩
  rw [← counts.2] at few
  exact few

end HostingPlatform.Waf
