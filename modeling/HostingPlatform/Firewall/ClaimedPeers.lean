import HostingPlatform.Firewall.PendingPeers
import HostingPlatform.Transition

/-! Peers that a tick has marked claimed, along the ticks that follow: the time of the claim stays until
the peer is deleted, and the condition until a tick meets the peer within its grace period. -/
namespace HostingPlatform.Firewall.PendingPeers

open List Peers Go Transition

/- what happens to a cluster: ticks, and what others do to the resources; they do not write statuses -/
inductive Action where
  | tick (t : Tick)
  | create (cpp : PendingPeer)
  | edit (name : String) (ip : String) (ttlSeconds : Option Int)
  | remove (name : String)
  | ranges (ctrs : List TrustedRange)

def edited (name ip : String) (ttlSeconds : Option Int) (cpp : PendingPeer) : PendingPeer :=
  if cpp.name = name then { cpp with ip, ttlSeconds, generation := cpp.generation + 1 } else cpp

def removed (name : String) (cpp : PendingPeer) : Option PendingPeer :=
  if cpp.name = name then none else some cpp

theorem edited_name (name ip : String) (ttlSeconds : Option Int) (cpp : PendingPeer) :
    (edited name ip ttlSeconds cpp).name = cpp.name := by
  unfold edited
  split <;> rfl

theorem edited_status (name ip : String) (ttlSeconds : Option Int) (cpp : PendingPeer) :
    (edited name ip ttlSeconds cpp).status = cpp.status := by
  unfold edited
  split <;> rfl

variable {name claimedAt : String} {o : Objects} {cpp : PendingPeer} {takes : Request → Bool}
  {f : PendingPeer → Option PendingPeer} {c d : Cluster} {a : Action} {t : Tick}

theorem removed_name (cpp after : PendingPeer) (left : removed name cpp = some after) : after.name = cpp.name := by
  unfold removed at left
  split at left
  · contradiction
  · cases left; rfl

def step (c : Cluster) : Action → Option Cluster
  | .tick t => some (tick c t)
  | .create cpp =>
    if fresh : cpp.name ∉ c.pendingPeers.map PendingPeer.name then
      some { c with
        pendingPeers := { cpp with status := {} } :: c.pendingPeers
        names := List.nodup_cons.mpr ⟨fresh, c.names⟩ }
    else none
  | .edit name ip ttlSeconds =>
    some { c with
      pendingPeers := c.pendingPeers.map (edited name ip ttlSeconds)
      names := by
        rw [List.map_map]
        exact (List.map_congr_left fun cpp _ => edited_name name ip ttlSeconds cpp) ▸ c.names }
  | .remove name =>
    some { c with
      pendingPeers := c.pendingPeers.filterMap (removed name)
      names := names_filterMap removed_name c.names }
  | .ranges ctrs => some { c with trustedRanges := ctrs }

/-- The peer is there, with a status of a kind. -/
def Held (name : String) (Q : Status → Prop) (c : Cluster) : Prop :=
  ∃ cpp ∈ c.pendingPeers, cpp.name = name ∧ Q cpp.status

def isClaimed (cond : StoredCondition) : Bool := cond.type = "Claimed" ∧ cond.status = "True"

/- the condition `Claimed=True` -/
def Status.claimed (s : Status) : Bool := s.conditions.any isClaimed

/-- The peer is there, with the time of a claim and the condition. -/
def Claimed (name claimedAt : String) : Cluster → Prop :=
  Held name (fun s => s.claimedAt = claimedAt ∧ s.claimed = true)

instance {name : String} {Q : Status → Prop} [∀ s, Decidable (Q s)] {c : Cluster} : Decidable (Held name Q c) :=
  inferInstanceAs (Decidable (∃ cpp ∈ c.pendingPeers, _))

instance {name claimedAt : String} {c : Cluster} : Decidable (Claimed name claimedAt c) :=
  inferInstanceAs (Decidable (Held name _ c))

/-- The time of the claim is there, and the grace period after it is over. -/
def AfterGrace (now : Time) (cppGrace : Duration) (cpp : PendingPeer) : Prop :=
  ∃ claimedAt, cppClaimedAt cpp = some claimedAt ∧ claimedAt + cppGrace < now

instance (now : Time) (cppGrace : Duration) (cpp : PendingPeer) : Decidable (AfterGrace now cppGrace cpp) :=
  decidable_of_iff ((cppClaimedAt cpp).any (fun claimedAt => claimedAt + cppGrace < now) = true)
    (by simp [AfterGrace, Option.any_eq_true])

/-- The peer is removed by someone else, or by a tick after the grace period. -/
def Ends (name : String) (c : Cluster) : Action → Prop
  | .tick t => ∃ nodes, t.Runs c nodes ∧ ∃ cpp ∈ c.pendingPeers, cpp.name = name ∧
      AfterGrace t.now t.cppGrace cpp ∧ verdict (t.objects c nodes) cpp = .expire ∧ t.takes (.deleteCPP name) = true
  | .remove other => other = name
  | _ => False

def Marks (c : Cluster) (t : Tick) (name : String) : Prop :=
  ∃ nodes, t.Runs c nodes ∧ ∃ cpp ∈ c.pendingPeers, cpp.name = name ∧
    verdict (t.objects c nodes) cpp = .claim ∧ t.takes (.patchCPP name (markCPPClaimed cpp t.now)) = true

/-- The request about a claimed peer does not get through, or the peer has outlived its grace period and is
to be deleted, or its claim, which cannot be read, is made again in the same second. -/
def Spared (o : Objects) (takes : Request → Bool) (cpp : PendingPeer) : Prop :=
  takes (request o cpp) = false ∨ (verdict o cpp = .expire ∧ AfterGrace o.now o.cppGrace cpp) ∨
    (verdict o cpp = .claim ∧ formatRFC3339 o.now = cpp.status.claimedAt)

/-- Ticks that come to their requests spare the peer. -/
def Spares (name : String) (c : Cluster) : Action → Prop
  | .tick t => ∀ nodes, t.Runs c nodes → ∀ cpp ∈ c.pendingPeers, cpp.name = name →
      Spared (t.objects c nodes) t.takes cpp
  | _ => True

theorem patched_unclaimed (s : Status) (cpp : PendingPeer) (now : Time) :
    (s.merge (patchCPPStatus cpp now)).claimed = false := by
  unfold patchCPPStatus
  split
  · rfl
  · split <;> rfl

theorem marked_claimed (s : Status) (cpp : PendingPeer) (now : Time) :
    (s.merge (markCPPClaimed cpp now)).claimed = true := rfl

theorem marked_claimedAt (s : Status) (cpp : PendingPeer) (now : Time) :
    (s.merge (markCPPClaimed cpp now)).claimedAt = formatRFC3339 now := rfl

theorem fate_name (cpp after : PendingPeer) (left : fate o takes cpp = some after) : after.name = cpp.name := by
  unfold fate at left
  split at left
  · exact Request.on_name left
  · cases left; rfl

theorem mem_filterMap_name (named : ∀ cpp after, f cpp = some after → after.name = cpp.name)
    {after : PendingPeer} (mem : cpp ∈ c.pendingPeers) :
    (after ∈ c.pendingPeers.filterMap f ∧ after.name = cpp.name) ↔ f cpp = some after := by
  constructor
  · rintro ⟨there, same⟩
    obtain ⟨source, present, made⟩ := mem_filterMap.mp there
    have own : source = cpp := inj_on_of_nodup_map c.names present mem ((named source after made).symm.trans same)
    rw [← own, made]
  · intro made
    exact ⟨mem_filterMap.mpr ⟨cpp, mem, made⟩, named cpp after made⟩

theorem held_iff (named : ∀ cpp after, f cpp = some after → after.name = cpp.name)
    (made : d.pendingPeers = c.pendingPeers.filterMap f) (mem : cpp ∈ c.pendingPeers) (Q : Status → Prop) :
    Held cpp.name Q d ↔ ∃ after, f cpp = some after ∧ Q after.status := by
  constructor
  · rintro ⟨after, there, same, facts⟩
    exact ⟨after, (mem_filterMap_name named mem).mp ⟨made ▸ there, same⟩, facts⟩
  rintro ⟨after, left, facts⟩
  obtain ⟨there, same⟩ := (mem_filterMap_name named mem).mpr left
  exact ⟨after, made ▸ there, same, facts⟩

theorem step_held {Q : Status → Prop} (other : ∀ t, a ≠ .tick t) (held : Held name Q c)
    (goes : ¬ Ends name c a) (taken : step c a = some d) : Held name Q d := by
  obtain ⟨cpp, mem, rfl, facts⟩ := held
  cases a with
  | tick t => exact absurd rfl (other t)
  | create new =>
    simp only [step] at taken
    split at taken
    · cases taken
      exact ⟨cpp, mem_cons_of_mem _ mem, rfl, facts⟩
    · contradiction
  | edit whose ip ttlSeconds =>
    cases taken
    refine ⟨edited whose ip ttlSeconds cpp, mem_map_of_mem mem, edited_name _ _ _ _, ?_⟩
    rw [edited_status]
    exact facts
  | remove whose =>
    cases taken
    have stays : removed whose cpp = some cpp := if_neg (Ne.symm goes)
    exact ⟨cpp, mem_filterMap.mpr ⟨cpp, mem, stays⟩, rfl, facts⟩
  | ranges ctrs =>
    cases taken
    exact ⟨cpp, mem, rfl, facts⟩

theorem fate_claimed_iff (claimed : cpp.status.claimed = true)
    (stays : ¬ (verdict o cpp = .expire ∧ takes (request o cpp) = true ∧ AfterGrace o.now o.cppGrace cpp)) :
    (∃ after, fate o takes cpp = some after ∧ after.status.claimedAt = cpp.status.claimedAt ∧
      after.status.claimed = true) ↔ Spared o takes cpp := by
  cases taken : takes (request o cpp) with
  | false => simp [fate, Spared, taken, claimed]
  | true =>
    have left : fate o takes cpp = (request o cpp).on cpp := by simp [fate, taken]
    rw [left, Spared, taken]
    cases kind : verdict o cpp with
    | patch => simp [kind, request, Request.on, patched_unclaimed]
    | claim => simp [kind, request, Request.on, marked_claimed, marked_claimedAt]
    | expire =>
      have early : ¬ AfterGrace o.now o.cppGrace cpp := fun past => stays ⟨kind, taken, past⟩
      simp [kind, request, Request.on, early]

theorem runs_unique {nodes nodes' : List Node} (runs : t.Runs c nodes) (runs' : t.Runs c nodes') : nodes' = nodes :=
  Except.ok.inj (runs'.1.symm.trans runs.1)

theorem marks_claimed (marks : Marks c t name) : Claimed name (formatRFC3339 t.now) (tick c t) := by
  obtain ⟨nodes, runs, cpp, mem, rfl, claim, taken⟩ := marks
  rcases tick_cases c t with ⟨never, _⟩ | ⟨nodes', runs', left⟩
  · exact absurd runs (never nodes)
  rw [runs_unique runs runs'] at left
  have own : request (t.objects c nodes) cpp = .patchCPP cpp.name (markCPPClaimed cpp t.now) := by
    rw [request, claim]
    rfl
  have after : fate (t.objects c nodes) t.takes cpp =
      some { cpp with status := cpp.status.merge (markCPPClaimed cpp t.now) } := by
    simp [fate, own, taken, Request.on]
  exact (held_iff fate_name left mem _).mpr
    ⟨_, after, marked_claimedAt cpp.status cpp t.now, marked_claimed cpp.status cpp t.now⟩

theorem tick_claimed_iff (held : Claimed name claimedAt c) (goes : ¬ Ends name c (.tick t)) :
    Claimed name claimedAt (tick c t) ↔ Spares name c (.tick t) := by
  obtain ⟨cpp, mem, rfl, rfl, claimed⟩ := held
  rcases tick_cases c t with ⟨never, same⟩ | ⟨nodes, runs, left⟩
  · rw [same]
    refine iff_of_true ⟨cpp, mem, rfl, rfl, claimed⟩ ?_
    intro nodes runs
    exact absurd runs (never nodes)
  have stays : ¬ (verdict (t.objects c nodes) cpp = .expire ∧ t.takes (request (t.objects c nodes) cpp) = true ∧
      AfterGrace t.now t.cppGrace cpp) := by
    rintro ⟨expire, taken, past⟩
    rw [request, expire] at taken
    exact goes ⟨nodes, runs, cpp, mem, rfl, past, expire, taken⟩
  rw [Claimed, held_iff fate_name left mem, fate_claimed_iff claimed stays]
  constructor
  · intro spared nodes' runs' other there same
    rw [runs_unique runs runs', inj_on_of_nodup_map c.names there mem same]
    exact spared
  · intro spares
    exact spares nodes runs cpp mem rfl

theorem step_claimed_iff (held : Claimed name claimedAt c) (goes : ¬ Ends name c a)
    (taken : step c a = some d) : Claimed name claimedAt d ↔ Spares name c a := by
  cases a with
  | tick t =>
    cases taken
    exact tick_claimed_iff held goes
  | create | edit | remove | ranges => exact iff_of_true (step_held (by simp) held goes taken) trivial

/-- After a tick has marked a peer claimed, the peer keeps the time of the claim and the condition until it
is removed, or deleted after its grace period, in exactly those runs whose ticks all spare it. -/
theorem claim_kept_iff {c last : Cluster} {t : Tick} {name : String} {later : List Action}
    (marks : Marks c t name) (run : exec step (tick c t) later = some last) :
    Unless step (Claimed name (formatRFC3339 t.now)) (Ends name) (tick c t) later ↔
      GuardedUnless step (Spares name) (Ends name) (tick c t) later :=
  (guarded_iff_unless (fun _ _ _ held goes taken => step_claimed_iff held goes taken)
    (marks_claimed marks) run).symm

/- a peer that waits for its node, and ticks that find the node -/
def waitingPeer : PendingPeer where
  name := "new-worker"
  generation := 1
  creationTimestamp := some (1778241540 * second)
  ip := "10.0.0.5"
  ttlSeconds := some 1800
  status := {}

def joining : Cluster := ⟨[], [waitingPeer], List.nodup_singleton _⟩

def joinedNode : Node := ⟨"", [], [⟨"InternalIP", "10.0.0.5"⟩]⟩

def tickAt (now : Time) : Tick :=
  ⟨now, 300 * second, .ok [joinedNode], .ok (), .ok (), fun _ => .ok (), fun _ => true⟩

def noon : Time := 1778241600 * second

theorem joining_marked : Marks joining (tickAt noon) "new-worker" :=
  ⟨[joinedNode], ⟨rfl, rfl, rfl, rfl⟩, waitingPeer, mem_singleton_self _, rfl, by decide +kernel, rfl⟩

/-- The next tick comes when the grace period is over. -/
theorem claim_kept_past_grace : Unless step (Claimed "new-worker" "2026-05-08T12:00:00Z") (Ends "new-worker")
    (tick joining (tickAt noon)) [.tick (tickAt (noon + 301 * second))] := by
  have run : exec step (tick joining (tickAt noon)) [.tick (tickAt (noon + 301 * second))] =
      some (tick (tick joining (tickAt noon)) (tickAt (noon + 301 * second))) := rfl
  have claimed : formatRFC3339 noon = "2026-05-08T12:00:00Z" := by decide +kernel
  have later : GuardedUnless step (Spares "new-worker") (Ends "new-worker") (tick joining (tickAt noon))
      [.tick (tickAt (noon + 301 * second))] := by
    have past : ∃ cpp ∈ (tick joining (tickAt noon)).pendingPeers, cpp.name = "new-worker" ∧
        AfterGrace (noon + 301 * second) (300 * second) cpp ∧
        verdict ((tickAt (noon + 301 * second)).objects (tick joining (tickAt noon)) [joinedNode]) cpp = .expire ∧
        true = true := by decide +kernel
    exact .inl ⟨[joinedNode], ⟨rfl, rfl, rfl, rfl⟩, past⟩
  exact claimed ▸ (claim_kept_iff joining_marked run).mpr later

/-- A tick half a minute after the claim takes the condition away. -/
theorem claim_forgotten : Marks joining (tickAt noon) "new-worker" ∧
    ((tick (tick joining (tickAt noon)) (tickAt (noon + 30 * second))).pendingPeers.map (fun cpp =>
      (cpp.status.claimedAt, cpp.status.conditions.map (fun c => (c.type, c.reason)))) =
        [("2026-05-08T12:00:00Z", [("Ready", "Pending")])]) ∧
    ¬ Unless step (Claimed "new-worker" (formatRFC3339 noon)) (Ends "new-worker")
      (tick joining (tickAt noon)) [.tick (tickAt (noon + 30 * second))] := by
  refine ⟨joining_marked, by decide +kernel, ?_⟩
  rintro ⟨_, ends | kept⟩
  · obtain ⟨nodes, _, cpp, mem, _, past, _⟩ := ends
    have within : ∀ cpp ∈ (tick joining (tickAt noon)).pendingPeers,
        ¬ AfterGrace (noon + 30 * second) (300 * second) cpp := by decide +kernel
    exact within cpp mem past
  · have gone : ¬ Claimed "new-worker" (formatRFC3339 noon)
        (tick (tick joining (tickAt noon)) (tickAt (noon + 30 * second))) := by decide +kernel
    exact gone kept

end HostingPlatform.Firewall.PendingPeers
