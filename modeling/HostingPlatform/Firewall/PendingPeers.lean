import HostingPlatform.Firewall.Peers
import HostingPlatform.Go.Time

/-! A tick of the reconciler, with the statuses it writes: what it asks the kube-API for, and what
the cluster is after those requests that the kube-API takes. -/
namespace HostingPlatform.Firewall.PendingPeers

open List Peers Netip Go

structure Condition where
  (type status reason message : String)
  time : Time

/- the empty text, the zero time and what is not there are omitted from the patch -/
structure StatusPayload where
  observedGeneration : Int
  normalizedCidr : String := ""
  normalizedIp : String := ""
  family : String := ""
  lastSyncedAt : Time := zeroTime
  expiresAt : Option Time := none
  claimedAt : Option Time := none
  conditions : List Condition

structure StoredCondition where
  (type status reason message lastTransitionTime : String)

/- a field that is not there has the empty text -/
structure Status where
  observedGeneration : Option Int := none
  normalizedCidr : String := ""
  normalizedIp : String := ""
  family : String := ""
  lastSyncedAt : String := ""
  expiresAt : String := ""
  claimedAt : String := ""
  conditions : List StoredCondition := []

def renderConditions (conds : List Condition) : List StoredCondition :=
  conds.map (fun c => ⟨c.type, c.status, c.reason, c.message, formatRFC3339 c.time⟩)

/- the merge patch of `writeStatus`: fields that it has replace those that are there, and the conditions
are one field -/
def Status.merge (s : Status) (p : StatusPayload) : Status where
  observedGeneration := some p.observedGeneration
  normalizedCidr := if p.normalizedCidr ≠ "" then p.normalizedCidr else s.normalizedCidr
  normalizedIp := if p.normalizedIp ≠ "" then p.normalizedIp else s.normalizedIp
  family := if p.family ≠ "" then p.family else s.family
  lastSyncedAt := if p.lastSyncedAt ≠ zeroTime then formatRFC3339 p.lastSyncedAt else s.lastSyncedAt
  expiresAt := (p.expiresAt.map formatRFC3339).getD s.expiresAt
  claimedAt := (p.claimedAt.map formatRFC3339).getD s.claimedAt
  conditions := if p.conditions.isEmpty then s.conditions else renderConditions p.conditions

structure TrustedRange where
  name : String
  generation : Int
  cidr : String
  status : Status

structure PendingPeer where
  name : String
  generation : Int
  creationTimestamp : Option Time
  ip : String
  ttlSeconds : Option Int
  status : Status

/- an empty text is not read as a time either -/
def cppClaimedAt (cpp : PendingPeer) : Option Time := parseRFC3339 cpp.status.claimedAt

def PendingPeer.observed (cpp : PendingPeer) : ClusterPendingPeer :=
  ⟨cpp.ip, cpp.ttlSeconds, cpp.creationTimestamp, cppClaimedAt cpp⟩

def familyText : Family → String
  | .v4 => "v4"
  | .v6 => "v6"

/- `%q` of a text that its resource's pattern lets through, in which nothing needs an escape -/
def quote (s : String) : String := "\"" ++ s ++ "\""

def patchCTRStatus (ctr : TrustedRange) (now : Time) : StatusPayload :=
  if ctr.cidr = "" then
    { observedGeneration := ctr.generation
      conditions := [⟨"Ready", "False", "MissingSpec", "spec.cidr is empty or missing", now⟩] }
  else
    match parseIPOrCIDR ctr.cidr with
    | none =>
      { observedGeneration := ctr.generation
        conditions := [⟨"Ready", "False", "ValidationFailed", "spec.cidr " ++ quote ctr.cidr ++
          " is not a valid IPv4/v6 address or CIDR (rejected by net/netip)", now⟩] }
    | some (canonical, family) =>
      { observedGeneration := ctr.generation
        normalizedCidr := canonical
        family := familyText family
        lastSyncedAt := now
        conditions := [⟨"Ready", "True", "Synced", "trust range present in nft set", now⟩] }

/- `spec.ttlSeconds` after the creation, in 64 bits -/
def statusExpiresAt (cpp : PendingPeer) : Time :=
  cpp.creationTimestamp.getD zeroTime + Int.bmod (cpp.ttlSeconds.getD 1800 * 1000000000) (2 ^ 64)

def patchCPPStatus (cpp : PendingPeer) (now : Time) : StatusPayload :=
  if cpp.ip = "" then
    { observedGeneration := cpp.generation
      conditions := [⟨"Ready", "False", "MissingSpec", "spec.ip is empty or missing", now⟩] }
  else
    match parseBareIP cpp.ip with
    | none =>
      { observedGeneration := cpp.generation
        conditions := [⟨"Ready", "False", "ValidationFailed", "spec.ip " ++ quote cpp.ip ++
          " is not a valid bare IPv4/v6 address (rejected by net/netip)", now⟩] }
    | some (canonical, family) =>
      { observedGeneration := cpp.generation
        normalizedIp := canonical
        family := familyText family
        expiresAt := some (statusExpiresAt cpp)
        conditions := [⟨"Ready", "True", "Pending", "awaiting node InternalIP match", now⟩] }

def markCPPClaimed (cpp : PendingPeer) (now : Time) : StatusPayload :=
  let parsed := parseBareIP cpp.ip
  { observedGeneration := cpp.generation
    normalizedIp := (parsed.map Prod.fst).getD ""
    family := (parsed.map (fun p => familyText p.2)).getD ""
    expiresAt := some (statusExpiresAt cpp)
    claimedAt := some now
    conditions := [⟨"Claimed", "True", "NodeRegistered", "matching Node InternalIP observed in kube-API", now⟩] }

inductive Request where
  | patchCTR (name : String) (payload : StatusPayload)
  | patchCPP (name : String) (payload : StatusPayload)
  | deleteCPP (name : String)

structure Cluster where
  trustedRanges : List TrustedRange
  pendingPeers : List PendingPeer
  names : (pendingPeers.map PendingPeer.name).Nodup

inductive Verdict where
  | patch
  | claim
  | expire
  deriving DecidableEq

/- what the loop over the pending peers makes of one -/
def verdict (o : Objects) (cpp : PendingPeer) : Verdict :=
  if cpp.ip = "" then .patch
  else
    match parseBareIP cpp.ip with
    | none => .patch
    | some (canonical, _) =>
      let nodeIPs := splitInternalIPs o.nodes
      if expired o cpp.observed then .expire
      else if (cppClaimedAt cpp).isNone ∧ stripPrefix canonical ∈ nodeIPs.1 ++ nodeIPs.2 then .claim
      else .patch

def cppExpiredNames (o : Objects) (cpps : List PendingPeer) : List String :=
  (cpps.filter (fun cpp => verdict o cpp = .expire)).map PendingPeer.name

def cppToClaim (o : Objects) (cpps : List PendingPeer) : List PendingPeer :=
  cpps.filter (fun cpp => verdict o cpp = .claim)

def cppPatches (o : Objects) (cpps : List PendingPeer) : List PendingPeer :=
  cpps.filter (fun cpp => verdict o cpp ≠ .expire)

/- one patch for a peer that is claimed, which carries the whole status -/
def requests (o : Objects) (c : Cluster) : List Request :=
  let toClaimNames := (cppToClaim o c.pendingPeers).map PendingPeer.name
  c.trustedRanges.map (fun ctr => .patchCTR ctr.name (patchCTRStatus ctr o.now)) ++
    ((cppPatches o c.pendingPeers).filter (fun cpp => cpp.name ∉ toClaimNames)).map
      (fun cpp => .patchCPP cpp.name (patchCPPStatus cpp o.now)) ++
    (cppToClaim o c.pendingPeers).map (fun cpp => .patchCPP cpp.name (markCPPClaimed cpp o.now)) ++
    (cppExpiredNames o c.pendingPeers).map .deleteCPP

/- what a tick finds: the time, what the listers answer, what comes of writing the sets, and which of its
requests the kube-API takes -/
structure Tick where
  now : Time
  cppGrace : Duration
  nodes : Except String (List Node)
  (ctrLister cppLister : Except String Unit)
  applyPeersIfChanged : PeerNftSets → Except String Unit
  takes : Request → Bool

def Tick.objects (t : Tick) (c : Cluster) (nodes : List Node) : Objects where
  nodes := nodes
  trustedRanges := c.trustedRanges.map (fun ctr => ⟨ctr.cidr⟩)
  pendingPeers := c.pendingPeers.map PendingPeer.observed
  now := t.now
  cppGrace := t.cppGrace

def reconcileOnce (c : Cluster) (t : Tick) : Except String (List Request) :=
  match t.nodes, t.ctrLister, t.cppLister with
  | .error err, _, _ => .error ("list nodes: " ++ err)
  | .ok _, .error err, _ => .error ("list clustertrustedranges: " ++ err)
  | .ok _, .ok _, .error err => .error ("list clusterpendingpeers: " ++ err)
  | .ok nodes, .ok _, .ok _ =>
    match t.applyPeersIfChanged (desired (t.objects c nodes)) with
    | .error err => .error ("apply nft: " ++ err)
    | .ok _ => .ok (requests (t.objects c nodes) c)

def Request.on (r : Request) (cpp : PendingPeer) : Option PendingPeer :=
  match r with
  | .patchCTR _ _ => some cpp
  | .patchCPP name payload =>
    some (if cpp.name = name then { cpp with status := cpp.status.merge payload } else cpp)
  | .deleteCPP name => if cpp.name = name then none else some cpp

variable {r : Request} {cpp : PendingPeer} {cpps : List PendingPeer}

theorem Request.on_name {after : PendingPeer} (left : r.on cpp = some after) : after.name = cpp.name := by
  cases r with
  | patchCTR => cases left; rfl
  | patchCPP name payload =>
    cases left
    split <;> rfl
  | deleteCPP name =>
    simp only [Request.on] at left
    split at left
    · contradiction
    · cases left; rfl

theorem names_filterMap {f : PendingPeer → Option PendingPeer}
    (named : ∀ cpp after, f cpp = some after → after.name = cpp.name)
    (names : (cpps.map PendingPeer.name).Nodup) : ((cpps.filterMap f).map PendingPeer.name).Nodup := by
  induction cpps with
  | nil => exact nodup_nil
  | cons cpp rest ih =>
    obtain ⟨fresh, tail⟩ := nodup_cons.mp names
    cases left : f cpp with
    | none =>
      rw [filterMap_cons_none left]
      exact ih tail
    | some after =>
      rw [filterMap_cons_some left, map_cons, nodup_cons]
      refine ⟨?_, ih tail⟩
      intro again
      obtain ⟨other, mem, same⟩ := mem_map.mp again
      obtain ⟨source, there, made⟩ := mem_filterMap.mp mem
      refine fresh (mem_map.mpr ⟨source, there, ?_⟩)
      rw [← named source other made, same, named cpp after left]

def Request.onRange (r : Request) (ctr : TrustedRange) : TrustedRange :=
  match r with
  | .patchCTR name payload => if ctr.name = name then { ctr with status := ctr.status.merge payload } else ctr
  | _ => ctr

def serve (c : Cluster) (r : Request) : Cluster where
  trustedRanges := c.trustedRanges.map r.onRange
  pendingPeers := c.pendingPeers.filterMap r.on
  names := names_filterMap (fun _ _ left => r.on_name left) c.names

def tick (c : Cluster) (t : Tick) : Cluster :=
  match reconcileOnce c t with
  | .error _ => c
  | .ok asked => (asked.filter t.takes).foldl serve c

def request (o : Objects) (cpp : PendingPeer) : Request :=
  match verdict o cpp with
  | .patch => .patchCPP cpp.name (patchCPPStatus cpp o.now)
  | .claim => .patchCPP cpp.name (markCPPClaimed cpp o.now)
  | .expire => .deleteCPP cpp.name

def Request.about (name : String) : Request → Bool
  | .patchCTR _ _ => false
  | .patchCPP other _ => other = name
  | .deleteCPP other => other = name

theorem on_other (other : r.about cpp.name = false) : r.on cpp = some cpp := by
  cases r with
  | patchCTR => rfl
  | patchCPP name payload | deleteCPP name =>
    have apart : cpp.name ≠ name := by simpa [Request.about, eq_comm] using other
    simp [Request.on, apart]

theorem serve_all (asked : List Request) (c : Cluster) : (asked.foldl serve c).pendingPeers =
    c.pendingPeers.filterMap (fun cpp => (asked.filter (Request.about cpp.name)).foldlM (fun p r => r.on p) cpp) := by
  induction asked generalizing c with
  | nil => simp
  | cons r rest ih =>
    rw [foldl_cons, ih, serve, filterMap_filterMap]
    refine filterMap_congr fun cpp _ => ?_
    by_cases mine : r.about cpp.name = true
    · rw [filter_cons_of_pos mine, foldlM_cons]
      cases left : r.on cpp with
      | none => rfl
      | some after =>
        rw [← r.on_name left]
        rfl
    · rw [filter_cons_of_neg mine, on_other (Bool.eq_false_iff.mpr mine)]
      rfl

theorem filter_name (names : (cpps.map PendingPeer.name).Nodup) (mem : cpp ∈ cpps) :
    cpps.filter (fun other => other.name = cpp.name) = [cpp] := by
  induction cpps with
  | nil => cases mem
  | cons first rest ih =>
    obtain ⟨fresh, tail⟩ := nodup_cons.mp names
    rcases mem_cons.mp mem with rfl | later
    · have none : rest.filter (fun other => other.name = cpp.name) = [] := by
        refine filter_eq_nil_iff.mpr ?_
        intro other there same
        exact fresh (mem_map.mpr ⟨other, there, by simpa using same⟩)
      simp [none]
    · have apart : first.name ≠ cpp.name := by
        intro same
        exact fresh (mem_map.mpr ⟨cpp, later, same.symm⟩)
      simp [apart, ih tail later]

theorem filter_requests {c : Cluster} (mem : cpp ∈ c.pendingPeers) {f : PendingPeer → Request}
    (own : ∀ other, (f other).about cpp.name = decide (other.name = cpp.name)) (keep : PendingPeer → Bool) :
    ((c.pendingPeers.filter keep).map f).filter (Request.about cpp.name) = ([cpp].filter keep).map f := by
  have named : (Request.about cpp.name) ∘ f = fun other => decide (other.name = cpp.name) := funext own
  rw [filter_map, named, filter_comm, filter_name c.names mem]

theorem requests_about (o : Objects) (c : Cluster) (mem : cpp ∈ c.pendingPeers) :
    (requests o c).filter (Request.about cpp.name) = [request o cpp] := by
  have only := filter_name c.names mem
  have claims : cpp.name ∈ (cppToClaim o c.pendingPeers).map PendingPeer.name ↔ verdict o cpp = .claim := by
    constructor
    · intro named
      obtain ⟨other, there, same⟩ := mem_map.mp named
      obtain ⟨present, claimed⟩ := mem_filter.mp there
      have own : other ∈ c.pendingPeers.filter (fun other => other.name = cpp.name) :=
        mem_filter.mpr ⟨present, by simpa using same⟩
      rw [only, mem_singleton] at own
      simpa [own] using claimed
    · intro claimed
      exact mem_map_of_mem (mem_filter.mpr ⟨mem, by simpa using claimed⟩)
  have ranges : (c.trustedRanges.map (fun ctr =>
      .patchCTR ctr.name (patchCTRStatus ctr o.now))).filter (Request.about cpp.name) = [] := by
    simp [Request.about]
  have claiming : ((cppToClaim o c.pendingPeers).map (fun cpp =>
      .patchCPP cpp.name (markCPPClaimed cpp o.now))).filter (Request.about cpp.name) = _ :=
    filter_requests mem (fun _ => rfl) (fun cpp => verdict o cpp = .claim)
  rw [requests, filter_append, filter_append, filter_append, ranges, cppExpiredNames, cppPatches,
    filter_filter, map_map, claiming, filter_requests mem (fun _ => rfl),
    filter_requests mem (fun _ => rfl)]
  simp only [filter_cons, filter_nil, claims]
  cases kind : verdict o cpp with
  | patch | claim | expire => simp [request, kind]

/-- What a tick leaves of a peer when it comes to its requests. -/
def fate (o : Objects) (takes : Request → Bool) (cpp : PendingPeer) : Option PendingPeer :=
  if takes (request o cpp) then (request o cpp).on cpp else some cpp

def Tick.Runs (t : Tick) (c : Cluster) (nodes : List Node) : Prop :=
  t.nodes = .ok nodes ∧ t.ctrLister = .ok () ∧ t.cppLister = .ok () ∧
    t.applyPeersIfChanged (desired (t.objects c nodes)) = .ok ()

theorem tick_cases (c : Cluster) (t : Tick) : ((∀ nodes, ¬ t.Runs c nodes) ∧ tick c t = c) ∨
      ∃ nodes, t.Runs c nodes ∧
        (tick c t).pendingPeers = c.pendingPeers.filterMap (fate (t.objects c nodes) t.takes) := by
  unfold tick reconcileOnce
  cases listed : t.nodes with
  | error err => simp [Tick.Runs, listed]
  | ok nodes =>
    cases ctrs : t.ctrLister with
    | error err => simp [Tick.Runs, ctrs]
    | ok _ =>
      cases cpps : t.cppLister with
      | error err => simp [Tick.Runs, cpps]
      | ok _ =>
        cases applied : t.applyPeersIfChanged (desired (t.objects c nodes)) with
        | error err =>
          left
          simp only [applied, and_true]
          rintro others ⟨same, _, _, fine⟩
          rw [listed] at same
          cases same
          rw [applied] at fine
          contradiction
        | ok _ =>
          right
          refine ⟨nodes, ⟨listed, ctrs, cpps, applied⟩, ?_⟩
          simp only [applied]
          rw [serve_all]
          refine filterMap_congr fun cpp mem => ?_
          rw [filter_comm, requests_about _ c mem]
          by_cases taken : t.takes (request (t.objects c nodes) cpp) = true
          · simp [fate, taken]
          · simp [fate, taken]

end HostingPlatform.Firewall.PendingPeers
