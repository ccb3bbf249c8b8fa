import HostingPlatform.ProtectedDirs.RouteSpecs
import HostingPlatform.Results

/-! Which requests below a protected directory Traefik asks for the password of one of its users. -/
namespace HostingPlatform.ProtectedDirs

open List Js
open IngressRoutes (WwwRedirect)

structure Request where
  (host path : String)

/- which requests a rule accepts -/
abbrev Accepts := String → Request → Bool

/- `Host` and `PathPrefix` of texts without the delimiter -/
structure Documented (accepts : Accepts) : Prop where
  host : ∀ hostname, tick ∉ hostname.toList → ∀ r, accepts (hostRule hostname) r = true ↔ r.host = hostname
  path : ∀ hostname path, tick ∉ hostname.toList → tick ∉ path.toList → ∀ r,
    accepts (pathRule hostname path) r = true ↔ r.host = hostname ∧ path.toList <+: r.path.toList

/- without a priority the length of the rule -/
def rank (w : TraefikRoute) : Nat := w.priority.getD w.rule.utf8ByteSize

def Wins (accepts : Accepts) (routes : List TraefikRoute) (request : Request) (w : TraefikRoute) : Prop :=
  w ∈ routes ∧ accepts w.rule request = true ∧
    ∀ other ∈ routes, accepts other.rule request = true → rank other ≤ rank w

def credential (line : List Char) : Option (String × String) :=
  match line.splitOn ':' with
  | [name, hash] => some (String.ofList name, String.ofList hash)
  | _ => none

def stripReturn (line : List Char) : List Char := if line.getLast? = some '\r' then line.dropLast else line

/- a file of users; one bad line makes the middleware an error, which lets nobody in -/
def credentials (content : String) : Option (List (String × String)) :=
  (((content.toList.splitOn '\n').map stripReturn).filter (· ≠ [])).mapM credential

def AdmitsOnly (users : List AuthUser) (content : Option String) : Prop :=
  ∀ text, content = some text → ∀ creds, credentials text = some creds →
    ∀ c ∈ creds, ∃ u ∈ users, (u.username, u.passwordHash) = c

/-- The middleware of the directory is one of the route's, and only lets its users in. -/
def Guarded (db : Db) (p : Published) (dir : ProtectedDir) (w : TraefikRoute) : Prop :=
  (∃ ref ∈ w.middlewares, ref.namespace_ = p.namespace_ ∧
    p.middlewares ref.name = some (authMiddleware dir).spec) ∧
  AdmitsOnly (enabledUsers db dir) (p.secrets (secretName dir.id))

theorem credential_user {name hash : List Char} {c : String × String}
    (read : credential (name ++ ':' :: hash) = some c) : c = (String.ofList name, String.ofList hash) := by
  unfold credential at read
  rw [splitOn_append_cons_self] at read
  have whole : [':'].intercalate (name.splitOn ':') = name := intercalate_splitOn ':'
  have whole' : [':'].intercalate (hash.splitOn ':') = hash := intercalate_splitOn ':'
  rcases parts : name.splitOn ':' with _ | ⟨first, _ | ⟨second, rest⟩⟩
  · exact absurd parts (splitOn_ne_nil _ _)
  · rcases parts' : hash.splitOn ':' with _ | ⟨first', _ | ⟨second', rest'⟩⟩
    · exact absurd parts' (splitOn_ne_nil _ _)
    · rw [parts] at read whole
      rw [parts'] at read whole'
      simp at read whole whole'
      rw [← read, whole, whole']
    · rw [parts, parts'] at read
      simp at read
  · rcases parts' : hash.splitOn ':' with _ | ⟨first', rest'⟩
    · exact absurd parts' (splitOn_ne_nil _ _)
    · rw [parts] at read
      cases rest <;> simp at read

def line (u : AuthUser) : String := u.username ++ ":" ++ u.passwordHash

/-- No name or hash goes over a line. -/
def OnLines (users : List AuthUser) : Prop :=
  ∀ u ∈ users, '\n' ∉ (line u).toList ∧ '\r' ∉ (line u).toList

variable {users : List AuthUser} {s : Surroundings} {entry : RouteRow × (String × Nat)} {db : Db}
  {middlewares : String → Option MiddlewareSpec} {secrets : Secrets} {p : Published} {ns hostname : String}
  {group : List TraefikRoute} {dir : ProtectedDir}

theorem htpasswd_lines (used : users ≠ []) (plain : OnLines users) :
    (htpasswd users).toList.splitOn '\n' = users.map (fun u => (line u).toList) ++ [[]] := by
  have free : ∀ s ∈ users.map line, '\n' ∉ s.toList := by
    intro s mem
    obtain ⟨u, there, rfl⟩ := mem_map.mp mem
    exact (plain u there).1
  have last : (htpasswd users).toList = (Go.join '\n' (users.map line)).toList ++ '\n' :: [] := by
    rw [htpasswd, String.toList_append]
    rfl
  rw [last, splitOn_append_cons_self, Go.splitOn_join (by simpa using used) free, map_map]
  rfl

theorem htpasswd_admits (used : users ≠ []) (plain : OnLines users) : AdmitsOnly users (some (htpasswd users)) := by
  intro text there creds read c mem
  cases there
  unfold credentials at read
  rw [htpasswd_lines used plain] at read
  obtain ⟨l, memLine, isCredential⟩ := (Results.mem_mapM_some read c).mp mem
  obtain ⟨inLines, full⟩ := mem_filter.mp memLine
  obtain ⟨whole, memWhole, rfl⟩ := mem_map.mp inLines
  rcases mem_append.mp memWhole with written | last
  · obtain ⟨u, its, rfl⟩ := mem_map.mp written
    have kept : stripReturn (line u).toList = (line u).toList := by
      unfold stripReturn
      rw [if_neg]
      intro ends
      exact (plain u its).2 (mem_of_getLast? ends)
    have parts : (line u).toList = u.username.toList ++ ':' :: u.passwordHash.toList := by
      simp [line]
    rw [kept, parts] at isCredential
    refine ⟨u, its, ?_⟩
    rw [credential_user isCredential, String.ofList_toList, String.ofList_toList]
  · rw [mem_singleton] at last
    rw [last] at full
    contradiction

theorem mem_served {routes : List RouteRow} :
    entry ∈ served s routes ↔ entry.1 ∈ routes ∧ s.backend entry.1 = some entry.2 := by
  unfold served
  rw [mem_filterMap]
  constructor
  · rintro ⟨r, mem, made⟩
    obtain ⟨service, backed, rfl⟩ := Option.map_eq_some_iff.mp made
    exact ⟨mem, backed⟩
  · intro ⟨mem, backed⟩
    exact ⟨entry.1, mem, by rw [backed]; rfl⟩

theorem updated_served (mem : entry ∈ served s (updatedRoutes db)) : entry ∈ served s (tenantRoutes db) := by
  obtain ⟨row, backed⟩ := mem_served.mp mem
  exact mem_served.mpr ⟨(mem_filter.mp row).1, backed⟩

structure Built (db : Db) (s : Surroundings) (middlewares : String → Option MiddlewareSpec) (secrets : Secrets)
    (p : Published) : Prop where
  routes : ∀ w, w ∈ p.routes ↔
    ∃ entry ∈ served s (updatedRoutes db), ∃ group, traefikRoutes db s p.namespace_ entry = some group ∧ w ∈ group
  each : ∀ entry ∈ served s (updatedRoutes db), ∃ group, traefikRoutes db s p.namespace_ entry = some group
  middlewares : p.middlewares = (((served s (tenantRoutes db)).map
    (fun entry => buildRouteSpec db s p.namespace_ entry.1 entry.2)).flatMap RouteSpec.middlewares).foldl
      applyMiddleware middlewares
  secrets : p.secrets = (served s (tenantRoutes db)).foldl
    (fun secrets entry => syncAuthSecret db secrets entry.1.id) secrets

theorem built (done : reconcileIngress db s middlewares secrets = some p) : Built db s middlewares secrets p := by
  unfold reconcileIngress at done
  split at done
  · contradiction
  rename_i ns _
  cases groups : (served s (updatedRoutes db)).mapM (traefikRoutes db s ns) with
  | none => simp [groups] at done
  | some gs =>
    cases gs with
    | nil => simp [groups] at done
    | cons first rest =>
      rw [groups] at done
      cases done
      refine ⟨?_, ?_, rfl, rfl⟩
      · intro w
        rw [mem_flatten]
        constructor
        · rintro ⟨group, mem, its⟩
          obtain ⟨entry, there, made⟩ := (Results.mem_mapM_some groups group).mp mem
          exact ⟨entry, there, group, made, its⟩
        · rintro ⟨entry, there, group, made, its⟩
          exact ⟨group, (Results.mem_mapM_some groups group).mpr ⟨entry, there, made⟩, its⟩
      · exact Results.mapM_some_each groups

theorem group_cases (made : traefikRoutes db s ns entry = some group) (w : TraefikRoute) : w ∈ group ↔
      (∃ rule, primaryRule entry.1 = some rule ∧
        w = ⟨rule, none, (buildRouteSpec db s ns entry.1 entry.2).middlewareRefs, entry.2⟩) ∨
      ∃ d ∈ usedDirs db entry.1.id, w = childRoute entry.1.hostname ns entry.2
        (buildRouteSpec db s ns entry.1 entry.2).middlewareRefs d := by
  obtain ⟨rule, isRule, rfl⟩ := Option.map_eq_some_iff.mp made
  rw [mem_cons, isRule]
  simp only [buildRouteSpec, mem_map, Option.some.injEq, exists_eq_left']
  refine or_congr Iff.rfl ?_
  constructor
  · rintro ⟨d, mem, rfl⟩
    exact ⟨d, mem, rfl⟩
  · rintro ⟨d, mem, rfl⟩
    exact ⟨d, mem, rfl⟩

theorem hostname_plain (made : traefikRoutes db s ns entry = some group) : tick ∉ entry.1.hostname.toList := by
  obtain ⟨rule, isRule, _⟩ := Option.map_eq_some_iff.mp made
  obtain ⟨text, isMatch, _⟩ := Option.map_eq_some_iff.mp isRule
  unfold hostMatch at isMatch
  split at isMatch
  · contradiction
  rename_i plain
  intro mem
  apply plain
  unfold canonicalHost
  split
  · rw [String.toList_append]
    exact mem_append_right _ mem
  split
  · rename_i drops
    obtain ⟨rest, whole⟩ := isPrefixOf_iff_prefix.mp drops.2
    rw [← whole] at mem ⊢
    rcases mem_append.mp mem with www | later
    · exact absurd www (by decide)
    · simpa using later
  · exact mem

theorem foldl_stores {A V : Type} {store : (String → Option V) → A → String → Option V} {l : List A} {k : String}
    {v : V} (stores : A → Prop) (keeps : ∀ t, ∀ a ∈ l, t k = some v → store t a k = some v)
    (puts : ∀ t, ∀ a ∈ l, stores a → store t a k = some v) (t : String → Option V)
    (there : t k = some v ∨ ∃ a ∈ l, stores a) : l.foldl store t k = some v := by
  induction l generalizing t with
  | nil =>
    rcases there with there | ⟨a, mem, _⟩
    · exact there
    · exact absurd mem not_mem_nil
  | cons a rest ih =>
    refine ih (fun t b mem => keeps t b (mem_cons_of_mem a mem))
      (fun t b mem => puts t b (mem_cons_of_mem a mem)) (store t a) ?_
    rcases there with there | ⟨b, mem, puts_b⟩
    · exact .inl (keeps t a mem_cons_self there)
    rcases mem_cons.mp mem with rfl | mem
    · exact .inl (puts t b mem_cons_self puts_b)
    · exact .inr ⟨b, mem, puts_b⟩

theorem secretName_inj {a b : String} (same : secretName a = secretName b) : a = b := by
  have chars := congrArg String.toList same
  rw [secretName, secretName, String.toList_append, String.toList_append] at chars
  exact String.toList_injective (append_cancel_left chars)

theorem auth_not_companion (dir : ProtectedDir) (routeId kind : String) : middlewareName routeId kind ≠ authName dir := by
  intro same
  have chars := congrArg String.toList same
  simp [middlewareName, authName] at chars

/-- The directories that have a route of their own have names of their own for its middleware. -/
def Told (db : Db) (s : Surroundings) (dir : ProtectedDir) : Prop :=
  ∀ entry ∈ served s (tenantRoutes db), ∀ d ∈ usedDirs db entry.1.id, authName d = authName dir → d = dir

theorem middleware_stored (b : Built db s middlewares secrets p) (told : Told db s dir)
    (mem : entry ∈ served s (tenantRoutes db)) (used : dir ∈ usedDirs db entry.1.id) :
    p.middlewares (authName dir) = some (authMiddleware dir).spec := by
  have spec (t : String → Option MiddlewareSpec) (m : Middleware) (listed : m ∈ ((served s (tenantRoutes db)).map
        (fun entry => buildRouteSpec db s p.namespace_ entry.1 entry.2)).flatMap RouteSpec.middlewares)
      (named : m.name = authName dir) : applyMiddleware t m (authName dir) = some (authMiddleware dir).spec := by
    obtain ⟨_, inSpecs, listed⟩ := mem_flatMap.mp listed
    obtain ⟨e, there, rfl⟩ := mem_map.mp inSpecs
    rcases mem_append.mp listed with companion | auth
    · simp only [map_map, mem_map] at companion
      obtain ⟨kind, _, rfl⟩ := companion
      exact absurd named (auth_not_companion dir e.1.id kind)
    · obtain ⟨d, its, rfl⟩ := mem_map.mp auth
      rw [told e there d its named]
      exact Function.update_self _ _ _
  rw [b.middlewares]
  refine foldl_stores (fun m => m.name = authName dir) ?_ spec middlewares (.inr ?_)
  · intro t m listed there
    by_cases named : m.name = authName dir
    · exact spec t m listed named
    · rw [applyMiddleware, Function.update_of_ne (Ne.symm named)]
      exact there
  · refine ⟨authMiddleware dir, ?_, rfl⟩
    refine mem_flatMap.mpr ⟨_, mem_map_of_mem mem, ?_⟩
    exact mem_append_right _ (mem_map_of_mem used)

theorem secret_stored (b : Built db s middlewares secrets p) (mem : entry ∈ served s (tenantRoutes db))
    (used : dir ∈ usedDirs db entry.1.id) : p.secrets (secretName dir.id) = some (htpasswd (enabledUsers db dir)) := by
  obtain ⟨enabled, users⟩ := mem_filter.mp used
  have users : enabledUsers db dir ≠ [] := of_decide_eq_true users
  have known := (mem_filter.mp enabled).1
  have dirs (t : Secrets) (id : String) (there : t (secretName dir.id) = some (htpasswd (enabledUsers db dir)) ∨
      ∃ d ∈ enabledDirs db id, d = dir) :
      (enabledDirs db id).foldl (syncDir db) t (secretName dir.id) = some (htpasswd (enabledUsers db dir)) := by
    have put (t : Secrets) : syncDir db t dir (secretName dir.id) = some (htpasswd (enabledUsers db dir)) := by
      rw [syncDir, Function.update_self, if_neg users]
    refine foldl_stores (fun d => d = dir) ?_ ?_ t there
    · intro t d listed before
      by_cases same : d.id = dir.id
      · have := inj_on_of_nodup_map db.keyed (mem_filter.mp listed).1 known same
        exact this ▸ put t
      · rw [syncDir, Function.update_of_ne (fun eq => same (secretName_inj eq).symm)]
        exact before
    · rintro t d _ rfl
      exact put t
  have route (t : Secrets) (e : RouteRow × (String × Nat)) (there : e ∈ served s (tenantRoutes db))
      (before : t (secretName dir.id) = some (htpasswd (enabledUsers db dir)) ∨ ∃ d ∈ enabledDirs db e.1.id, d = dir) :
      syncAuthSecret db t e.1.id (secretName dir.id) = some (htpasswd (enabledUsers db dir)) := by
    have row := (mem_filter.mp (mem_served.mp there).1).1
    rw [syncAuthSecret, Function.update_of_ne]
    · exact dirs t e.1.id before
    · intro eq
      exact db.apart e.1 row dir known (secretName_inj eq).symm
  rw [b.secrets]
  refine foldl_stores (fun e => dir ∈ enabledDirs db e.1.id) ?_ ?_ secrets (.inr ⟨entry, mem, enabled⟩)
  · exact fun t e there before => route t e there (.inl before)
  · exact fun t e there its => route t e there (.inr ⟨dir, its, rfl⟩)

/-- A request below a directory with users, on the stored hostname of its route, where no other such
directory, no long rule and no line break within an entry comes in between. -/
structure Ordinary (accepts : Accepts) (db : Db) (s : Surroundings) (route : RouteRow) (dir : ProtectedDir)
    (request : Request) : Prop where
  stored : request.host = route.hostname
  below : dir.path.toList <+: request.path.toList
  used : enabledUsers db dir ≠ []
  lines : OnLines (enabledUsers db dir)
  told : Told db s dir
  plain : ∀ entry ∈ served s (updatedRoutes db), ∀ d ∈ usedDirs db entry.1.id, tick ∉ d.path.toList
  alone : ∀ entry ∈ served s (updatedRoutes db), entry.1.hostname = request.host →
    ∀ d ∈ usedDirs db entry.1.id, d.path.toList <+: request.path.toList → d = dir
  short : ∀ entry ∈ served s (updatedRoutes db), ∀ rule ∈ primaryRule entry.1,
    accepts rule request = true → rule.utf8ByteSize < 100

/-- A request that reaches a route below one of its directories has been asked for the password of a
user of the directory. -/
theorem directories_guarded {accepts : Accepts} (documented : Documented accepts) {db : Db} {s : Surroundings}
    {middlewares : String → Option MiddlewareSpec} {secrets : Secrets} {p : Published}
    (done : reconcileIngress db s middlewares secrets = some p) {route : RouteRow} {service : String × Nat}
    (routed : route ∈ updatedRoutes db) (backed : s.backend route = some service) {dir : ProtectedDir}
    (its : dir ∈ db.routeProtectedDirs) (of_route : dir.routeId = route.id) (enabled : dir.enabled = true)
    {request : Request} (ordinary : Ordinary accepts db s route dir request) {w : TraefikRoute}
    (wins : Wins accepts p.routes request w) : Guarded db p dir w := by
  have b := built done
  have entry : (route, service) ∈ served s (updatedRoutes db) := mem_served.mpr ⟨routed, backed⟩
  have listed : dir ∈ usedDirs db route.id := by
    refine mem_filter.mpr ⟨mem_filter.mpr ⟨its, ?_⟩, decide_eq_true ordinary.used⟩
    rw [of_route, enabled, beq_self_eq_true]
    rfl
  obtain ⟨mem, accepted, greatest⟩ := wins
  -- the route of the directory itself accepts the request, so that the winner has its priority
  have least : 100 ≤ rank w := by
    obtain ⟨group, made⟩ := b.each _ entry
    have child := (group_cases made _).mpr (.inr ⟨dir, listed, rfl⟩)
    refine greatest _ ((b.routes _).mpr ⟨_, entry, group, made, child⟩) ?_
    exact (documented.path _ _ (hostname_plain made) (ordinary.plain _ entry dir listed) request).mpr
      ⟨ordinary.stored, ordinary.below⟩
  have users : AdmitsOnly (enabledUsers db dir) (p.secrets (secretName dir.id)) := by
    rw [secret_stored b (updated_served entry) listed]
    exact htpasswd_admits ordinary.used ordinary.lines
  obtain ⟨e, there, group, made, inGroup⟩ := (b.routes w).mp mem
  rcases (group_cases made w).mp inGroup with ⟨rule, isRule, rfl⟩ | ⟨d, its, rfl⟩
  · have short := ordinary.short e there rule isRule accepted
    exact absurd least (Nat.not_le_of_lt short)
  have meets := (documented.path _ _ (hostname_plain made) (ordinary.plain e there d its) request).mp accepted
  cases ordinary.alone e there meets.1.symm d its meets.2
  refine ⟨⟨⟨authName dir, p.namespace_⟩, ?_, rfl, ?_⟩, users⟩
  · exact mem_append_right _ (mem_singleton.mpr rfl)
  · exact middleware_stored b ordinary.told (updated_served there) its

def ruleAccepts : Accepts := fun rule r =>
  !r.host.toList.contains tick && (rule == hostRule r.host ||
    r.path.toList.inits.any (fun p => !p.contains tick && rule == pathRule r.host (String.ofList p)))

theorem hostRule_parts (plain : tick ∉ hostname.toList) :
    (hostRule hostname).toList.splitOn tick = ["Host(".toList, hostname.toList, ")".toList] := by
  have whole : (hostRule hostname).toList = "Host(".toList ++ tick :: (hostname.toList ++ tick :: ")".toList) := by
    simp [hostRule, tick]
  rw [whole, splitOn_append_cons_self, splitOn_append_cons_self, splitOn_eq_singleton plain]
  rfl

theorem pathRule_parts {path : String} (plain : tick ∉ hostname.toList) (plain' : tick ∉ path.toList) :
    (pathRule hostname path).toList.splitOn tick =
      ["Host(".toList, hostname.toList, ") && PathPrefix(".toList, path.toList, ")".toList] := by
  have whole : (pathRule hostname path).toList = "Host(".toList ++ tick :: (hostname.toList ++ tick ::
        (") && PathPrefix(".toList ++ tick :: (path.toList ++ tick :: ")".toList))) := by
    simp [pathRule, hostRule, tick]
  rw [whole, splitOn_append_cons_self, splitOn_append_cons_self, splitOn_append_cons_self,
    splitOn_append_cons_self, splitOn_eq_singleton plain, splitOn_eq_singleton plain']
  rfl

theorem ruleAccepts_documented : Documented ruleAccepts where
  host := by
    intro hostname plain r
    simp only [ruleAccepts, Bool.and_eq_true, Bool.or_eq_true, Bool.not_eq_true', contains_eq_mem,
      decide_eq_false_iff_not, beq_iff_eq, any_eq_true]
    constructor
    · rintro ⟨plainHost, same | ⟨p, _, plainPath, same⟩⟩
      · have parts := congrArg (fun t => t.toList.splitOn tick) same
        simp only [hostRule_parts plain, hostRule_parts plainHost, cons.injEq, and_true, true_and] at parts
        exact String.toList_injective parts.symm
      · have parts := congrArg (fun t => t.toList.splitOn tick) same
        simp only [hostRule_parts plain] at parts
        rw [pathRule_parts plainHost (by simpa using plainPath)] at parts
        simp at parts
    · rintro rfl
      exact ⟨plain, .inl rfl⟩
  path := by
    intro hostname path plain plainPath r
    simp only [ruleAccepts, Bool.and_eq_true, Bool.or_eq_true, Bool.not_eq_true', contains_eq_mem,
      decide_eq_false_iff_not, beq_iff_eq, any_eq_true]
    constructor
    · rintro ⟨plainHost, same | ⟨p, isInit, plainInit, same⟩⟩
      · have parts := congrArg (fun t => t.toList.splitOn tick) same
        simp only [hostRule_parts plainHost, pathRule_parts plain plainPath] at parts
        simp at parts
      have parts := congrArg (fun t => t.toList.splitOn tick) same
      simp only [pathRule_parts plain plainPath] at parts
      rw [pathRule_parts plainHost (by simpa using plainInit)] at parts
      simp only [String.toList_ofList, cons.injEq, and_true, true_and] at parts
      obtain ⟨sameHost, samePath⟩ := parts
      exact ⟨String.toList_injective sameHost.symm, samePath ▸ (mem_inits p _).mp isInit⟩
    · rintro ⟨rfl, below⟩
      refine ⟨plain, .inr ⟨path.toList, (mem_inits _ _).mpr below, by simpa using plainPath, ?_⟩⟩
      rw [String.ofList_toList]

instance (routes : List TraefikRoute) (request : Request) (w : TraefikRoute) :
    Decidable (Wins ruleAccepts routes request w) := inferInstanceAs (Decidable (_ ∧ _ ∧ _))

def shopRoute (path : String) (wwwRedirect : WwwRedirect) : RouteRow :=
  ⟨"0f4c8e1a-shop", "domain", "shop.example", path, wwwRedirect, .active, some "deployment", none, none⟩

def directory (id path : String) : ProtectedDir := ⟨id, "0f4c8e1a-shop", path, "Restricted", true⟩

def admin : ProtectedDir := directory "7d21b0c3-admin" "/admin"

def user (dir : ProtectedDir) (username : String) : AuthUser := ⟨dir.id, username, "$2b$10$x", true⟩

def shop (route : RouteRow) (dirs : List ProtectedDir) (users : List AuthUser)
    (keyed : (dirs.map ProtectedDir.id).Nodup) (apart : ∀ r ∈ [route], ∀ dir ∈ dirs, r.id ≠ dir.id) : Db where
  kubernetesNamespace := some "tenant-shop"
  domains := [⟨"domain", false⟩]
  ingressRoutes := [route]
  routeProtectedDirs := dirs
  routeAuthUsers := users
  keyed := keyed
  apart := apart

def shopSite : Surroundings := ⟨fun _ => some ("shop", 80), fun _ => ["headers"]⟩

def nothing {V : Type} : String → Option V := fun _ => none

def guardedShop : Db :=
  shop (shopRoute "/" .none) [admin, directory "94be55f7-stock" "/stock"]
    [user admin "alice", user (directory "94be55f7-stock" "/stock") "bob"] (by decide) (by decide)

theorem admin_guarded : ∃ p w, reconcileIngress guardedShop shopSite nothing nothing = some p ∧
    Wins ruleAccepts p.routes ⟨"shop.example", "/admin/orders"⟩ w ∧ w.service = ("shop", 80) ∧
      Guarded guardedShop p admin w := by
  have there : (reconcileIngress guardedShop shopSite nothing nothing).isSome = true := by decide +kernel
  obtain ⟨p, done⟩ := Option.isSome_iff_exists.mp there
  have wins : Wins ruleAccepts p.routes ⟨"shop.example", "/admin/orders"⟩
      (childRoute "shop.example" "tenant-shop" ("shop", 80)
        [⟨"crowdsec", "traefik"⟩, ⟨"r-0f4c8e1a-headers", "tenant-shop"⟩] admin) := by
    have routes : (reconcileIngress guardedShop shopSite nothing nothing).map (fun p =>
        decide (Wins ruleAccepts p.routes ⟨"shop.example", "/admin/orders"⟩
          (childRoute "shop.example" "tenant-shop" ("shop", 80)
            [⟨"crowdsec", "traefik"⟩, ⟨"r-0f4c8e1a-headers", "tenant-shop"⟩] admin))) = some true := by
      decide +kernel
    rw [done] at routes
    exact of_decide_eq_true (Option.some.inj routes)
  refine ⟨p, _, done, wins, rfl, ?_⟩
  have routed : shopRoute "/" .none ∈ updatedRoutes guardedShop := by decide +kernel
  refine directories_guarded ruleAccepts_documented done routed rfl (by decide) rfl rfl ?_ wins
  refine ⟨rfl, by decide, by decide +kernel, ?_, ?_, by decide +kernel, by decide +kernel, by decide +kernel⟩
  · unfold OnLines
    decide +kernel
  · unfold Told
    decide +kernel

/-- A request below the directory goes to the backend without the middleware of the directory. -/
def Passes (db : Db) (dir : ProtectedDir) (request : Request) : Prop :=
  ∃ p w, reconcileIngress db shopSite nothing nothing = some p ∧ Wins ruleAccepts p.routes request w ∧
    w.service = ("shop", 80) ∧ dir ∈ enabledDirs db "0f4c8e1a-shop" ∧ dir.path.toList <+: request.path.toList ∧
      ¬ Guarded db p dir w

def passes (db : Db) (dir : ProtectedDir) (request : Request) : Bool :=
  (reconcileIngress db shopSite nothing nothing).any (fun p =>
    p.routes.any (fun w => decide (Wins ruleAccepts p.routes request w ∧ w.service = ("shop", 80) ∧
      dir ∈ enabledDirs db "0f4c8e1a-shop" ∧ dir.path.toList <+: request.path.toList) &&
        w.middlewares.all (fun ref => p.middlewares ref.name != some (authMiddleware dir).spec)))

theorem passes_sound {request : Request} (found : passes db dir request = true) : Passes db dir request := by
  unfold passes at found
  cases done : reconcileIngress db shopSite nothing nothing with
  | none =>
    rw [done] at found
    contradiction
  | some p =>
    rw [done] at found
    obtain ⟨w, _, found⟩ := any_eq_true.mp found
    obtain ⟨found, bare⟩ := Bool.and_eq_true_iff.mp found
    obtain ⟨wins, service, its, below⟩ := of_decide_eq_true found
    refine ⟨p, w, done, wins, service, its, below, ?_⟩
    rintro ⟨⟨ref, mem, _, stored⟩, _⟩
    have other := all_eq_true.mp bare ref mem
    rw [stored] at other
    simp at other

def deep : ProtectedDir := directory "94be55f7-deep" "/admin/deep"

def twin : ProtectedDir := directory "7d21b0c3-twin" "/twin"

/-- A directory without users is open; and so is one of users on the other hostname of a redirect, below a
route with a long path, above another directory, beside one whose id starts with the same eight characters;
and a name of two lines lets in whoever it spells out. -/
theorem directories_open :
    Passes (shop (shopRoute "/" .none) [admin] [] (by decide) (by decide)) admin ⟨"shop.example", "/admin/orders"⟩ ∧
      Passes (shop (shopRoute "/" .addWww) [admin] [user admin "alice"] (by decide) (by decide)) admin
        ⟨"www.shop.example", "/admin/orders"⟩ ∧
      Passes (shop (shopRoute ("/admin/reports/of/all/the/branches/in/the/north/and/in/the/south/by/year") .none)
        [admin] [user admin "alice"] (by decide) (by decide)) admin
        ⟨"shop.example", "/admin/reports/of/all/the/branches/in/the/north/and/in/the/south/by/year/2024"⟩ ∧
      Passes (shop (shopRoute "/" .none) [admin, deep] [user admin "alice", user deep "bob"] (by decide) (by decide))
        admin ⟨"shop.example", "/admin/deep/orders"⟩ ∧
      Passes (shop (shopRoute "/" .none) [admin, twin] [user admin "alice", user twin "bob"] (by decide) (by decide))
        admin ⟨"shop.example", "/admin/orders"⟩ ∧
      ¬ AdmitsOnly [user admin "eve:hash\nalice"] (some (htpasswd [user admin "eve:hash\nalice"])) := by
  refine ⟨passes_sound (by decide +kernel), passes_sound (by decide +kernel), passes_sound (by decide +kernel),
    passes_sound (by decide +kernel), passes_sound (by decide +kernel), ?_⟩
  intro admits
  obtain ⟨u, mem, same⟩ := admits _ rfl [("eve", "hash"), ("alice", "$2b$10$x")] (by decide +kernel) ("eve", "hash")
    (by decide)
  rw [mem_singleton] at mem
  rw [mem] at same
  exact absurd same (by decide)

end HostingPlatform.ProtectedDirs
