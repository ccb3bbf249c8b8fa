import HostingPlatform.Table
import HostingPlatform.Transition

/-! The sessions that the SFTP gateway counts. A channel of an SSH connection registers one session and
gives it up when its handler returns; an FTPS connection registers one at each login and gives up the one
whose id it has kept when it ends. -/
namespace HostingPlatform.Sftp.Accounting

open Option Table List Transition

inductive Owner where
  | channel (id : Nat)
  | connection (id : Nat)
  deriving DecidableEq

/-- For the record: `owner` is the channel or connection that has registered the session. -/
structure Session where
  id : Nat
  username : String
  maxConcurrentSessions : Int
  owner : Owner
  deriving DecidableEq

/- a user that byUser has no entry for counts 0 -/
structure SessionManager where
  sessions : Table Session Session.id
  byUser : String → Int
  (total maxTotal : Int)

def NewSessionManager (maxTotal : Int) : SessionManager := ⟨Table.empty, fun _ => 0, 0, maxTotal⟩

def perUserMax (sess : Session) : Int :=
  if sess.maxConcurrentSessions ≤ 0 then 3 else sess.maxConcurrentSessions

def setCount (byUser : String → Int) (username : String) (count : Int) : String → Int :=
  fun u => if u = username then count else byUser u

def register (m : SessionManager) (sess : Session) : Option SessionManager :=
  if m.total ≥ m.maxTotal then none
  else if m.byUser sess.username ≥ perUserMax sess then none
  else
    some { m with
      sessions := m.sessions.put sess
      byUser := setCount m.byUser sess.username (m.byUser sess.username + 1)
      total := m.total + 1 }

def unregister (m : SessionManager) (id : Nat) (username : String) : SessionManager :=
  match m.sessions.select (fun s => s.id == id) with
  | none => m
  | some _ =>
    let left := m.byUser username - 1
    { m with
      sessions := m.sessions.delete (fun s => s.id == id)
      byUser := setCount m.byUser username (if left ≤ 0 then 0 else left)
      total := m.total - 1 }

/- what HandleSession is about to do -/
inductive Phase where
  | resolveFileManagerPod | buildCommand | execAndPipe
  deriving DecidableEq

structure Channel where
  id : Nat
  session : Session
  phase : Phase

/- `data` has ftps_session_id and ftps_username; `entering` is registered and not stored there yet -/
structure Connection where
  id : Nat
  data : Option (Nat × String)
  entering : Option Session
  deriving DecidableEq

/-- For the record: `admitted` has the session of each user that was registered last. -/
structure Gateway where
  manager : SessionManager
  channels : Table Channel Channel.id
  connections : Table Connection Connection.id
  drawn : Nat
  admitted : String → Option Session

def Gateway.start (maxTotal : Int) : Gateway :=
  ⟨NewSessionManager maxTotal, Table.empty, Table.empty, 0, fun _ => none⟩

/-- A channel opens; the next statement of its handler succeeds or fails; an FTPS connection opens, sends
PASS (with what the backend says of it), stores the session that it has registered, and ends. -/
inductive Action where
  | openChannel (id : Nat) (username : String) (maxConcurrentSessions : Int)
  | handle (id : Nat) (ok : Bool)
  | connect (id : Nat)
  | checkPasswd (id : Nat) (username : String) (maxConcurrentSessions : Option Int)
  | store (id : Nat)
  | beforeLogout (id : Nat)

def Gateway.letIn (g : Gateway) (manager : SessionManager) (sess : Session) : Gateway :=
  { g with
    manager
    admitted := fun u => if u = sess.username then some sess else g.admitted u }

def openChannel (g : Gateway) (id : Nat) (username : String) (maxConcurrentSessions : Int) :
    Option Gateway :=
  let drawn := { g with drawn := g.drawn + 1 }
  let sess : Session := ⟨g.drawn, username, maxConcurrentSessions, .channel id⟩
  match g.channels.insert ⟨id, sess, .resolveFileManagerPod⟩ with
  | none => none
  | some channels =>
    match register g.manager sess with
    | none => some drawn
    | some manager => some { drawn.letIn manager sess with channels }

/- the handler returns, and its deferred statement runs -/
def closeChannel (g : Gateway) (c : Channel) : Gateway :=
  { g with
    manager := unregister g.manager c.session.id c.session.username
    channels := g.channels.delete (fun c' => c'.id == c.id) }

def enter (phase : Phase) (c : Channel) : Channel := { c with phase }

def handle (g : Gateway) (id : Nat) (ok : Bool) : Option Gateway :=
  (g.channels.select (fun c => c.id == id)).map fun c =>
    let go (phase : Phase) : Gateway :=
      { g with channels := g.channels.update (fun c' => c'.id == id) (enter phase) (fun _ => rfl) }
    match c.phase, ok with
    | .resolveFileManagerPod, true => go .buildCommand
    | .buildCommand, true => go .execAndPipe
    | _, _ => closeChannel g c

def setEntering (sess : Session) (k : Connection) : Connection := { k with entering := some sess }

theorem setEntering_id (sess : Session) (k : Connection) : (setEntering sess k).id = k.id := rfl

/- nothing is waiting to be stored: the commands of a connection come one after the other -/
def checkPasswd (g : Gateway) (id : Nat) (username : String) (maxConcurrentSessions : Option Int) :
    Option Gateway :=
  match g.connections.select (fun k => k.id == id && k.entering.isNone), maxConcurrentSessions with
  | none, _ => none
  | some _, none => some g
  | some _, some limit =>
    let drawn := { g with drawn := g.drawn + 1 }
    let sess : Session := ⟨g.drawn, username, limit, .connection id⟩
    match register g.manager sess with
    | none => some drawn
    | some manager =>
      some { drawn.letIn manager sess with
        connections := g.connections.update (fun k => k.id == id) (setEntering sess) (setEntering_id sess) }

def storeData (k : Connection) : Connection :=
  match k.entering with
  | none => k
  | some sess => { k with data := some (sess.id, sess.username), entering := none }

theorem storeData_id (k : Connection) : (storeData k).id = k.id := by
  unfold storeData
  split <;> rfl

def beforeLogout (g : Gateway) (id : Nat) : Option Gateway :=
  (g.connections.select (fun k => k.id == id && k.entering.isNone)).map fun k =>
    { g with
      manager := k.data.elim g.manager (fun kept => unregister g.manager kept.1 kept.2)
      connections := g.connections.delete (fun k' => k'.id == id) }

def step (g : Gateway) : Action → Option Gateway
  | .openChannel id username limit => openChannel g id username limit
  | .handle id ok => handle g id ok
  | .connect id => (g.connections.insert ⟨id, none, none⟩).map (fun connections => { g with connections })
  | .checkPasswd id username result => checkPasswd g id username result
  | .store id =>
    some { g with connections := g.connections.update (fun k => k.id == id) storeData storeData_id }
  | .beforeLogout id => beforeLogout g id

def ofUser (username : String) (s : Session) : Bool := s.username == username

def registered (m : SessionManager) (username : String) : Nat :=
  (m.sessions.selectAll (ofUser username)).length

def Open (g : Gateway) : Owner → Prop
  | .channel id => ∃ c ∈ g.channels.rows, c.id = id
  | .connection id => ∃ k ∈ g.connections.rows, k.id = id

structure Accounted (g : Gateway) : Prop where
  total : g.manager.total = g.manager.sessions.rows.length
  byUser : ∀ u, g.manager.byUser u = registered g.manager u
  perUser : ∀ u s, g.admitted u = some s → registered g.manager u ≤ perUserMax s
  maxTotal : g.manager.total ≤ g.manager.maxTotal
  owned : ∀ s ∈ g.manager.sessions, Open g s.owner

def SingleLogin (g : Gateway) : Action → Prop
  | .checkPasswd id username (some limit) =>
    ∀ k ∈ g.connections.rows, k.id = id → k.data.isSome = true →
      register g.manager ⟨g.drawn, username, limit, .connection id⟩ = none
  | _ => True

instance (g : Gateway) (action : Action) : Decidable (SingleLogin g action) := by
  unfold SingleLogin
  split <;> infer_instance

structure Balanced (m : SessionManager) : Prop where
  total : m.total = m.sessions.rows.length
  byUser : ∀ u, m.byUser u = registered m u

theorem rows_length (t : Table Session Session.id) : t.rows.length = (t.selectAll (fun _ => true)).length := by
  simp [selectAll]

section

variable {m m' : SessionManager} {sess : Session}

theorem register_eq (admitted : register m sess = some m') :
    m.total < m.maxTotal ∧ m.byUser sess.username < perUserMax sess ∧
      m' = { m with
        sessions := m.sessions.put sess
        byUser := setCount m.byUser sess.username (m.byUser sess.username + 1)
        total := m.total + 1 } := by
  unfold register at admitted
  split at admitted
  · contradiction
  rename_i room
  split at admitted
  · contradiction
  · rename_i own
    exact ⟨Int.not_le.mp room, Int.not_le.mp own, (some.inj admitted).symm⟩

theorem registered_register (fresh : ∀ s ∈ m.sessions, s.id ≠ sess.id)
    (admitted : register m sess = some m') (u : String) : registered m' u = registered m u + (ofUser u sess).toNat := by
  obtain ⟨_, _, rfl⟩ := register_eq admitted
  exact length_selectAll_put fresh

theorem register_balanced (balanced : Balanced m)
    (fresh : ∀ s ∈ m.sessions, s.id ≠ sess.id) (admitted : register m sess = some m') : Balanced m' where
  total := by
    have before := balanced.total
    have grown := @length_selectAll_put _ _ m.sessions (fun _ => true) sess fresh
    rw [← rows_length, ← rows_length, Bool.toNat_true] at grown
    obtain ⟨_, _, rfl⟩ := register_eq admitted
    show m.total + 1 = ((m.sessions.put sess).rows.length : Int)
    omega
  byUser := by
    intro u
    have before := balanced.byUser u
    have grown := registered_register fresh admitted u
    have count : m'.byUser u = setCount m.byUser sess.username (m.byUser sess.username + 1) u := by
      obtain ⟨_, _, rfl⟩ := register_eq admitted
      rfl
    rw [count, setCount]
    by_cases same : u = sess.username
    · subst same
      have counts : ofUser sess.username sess = true := by simp [ofUser]
      rw [counts, Bool.toNat_true] at grown
      rw [if_pos rfl]
      omega
    · have differs : ofUser u sess = false := by simpa [ofUser] using Ne.symm same
      rw [differs, Bool.toNat_false] at grown
      rw [if_neg same]
      omega

end

theorem unregister_eq {m : SessionManager} {s : Session} (mem : s ∈ m.sessions) :
    unregister m s.id s.username = { m with
      sessions := m.sessions.delete (fun x => x.id == s.id)
      byUser := setCount m.byUser s.username
        (if m.byUser s.username - 1 ≤ 0 then 0 else m.byUser s.username - 1)
      total := m.total - 1 } := by
  rw [unregister, select_key mem]

theorem registered_unregister {m : SessionManager} {s : Session} (mem : s ∈ m.sessions) (u : String) :
    registered (unregister m s.id s.username) u + (ofUser u s).toNat = registered m u := by
  rw [unregister_eq mem]
  exact length_selectAll_delete_key mem

theorem unregister_balanced {m : SessionManager} {s : Session} (balanced : Balanced m)
    (mem : s ∈ m.sessions) : Balanced (unregister m s.id s.username) where
  total := by
    have before := balanced.total
    have shrunk := @length_selectAll_delete_key _ _ m.sessions (fun _ => true) s mem
    rw [← rows_length, ← rows_length, Bool.toNat_true] at shrunk
    rw [unregister_eq mem]
    show m.total - 1 = ((m.sessions.delete (fun x => x.id == s.id)).rows.length : Int)
    omega
  byUser := by
    intro u
    have before := balanced.byUser u
    have shrunk := registered_unregister mem u
    have count : (unregister m s.id s.username).byUser u = setCount m.byUser s.username
        (if m.byUser s.username - 1 ≤ 0 then 0 else m.byUser s.username - 1) u := by
      rw [unregister_eq mem]
    rw [count, setCount]
    by_cases same : u = s.username
    · subst same
      have counts : ofUser s.username s = true := by simp [ofUser]
      rw [counts, Bool.toNat_true] at shrunk
      rw [if_pos rfl]
      split <;> omega
    · have differs : ofUser u s = false := by simpa [ofUser] using Ne.symm same
      rw [differs, Bool.toNat_false] at shrunk
      rw [if_neg same]
      omega

structure Kept (g : Gateway) : Prop where
  balanced : Balanced g.manager
  perUser : ∀ u s, g.admitted u = some s → registered g.manager u ≤ perUserMax s
  maxTotal : g.manager.total ≤ g.manager.maxTotal
  drawn : ∀ s ∈ g.manager.sessions, s.id < g.drawn
  channels : ∀ c ∈ g.channels, c.session ∈ g.manager.sessions ∧ c.session.owner = .channel c.id
  entering : ∀ k ∈ g.connections, ∀ s, k.entering = some s →
    s ∈ g.manager.sessions ∧ s.owner = .connection k.id ∧ k.data = none
  data : ∀ k ∈ g.connections, ∀ id u, k.data = some (id, u) →
    ∃ s ∈ g.manager.sessions, s.id = id ∧ s.username = u ∧ s.owner = .connection k.id
  held : ∀ s ∈ g.manager.sessions, (∃ c ∈ g.channels, c.session = s) ∨
    ∃ k ∈ g.connections, k.entering = some s ∨ k.data = some (s.id, s.username)

theorem kept_accounted {g : Gateway} (kept : Kept g) : Accounted g where
  total := kept.balanced.total
  byUser := kept.balanced.byUser
  perUser := kept.perUser
  maxTotal := kept.maxTotal
  owned := by
    intro s mem
    rcases kept.held s mem with ⟨c, there, rfl⟩ | ⟨k, there, entering | data⟩
    · rw [(kept.channels c there).2]
      exact ⟨c, there, rfl⟩
    · rw [(kept.entering k there s entering).2.1]
      exact ⟨k, there, rfl⟩
    obtain ⟨s', mem', same, _, owner⟩ := kept.data k there s.id s.username data
    rw [g.manager.sessions.eq_of_key mem' mem same] at owner
    rw [owner]
    exact ⟨k, there, rfl⟩

theorem perUser_admit {g : Gateway} (kept : Kept g) {m' : SessionManager} {sess : Session}
    (fresh : ∀ s ∈ g.manager.sessions, s.id ≠ sess.id) (admitted : register g.manager sess = some m') :
    ∀ u s, (g.letIn m' sess).admitted u = some s → registered m' u ≤ perUserMax s := by
  intro u s last
  have grown := registered_register fresh admitted u
  have room := (register_eq admitted).2.1
  have before := kept.balanced.byUser sess.username
  simp only [Gateway.letIn] at last
  split at last
  · rename_i same
    subst same
    cases last
    have counts : ofUser sess.username sess = true := by simp [ofUser]
    rw [counts, Bool.toNat_true] at grown
    omega
  · rename_i other
    have differs : ofUser u sess = false := by simpa [ofUser] using Ne.symm other
    rw [differs, Bool.toNat_false] at grown
    have others := kept.perUser u s last
    omega

theorem mem_register {m m' : SessionManager} {sess s : Session} (fresh : ∀ s ∈ m.sessions, s.id ≠ sess.id)
    (admitted : register m sess = some m') : s ∈ m'.sessions ↔ s = sess ∨ s ∈ m.sessions := by
  obtain ⟨_, _, rfl⟩ := register_eq admitted
  rw [mem_put]
  constructor
  · exact Or.imp id And.left
  · exact Or.imp id (fun mem => ⟨mem, fresh s mem⟩)

theorem mem_unregister {m : SessionManager} {sess s : Session} (mem : sess ∈ m.sessions) :
    s ∈ (unregister m sess.id sess.username).sessions ↔ s ∈ m.sessions ∧ s ≠ sess := by
  rw [unregister_eq mem, mem_delete]
  refine and_congr_right fun there => ?_
  rw [beq_eq_false_iff_ne]
  exact not_congr ⟨fun same => m.sessions.eq_of_key there mem same, fun same => congrArg Session.id same⟩

theorem totals_register {m m' : SessionManager} {sess : Session} (admitted : register m sess = some m') :
    m'.total ≤ m'.maxTotal := by
  obtain ⟨room, _, rfl⟩ := register_eq admitted
  show m.total + 1 ≤ m.maxTotal
  omega

/- a session that is given up leaves room -/
structure Gone (g : Gateway) (sess : Session) (m' : SessionManager) : Prop where
  balanced : Balanced m'
  perUser : ∀ u s, g.admitted u = some s → registered m' u ≤ perUserMax s
  maxTotal : m'.total ≤ m'.maxTotal
  sessions : ∀ s, s ∈ m'.sessions ↔ s ∈ g.manager.sessions ∧ s ≠ sess

theorem gone_unregister {g : Gateway} (kept : Kept g) {sess : Session} (mem : sess ∈ g.manager.sessions) :
    Gone g sess (unregister g.manager sess.id sess.username) where
  balanced := unregister_balanced kept.balanced mem
  perUser := by
    intro u s last
    have shrunk := registered_unregister mem u
    have before := kept.perUser u s last
    omega
  maxTotal := by
    have before := kept.maxTotal
    rw [unregister_eq mem]
    show g.manager.total - 1 ≤ g.manager.maxTotal
    omega
  sessions := fun s => mem_unregister mem

theorem kept_start {maxTotal : Int} (cap : 0 ≤ maxTotal) : Kept (Gateway.start maxTotal) where
  balanced := ⟨rfl, fun _ => rfl⟩
  perUser := by
    intro u s admitted
    cases admitted
  maxTotal := cap
  drawn s mem := absurd mem not_mem_nil
  channels c mem := absurd mem not_mem_nil
  entering k mem := absurd mem not_mem_nil
  data k mem := absurd mem not_mem_nil
  held s mem := absurd mem not_mem_nil

theorem openChannel_kept {g g' : Gateway} (kept : Kept g) {id : Nat} {username : String} {limit : Int}
    (opened : openChannel g id username limit = some g') : Kept g' := by
  unfold openChannel at opened
  dsimp only at opened
  split at opened
  · contradiction
  rename_i channels inserted
  have fresh : ∀ s ∈ g.manager.sessions, s.id ≠ g.drawn := fun s mem same =>
    Nat.lt_irrefl _ (same ▸ kept.drawn s mem)
  split at opened <;> cases opened
  · exact {
      kept with
      drawn := fun s mem => Nat.lt_succ_of_lt (kept.drawn s mem) }
  rename_i m' admitted
  have sessions := fun s => @mem_register _ _ _ s fresh admitted
  exact {
    balanced := register_balanced kept.balanced fresh admitted
    perUser := perUser_admit kept fresh admitted
    maxTotal := totals_register admitted
    drawn := by
      intro s mem
      rcases (sessions s).mp mem with rfl | old
      · exact Nat.lt_succ_self _
      · exact Nat.lt_succ_of_lt (kept.drawn s old)
    channels := by
      intro c mem
      rcases (mem_insert inserted).mp mem with rfl | old
      · exact ⟨(sessions _).mpr (.inl rfl), rfl⟩
      · exact ⟨(sessions _).mpr (.inr (kept.channels c old).1), (kept.channels c old).2⟩
    entering := by
      intro k mem s entering
      obtain ⟨there, owner, none⟩ := kept.entering k mem s entering
      exact ⟨(sessions s).mpr (.inr there), owner, none⟩
    data := by
      intro k mem id u data
      obtain ⟨s, there, same⟩ := kept.data k mem id u data
      exact ⟨s, (sessions s).mpr (.inr there), same⟩
    held := by
      intro s mem
      rcases (sessions s).mp mem with rfl | old
      · exact .inl ⟨_, (mem_insert inserted).mpr (.inl rfl), rfl⟩
      refine (kept.held s old).imp ?_ (fun its => its)
      rintro ⟨c, there, same⟩
      exact ⟨c, (mem_insert inserted).mpr (.inr there), same⟩ }

theorem closeChannel_kept {g : Gateway} (kept : Kept g) {c : Channel} (mem : c ∈ g.channels) :
    Kept (closeChannel g c) := by
  obtain ⟨registered, owner⟩ := kept.channels c mem
  have gone := gone_unregister kept registered
  have other (k : Connection) (s : Session) (its : s.owner = .connection k.id) : s ≠ c.session := by
    rintro rfl
    rw [owner] at its
    contradiction
  exact {
    balanced := gone.balanced
    perUser := gone.perUser
    maxTotal := gone.maxTotal
    drawn := fun s there => kept.drawn s ((gone.sessions s).mp there).1
    channels := by
      intro c' there
      obtain ⟨old, differs⟩ := mem_delete.mp there
      obtain ⟨its, own⟩ := kept.channels c' old
      refine ⟨(gone.sessions _).mpr ⟨its, ?_⟩, own⟩
      intro same
      rw [same, owner] at own
      simp [Owner.channel.inj own] at differs
    entering := by
      intro k there s entering
      obtain ⟨its, own, none⟩ := kept.entering k there s entering
      exact ⟨(gone.sessions s).mpr ⟨its, other k s own⟩, own, none⟩
    data := by
      intro k there id u data
      obtain ⟨s, its, same, name, own⟩ := kept.data k there id u data
      exact ⟨s, (gone.sessions s).mpr ⟨its, other k s own⟩, same, name, own⟩
    held := by
      intro s there
      obtain ⟨old, differs⟩ := (gone.sessions s).mp there
      rcases kept.held s old with ⟨c', its, rfl⟩ | connection
      · refine .inl ⟨c', mem_delete.mpr ⟨its, ?_⟩, rfl⟩
        rw [beq_eq_false_iff_ne]
        intro same
        exact differs (congrArg Channel.session (g.channels.eq_of_key its mem same))
      · exact .inr connection }

theorem handle_kept {g g' : Gateway} (kept : Kept g) {id : Nat} {ok : Bool}
    (handled : handle g id ok = some g') : Kept g' := by
  obtain ⟨c, found, rfl⟩ := map_eq_some_iff.mp handled
  have mem := (mem_of_select found).1
  have go (phase : Phase) : Kept { g with
      channels := g.channels.update (fun c' => c'.id == id) (enter phase) (fun _ => rfl) } := {
    kept with
    channels := by
      intro c' there
      obtain ⟨old, its, rfl⟩ := mem_map.mp there
      rw [apply_column Channel.session _ (enter phase) (fun _ => rfl),
        apply_column Channel.id _ (enter phase) (fun _ => rfl)]
      exact kept.channels old its
    held := by
      intro s there
      refine (kept.held s there).imp ?_ (fun its => its)
      rintro ⟨c', its, rfl⟩
      refine ⟨_, @apply_mem_update _ _ g.channels _ (enter phase) (fun _ => rfl) c' its, ?_⟩
      rw [apply_column Channel.session _ (enter phase) (fun _ => rfl)] }
  split
  · exact go _
  · exact go _
  · exact closeChannel_kept kept mem

theorem connect_kept {g : Gateway} (kept : Kept g) {id : Nat} {connections : Table Connection Connection.id}
    (inserted : g.connections.insert ⟨id, none, none⟩ = some connections) : Kept { g with connections } := {
  kept with
  entering := by
    intro k mem s entering
    rcases (mem_insert inserted).mp mem with rfl | old
    · cases entering
    · exact kept.entering k old s entering
  data := by
    intro k mem id u data
    rcases (mem_insert inserted).mp mem with rfl | old
    · cases data
    · exact kept.data k old id u data
  held := by
    intro s there
    refine (kept.held s there).imp (fun its => its) ?_
    rintro ⟨k, old, its⟩
    exact ⟨k, (mem_insert inserted).mpr (.inr old), its⟩ }

theorem checkPasswd_kept {g g' : Gateway} (kept : Kept g) {id : Nat} {username : String}
    {result : Option Int} (single : SingleLogin g (.checkPasswd id username result))
    (checked : checkPasswd g id username result = some g') : Kept g' := by
  unfold checkPasswd at checked
  split at checked
  · contradiction
  · cases checked
    exact kept
  rename_i k limit found
  obtain ⟨mem, own⟩ := mem_of_select found
  rw [Bool.and_eq_true, beq_iff_eq, isNone_iff_eq_none] at own
  have fresh : ∀ s ∈ g.manager.sessions, s.id ≠ g.drawn := fun s mem same =>
    Nat.lt_irrefl _ (same ▸ kept.drawn s mem)
  dsimp only at checked
  split at checked <;> cases checked
  · exact {
      kept with
      drawn := fun s mem => Nat.lt_succ_of_lt (kept.drawn s mem) }
  rename_i m' admitted
  have sessions := fun s => @mem_register _ _ _ s fresh admitted
  have noData : k.data = none := by
    by_contra some
    have refused := single k mem own.1 (isSome_iff_ne_none.mpr some)
    rw [refused] at admitted
    contradiction
  exact {
    balanced := register_balanced kept.balanced fresh admitted
    perUser := perUser_admit kept fresh admitted
    maxTotal := totals_register admitted
    drawn := by
      intro s there
      rcases (sessions s).mp there with rfl | old
      · exact Nat.lt_succ_self _
      · exact Nat.lt_succ_of_lt (kept.drawn s old)
    channels := by
      intro c there
      exact ⟨(sessions _).mpr (.inr (kept.channels c there).1), (kept.channels c there).2⟩
    entering := by
      intro k' there s entering
      rcases (mem_update (setEntering_id _)).mp there with ⟨old, _⟩ | ⟨old, its, same, rfl⟩
      · obtain ⟨there, owner, none⟩ := kept.entering k' old s entering
        exact ⟨(sessions s).mpr (.inr there), owner, none⟩
      cases entering
      rw [g.connections.eq_of_key its mem ((eq_of_beq same).trans own.1.symm)]
      exact ⟨(sessions _).mpr (.inl rfl), congrArg Owner.connection own.1.symm, noData⟩
    data := by
      intro k' there i u data
      have before : ∃ old ∈ g.connections, old.id = k'.id ∧ old.data = some (i, u) := by
        rcases (mem_update (setEntering_id _)).mp there with ⟨old, _⟩ | ⟨old, its, _, rfl⟩
        · exact ⟨k', old, rfl, data⟩
        · exact ⟨old, its, rfl, data⟩
      obtain ⟨old, its, same, kept_data⟩ := before
      obtain ⟨s, there, key, name, owner⟩ := kept.data old its i u kept_data
      exact ⟨s, (sessions s).mpr (.inr there), key, name, same ▸ owner⟩
    held := by
      intro s there
      rcases (sessions s).mp there with rfl | old
      · have here : apply (fun k => k.id == id) (setEntering ⟨g.drawn, username, limit, .connection id⟩) k =
            setEntering ⟨g.drawn, username, limit, .connection id⟩ k := if_pos (beq_iff_eq.mpr own.1)
        refine .inr ⟨setEntering _ k, here ▸ ?_, .inl rfl⟩
        exact apply_mem_update (setEntering_id _) mem
      refine (kept.held s old).imp (fun its => its) ?_
      rintro ⟨k', its, has⟩
      by_cases here : k'.id = id
      · have same := g.connections.eq_of_key its mem (here.trans own.1.symm)
        rw [same, own.2, noData] at has
        rcases has with has | has <;> cases has
      · refine ⟨k', (mem_update (setEntering_id _)).mpr (.inl ⟨its, ?_⟩), has⟩
        exact beq_eq_false_iff_ne.mpr here }

theorem store_kept {g : Gateway} (kept : Kept g) (id : Nat) : Kept { g with
    connections := g.connections.update (fun k => k.id == id) storeData storeData_id } := by
  have stored (k : Connection) (entering : k.entering = none) : storeData k = k := by
    simp [storeData, entering]
  exact {
    kept with
    entering := by
      intro k mem s entering
      rcases (mem_update storeData_id).mp mem with ⟨old, _⟩ | ⟨old, its, _, rfl⟩
      · exact kept.entering k old s entering
      cases before : old.entering with
      | none =>
        rw [stored old before, before] at entering
        cases entering
      | some sess => simp [storeData, before] at entering
    data := by
      intro k mem i u data
      rcases (mem_update storeData_id).mp mem with ⟨old, _⟩ | ⟨old, its, _, rfl⟩
      · exact kept.data k old i u data
      rw [storeData_id]
      cases before : old.entering with
      | none =>
        rw [stored old before] at data
        exact kept.data old its i u data
      | some sess =>
        simp only [storeData, before, some.injEq, Prod.mk.injEq] at data
        obtain ⟨there, owner, _⟩ := kept.entering old its sess before
        exact ⟨sess, there, data.1, data.2, owner⟩
    held := by
      intro s there
      refine (kept.held s there).imp (fun its => its) ?_
      rintro ⟨k, its, has⟩
      refine ⟨_, apply_mem_update storeData_id its, ?_⟩
      unfold apply
      split
      · rcases has with entering | data
        · exact .inr (by simp [storeData, entering])
        cases before : k.entering with
        | none =>
          rw [stored k before]
          exact .inr data
        | some sess =>
          rw [(kept.entering k its sess before).2.2] at data
          cases data
      · exact has }

theorem beforeLogout_kept {g g' : Gateway} (kept : Kept g) {id : Nat}
    (ended : beforeLogout g id = some g') : Kept g' := by
  obtain ⟨k, found, rfl⟩ := map_eq_some_iff.mp ended
  obtain ⟨mem, own⟩ := mem_of_select found
  rw [Bool.and_eq_true, beq_iff_eq, isNone_iff_eq_none] at own
  have left {k' : Connection} (there : k' ∈ g.connections.delete (fun k => k.id == id)) :
      k' ∈ g.connections ∧ k'.id ≠ k.id := by
    obtain ⟨old, differs⟩ := mem_delete.mp there
    exact ⟨old, own.1 ▸ beq_eq_false_iff_ne.mp differs⟩
  have stays {k' : Connection} (old : k' ∈ g.connections) (differs : k'.id ≠ k.id) :
      k' ∈ g.connections.delete (fun k => k.id == id) :=
    mem_delete.mpr ⟨old, beq_eq_false_iff_ne.mpr (own.1 ▸ differs)⟩
  cases data : k.data with
  | none =>
    -- nobody has logged in: the connection has no session
    exact {
      kept with
      entering := fun k' there => kept.entering k' (left there).1
      data := fun k' there => kept.data k' (left there).1
      held := by
        intro s there
        refine (kept.held s there).imp (fun its => its) ?_
        rintro ⟨k', old, has⟩
        refine ⟨k', stays old ?_, has⟩
        intro same
        rw [g.connections.eq_of_key old mem same, own.2, data] at has
        rcases has with has | has <;> cases has }
  | some stored =>
    obtain ⟨sess, registered, key, name, owner⟩ := kept.data k mem stored.1 stored.2 data
    have gone := gone_unregister kept registered
    rw [key, name] at gone
    have other {s : Session} {k' : Connection} (differs : k'.id ≠ k.id) (its : s.owner = .connection k'.id) :
        s ≠ sess := by
      rintro rfl
      rw [owner] at its
      exact differs (Owner.connection.inj its).symm
    exact {
      balanced := gone.balanced
      perUser := gone.perUser
      maxTotal := gone.maxTotal
      drawn := fun s there => kept.drawn s ((gone.sessions s).mp there).1
      channels := by
        intro c there
        obtain ⟨its, own⟩ := kept.channels c there
        refine ⟨(gone.sessions _).mpr ⟨its, ?_⟩, own⟩
        intro same
        rw [same, owner] at own
        contradiction
      entering := by
        intro k' there s entering
        obtain ⟨old, differs⟩ := left there
        obtain ⟨its, own, none⟩ := kept.entering k' old s entering
        exact ⟨(gone.sessions s).mpr ⟨its, other differs own⟩, own, none⟩
      data := by
        intro k' there i u data
        obtain ⟨old, differs⟩ := left there
        obtain ⟨s, its, same, user, own⟩ := kept.data k' old i u data
        exact ⟨s, (gone.sessions s).mpr ⟨its, other differs own⟩, same, user, own⟩
      held := by
        intro s there
        obtain ⟨before, differs⟩ := (gone.sessions s).mp there
        refine (kept.held s before).imp (fun its => its) ?_
        rintro ⟨k', old, has⟩
        refine ⟨k', stays old ?_, has⟩
        intro same
        rw [g.connections.eq_of_key old mem same, own.2, data] at has
        rcases has with has | has
        · cases has
        · cases has
          exact differs (g.manager.sessions.eq_of_key before registered key.symm) }

/-- In every run in which no connection that has a session is let in a second time, the counters are
right, the limits are kept and every session belongs to what is open. -/
theorem sessions_accounted {maxTotal : Int} (cap : 0 ≤ maxTotal) {actions : List Action} {g : Gateway}
    (single : Guarded step SingleLogin (Gateway.start maxTotal) actions)
    (run : exec step (Gateway.start maxTotal) actions = some g) : Accounted g := by
  refine kept_accounted (guarded_invariant ?_ (kept_start cap) single run)
  intro g action g' kept single taken
  cases action with
  | openChannel id username limit => exact openChannel_kept kept taken
  | handle id ok => exact handle_kept kept taken
  | connect id =>
    obtain ⟨connections, inserted, rfl⟩ := map_eq_some_iff.mp taken
    exact connect_kept kept inserted
  | checkPasswd id username result => exact checkPasswd_kept kept single taken
  | store id =>
    cases taken
    exact store_kept kept id
  | beforeLogout id => exact beforeLogout_kept kept taken

/-- Two channels of one user and an FTPS connection whose second login is refused come and go. -/
def daily : List Action :=
  [.openChannel 1 "ftp-user" 3, .openChannel 2 "ftp-user" 3, .handle 1 true, .connect 1,
    .checkPasswd 1 "ftp-user" (some 3), .store 1, .checkPasswd 1 "ftp-user" (some 3),
    .checkPasswd 1 "ftp-other" none, .handle 2 false, .handle 1 false, .beforeLogout 1, .connect 2]

theorem daily_accounted : ∃ g, exec step (Gateway.start 200) daily = some g ∧ Accounted g := by
  have single : Guarded step SingleLogin (Gateway.start 200) daily := by decide +kernel
  cases run : exec step (Gateway.start 200) daily with
  | none => exact absurd (congrArg isSome run) (by decide +kernel)
  | some g => exact ⟨g, rfl, sessions_accounted (by decide) single run⟩

/-- PASS is sent twice, as two users, and the connection ends. -/
def loggedInTwice : List Action :=
  [.connect 1, .checkPasswd 1 "ftp-user" (some 3), .store 1, .checkPasswd 1 "ftp-other" (some 3), .store 1,
    .beforeLogout 1]

/-- The first session stays registered for good. -/
theorem session_left_behind : ∃ g, exec step (Gateway.start 200) loggedInTwice = some g ∧
    g.manager.sessions.rows = [⟨0, "ftp-user", 3, .connection 1⟩] ∧ g.connections.rows = [] ∧ ¬ Accounted g := by
  cases run : exec step (Gateway.start 200) loggedInTwice with
  | none => exact absurd (congrArg isSome run) (by decide +kernel)
  | some g =>
    have rows : (exec step (Gateway.start 200) loggedInTwice).map (fun g => g.manager.sessions.rows) =
        some [⟨0, "ftp-user", 3, .connection 1⟩] := by decide +kernel
    have ended : (exec step (Gateway.start 200) loggedInTwice).map (fun g => g.connections.rows) =
        some [] := by decide +kernel
    rw [run] at rows ended
    have left : g.manager.sessions.rows = [⟨0, "ftp-user", 3, .connection 1⟩] := some.inj rows
    have closed : g.connections.rows = [] := some.inj ended
    refine ⟨g, rfl, left, closed, ?_⟩
    intro accounted
    have there : ⟨0, "ftp-user", 3, .connection 1⟩ ∈ g.manager.sessions.rows := by simp [left]
    obtain ⟨k, mem, _⟩ := accounted.owned _ there
    rw [closed] at mem
    exact absurd mem not_mem_nil

end HostingPlatform.Sftp.Accounting
