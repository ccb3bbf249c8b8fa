import HostingPlatform.PrivateWorkers.Revocation

/-! What the passes of the reconciler make of the rows, and the whole of it in every run. -/
namespace HostingPlatform.PrivateWorkers

open Table List Interleaving Transition

structure PassHolds (d : Db) (p : Pass) : Prop where
  ids : ∀ id ∈ p.gone, id ∈ d.ids
  ports : ∀ x ∈ d.workers, x.id ∈ p.gone → x.exposedPort ∉ p.ports
  tokens : ∀ i ∈ d.issued, i.worker ∈ p.gone → i.token.remotePort ∈ p.ports →
    d.sharedSecret ≠ some i.token.secret ∧ p.secret ≠ some i.token.secret

theorem PassHolds.run {d : Db} {e : Effect} {p : Pass} (holding : Holding d) (held : PassHolds d p)
    (fits : e.Fits d) : PassHolds (e.run d) p where
  ids := fun id mem => e.ids_grow (held.ids id mem)
  ports := by
    intro x mem gone
    rcases Effect.origin fits mem with rfl | ⟨y, old, its, port, _⟩
    · exact absurd (held.ids x.id gone) fits.1
    · rw [← port]
      exact held.ports y old (its ▸ gone)
  tokens := by
    intro i mem gone port
    rcases Effect.issued_cases mem with rfl | old
    · obtain ⟨x, there, its, same⟩ := fits.2.2
      exact absurd (same ▸ port) (held.ports x there (its ▸ gone))
    obtain ⟨stale, apart⟩ := held.tokens i old gone port
    refine ⟨?_, apart⟩
    rcases Effect.secret_cases fits with same | ⟨secret, new, fresh, _⟩
    · rw [same]
      exact stale
    rw [new]
    intro current
    exact fresh (Option.some.inj current ▸ holding.known i old)

theorem mem_activeWorkers {d : Db} {x : PrivateWorker} (mem : x ∈ activeWorkers d) : x ∈ d.workers ∧ live x = true := by
  obtain ⟨there, active⟩ := mem_selectAll.mp mem
  refine ⟨there, ?_⟩
  unfold live
  cases status : x.status <;> rw [status] at active <;> first | rfl | cases active

theorem mem_goneWorkers {d : Db} {id : Nat} (mem : id ∈ goneWorkers d) :
    id ∈ d.ids ∧ ∀ x ∈ d.workers, x.id = id → live x = false := by
  obtain ⟨known, none⟩ := mem_filter.mp mem
  refine ⟨known, fun x there its => ?_⟩
  simp only [Bool.not_eq_true', any_eq_false, Bool.and_eq_true, beq_iff_eq] at none
  exact Bool.eq_false_iff.mpr (fun alive => none x there ⟨its, alive⟩)

theorem passHolds_read {d : Db} (holding : Holding d) {p : Pass} (next : PassAt) (unread : p.secret = none) :
    PassHolds d { p with
        next
        gone := goneWorkers d
        workers := activeWorkers d } where
  ids := fun id mem => (mem_goneWorkers mem).1
  ports := by
    intro x mem gone port
    obtain ⟨y, active, same⟩ := mem_map.mp port
    obtain ⟨there, alive⟩ := mem_activeWorkers active
    have dead := (mem_goneWorkers gone).2 y there (holding.ports y there x mem same)
    rw [alive] at dead
    cases dead
  tokens := by
    intro i mem gone port
    refine ⟨fun current => ?_, by simp [unread]⟩
    obtain ⟨y, active, same⟩ := mem_map.mp port
    obtain ⟨there, alive⟩ := mem_activeWorkers active
    have dead := (mem_goneWorkers gone).2 y there (holding.reuse i mem current y there same)
    rw [alive] at dead
    cases dead

theorem PassHolds.read_secret {d : Db} {p : Pass} (held : PassHolds d p) (next : PassAt) {secret : String}
    (current : d.sharedSecret = some secret) : PassHolds d { p with
        next
        secret := some secret } where
  ids := held.ids
  ports := held.ports
  tokens := by
    intro i mem gone port
    obtain ⟨stale, _⟩ := held.tokens i mem gone port
    exact ⟨stale, current ▸ stale⟩

theorem PassHolds.onward {d : Db} {p : Pass} (held : PassHolds d p) (next : PassAt) (ok : Bool) :
    PassHolds d (p.onward next ok) := ⟨held.ids, held.ports, held.tokens⟩

def Shape (p : Pass) : Prop :=
  match p.next with
  | .workers => p.workers = [] ∧ p.secret = none
  | .secret => p.workers ≠ [] ∧ p.secret = none
  | .replaceConfigMap | .createConfigMap | .readDeployment | .replaceDeployment | .createDeployment =>
    p.workers ≠ [] ∧ p.secret ≠ none
  | .deleteDeployment | .deleteConfigMap => p.workers = []
  | .others => p.workers ≠ [] → p.secret ≠ none
  | .returning => p.failed = false → p.workers ≠ [] → p.secret ≠ none

/- whether its ConfigMap is behind it, and whether the end of the Deployment is -/
def written : PassAt → Bool
  | .readDeployment | .replaceDeployment | .createDeployment | .others | .returning => true
  | _ => false

def torn : PassAt → Bool
  | .deleteConfigMap | .others | .returning => true
  | _ => false

structure Done (k : Cluster) (p : Pass) : Prop where
  written : written p.next = true → p.failed = false → p.workers ≠ [] → ∀ secret, p.secret = some secret →
    (∀ pod, k.pod = some pod → Alike pod (p.config secret)) ∧
      ∀ config, k.configMap = some config → Alike config (p.config secret)
  torn : torn p.next = true → p.failed = false → p.workers = [] → k.pod = none ∧ k.deployment = false

/- two passes under way have read the same -/
structure Agree (p q : Pass) : Prop where
  ports : p.next ≠ .workers → q.next ≠ .workers → SamePorts p.ports q.ports
  secrets : ∀ secret secret', p.secret = some secret → q.secret = some secret' → secret = secret'

theorem SamePorts.symm {ports ports' : List Nat} (same : SamePorts ports ports') : SamePorts ports' ports :=
  ⟨same.2, same.1⟩

theorem SamePorts.refl (ports : List Nat) : SamePorts ports ports := ⟨fun _ mem => mem, fun _ mem => mem⟩

theorem Agree.symm {p q : Pass} (agree : Agree p q) : Agree q p where
  ports := fun readQ readP => (agree.ports readP readQ).symm
  secrets := fun secret secret' its its' => (agree.secrets secret' secret its' its).symm

theorem SamePorts.nil {p q : Pass} (same : SamePorts p.ports q.ports) (none : p.workers = []) : q.workers = [] := by
  cases workers : q.workers with
  | nil => rfl
  | cons x rest =>
    have mem : x.exposedPort ∈ q.ports := by simp [Pass.ports, workers]
    have old := same.2 _ mem
    simp [Pass.ports, none] at old

structure Steady (s : Setup) (w : World) : Prop where
  holding : Holding w.db
  calls : ∀ c ∈ w.calls, CallHolds w.db c.task
  hashes : HashedSoon s w
  passes : ∀ p ∈ w.passes, PassHolds w.db p.task
  shapes : ∀ p ∈ w.passes, Shape p.task
  agree : ∀ p ∈ w.passes, ∀ q ∈ w.passes, Agree p.task q.task
  done : ∀ p ∈ w.passes, Done w.cluster p.task

theorem Steady.kept {s : Setup} {w : World} (steady : Steady s w) : Kept s w where
  revoked := steady.holding.revoked
  hashes := by
    intro none x mem unrevoked
    rcases steady.hashes with hashed | ⟨c, there, _⟩
    · exact hashed x mem unrevoked
    · rw [mem_rows, none] at there
      cases there
  rotated := fun i mem secret its _ => steady.holding.rotated i mem secret its
  accepted := by
    intro p mem returning ok pod running x there
    have some : p.task.workers ≠ [] := ne_nil_of_mem there
    have shape := steady.shapes p mem
    simp only [Shape, returning] at shape
    obtain ⟨secret, known⟩ := Option.ne_none_iff_exists'.mp (shape ok some)
    obtain ⟨same, _⟩ := (steady.done p mem).written (by rw [returning]; rfl) ok some secret known
    obtain ⟨token, ports⟩ := same pod running
    refine ⟨secret, known, ?_⟩
    simp only [FrpsConfig.accepts, Bool.and_eq_true, beq_iff_eq, contains_iff_mem]
    exact ⟨token.symm, ports.2 _ (mem_map_of_mem there)⟩
  refused := by
    intro p mem returning ok pod running i issued gone
    refine Bool.eq_false_iff.mpr (fun accepted => ?_)
    simp only [FrpsConfig.accepts, Bool.and_eq_true, beq_iff_eq, contains_iff_mem] at accepted
    obtain ⟨secret, port⟩ := accepted
    by_cases none : p.task.workers = []
    · obtain ⟨stopped, _⟩ := (steady.done p mem).torn (by rw [returning]; rfl) ok none
      rw [stopped] at running
      cases running
    have shape := steady.shapes p mem
    simp only [Shape, returning] at shape
    obtain ⟨own, known⟩ := Option.ne_none_iff_exists'.mp (shape ok none)
    obtain ⟨same, _⟩ := (steady.done p mem).written (by rw [returning]; rfl) ok none own known
    obtain ⟨token, ports⟩ := same pod running
    obtain ⟨_, apart⟩ := (steady.passes p mem).tokens i issued gone (ports.1 _ port)
    refine apart ?_
    rw [known, secret]
    exact congrArg Option.some token.symm

/- steps on the way that change nothing, with whether they have succeeded -/
inductive Moves : PassAt → PassAt → Bool → Prop where
  | noSecret : Moves .secret .returning false
  | noConfigMap : Moves .replaceConfigMap .createConfigMap true
  | notReplaced : Moves .replaceConfigMap .readDeployment false
  | notCreated : Moves .createConfigMap .readDeployment false
  | there : Moves .readDeployment .replaceDeployment true
  | missing : Moves .readDeployment .createDeployment true
  | unread : Moves .readDeployment .others false
  | gone : Moves .replaceDeployment .createDeployment true
  | replaced (ok : Bool) : Moves .replaceDeployment .others ok
  | notStarted : Moves .createDeployment .others false
  | notStopped : Moves .deleteDeployment .deleteConfigMap false
  | notDeleted : Moves .deleteConfigMap .others false
  | finished (ok : Bool) : Moves .others .returning ok

inductive Ran (d : Db) (k : Cluster) (p : Pass) (ok : Bool) : Cluster → Outcome Pass Unit → Prop where
  | read (at_ : p.next = .workers) : Ran d k p ok k (.next
      { p with
        next := if activeWorkers d = [] then .deleteDeployment else .secret
        gone := goneWorkers d
        workers := activeWorkers d })
  | secret (secret : String) (at_ : p.next = .secret) (current : d.sharedSecret = some secret) :
    Ran d k p ok k (.next
      { p with
        next := .replaceConfigMap
        secret := some secret })
  | write (succeeds : ok = true)
    (at_ : p.next = .replaceConfigMap ∧ k.configMap ≠ none ∨ p.next = .createConfigMap ∧ k.configMap = none) :
    Ran d k p ok (k.write p) (.next (p.onward .readDeployment true))
  | start (at_ : p.next = .createDeployment) :
    Ran d k p ok { k with deployment := true } (.next (p.onward .others true))
  | stop (at_ : p.next = .deleteDeployment) : Ran d k p ok
      { k with
        deployment := false
        pod := none } (.next (p.onward .deleteConfigMap true))
  | clear (at_ : p.next = .deleteConfigMap) :
    Ran d k p ok { k with configMap := none } (.next (p.onward .others true))
  | move {next : PassAt} {succeeded : Bool} (moves : Moves p.next next succeeded) :
    Ran d k p ok k (.next (p.onward next succeeded))
  | leave : Ran d k p ok k (.answer ())

theorem passStatement_ran (d : Db) (k : Cluster) (p : Pass) (ok : Bool) :
    Ran d k p ok (passStatement d k p ok).1 (passStatement d k p ok).2 := by
  have moves : ∀ {next : PassAt} {succeeded : Bool}, Moves p.next next succeeded →
      Ran d k p ok k (.next (p.onward next succeeded)) := .move
  unfold passStatement
  cases at_ : p.next with
  | workers =>
    cases ok with
    | true => exact .read at_
    | false => exact .leave
  | secret =>
    cases ok with
    | false => exact .leave
    | true =>
      cases current : d.sharedSecret with
      | some secret => exact .secret secret at_ current
      | none => exact moves (at_ ▸ .noSecret)
  | replaceConfigMap =>
    dsimp only
    split
    · exact moves (at_ ▸ .notReplaced)
    rename_i succeeds
    split
    · exact moves (at_ ▸ .noConfigMap)
    · rename_i present
      exact .write (by simpa using succeeds) (.inl ⟨at_, present⟩)
  | createConfigMap =>
    dsimp only
    split
    · exact moves (at_ ▸ .notCreated)
    rename_i free
    simp only [not_or, Bool.not_eq_false, not_not] at free
    exact .write free.1 (.inr ⟨at_, free.2⟩)
  | readDeployment =>
    cases ok with
    | false => exact moves (at_ ▸ .unread)
    | true =>
      cases k.deployment with
      | true => exact moves (at_ ▸ .there)
      | false => exact moves (at_ ▸ .missing)
  | replaceDeployment =>
    dsimp only
    split
    · exact moves (at_ ▸ .gone)
    · exact moves (at_ ▸ .replaced ok)
  | createDeployment =>
    dsimp only
    split
    · exact moves (at_ ▸ .notStarted)
    · exact .start at_
  | deleteDeployment =>
    cases ok with
    | true => exact .stop at_
    | false => exact moves (at_ ▸ .notStopped)
  | deleteConfigMap =>
    cases ok with
    | true => exact .clear at_
    | false => exact moves (at_ ▸ .notDeleted)
  | others => exact moves (at_ ▸ .finished ok)
  | returning => exact .leave

theorem Moves.begun {a b : PassAt} {succeeded : Bool} (moves : Moves a b succeeded) : a ≠ .workers ∧ b ≠ .workers := by
  cases moves <;> exact ⟨nofun, nofun⟩

theorem Ran.holds {d : Db} {k k' : Cluster} {p p' : Pass} {ok : Bool} (holding : Holding d)
    (held : PassHolds d p) (shape : Shape p) (ran : Ran d k p ok k' (.next p')) : PassHolds d p' := by
  cases ran with
  | read at_ =>
    simp only [Shape, at_] at shape
    exact passHolds_read holding _ shape.2
  | secret secret _ current => exact held.read_secret _ current
  | _ => exact held.onward _ _

theorem Ran.shape {d : Db} {k k' : Cluster} {p p' : Pass} {ok : Bool} (shape : Shape p)
    (ran : Ran d k p ok k' (.next p')) : Shape p' := by
  cases ran with
  | read at_ =>
    simp only [Shape, at_] at shape
    by_cases none : activeWorkers d = []
    · simp [Shape, none]
    · simp [Shape, none, shape.2]
  | secret secret at_ current =>
    simp only [Shape, at_] at shape
    exact ⟨shape.1, nofun⟩
  | write _ at_ =>
    rcases at_ with ⟨at_, _⟩ | ⟨at_, _⟩ <;>
    · simp only [Shape, at_] at shape
      exact shape
  | start at_ =>
    simp only [Shape, at_] at shape
    exact fun _ => shape.2
  | stop at_ =>
    simp only [Shape, at_] at shape
    exact shape
  | clear at_ =>
    simp only [Shape, at_] at shape
    exact fun some => absurd shape some
  | move moves =>
    generalize at_ : p.next = a at moves
    simp only [Shape, at_] at shape
    cases moves with
    | noSecret => exact fun ok => by simp [Pass.onward] at ok
    | unread | replaced | notStarted => exact fun _ => shape.2
    | notDeleted => exact fun some => absurd shape some
    | finished => exact fun _ some => shape some
    | _ => exact shape

theorem Agree.onward {p q : Pass} (agree : Agree p q) (begun : p.next ≠ .workers) (next : PassAt) (ok : Bool) :
    Agree (p.onward next ok) q where
  ports := fun _ readQ => agree.ports begun readQ
  secrets := agree.secrets

theorem Ran.agree {w : World} {k' : Cluster} {p p' : Pass} {ok : Bool} (safe : PassSafe w p ok p.next) (shape : Shape p)
    (agree : ∀ q ∈ w.passes, Agree p q.task) (ran : Ran w.db w.cluster p ok k' (.next p')) :
    ∀ q ∈ w.passes, Agree p' q.task := by
  intro q mem
  cases ran with
  | read at_ =>
    simp only [Shape, at_] at shape
    simp only [at_] at safe
    refine ⟨fun _ readQ => (safe q mem readQ).symm, fun secret _ known => ?_⟩
    rw [shape.2] at known
    cases known
  | secret secret at_ current =>
    simp only [at_] at safe
    refine ⟨fun _ readQ => (agree q mem).ports (by rw [at_]; nofun) readQ, fun _ secret' known known' => ?_⟩
    rw [← Option.some.inj known]
    exact Option.some.inj (current.symm.trans (safe q mem secret' known'))
  | write _ at_ =>
    refine (agree q mem).onward ?_ _ _
    rcases at_ with ⟨at_, _⟩ | ⟨at_, _⟩ <;> rw [at_] <;> nofun
  | start at_ | stop at_ | clear at_ => exact (agree q mem).onward (by rw [at_]; nofun) _ _
  | move moves => exact (agree q mem).onward moves.begun.1 _ _

theorem Alike.of_agree {p q : Pass} {secret : String} (agree : Agree p q) (readP : p.next ≠ .workers)
    (readQ : q.next ≠ .workers) (known : p.secret = some secret) {secret' : String}
    (known' : q.secret = some secret') : Alike (p.config secret) (q.config secret') :=
  ⟨agree.secrets secret secret' known known', agree.ports readP readQ⟩

theorem not_begun {p : Pass} (unread : p.next = .workers) : written p.next = false ∧ torn p.next = false := by
  rw [unread]
  exact ⟨rfl, rfl⟩

theorem Ran.done_other {d : Db} {k k' : Cluster} {p q : Pass} {ok : Bool} {after : Outcome Pass Unit}
    (shape : Shape p) (agree : Agree p q) (done : Done k q) (ran : Ran d k p ok k' after) : Done k' q := by
  by_cases readQ : q.next = .workers
  · obtain ⟨notWritten, notTorn⟩ := not_begun readQ
    exact ⟨fun wrote => by simp [notWritten] at wrote, fun tore => by simp [notTorn] at tore⟩
  cases ran with
  | read | secret | move | leave => exact done
  | write _ at_ =>
    have readP : p.next ≠ .workers := by
      rcases at_ with ⟨at_, _⟩ | ⟨at_, _⟩ <;> rw [at_] <;> nofun
    refine ⟨fun wrote fine some secret known => ?_, done.torn⟩
    refine ⟨(done.written wrote fine some secret known).1, fun config its => ?_⟩
    obtain ⟨own, knownP, rfl⟩ := Option.map_eq_some_iff.mp its
    exact Alike.of_agree agree readP readQ knownP known
  | start at_ =>
    refine ⟨done.written, fun _ _ none => ?_⟩
    have empty : p.workers = [] := SamePorts.nil (agree.symm.ports readQ (by rw [at_]; nofun)) none
    simp only [Shape, at_] at shape
    exact absurd empty shape.1
  | stop at_ =>
    refine ⟨fun wrote fine some secret known => ?_, fun _ _ _ => ⟨rfl, rfl⟩⟩
    exact ⟨nofun, (done.written wrote fine some secret known).2⟩
  | clear at_ =>
    refine ⟨fun wrote fine some secret known => ?_, done.torn⟩
    exact ⟨(done.written wrote fine some secret known).1, nofun⟩

theorem onward_fine {p : Pass} {next : PassAt} {ok : Bool} (fine : (p.onward next ok).failed = false) :
    p.failed = false ∧ ok = true := by
  simpa [Pass.onward] using fine

theorem Ran.done_own {w : World} {k' : Cluster} {p p' : Pass} {ok : Bool} (safe : PassSafe w p ok p.next) (shape : Shape p)
    (done : Done w.cluster p) (ran : Ran w.db w.cluster p ok k' (.next p')) : Done k' p' := by
  cases ran with
  | read at_ =>
    by_cases none : activeWorkers w.db = []
    · exact ⟨fun wrote => by simp [none, written] at wrote, fun tore => by simp [none, torn] at tore⟩
    · exact ⟨fun wrote => by simp [none, written] at wrote, fun tore => by simp [none, torn] at tore⟩
  | secret => exact ⟨nofun, nofun⟩
  | write succeeds at_ =>
    refine ⟨fun _ _ _ secret known => ⟨fun pod running => ?_, fun config its => ?_⟩, nofun⟩
    · rcases at_ with ⟨at_, present⟩ | ⟨at_, absent⟩
      · simp only [at_] at safe
        exact safe succeeds present pod running secret known
      · simp only [at_] at safe
        exact safe succeeds absent pod running secret known
    · obtain ⟨own, same, rfl⟩ := Option.map_eq_some_iff.mp its
      cases Option.some.inj (same.symm.trans known)
      exact ⟨rfl, SamePorts.refl _⟩
  | start at_ =>
    simp only [Shape, at_] at shape
    refine ⟨fun _ fine some => ?_, fun _ _ none => absurd none shape.1⟩
    exact done.written (by rw [at_]; rfl) (onward_fine fine).1 some
  | stop at_ => exact ⟨nofun, fun _ _ _ => ⟨rfl, rfl⟩⟩
  | clear at_ =>
    simp only [Shape, at_] at shape
    refine ⟨fun _ _ some => absurd shape some, fun _ fine none => ?_⟩
    exact done.torn (by rw [at_]; rfl) (onward_fine fine).1 none
  | move moves =>
    generalize at_ : p.next = a at moves
    simp only [Shape, at_] at shape
    constructor
    · intro wrote fine some
      obtain ⟨earlier, succeeded⟩ := onward_fine fine
      refine done.written ?_ earlier some
      rw [at_]
      cases moves with
      | there | missing | gone | replaced | finished => rfl
      | noConfigMap => cases wrote
      | _ => cases succeeded
    · intro tore fine none
      obtain ⟨earlier, succeeded⟩ := onward_fine fine
      refine done.torn ?_ earlier none
      rw [at_]
      cases moves with
      | finished => rfl
      | replaced => exact absurd none shape.1
      | noConfigMap | there | missing | gone => cases tore
      | _ => cases succeeded

theorem Done.startPod {k k' : Cluster} {p : Pass} (done : Done k p) (started : PrivateWorkers.startPod k = some k') :
    Done k' p := by
  unfold PrivateWorkers.startPod at started
  split at started
  · rename_i may
    simp only [Bool.and_eq_true] at may
    obtain ⟨config, present, rfl⟩ := Option.map_eq_some_iff.mp started
    refine ⟨fun wrote fine some secret known => ?_, fun tore fine none => ?_⟩
    · have alike := (done.written wrote fine some secret known).2
      exact ⟨fun pod running => Option.some.inj running ▸ alike config present, alike⟩
    have stopped := (done.torn tore fine none).2
    rw [stopped] at may
    cases may.1
  · cases started

theorem first_holds (d : Db) (request : Request) : CallHolds d request.first := by
  cases request <;> exact holds_silent rfl rfl

theorem begin_holds (d : Db) : PassHolds d Pass.begin := ⟨nofun, nofun, nofun⟩

theorem begin_agree (q : Pass) : Agree Pass.begin q := ⟨fun unread => absurd rfl unread, nofun⟩

theorem Steady.effect {s : Setup} {w : World} {e : Effect} (steady : Steady s w) (fits : e.Fits w.db) :
    Holding (e.run w.db) ∧ (∀ c ∈ w.calls, CallHolds (e.run w.db) c.task) ∧
      ∀ p ∈ w.passes, PassHolds (e.run w.db) p.task :=
  ⟨steady.holding.run fits, fun c mem => (steady.calls c mem).run fits,
    fun p mem => (steady.passes p mem).run steady.holding fits⟩

theorem Steady.call {s : Setup} {w after : World} {id : Nat} {r : Random} (steady : Steady s w)
    (safe : Safe s w (.call id r)) (taken : PrivateWorkers.step s w (.call id r) = some after) : Steady s after := by
  obtain ⟨c, selected, ran⟩ := Option.bind_eq_some_iff.mp taken
  obtain ⟨⟨e, goes⟩, stated, rfl⟩ := Option.map_eq_some_iff.mp ran
  obtain ⟨mem, its⟩ := mem_of_select selected
  have its := beq_iff_eq.mp its
  have safe := safe c mem its
  obtain ⟨fits, next⟩ := statement_holds steady.holding (steady.calls c mem) safe stated
  obtain ⟨holding, calls, passes⟩ := steady.effect fits
  rw [← its] at safe
  refine ⟨holding, ?_, ?_, passes, steady.shapes, steady.agree, steady.done⟩
  · intro c' there
    rcases mem_resume there with ⟨old, _⟩ | ⟨task, rfl, rfl⟩
    · exact calls c' old
    · exact next task rfl
  · rcases statement_hashes steady.hashes mem safe stated with hashed | ⟨task, rfl, waits⟩ | ⟨c', old, other, waits⟩
    · exact .inl hashed
    · exact .inr ⟨_, its ▸ mem_resume_self (R := Unit) mem, waits⟩
    · exact .inr ⟨c', mem_resume_other old (its ▸ other), waits⟩

theorem Steady.pass {s : Setup} {w after : World} {id : Nat} {ok : Bool} (steady : Steady s w)
    (safe : Safe s w (.pass id ok)) (taken : PrivateWorkers.step s w (.pass id ok) = some after) : Steady s after := by
  obtain ⟨p, selected, rfl⟩ := Option.map_eq_some_iff.mp taken
  obtain ⟨mem, its⟩ := mem_of_select selected
  have safe := safe p mem (beq_iff_eq.mp its)
  have ran := passStatement_ran w.db w.cluster p.task ok
  have shape := steady.shapes p mem
  have agree : ∀ q ∈ w.passes, Agree p.task q.task := steady.agree p mem
  have own : ∀ {next : Pass}, (passStatement w.db w.cluster p.task ok).2 = .next next →
      Ran w.db w.cluster p.task ok (passStatement w.db w.cluster p.task ok).1 (.next next) := by
    intro next goes
    exact goes ▸ ran
  refine ⟨steady.holding, steady.calls, steady.hashes, ?_, ?_, ?_, ?_⟩
  · intro q there
    rcases mem_resume there with ⟨old, _⟩ | ⟨next, goes, rfl⟩
    · exact steady.passes q old
    · exact (own goes).holds steady.holding (steady.passes p mem) shape
  · intro q there
    rcases mem_resume there with ⟨old, _⟩ | ⟨next, goes, rfl⟩
    · exact steady.shapes q old
    · exact (own goes).shape shape
  · intro q there q' there'
    rcases mem_resume there with ⟨old, _⟩ | ⟨next, goes, rfl⟩
    · rcases mem_resume there' with ⟨old', _⟩ | ⟨next, goes, rfl⟩
      · exact steady.agree q old q' old'
      · exact ((own goes).agree safe shape agree q old).symm
    rcases mem_resume there' with ⟨old', _⟩ | ⟨next', goes', rfl⟩
    · exact (own goes).agree safe shape agree q' old'
    cases goes.symm.trans goes'
    refine ⟨fun _ _ => SamePorts.refl _, fun secret secret' known known' => ?_⟩
    exact Option.some.inj (known.symm.trans known')
  · intro q there
    rcases mem_resume there with ⟨old, _⟩ | ⟨next, goes, rfl⟩
    · exact ran.done_other shape (agree q old) (steady.done q old)
    · exact (own goes).done_own safe shape (steady.done p mem)

theorem Steady.step {s : Setup} {w after : World} {action : Action} (steady : Steady s w)
    (safe : Safe s w action) (taken : PrivateWorkers.step s w action = some after) : Steady s after := by
  cases action with
  | request id request =>
    obtain ⟨calls, inserted, rfl⟩ := Option.map_eq_some_iff.mp taken
    refine ⟨steady.holding, fun c there => ?_, ?_, steady.passes, steady.shapes, steady.agree, steady.done⟩
    · rcases (mem_insert inserted).mp there with rfl | old
      · exact first_holds w.db request
      · exact steady.calls c old
    · refine steady.hashes.imp (fun hashed => hashed) (fun soon => ?_)
      obtain ⟨c, old, waits⟩ := soon
      exact ⟨c, (mem_insert inserted).mpr (.inr old), waits⟩
  | call id r => exact steady.call safe taken
  | transition t =>
    obtain ⟨holding, calls, passes⟩ := steady.effect (e := .transition t) trivial
    rw [← Option.some.inj taken]
    refine ⟨holding, calls, ?_, passes, steady.shapes, steady.agree, steady.done⟩
    exact steady.hashes.imp (fun hashed => hashed.run rfl) (fun soon => soon)
  | reconcile id =>
    obtain ⟨passes, inserted, rfl⟩ := Option.map_eq_some_iff.mp taken
    have cases_ : ∀ p ∈ passes, p.task = Pass.begin ∨ p ∈ w.passes := by
      intro p there
      rcases (mem_insert inserted).mp there with rfl | old
      · exact .inl rfl
      · exact .inr old
    refine ⟨steady.holding, steady.calls, steady.hashes, fun p there => ?_, fun p there => ?_,
      fun p there q there' => ?_, fun p there => ?_⟩
    · rcases cases_ p there with new | old
      · exact new ▸ begin_holds w.db
      · exact steady.passes p old
    · rcases cases_ p there with new | old
      · rw [new]
        exact ⟨rfl, rfl⟩
      · exact steady.shapes p old
    · rcases cases_ p there with new | old
      · exact new ▸ begin_agree q.task
      rcases cases_ q there' with new | old'
      · exact new ▸ (begin_agree p.task).symm
      · exact steady.agree p old q old'
    · rcases cases_ p there with new | old
      · rw [new]
        exact ⟨nofun, nofun⟩
      · exact steady.done p old
  | pass id ok => exact steady.pass safe taken
  | startPod =>
    obtain ⟨cluster, started, rfl⟩ := Option.map_eq_some_iff.mp taken
    exact ⟨steady.holding, steady.calls, steady.hashes, steady.passes, steady.shapes, steady.agree,
      fun p mem => (steady.done p mem).startPod started⟩

theorem noWorkers_steady (s : Setup) : Steady s noWorkers where
  holding := ⟨nofun, nofun, nofun, nofun, nofun, nofun, nofun, nofun⟩
  calls := nofun
  hashes := .inl nofun
  passes := nofun
  shapes := nofun
  agree := nofun
  done := nofun

/-- In every run in which rotations are not overtaken, no port is given again under one secret, and
passes that overlap agree with each other and with a pod that is running, all of it is kept. -/
theorem kept_throughout {s : Setup} {actions : List Action} (safe : Guarded (step s) (Safe s) noWorkers actions) :
    Always (step s) (Kept s) noWorkers actions := by
  rintro front back w rfl run
  refine Steady.kept (guarded_invariant (fun w action after steady safe taken => ?_) (noWorkers_steady s)
    safe.front run)
  exact steady.step safe taken

instance decSamePorts (ports ports' : List Nat) : Decidable (SamePorts ports ports') :=
  inferInstanceAs (Decidable ((∀ port ∈ ports, port ∈ ports') ∧ ∀ port ∈ ports', port ∈ ports))

instance decAlike (config config' : FrpsConfig) : Decidable (Alike config config') :=
  inferInstanceAs (Decidable (config.token = config'.token ∧ SamePorts config.allowPorts config'.allowPorts))

instance decCallSafe (s : Setup) (w : World) (id : Nat) : (c : Call) → Decidable (CallSafe s w id c) := by
  intro _
  unfold CallSafe
  split <;> infer_instance

instance decPassSafe (w : World) (p : Pass) (ok : Bool) : (next : PassAt) → Decidable (PassSafe w p ok next) := by
  intro _
  unfold PassSafe
  split <;> infer_instance

instance decSafe (s : Setup) (w : World) : (action : Action) → Decidable (Safe s w action) := by
  intro _
  unfold Safe
  split <;> infer_instance

def plain : Setup := ⟨fun secret => "#" ++ secret, id, []⟩

/- so many statements of a call, or of a pass none of which fails -/
def calling (id : Nat) (request : Request) (statements : Nat) (r : Random) : List Action :=
  .request id request :: List.replicate statements (.call id r)

def passing (id statements : Nat) : List Action := .reconcile id :: List.replicate statements (.pass id true)

theorem kept_for_a_while : Always (step plain) (Kept plain) noWorkers
      (calling 1 (.create "nas" (some "nas-home")) 9 ⟨"s1", 1⟩ ++ passing 1 7 ++ [.startPod, .pass 1 true] ++ passing 2 7 ++
        calling 1 (.revoke 1) 4 ⟨"", 0⟩ ++ passing 2 5 ++ calling 1 (.create "cam" (some "cam-home")) 7 ⟨"", 2⟩ ++
        calling 1 (.rotate 2) 6 ⟨"s2", 0⟩ ++ passing 3 7 ++ [.startPod]) :=
  kept_throughout (by decide +kernel)

/- a revocation, or another rotation, between the statements of a rotation -/
def overtaken : List Action :=
  calling 1 (.create "nas" (some "nas-home")) 9 ⟨"s1", 1⟩ ++ calling 1 (.rotate 1) 2 ⟨"s2", 0⟩ ++
    calling 2 (.revoke 1) 4 ⟨"", 0⟩ ++ [.call 1 ⟨"", 0⟩]

def crossed : List Action :=
  calling 1 (.create "nas" (some "nas-home")) 9 ⟨"s1", 1⟩ ++ calling 1 (.rotate 1) 3 ⟨"s2", 0⟩ ++
    calling 2 (.rotate 1) 6 ⟨"s3", 0⟩ ++ List.replicate 3 (.call 1 ⟨"", 0⟩)

/-- A worker is revoked beside another one while frps runs; a port is given again; and a worker is
created while frps runs. -/
def stillOpen : List Action :=
  calling 1 (.create "nas" (some "nas-home")) 9 ⟨"s1", 1⟩ ++ calling 1 (.create "cam" (some "cam-home")) 7 ⟨"", 2⟩ ++
    passing 1 7 ++ [.startPod, .pass 1 true] ++ calling 1 (.revoke 1) 4 ⟨"", 0⟩ ++ passing 2 6

def givenAgain : List Action :=
  calling 1 (.create "nas" (some "nas-home")) 9 ⟨"s1", 1⟩ ++ calling 1 (.delete 1) 4 ⟨"", 0⟩ ++
    calling 1 (.create "cam" (some "cam-home")) 7 ⟨"", 2⟩ ++ passing 1 7 ++ [.startPod]

def notOpened : List Action :=
  calling 1 (.create "nas" (some "nas-home")) 9 ⟨"s1", 1⟩ ++ passing 1 7 ++ [.startPod, .pass 1 true] ++
    calling 1 (.create "cam" (some "cam-home")) 7 ⟨"", 2⟩ ++ passing 2 6

def unrevoked (w : World) : Bool :=
  w.db.workers.rows.any (fun x => w.db.revoked.contains x.id && x.status != .revoked)

def wrongHash (s : Setup) (w : World) : Bool :=
  w.calls.rows.isEmpty && w.db.workers.rows.any (fun x => x.status != .revoked &&
    w.db.sharedSecret.all (fun secret => x.workerTokenHash != s.hashSecret secret))

def opened (w : World) : Bool :=
  w.passes.rows.any (fun p => p.task.next == .returning && !p.task.failed && w.cluster.pod.any (fun pod =>
    w.db.issued.any (fun i => p.task.gone.contains i.worker && pod.accepts i.token)))

def closed (w : World) : Bool :=
  w.passes.rows.any (fun p => p.task.next == .returning && !p.task.failed && w.cluster.pod.any (fun pod =>
    p.task.workers.any (fun x => p.task.secret.all (fun secret =>
      !pod.accepts (buildTokenBlob x.slug secret x.exposedPort)))))

theorem broken {s : Setup} {w : World} (found : (unrevoked w || wrongHash s w || opened w || closed w) = true) :
    ¬ Kept s w := by
  intro kept
  simp only [Bool.or_eq_true] at found
  rcases found with ((found | found) | found) | found
  · simp only [unrevoked, any_eq_true, Bool.and_eq_true, contains_iff_mem, bne_iff_ne] at found
    obtain ⟨x, mem, revoked, other⟩ := found
    exact other (kept.revoked x.id revoked x mem rfl)
  · simp only [wrongHash, any_eq_true, Bool.and_eq_true, List.isEmpty_iff, bne_iff_ne] at found
    obtain ⟨none, x, mem, live, wrong⟩ := found
    obtain ⟨secret, current, right⟩ := kept.hashes none x mem live
    rw [current, Option.all_some, bne_iff_ne] at wrong
    exact wrong right
  · simp only [opened, any_eq_true, Bool.and_eq_true, beq_iff_eq, Bool.not_eq_true', Option.any_eq_true,
      contains_iff_mem] at found
    obtain ⟨p, mem, ⟨returning, fine⟩, pod, running, i, issued, gone, accepts⟩ := found
    have refused := kept.refused p mem returning fine pod running i issued gone
    rw [accepts] at refused
    cases refused
  · simp only [closed, any_eq_true, Bool.and_eq_true, beq_iff_eq, Bool.not_eq_true', Option.any_eq_true] at found
    obtain ⟨p, mem, ⟨returning, fine⟩, pod, running, x, active, refuses⟩ := found
    obtain ⟨secret, known, accepts⟩ := kept.accepted p mem returning fine pod running x active
    rw [known, Option.all_some, accepts] at refuses
    cases refuses

/-- Each of five short runs ends with something that is not kept. -/
theorem not_kept : ¬ Always (step plain) (Kept plain) noWorkers overtaken ∧
      ¬ Always (step plain) (Kept plain) noWorkers crossed ∧
      ¬ Always (step plain) (Kept plain) noWorkers stillOpen ∧
      ¬ Always (step plain) (Kept plain) noWorkers givenAgain ∧
      ¬ Always (step plain) (Kept plain) noWorkers notOpened := by
  have reached : ∀ actions ∈ [overtaken, crossed, stillOpen, givenAgain, notOpened],
      (exec (step plain) noWorkers actions).any
        (fun w => unrevoked w || wrongHash plain w || opened w || closed w) = true := by
    decide +kernel
  have lost : ∀ actions ∈ [overtaken, crossed, stillOpen, givenAgain, notOpened],
      ¬ Always (step plain) (Kept plain) noWorkers actions := by
    intro actions mem always
    obtain ⟨w, run, found⟩ := (Option.any_eq_true _ _).mp (reached actions mem)
    exact broken found (always actions [] w (append_nil actions).symm run)
  exact ⟨lost _ (by simp), lost _ (by simp), lost _ (by simp), lost _ (by simp), lost _ (by simp)⟩

end HostingPlatform.PrivateWorkers
