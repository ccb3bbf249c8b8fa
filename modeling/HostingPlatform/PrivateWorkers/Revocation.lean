import HostingPlatform.PrivateWorkers.Service

/-! What the calls and the passes owe a tenant: revocations that last, hashes that belong to the
secret, and an frps that accepts the tokens of the active workers and no others. -/
namespace HostingPlatform.PrivateWorkers

open Table List Interleaving Transition

structure Kept (s : Setup) (w : World) : Prop where
  /- a worker whose revocation has returned stays revoked -/
  revoked : ∀ id ∈ w.db.revoked, ∀ x ∈ w.db.workers, x.id = id → x.status = .revoked
  hashes : w.calls.rows = [] → ∀ x ∈ w.db.workers, x.status ≠ .revoked →
    ∃ secret, w.db.sharedSecret = some secret ∧ x.workerTokenHash = s.hashSecret secret
  /- the token of the rotation whose secret is current -/
  rotated : ∀ i ∈ w.db.issued, ∀ secret, i.rotation = some secret → w.db.sharedSecret = some secret →
    i.token.secret = secret
  /- after a pass that has not failed, the tokens of the workers that it has found active -/
  accepted : ∀ p ∈ w.passes, p.task.next = .returning → p.task.failed = false → ∀ pod ∈ w.cluster.pod,
    ∀ x ∈ p.task.workers, ∃ secret, p.task.secret = some secret ∧
      pod.accepts (buildTokenBlob x.slug secret x.exposedPort) = true
  /- and those of the workers that had been revoked or deleted -/
  refused : ∀ p ∈ w.passes, p.task.next = .returning → p.task.failed = false → ∀ pod ∈ w.cluster.pod,
    ∀ i ∈ w.db.issued, i.worker ∈ p.task.gone → pod.accepts i.token = false

/- between the new secret and its last hash -/
def pending : Call → Bool
  | .rotateWorker .. | .rotateSiblings .. => true
  | _ => false

/-- A rotation reaches a worker that is not revoked by then; a hash that is stored is that of the secret,
or some rotation has still to store its own; and no port is given again for which there is a token with
the secret. -/
def CallSafe (s : Setup) (w : World) (id : Nat) : Call → Prop
  | .rotateWorker worker _ _ => ∀ x ∈ w.db.workers.rows, x.id = worker → x.status ≠ .revoked
  | .rotateSiblings _ secret =>
    w.db.sharedSecret = some secret ∨ ∃ c ∈ w.calls.rows, c.id ≠ id ∧ pending c.task = true
  | .createInsert name slug secret _ port => admits s w.db name slug port = true →
    (w.db.sharedSecret = some secret ∨ ∃ c ∈ w.calls.rows, c.id ≠ id ∧ pending c.task = true) ∧
      ∀ i ∈ w.db.issued, w.db.sharedSecret = some i.token.secret → i.token.remotePort ≠ port
  | _ => True

def SamePorts (ports ports' : List Nat) : Prop :=
  (∀ port ∈ ports, port ∈ ports') ∧ ∀ port ∈ ports', port ∈ ports

def Alike (config config' : FrpsConfig) : Prop :=
  config.token = config'.token ∧ SamePorts config.allowPorts config'.allowPorts

/-- Passes that overlap read the same workers and the same secret, and none writes another config than
the one that a pod has read already. -/
def PassSafe (w : World) (p : Pass) (ok : Bool) : PassAt → Prop
  | .workers => ∀ q ∈ w.passes.rows, q.task.next ≠ .workers →
    SamePorts q.task.ports ((activeWorkers w.db).map PrivateWorker.exposedPort)
  | .secret => ∀ q ∈ w.passes.rows, ∀ secret ∈ q.task.secret, w.db.sharedSecret = some secret
  | .replaceConfigMap => ok = true → w.cluster.configMap ≠ none → ∀ pod ∈ w.cluster.pod,
    ∀ secret ∈ p.secret, Alike pod (p.config secret)
  | .createConfigMap => ok = true → w.cluster.configMap = none → ∀ pod ∈ w.cluster.pod,
    ∀ secret ∈ p.secret, Alike pod (p.config secret)
  | _ => True

def Safe (s : Setup) (w : World) : Action → Prop
  | .call id _ => ∀ c ∈ w.calls.rows, c.id = id → CallSafe s w id c.task
  | .pass id ok => ∀ p ∈ w.passes.rows, p.id = id → PassSafe w p.task ok p.task.next
  | _ => True

structure Holding (d : Db) : Prop where
  ids : ∀ x ∈ d.workers, x.id ∈ d.ids
  ports : ∀ x ∈ d.workers, ∀ y ∈ d.workers, x.exposedPort = y.exposedPort → x.id = y.id
  secret : ∀ secret ∈ d.sharedSecret, secret ∈ d.minted
  known : ∀ i ∈ d.issued, i.token.secret ∈ d.minted
  rotated : ∀ i ∈ d.issued, ∀ secret, i.rotation = some secret → i.token.secret = secret
  reuse : ∀ i ∈ d.issued, d.sharedSecret = some i.token.secret →
    ∀ x ∈ d.workers, x.exposedPort = i.token.remotePort → x.id = i.worker
  past : ∀ id ∈ d.revoked, id ∈ d.ids
  revoked : ∀ id ∈ d.revoked, ∀ x ∈ d.workers, x.id = id → x.status = .revoked

def Effect.Fits (d : Db) : Effect → Prop
  | .mint secret => secret ∉ d.minted
  | .insert x => x.id ∉ d.ids ∧ (∀ y ∈ d.workers, y.exposedPort ≠ x.exposedPort) ∧
    ∀ i ∈ d.issued, d.sharedSecret = some i.token.secret → i.token.remotePort ≠ x.exposedPort
  | .setWorker id _ _ => ∀ x ∈ d.workers, x.id = id → x.status ≠ .revoked
  | .issue i => i.token.secret ∈ d.minted ∧ (∀ secret, i.rotation = some secret → i.token.secret = secret) ∧
    ∃ x ∈ d.workers, x.id = i.worker ∧ x.exposedPort = i.token.remotePort
  | .acknowledge id => id ∈ d.ids ∧ ∀ x ∈ d.workers, x.id = id → x.status = .revoked
  | _ => True

variable {d : Db} {x : PrivateWorker} {e : Effect} {id : Nat} {secret : String} {c : Call} {s : Setup}
  {w : World} {r : Random} {after : After}

theorem mem_inserted {new : PrivateWorker} (mem : x ∈ (Effect.run d (.insert new)).workers) :
    x = new ∨ x ∈ d.workers := by
  simp only [Effect.run] at mem
  cases inserted : d.workers.insert new with
  | none =>
    rw [inserted] at mem
    exact .inr mem
  | some workers =>
    rw [inserted] at mem
    exact (mem_insert inserted).mp mem

theorem Effect.origin (fits : e.Fits d) (mem : x ∈ (e.run d).workers) :
    e = .insert x ∨ ∃ y ∈ d.workers, y.id = x.id ∧ y.exposedPort = x.exposedPort ∧
      (y.status = .revoked → x.status = .revoked) := by
  have same : x ∈ d.workers → ∃ y ∈ d.workers, y.id = x.id ∧ y.exposedPort = x.exposedPort ∧
      (y.status = .revoked → x.status = .revoked) := fun old => ⟨x, old, rfl, rfl, id⟩
  cases e with
  | nothing | mint | issue | acknowledge => exact .inr (same mem)
  | insert new =>
    rcases mem_inserted mem with rfl | old
    · exact .inl rfl
    · exact .inr (same old)
  | setWorker id hash status =>
    rcases (mem_update (setWorker_id hash status)).mp mem with ⟨old, _⟩ | ⟨y, old, its, rfl⟩
    · exact .inr (same old)
    · exact .inr ⟨y, old, rfl, rfl, fun revoked => absurd revoked (fits y old (beq_iff_eq.mp its))⟩
  | setSiblings hash =>
    rcases (mem_update (setHash_id hash)).mp mem with ⟨old, _⟩ | ⟨y, old, _, rfl⟩
    · exact .inr (same old)
    · exact .inr ⟨y, old, rfl, rfl, id⟩
  | revoke id =>
    rcases (mem_update (setStatus_id .revoked)).mp mem with ⟨old, _⟩ | ⟨y, old, _, rfl⟩
    · exact .inr (same old)
    · exact .inr ⟨y, old, rfl, rfl, fun _ => rfl⟩
  | delete id => exact .inr (same (mem_delete.mp mem).1)
  | transition t =>
    rcases (mem_update (setStatus_id t.becomes)).mp mem with ⟨old, _⟩ | ⟨y, old, changed, rfl⟩
    · exact .inr (same old)
    refine .inr ⟨y, old, rfl, rfl, fun revoked => ?_⟩
    rw [revoked] at changed
    cases t <;> cases changed

theorem Effect.ids_grow (e : Effect) (mem : id ∈ d.ids) : id ∈ (e.run d).ids := by
  cases e <;> simp [Effect.run, mem]

theorem Effect.minted_grow (e : Effect) (mem : secret ∈ d.minted) : secret ∈ (e.run d).minted := by
  cases e <;> simp [Effect.run, mem]

theorem Effect.secret_cases (fits : e.Fits d) : (e.run d).sharedSecret = d.sharedSecret ∨
      ∃ secret, (e.run d).sharedSecret = some secret ∧ secret ∉ d.minted ∧ (e.run d).issued = d.issued := by
  cases e with
  | mint secret => exact .inr ⟨secret, rfl, fits, rfl⟩
  | _ => exact .inl rfl

theorem Effect.issued_cases {i : Issued} (mem : i ∈ (e.run d).issued) : e = .issue i ∨ i ∈ d.issued := by
  cases e with
  | issue new =>
    rcases mem_cons.mp mem with rfl | old
    · exact .inl rfl
    · exact .inr old
  | _ => exact .inr mem

theorem revoked_stays (fits : e.Fits d) (known : id ∈ d.ids)
    (revoked : ∀ x ∈ d.workers, x.id = id → x.status = .revoked) :
    ∀ x ∈ (e.run d).workers, x.id = id → x.status = .revoked := by
  intro x there its
  rcases Effect.origin fits there with rfl | ⟨y, old, same, _, stays⟩
  · exact absurd (its ▸ known) fits.1
  · exact stays (revoked y old (same.trans its))

theorem Holding.run (holding : Holding d) (fits : e.Fits d) : Holding (e.run d) where
  ids := by
    intro x mem
    rcases Effect.origin fits mem with rfl | ⟨y, old, same, _⟩
    · exact mem_cons_self
    · exact same ▸ e.ids_grow (holding.ids y old)
  ports := by
    intro x mem y mem' same
    rcases Effect.origin fits mem with rfl | ⟨x', old, its, port, _⟩
    · rcases Effect.origin fits mem' with new | ⟨y', old', its', port', _⟩
      · cases new
        rfl
      · exact absurd (port'.trans same.symm) (fits.2.1 y' old')
    · rcases Effect.origin fits mem' with rfl | ⟨y', old', its', port', _⟩
      · exact absurd (port.trans same) (fits.2.1 x' old)
      · rw [← its, ← its']
        exact holding.ports x' old y' old' (port.trans (same.trans port'.symm))
  secret := by
    intro secret current
    cases e with
    | mint new =>
      cases Option.some.inj current
      exact mem_cons_self
    | _ => exact holding.secret secret current
  known := by
    intro i mem
    rcases Effect.issued_cases mem with rfl | old
    · exact fits.1
    · exact e.minted_grow (holding.known i old)
  rotated := by
    intro i mem
    rcases Effect.issued_cases mem with rfl | old
    · exact fits.2.1
    · exact holding.rotated i old
  reuse := by
    intro i mem current x there port
    rcases Effect.issued_cases mem with rfl | old
    · obtain ⟨y, old, its, same⟩ := fits.2.2
      exact (holding.ports x there y old (port.trans same.symm)).trans its
    rcases Effect.secret_cases fits with same | ⟨secret, new, fresh, _⟩
    · rw [same] at current
      rcases Effect.origin fits there with rfl | ⟨y, old', its, port', _⟩
      · exact absurd port.symm (fits.2.2 i old current)
      · rw [← its]
        exact holding.reuse i old current y old' (port'.trans port)
    · rw [new] at current
      exact absurd (Option.some.inj current ▸ holding.known i old) fresh
  past := by
    intro id mem
    cases e with
    | acknowledge new =>
      rcases mem_cons.mp mem with rfl | old
      · exact fits.1
      · exact holding.past id old
    | _ => exact Effect.ids_grow _ (holding.past id mem)
  revoked := by
    have kept : ∀ id ∈ d.revoked, ∀ x ∈ (e.run d).workers, x.id = id → x.status = .revoked := by
      intro id mem
      exact revoked_stays fits (holding.past id mem) (holding.revoked id mem)
    intro id mem x there its
    cases e with
    | acknowledge new =>
      rcases mem_cons.mp mem with rfl | old
      · exact fits.2 x there its
      · exact kept id old x there its
    | _ => exact kept id mem x there its

def secretOf : Call → Option String
  | .createPort _ _ secret _ | .createInsert _ _ secret _ _ | .createAudit _ secret | .createFetch _ secret
  | .rotateWorker _ _ secret | .rotateSiblings _ secret | .rotateAudit _ secret | .rotateReturn _ secret =>
    some secret
  | _ => none

/- the worker that a call is about to revoke, and that it has revoked -/
def revokes : Call → Option Nat
  | .revokeSet id | .revokeAudit id | .revokeReturn id => some id
  | _ => none

def hasRevoked : Call → Option Nat
  | .revokeAudit id | .revokeReturn id => some id
  | _ => none

structure CallHolds (d : Db) (c : Call) : Prop where
  secret : ∀ secret, secretOf c = some secret → secret ∈ d.minted
  ids : ∀ id, revokes c = some id → id ∈ d.ids
  revoked : ∀ id, hasRevoked c = some id → id ∈ d.ids ∧ ∀ x ∈ d.workers, x.id = id → x.status = .revoked

theorem CallHolds.run (holding : CallHolds d c) (fits : e.Fits d) : CallHolds (e.run d) c where
  secret := fun secret known => e.minted_grow (holding.secret secret known)
  ids := fun id its => e.ids_grow (holding.ids id its)
  revoked := by
    intro id its
    obtain ⟨known, revoked⟩ := holding.revoked id its
    exact ⟨e.ids_grow known, revoked_stays fits known revoked⟩

theorem fetched (found : fetchById d id = some x) : x ∈ d.workers ∧ x.id = id := by
  obtain ⟨mem, its⟩ := mem_of_select found
  exact ⟨mem, beq_iff_eq.mp its⟩

theorem admits_port {name slug : String} {port : Nat} (admitted : admits s d name slug port = true) :
    ∀ y ∈ d.workers, y.exposedPort ≠ port := by
  intro y mem
  simp only [admits, Bool.and_eq_true, all_eq_true, bne_iff_ne] at admitted
  exact (admitted.2 y mem).2

theorem holds_silent (silent : secretOf c = none) (idle : revokes c = none) : CallHolds d c where
  secret := fun secret known => by
    rw [silent] at known
    cases known
  ids := fun id its => by
    rw [idle] at its
    cases its
  revoked := fun id its => by
    cases c <;> simp [hasRevoked, revokes] at its idle

theorem holds_secret (carries : secretOf c = some secret) (known : secret ∈ d.minted) : CallHolds d c where
  secret := fun secret' its => by
    rw [carries] at its
    exact Option.some.inj its ▸ known
  ids := fun id its => by
    cases c <;> simp [secretOf, revokes] at carries its
  revoked := fun id its => by
    cases c <;> simp [secretOf, hasRevoked] at carries its

theorem statement_holds (holding : Holding w.db) (held : CallHolds w.db c) (safe : CallSafe s w id c)
    (taken : statement s w.db r c = some (e, after)) :
    e.Fits w.db ∧ ∀ next, after = .next next → CallHolds (e.run w.db) next := by
  have carried : ∀ {next : Call}, secretOf c = secretOf next → secretOf c ≠ none → CallHolds w.db next := by
    intro next same some
    obtain ⟨secret, known⟩ := Option.ne_none_iff_exists'.mp some
    exact holds_secret (same.symm.trans known) (held.secret secret known)
  cases c with
  | createByName name slug | deleteAudit worker =>
    obtain ⟨rfl, rfl⟩ := taken
    refine ⟨trivial, fun next goes => ?_⟩
    split at goes <;> cases goes
    exact holds_silent rfl rfl
  | createBySlug name slug attempt =>
    cases slug with
    | some slug =>
      obtain ⟨rfl, rfl⟩ := taken
      refine ⟨trivial, fun next goes => ?_⟩
      split at goes <;> cases goes
      exact holds_silent rfl rfl
    | none =>
      obtain ⟨rfl, rfl⟩ := taken
      refine ⟨trivial, fun next goes => ?_⟩
      split at goes
      · split at goes <;> cases goes
        exact holds_silent rfl rfl
      · cases goes
        exact holds_silent rfl rfl
  | createSecret name slug =>
    obtain ⟨rfl, rfl⟩ := taken
    refine ⟨trivial, fun next goes => ?_⟩
    split at goes
    · rename_i secret current
      cases goes
      exact holds_secret rfl (holding.secret secret current)
    · cases goes
      exact holds_silent rfl rfl
  | createMint name slug =>
    simp only [statement] at taken
    split at taken
    · cases taken
    rename_i fresh
    simp only [Option.some.injEq] at taken
    obtain ⟨rfl, rfl⟩ := taken
    constructor
    · split
      · exact fresh
      · trivial
    · rintro _ ⟨⟩
      exact holds_silent rfl rfl
  | createReread name slug =>
    obtain ⟨rfl, rfl⟩ := taken
    refine ⟨trivial, fun next goes => ?_⟩
    split at goes
    · rename_i secret current
      cases goes
      exact holds_secret rfl (holding.secret secret current)
    · cases goes
  | createPort name slug secret attempt =>
    obtain ⟨rfl, rfl⟩ := taken
    refine ⟨trivial, fun next goes => ?_⟩
    split at goes
    · cases goes
      exact carried rfl nofun
    · cases goes
  | createInsert name slug secret attempt port =>
    simp only [statement] at taken
    split at taken
    · cases taken
    rename_i fresh
    split at taken
    · rename_i admitted
      simp only [Option.some.injEq] at taken
      obtain ⟨rfl, rfl⟩ := taken
      refine ⟨⟨fresh, admits_port admitted, (safe admitted).2⟩, ?_⟩
      rintro _ ⟨⟩
      exact holds_secret rfl (Effect.minted_grow _ (held.secret secret rfl))
    · simp only [Option.some.injEq] at taken
      obtain ⟨rfl, rfl⟩ := taken
      refine ⟨trivial, fun next goes => ?_⟩
      split at goes <;> cases goes
      exact carried rfl nofun
  | createAudit worker secret | rotateAudit worker secret =>
    simp only [statement, Option.some.injEq] at taken
    obtain ⟨rfl, rfl⟩ := taken
    refine ⟨trivial, fun next goes => ?_⟩
    split at goes <;> cases goes
    exact carried rfl nofun
  | createFetch worker secret =>
    simp only [statement, Option.some.injEq] at taken
    obtain ⟨rfl, rfl⟩ := taken
    refine ⟨?_, nofun⟩
    split
    · rename_i x found
      obtain ⟨mem, its⟩ := fetched found
      exact ⟨held.secret secret rfl, nofun, x, mem, its, rfl⟩
    · trivial
  | rotateFetch worker =>
    simp only [statement, Option.some.injEq] at taken
    obtain ⟨rfl, rfl⟩ := taken
    refine ⟨trivial, fun next goes => ?_⟩
    split at goes
    · split at goes <;> cases goes
      exact holds_silent rfl rfl
    · cases goes
  | rotateSecret worker status =>
    simp only [statement] at taken
    split at taken
    · cases taken
    rename_i fresh
    obtain ⟨rfl, rfl⟩ := taken
    refine ⟨fresh, ?_⟩
    rintro _ ⟨⟩
    exact holds_secret rfl mem_cons_self
  | rotateWorker worker status secret =>
    simp only [statement, Option.some.injEq] at taken
    obtain ⟨rfl, rfl⟩ := taken
    refine ⟨safe, ?_⟩
    rintro _ ⟨⟩
    exact holds_secret rfl (held.secret secret rfl)
  | rotateSiblings worker secret =>
    simp only [statement, Option.some.injEq] at taken
    obtain ⟨rfl, rfl⟩ := taken
    refine ⟨trivial, ?_⟩
    rintro _ ⟨⟩
    exact holds_secret rfl (held.secret secret rfl)
  | rotateReturn worker secret =>
    obtain ⟨rfl, rfl⟩ := taken
    refine ⟨?_, nofun⟩
    split
    · rename_i x found
      obtain ⟨mem, its⟩ := fetched found
      exact ⟨held.secret secret rfl, fun _ its => Option.some.inj its, x, mem, its, rfl⟩
    · trivial
  | revokeFetch worker =>
    simp only [statement] at taken
    split at taken
    · rename_i x found
      obtain ⟨mem, its⟩ := fetched found
      have known : worker ∈ w.db.ids := its ▸ holding.ids x mem
      split at taken
      · rename_i revoked
        cases taken
        refine ⟨⟨known, fun y there same => ?_⟩, nofun⟩
        rw [w.db.workers.eq_of_key there mem (same.trans its.symm)]
        exact revoked
      · cases taken
        refine ⟨trivial, ?_⟩
        rintro _ ⟨⟩
        exact ⟨nofun, fun _ same => Option.some.inj same ▸ known, nofun⟩
    · cases taken
      exact ⟨trivial, nofun⟩
  | revokeSet worker =>
    obtain ⟨rfl, rfl⟩ := taken
    refine ⟨trivial, ?_⟩
    rintro _ ⟨⟩
    have known := held.ids worker rfl
    refine ⟨nofun, fun _ same => Option.some.inj same ▸ known, fun id same => ?_⟩
    cases Option.some.inj same
    refine ⟨known, fun x there its => ?_⟩
    rcases (mem_update (setStatus_id .revoked)).mp there with ⟨_, other⟩ | ⟨y, _, _, rfl⟩
    · rw [beq_iff_eq.mpr its] at other
      cases other
    · rfl
  | revokeAudit worker =>
    obtain ⟨rfl, rfl⟩ := taken
    refine ⟨trivial, fun next goes => ?_⟩
    split at goes <;> cases goes
    exact ⟨nofun, held.ids, held.revoked⟩
  | revokeReturn worker =>
    obtain ⟨rfl, rfl⟩ := taken
    refine ⟨?_, nofun⟩
    split
    · exact held.revoked worker rfl
    · trivial
  | deleteFetch worker =>
    obtain ⟨rfl, rfl⟩ := taken
    refine ⟨trivial, fun next goes => ?_⟩
    split at goes
    · cases goes
      split <;> exact holds_silent rfl rfl
    · cases goes
  | deleteSet worker =>
    simp only [statement, Option.some.injEq] at taken
    obtain ⟨rfl, rfl⟩ := taken
    refine ⟨trivial, ?_⟩
    rintro _ ⟨⟩
    exact holds_silent rfl rfl
  | deleteRow worker =>
    obtain ⟨rfl, rfl⟩ := taken
    exact ⟨trivial, nofun⟩

def Hashed (s : Setup) (d : Db) : Prop :=
  ∀ x ∈ d.workers, x.status ≠ .revoked → ∃ secret, d.sharedSecret = some secret ∧ x.workerTokenHash = s.hashSecret secret

/- effects that leave the secret and the hashes alone -/
def quiet : Effect → Bool
  | .mint _ | .insert _ | .setWorker .. | .setSiblings _ => false
  | _ => true

def writesHash : Call → Bool
  | .createMint .. | .createInsert .. | .rotateSecret .. | .rotateWorker .. | .rotateSiblings .. => true
  | _ => false

theorem Hashed.run (hashed : Hashed s d) (still : quiet e = true) : Hashed s (e.run d) := by
  intro x mem unrevoked
  cases e with
  | mint | insert | setWorker | setSiblings => cases still
  | nothing | issue | acknowledge => exact hashed x mem unrevoked
  | revoke id =>
    rcases (mem_update (setStatus_id .revoked)).mp mem with ⟨old, _⟩ | ⟨y, _, _, rfl⟩
    · exact hashed x old unrevoked
    · exact absurd rfl unrevoked
  | delete id => exact hashed x (mem_delete.mp mem).1 unrevoked
  | transition t =>
    rcases (mem_update (setStatus_id t.becomes)).mp mem with ⟨old, _⟩ | ⟨y, old, changed, rfl⟩
    · exact hashed x old unrevoked
    refine hashed y old (fun revoked => ?_)
    rw [revoked] at changed
    cases t <;> cases changed

theorem statement_quiet (plain : writesHash c = false) (taken : statement s d r c = some (e, after)) :
    quiet e = true := by
  cases c with
  | createMint | createInsert | rotateSecret | rotateWorker | rotateSiblings => cases plain
  | createBySlug name slug attempt =>
    cases slug <;>
    · simp only [statement, Option.some.injEq, Prod.mk.injEq] at taken
      exact taken.1 ▸ rfl
  | createFetch | rotateReturn | revokeReturn =>
    simp only [statement, Option.some.injEq, Prod.mk.injEq] at taken
    rw [← taken.1]
    split <;> rfl
  | revokeFetch id =>
    simp only [statement] at taken
    split at taken
    · split at taken <;> cases taken <;> rfl
    · cases taken
      rfl
  | _ =>
    simp only [statement, Option.some.injEq, Prod.mk.injEq] at taken
    exact taken.1 ▸ rfl

/-- The hashes are right, or some rotation has still to store its own. -/
def HashedSoon (s : Setup) (w : World) : Prop := Hashed s w.db ∨ ∃ c ∈ w.calls, pending c.task = true

theorem statement_hashes {c : Process Call} (soon : HashedSoon s w) (mem : c ∈ w.calls)
    (safe : CallSafe s w c.id c.task) (taken : statement s w.db r c.task = some (e, after)) :
    Hashed s (e.run w.db) ∨ (∃ next, after = .next next ∧ pending next = true) ∨
      ∃ c' ∈ w.calls, c'.id ≠ c.id ∧ pending c'.task = true := by
  by_cases other : ∃ c' ∈ w.calls, c'.id ≠ c.id ∧ pending c'.task = true
  · exact .inr (.inr other)
  have own : pending c.task = false → Hashed s w.db := by
    intro done
    rcases soon with hashed | ⟨c', mem', waits⟩
    · exact hashed
    by_cases same : c'.id = c.id
    · rw [w.calls.eq_of_key mem' mem same, done] at waits
      cases waits
    · exact absurd ⟨c', mem', same, waits⟩ other
  by_cases plain : writesHash c.task = false
  · refine .inl ((own ?_).run (statement_quiet plain taken))
    cases task : c.task <;> rw [task] at plain <;> first | rfl | cases plain
  generalize c.task = task at *
  cases task with
  | createMint name slug =>
    have hashed := own rfl
    simp only [statement] at taken
    split at taken
    · cases taken
    simp only [Option.some.injEq, Prod.mk.injEq] at taken
    rw [← taken.1]
    refine .inl ?_
    split
    · rename_i missing
      intro x there unrevoked
      obtain ⟨_, known, _⟩ := hashed x there unrevoked
      rw [missing] at known
      cases known
    · exact hashed
  | createInsert name slug secret attempt port =>
    have hashed := own rfl
    simp only [statement] at taken
    split at taken
    · cases taken
    split at taken
    · rename_i admitted
      simp only [Option.some.injEq, Prod.mk.injEq] at taken
      rw [← taken.1]
      rcases (safe admitted).1 with current | later
      · refine .inl (fun x there unrevoked => ?_)
        rcases mem_inserted there with rfl | old
        · exact ⟨secret, current, rfl⟩
        · exact hashed x old unrevoked
      · exact absurd later other
    · simp only [Option.some.injEq, Prod.mk.injEq] at taken
      rw [← taken.1]
      exact .inl hashed
  | rotateSecret id status =>
    simp only [statement] at taken
    split at taken
    · cases taken
    · simp only [Option.some.injEq, Prod.mk.injEq] at taken
      exact .inr (.inl ⟨_, taken.2.symm, rfl⟩)
  | rotateWorker id status secret =>
    simp only [statement, Option.some.injEq, Prod.mk.injEq] at taken
    exact .inr (.inl ⟨_, taken.2.symm, rfl⟩)
  | rotateSiblings id secret =>
    simp only [statement, Option.some.injEq, Prod.mk.injEq] at taken
    rw [← taken.1]
    rcases safe with current | later
    · refine .inl (fun x there unrevoked => ?_)
      rcases (mem_update (setHash_id (s.hashSecret secret))).mp there with ⟨_, dead⟩ | ⟨y, _, _, rfl⟩
      · exact absurd (live_iff.mpr unrevoked) (Bool.eq_false_iff.mp dead)
      · exact ⟨secret, current, rfl⟩
    · exact absurd later other
  | _ => exact absurd rfl plain

end HostingPlatform.PrivateWorkers
