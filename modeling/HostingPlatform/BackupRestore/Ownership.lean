import HostingPlatform.BackupRestore.Executors
import HostingPlatform.Transition

/-! What the execution of a cart changes of other tenants: their rows, their mailboxes and their
principals, by the rows that name the tenant when the change is made. -/
namespace HostingPlatform.BackupRestore

open Option List TenantBundles.Config Transition

def Foreign (tenantId : Nat) (db : Database) (table : TableName) (row : Row) : Prop :=
  ∃ other, other ≠ tenantId ∧ belongsTo db table other row = true

section ownership

variable (toLowerCase : String → String) (tenantId : Nat)

def ForeignAddress (db : Database) (address : String) : Prop :=
  ∃ row ∈ db .mailboxes, toLowerCase (fullAddress row) = address ∧ Foreign tenantId db .mailboxes row

structure Untouched (s s' : Platform) : Prop where
  rows : ∀ table, ∀ row ∈ s.db table, Foreign tenantId s.db table row → row ∈ s'.db table
  principals : ∀ address p, s.principals address = some p →
    ForeignAddress toLowerCase tenantId s.db address → s'.principals address = some p

/- no write of an execution changed what was another tenant's at that moment -/
def Harmless : Platform → List Platform → Prop
  | _, [] => True
  | now, before :: past => Untouched toLowerCase tenantId before now ∧ Harmless before past

def Trail.Harmless (t : Trail) : Prop := BackupRestore.Harmless toLowerCase tenantId t.now t.past

/-- Of the rows that are applied, those that have the id of another tenant's row leave it as it is. -/
def RowsSpared (wire : Wire) (fate : Fate) (db : Database)
    (planned : Except Failure (List (TableName × Row))) : Prop :=
  ∀ rows, planned = .ok rows → fate.transaction = none → ∀ entry ∈ rows, ∀ live,
    rowAt (db entry.1) entry.2.id = some live → Foreign tenantId db entry.1 live →
      merged (restored wire entry.1 entry.2) live = live

section mail

variable (fate : MailFate) (rows : List Row)

def BackfillSpared (s : Platform) (address : String) : Prop :=
  fate.lookup address = none → s.principals (toLowerCase address) = none → ∀ row id,
    byAddress toLowerCase rows address = some row → fate.create (fullAddress row) = .ok id →
      fate.backfill (fullAddress row) = none → Foreign tenantId s.db .mailboxes row →
        setPrincipalId id row = row

/-- An address has a principal, or it is created. -/
def Ensured (s : Platform) (address : String) : Prop :=
  fate.lookup address = none ∧
    (s.principals (toLowerCase address) ≠ none ∨
      ∃ row id, byAddress toLowerCase rows address = some row ∧
        fate.create (fullAddress row) = .ok id ∧ fate.backfill (fullAddress row) = none)

/- the mail of an account; a new one has none -/
def mailAt (s : Platform) (address : String) : List Message := (s.principals address).elim [] Principal.mail

/- the addresses that the Job gets through, with their archives -/
def reached (bundle : Option Bundle) : List String → List (String × List Message)
  | [] => []
  | address :: rest =>
    match bundle.bind (archiveOf · address) with
    | none => []
    | some archive =>
      if fate.reaches address then (address, archive) :: reached bundle rest else []

/-- The restore leaves the mail of another tenant's address as it is. -/
def MailSpared (s : Platform) (mode : RestoreMode) (entry : String × List Message) : Prop :=
  ForeignAddress toLowerCase tenantId s.db (toLowerCase entry.1) →
    restoreMaildir mode entry.2 (mailAt s (toLowerCase entry.1)) = mailAt s (toLowerCase entry.1)

end mail

def AddressesSpared (fate : MailFate) (s : Platform) (bundle : Option Bundle) (mode : RestoreMode)
    (addresses : List String) : Prop :=
  fate.session = none → fate.select = none →
    (∀ address ∈ addresses,
      BackfillSpared toLowerCase tenantId fate (mailboxRows s.db addresses) s address) ∧
    ((∀ address ∈ addresses, Ensured toLowerCase fate (mailboxRows s.db addresses) s address) →
      (∀ address ∈ addresses, isSafeAddress address = true) → fate.createJob = none →
        ∀ entry ∈ reached fate bundle addresses, MailSpared toLowerCase tenantId s mode entry)

/-- What an item is applied to is the tenant's own, or is left as it is. -/
def Spared (wire : Wire) (job : Option RestoreJob) (s : Platform) (visit : Visit) : Prop :=
  let read := readAndAuthorizeConfigDump job visit.item.restoreJobId visit.item.bundleId visit.bundle
  match visit.item.payload with
  | .configTables selector =>
    RowsSpared tenantId wire visit.fate s.db (read.bind (configTablesRows selector))
  | .deploymentsById selector =>
    RowsSpared tenantId wire visit.fate s.db
      (read.bind (idFilteredRows "deployments-by-id" .deployments selector))
  | .domainsById selector =>
    RowsSpared tenantId wire visit.fate s.db (read.bind (idFilteredRows "domains-by-id" .domains selector))
  | .mailboxesByAddress selector =>
    ∀ mode addresses, targets job visit.item visit.bundle selector = .ok (mode, addresses) →
      AddressesSpared toLowerCase tenantId visit.mail s visit.bundle mode addresses
  | .filesPaths _ | .unknown _ => True

/-- The bundle was captured for the tenant, at any time. -/
def CapturedFor (visit : Visit) : Prop :=
  ∀ bundle, visit.bundle = some bundle → ∀ dump, bundle.config = .ok dump →
    ∃ db now, dump = buildConfigDump db tenantId now

end ownership

section steps

variable {toLowerCase : String → String} {tenantId : Nat}

theorem untouched_refl (s : Platform) : Untouched toLowerCase tenantId s s :=
  ⟨fun _ _ mem _ => mem, fun _ _ found _ => found⟩

def Alike (planned : Except Failure (List (TableName × Row))) : Prop :=
  ∀ rows, planned = .ok rows → ∃ captured tenantId, Dumped captured tenantId rows

variable {wire : Wire} {s : Platform} {row : Row} {fate : MailFate} {bundle : Option Bundle}
  {mode : RestoreMode} {addresses : List String} {visit : Visit} {owner : Nat} {job : Option RestoreJob}

theorem untouched_restoreRows {fate : Fate} {planned : Except Failure (List (TableName × Row))}
    (alike : Alike planned) : Untouched toLowerCase tenantId s { s with db := (restoreRows wire fate s.db planned).1 } ↔
      RowsSpared tenantId wire fate s.db planned := by
  cases planned with
  | error failure => exact ⟨fun _ _ impossible => by contradiction, fun _ => untouched_refl s⟩
  | ok rows =>
    cases lost : fate.transaction with
    | some message =>
      refine ⟨fun _ _ _ committed => ?_, fun _ => ?_⟩
      · rw [lost] at committed
        contradiction
      · simp only [restoreRows, lost]
        exact untouched_refl s
    | none =>
      obtain ⟨captured, owner, dumped⟩ := alike rows rfl
      have after : (restoreRows wire fate s.db (.ok rows)).1 = rows.foldl (upsertRow wire) s.db := by
        simp [restoreRows, lost]
      rw [after]
      constructor
      · intro untouched _ same _ entry mem live found foreign
        cases same
        have kept := untouched.rows entry.1 live (rowAt_iff.mp found).1 foreign
        have own := (rowAt_iff.mp found).2
        have now := rowAt_restore wire rows s.db mem (dumped.alike mem)
        rw [found] at now
        exact some.inj (now.symm.trans (rowAt_iff.mpr ⟨kept, own⟩))
      · intro spared
        refine ⟨?_, fun _ _ found _ => found⟩
        intro table row mem foreign
        have here : rowAt (s.db table) row.id = some row := rowAt_iff.mpr ⟨mem, rfl⟩
        by_cases applied : ∃ entry ∈ rows, entry.1 = table ∧ entry.2.id = row.id
        · obtain ⟨entry, there, rfl, own⟩ := applied
          rw [← own] at here
          have now := rowAt_restore wire rows s.db there (dumped.alike there)
          rw [here] at now
          have same := spared rows rfl lost entry there row here foreign
          exact (rowAt_iff.mp (now.trans (congrArg some same))).1
        · have now : rowAt (rows.foldl (upsertRow wire) s.db table) row.id = rowAt (s.db table) row.id :=
            rowAt_restore_other wire rows s.db fun entry there same own => applied ⟨entry, there, same, own⟩
          exact (rowAt_iff.mp (now.trans here)).1

theorem get_setPrincipalId (id : Nat) (row : Row) {column : String}
    (other : column ≠ "stalwart_principal_id") : (setPrincipalId id row).get column = row.get column := by
  unfold Row.get setPrincipalId
  rw [get_mapColumns]
  cases row.columns.get column <;> simp [other]

theorem foreign_setPrincipalId {db db' : Database} (id : Nat) (row : Row) :
    Foreign tenantId db' .mailboxes (setPrincipalId id row) ↔ Foreign tenantId db .mailboxes row := by
  have same : (setPrincipalId id row).get "tenant_id" = row.get "tenant_id" :=
    get_setPrincipalId id row (by decide)
  simp [Foreign, belongsTo, refersTo, same]

theorem fullAddress_setPrincipalId (id : Nat) (row : Row) : fullAddress (setPrincipalId id row) = fullAddress row := by
  unfold fullAddress
  rw [get_setPrincipalId id row (by decide)]

theorem mem_backfill {rowId id : Nat} : row ∈ (backfill rowId id s).db .mailboxes ↔
      row ∈ s.db .mailboxes ∧ row.id ≠ rowId ∨
        ∃ old ∈ s.db .mailboxes, old.id = rowId ∧ setPrincipalId id old = row := by
  have set : (backfill rowId id s).db .mailboxes =
      (s.db .mailboxes).update (fun row => row.id == rowId) (setPrincipalId id) (setPrincipalId_id id) := rfl
  rw [set, Table.mem_update]
  simp

theorem untouched_backfill (mem : row ∈ s.db .mailboxes) (id : Nat) :
    Untouched toLowerCase tenantId s (backfill row.id id s) ↔
      (Foreign tenantId s.db .mailboxes row → setPrincipalId id row = row) := by
  constructor
  · intro untouched foreign
    rcases mem_backfill.mp (untouched.rows .mailboxes row mem foreign) with ⟨_, other⟩ | ⟨old, was, own, same⟩
    · exact absurd rfl other
    · rw [(s.db .mailboxes).eq_of_key was mem own] at same
      exact same
  intro spared
  refine ⟨?_, fun _ _ found _ => found⟩
  intro table row' there foreign
  by_cases mailboxes : table = .mailboxes
  · subst mailboxes
    by_cases own : row'.id = row.id
    · cases (s.db .mailboxes).eq_of_key there mem own
      exact mem_backfill.mpr (.inr ⟨row, mem, rfl, spared foreign⟩)
    · exact mem_backfill.mpr (.inl ⟨there, own⟩)
  · have kept : (backfill row.id id s).db table = s.db table := if_neg mailboxes
    exact kept ▸ there

theorem untouched_createMailbox {s : Platform} {address : String} (id : Nat)
    (absent : s.principals (toLowerCase address) = none) :
    Untouched toLowerCase tenantId s (createMailbox toLowerCase address id s) := by
  refine ⟨fun _ _ mem _ => mem, ?_⟩
  intro a p found _
  have other : a ≠ toLowerCase address := by
    rintro rfl
    rw [absent] at found
    contradiction
  exact (if_neg other).trans found

theorem untouched_importMail {s : Platform} {address : String} {mode : RestoreMode} {archive : List Message}
    (present : (s.principals (toLowerCase address)).isSome = true) :
    Untouched toLowerCase tenantId s (importMail toLowerCase mode archive address s) ↔
      MailSpared toLowerCase tenantId s mode (address, archive) := by
  obtain ⟨p, found⟩ := isSome_iff_exists.mp present
  have mail : mailAt s (toLowerCase address) = p.mail := by rw [mailAt, found]; rfl
  have after : (importMail toLowerCase mode archive address s).principals (toLowerCase address) =
      some { p with mail := restoreMaildir mode archive p.mail } := by
    simp [importMail, found]
  unfold MailSpared
  rw [mail]
  constructor
  · intro untouched foreign
    have kept := untouched.principals _ p found foreign
    rw [after] at kept
    exact congrArg Principal.mail (some.inj kept)
  intro spared
  refine ⟨fun _ _ mem _ => mem, ?_⟩
  intro a q there foreign
  by_cases own : a = toLowerCase address
  · subst own
    cases found.symm.trans there
    rw [after, spared foreign]
  · exact (if_neg own).trans there

section ensure

variable {fate : MailFate} {rows : List Row}

variable {address : String} {row : Row} {s : Platform} {id : Nat}

theorem byAddress_some (found : byAddress toLowerCase rows address = some row) :
    row ∈ rows ∧ toLowerCase (fullAddress row) = toLowerCase address := by
  have own := find?_some found
  exact ⟨mem_reverse.mp (mem_of_find?_eq_some found), eq_of_beq own⟩

theorem byAddress_congr {address' : String} (same : toLowerCase address = toLowerCase address') :
    byAddress toLowerCase rows address = byAddress toLowerCase rows address' := by
  unfold byAddress
  rw [same]

structure Creates (toLowerCase : String → String) (fate : MailFate) (rows : List Row) (s : Platform)
    (address : String) (row : Row) (id : Nat) : Prop where
  lookup : fate.lookup address = none
  absent : s.principals (toLowerCase address) = none
  found : byAddress toLowerCase rows address = some row
  create : fate.create (fullAddress row) = .ok id

theorem Creates.same {row' : Row} {id' : Nat} (creates : Creates toLowerCase fate rows s address row id)
    (found : byAddress toLowerCase rows address = some row')
    (create : fate.create (fullAddress row') = .ok id') : row' = row ∧ id' = id := by
  cases creates.found.symm.trans found
  cases creates.create.symm.trans create
  exact ⟨rfl, rfl⟩

/- what ensureStalwartPrincipals does for one address -/
inductive Ensuring (toLowerCase : String → String) (fate : MailFate) (rows : List Row) (t : Trail)
    (address : String) : Trail × EnsureOutcome → Prop where
  | existing (lookup : fate.lookup address = none)
      (present : t.now.principals (toLowerCase address) ≠ none) :
      Ensuring toLowerCase fate rows t address (t, .existing)
  | failed (reason : String) (ensures : ¬ Ensured toLowerCase fate rows t.now address)
      (creates : ∀ row id, ¬ Creates toLowerCase fate rows t.now address row id) :
      Ensuring toLowerCase fate rows t address (t, .failed reason)
  | created (row : Row) (id : Nat) (reason : String)
      (creates : Creates toLowerCase fate rows t.now address row id)
      (refused : fate.backfill (fullAddress row) = some reason) :
      Ensuring toLowerCase fate rows t address
        (t.write (createMailbox toLowerCase (fullAddress row) id), .failed reason)
  | recreated (row : Row) (id : Nat) (creates : Creates toLowerCase fate rows t.now address row id)
      (filled : fate.backfill (fullAddress row) = none) :
      Ensuring toLowerCase fate rows t address
        ((t.write (createMailbox toLowerCase (fullAddress row) id)).write (backfill row.id id),
          .recreated id)

theorem ensuring (t : Trail) (address : String) :
    Ensuring toLowerCase fate rows t address (ensureOne toLowerCase fate rows t address) := by
  unfold ensureOne
  cases lookup : fate.lookup address with
  | some message =>
    apply Ensuring.failed message
    · intro ensured
      exact absurd (lookup.symm.trans ensured.1) (by simp)
    · intro row id creates
      exact absurd (lookup.symm.trans creates.lookup) (by simp)
  | none =>
    cases present : t.now.principals (toLowerCase address) with
    | some p => exact .existing lookup (by simp [present])
    | none =>
      -- without a principal it depends on the row and on what Stalwart says
      have needs : Ensured toLowerCase fate rows t.now address → ∃ row id,
          byAddress toLowerCase rows address = some row ∧ fate.create (fullAddress row) = .ok id :=
        fun ensured => (ensured.2.resolve_left (not_not.mpr present)).imp
          fun _ => Exists.imp fun _ both => ⟨both.1, both.2.1⟩
      cases found : byAddress toLowerCase rows address with
      | none =>
        apply Ensuring.failed
        · intro ensured
          obtain ⟨row, id, other, _⟩ := needs ensured
          exact absurd (found.symm.trans other) (by simp)
        · intro row id creates
          exact absurd (found.symm.trans creates.found) (by simp)
      | some row =>
        cases create : fate.create (fullAddress row) with
        | error message =>
          simp only [create]
          apply Ensuring.failed
          · intro ensured
            obtain ⟨_, id, other, created⟩ := needs ensured
            cases found.symm.trans other
            exact absurd (create.symm.trans created) (by simp)
          · intro _ id creates
            cases found.symm.trans creates.found
            exact absurd (create.symm.trans creates.create) (by simp)
        | ok id =>
          have creates : Creates toLowerCase fate rows t.now address row id := ⟨lookup, present, found, create⟩
          cases backfill : fate.backfill (fullAddress row) with
          | some reason =>
            simp only [create, backfill]
            exact .created row id reason creates backfill
          | none =>
            simp only [create, backfill]
            exact .recreated row id creates backfill

def Created (toLowerCase : String → String) (s s' : Platform) (address : String) (id : Nat) : Prop :=
  ∀ a, s'.principals a = if a = toLowerCase address then some ⟨id, []⟩ else s.principals a

theorem Creates.created (creates : Creates toLowerCase fate rows s address row id) :
    Created toLowerCase s (createMailbox toLowerCase (fullAddress row) id s) address id := by
  intro a
  rw [← (byAddress_some creates.found).2]
  rfl

theorem spared_after {s' : Platform} (creates : Creates toLowerCase fate rows s address row id)
    (created : Created toLowerCase s s' address id)
    (spared : BackfillSpared toLowerCase tenantId fate rows s address) (address' : String) :
    BackfillSpared toLowerCase tenantId fate rows s' address' ↔
      BackfillSpared toLowerCase tenantId fate rows s address' := by
  constructor
  · intro after lookup absent row' id' found create filled foreign
    by_cases same : toLowerCase address' = toLowerCase address
    · rw [byAddress_congr same] at found
      exact spared creates.lookup creates.absent row' id' found create filled foreign
    · exact after lookup ((created _).trans ((if_neg same).trans absent)) row' id' found create filled foreign
  intro before lookup absent row' id' found create filled foreign
  have other : toLowerCase address' ≠ toLowerCase address := by
    intro same
    rw [created, if_pos same] at absent
    contradiction
  rw [created, if_neg other] at absent
  exact before lookup absent row' id' found create filled foreign

theorem ensured_after {s' : Platform} (creates : Creates toLowerCase fate rows s address row id)
    (filled : fate.backfill (fullAddress row) = none) (created : Created toLowerCase s s' address id)
    (address' : String) : Ensured toLowerCase fate rows s' address' ↔ Ensured toLowerCase fate rows s address' := by
  refine and_congr Iff.rfl ?_
  rw [created]
  by_cases same : toLowerCase address' = toLowerCase address
  · rw [if_pos same, byAddress_congr same]
    exact ⟨fun _ => .inr ⟨row, id, creates.found, creates.create, filled⟩, fun _ => .inl (by simp)⟩
  · rw [if_neg same]

/-- The row of an address without a principal is in the database as it was read. -/
def Held (toLowerCase : String → String) (rows : List Row) (s : Platform) : Prop :=
  ∀ address row, s.principals (toLowerCase address) = none →
    byAddress toLowerCase rows address = some row → row ∈ s.db .mailboxes

theorem held_created (held : Held toLowerCase rows s) (creates : Creates toLowerCase fate rows s address row id) :
    Held toLowerCase rows (createMailbox toLowerCase (fullAddress row) id s) := by
  intro address' row' absent found
  apply held address' row' _ found
  rw [creates.created] at absent
  split at absent
  · contradiction
  · exact absent

theorem held_backfilled (held : Held toLowerCase rows s) (creates : Creates toLowerCase fate rows s address row id) :
    Held toLowerCase rows (backfill row.id id (createMailbox toLowerCase (fullAddress row) id s)) := by
  intro address' row' absent found
  have was := held_created held creates address' row' absent found
  refine mem_backfill.mpr (.inl ⟨was, ?_⟩)
  intro own
  have mem := held address row creates.absent creates.found
  cases (s.db .mailboxes).eq_of_key was mem own
  have same : toLowerCase address' = toLowerCase address :=
    (byAddress_some found).2.symm.trans (byAddress_some creates.found).2
  have now := creates.created (toLowerCase address')
  rw [if_pos same] at now
  exact absurd (now.symm.trans absent) (by simp)

/- the accounts are those of before and new ones without mail, and no address changed hands -/
structure Grown (toLowerCase : String → String) (tenantId : Nat) (s s' : Platform) : Prop where
  mail : ∀ a, mailAt s' a = mailAt s a
  foreign : ∀ a, ForeignAddress toLowerCase tenantId s'.db a ↔ ForeignAddress toLowerCase tenantId s.db a
  present : ∀ a, s.principals a ≠ none → s'.principals a ≠ none

theorem Grown.refl (s : Platform) : Grown toLowerCase tenantId s s :=
  ⟨fun _ => rfl, fun _ => Iff.rfl, fun _ present => present⟩

theorem Grown.trans {s' s'' : Platform} (first : Grown toLowerCase tenantId s s')
    (second : Grown toLowerCase tenantId s' s'') : Grown toLowerCase tenantId s s'' where
  mail := fun a => (second.mail a).trans (first.mail a)
  foreign := fun a => (second.foreign a).trans (first.foreign a)
  present := fun a present => second.present a (first.present a present)

theorem grown_created (creates : Creates toLowerCase fate rows s address row id) :
    Grown toLowerCase tenantId s (createMailbox toLowerCase (fullAddress row) id s) where
  mail := by
    intro a
    unfold mailAt
    rw [creates.created]
    split
    · rename_i same
      rw [same, creates.absent]
      rfl
    · rfl
  foreign := fun _ => Iff.rfl
  present := by
    intro a present
    rw [creates.created]
    split
    · simp
    · exact present

theorem grown_backfill (s : Platform) (rowId id : Nat) : Grown toLowerCase tenantId s (backfill rowId id s) where
  mail := fun _ => rfl
  foreign := by
    intro a
    constructor
    · rintro ⟨row, mem, own, foreign⟩
      rcases mem_backfill.mp mem with ⟨was, _⟩ | ⟨old, was, _, rfl⟩
      · exact ⟨row, was, own, foreign⟩
      · exact ⟨old, was, (fullAddress_setPrincipalId id old) ▸ own, (foreign_setPrincipalId id old).mp foreign⟩
    rintro ⟨row, mem, own, foreign⟩
    by_cases same : row.id = rowId
    · refine ⟨setPrincipalId id row, mem_backfill.mpr (.inr ⟨row, mem, same, rfl⟩), ?_, ?_⟩
      · rw [fullAddress_setPrincipalId]
        exact own
      · exact (foreign_setPrincipalId id row).mpr foreign
    · exact ⟨row, mem_backfill.mpr (.inl ⟨mem, same⟩), own, foreign⟩
  present := fun _ present => present

section one

variable {t : Trail} {address : String} {done : Trail × EnsureOutcome}

section

variable (ensuring : Ensuring toLowerCase fate rows t address done)
include ensuring

theorem Ensuring.grown : Grown toLowerCase tenantId t.now done.1.now := by
  cases ensuring with
  | existing | failed => exact Grown.refl t.now
  | created row id reason creates => exact grown_created creates
  | recreated row id creates => exact (grown_created creates).trans (grown_backfill _ row.id id)

theorem Ensuring.held (held : Held toLowerCase rows t.now) : Held toLowerCase rows done.1.now := by
  cases ensuring with
  | existing | failed => exact held
  | created row id reason creates => exact held_created held creates
  | recreated row id creates => exact held_backfilled held creates

theorem Ensuring.harmless (held : Held toLowerCase rows t.now) : done.1.Harmless toLowerCase tenantId ↔
      t.Harmless toLowerCase tenantId ∧ BackfillSpared toLowerCase tenantId fate rows t.now address := by
  cases ensuring with
  | existing lookup present =>
    refine (and_iff_left ?_).symm
    intro _ absent
    exact absurd absent present
  | failed reason ensures creates =>
    refine (and_iff_left ?_).symm
    intro lookup absent row id found create
    exact absurd ⟨lookup, absent, found, create⟩ (creates row id)
  | created row id reason creates refused =>
    have untouched := @untouched_createMailbox toLowerCase tenantId t.now (fullAddress row) id
      (by rw [(byAddress_some creates.found).2]; exact creates.absent)
    constructor
    · rintro ⟨_, before⟩
      refine ⟨before, ?_⟩
      intro _ _ row' id' found create filled
      obtain ⟨rfl, _⟩ := creates.same found create
      rw [refused] at filled
      contradiction
    · exact fun both => ⟨untouched, both.1⟩
  | recreated row id creates filled =>
    have untouched := @untouched_createMailbox toLowerCase tenantId t.now (fullAddress row) id
      (by rw [(byAddress_some creates.found).2]; exact creates.absent)
    have mem : row ∈ (createMailbox toLowerCase (fullAddress row) id t.now).db .mailboxes :=
      held address row creates.absent creates.found
    constructor
    · rintro ⟨filledIn, _, before⟩
      refine ⟨before, ?_⟩
      intro _ _ row' id' found create _ foreign
      obtain ⟨rfl, rfl⟩ := creates.same found create
      exact (untouched_backfill mem id').mp filledIn foreign
    · rintro ⟨before, spared⟩
      refine ⟨(untouched_backfill mem id).mpr ?_, untouched, before⟩
      exact spared creates.lookup creates.absent row id creates.found creates.create filled

theorem Ensuring.spared (spared : BackfillSpared toLowerCase tenantId fate rows t.now address) (address' : String) :
    BackfillSpared toLowerCase tenantId fate rows done.1.now address' ↔
      BackfillSpared toLowerCase tenantId fate rows t.now address' := by
  cases ensuring with
  | existing | failed => exact Iff.rfl
  | created row id reason creates | recreated row id creates =>
    exact spared_after creates creates.created spared address'

theorem Ensuring.outcome :
    EnsureOutcome.failure (address, done.2) = none ↔ Ensured toLowerCase fate rows t.now address := by
  cases ensuring with
  | existing lookup present => exact ⟨fun _ => ⟨lookup, .inl present⟩, fun _ => rfl⟩
  | failed reason ensures => exact ⟨fun impossible => by contradiction, fun ensured => absurd ensured ensures⟩
  | created row id reason creates refused =>
    constructor
    · intro impossible
      contradiction
    intro ensured
    obtain ⟨row', id', found, create, filled⟩ := ensured.2.resolve_left (not_not.mpr creates.absent)
    obtain ⟨rfl, _⟩ := creates.same found create
    exact absurd (refused.symm.trans filled) (by simp)
  | recreated row id creates filled =>
    exact ⟨fun _ => ⟨creates.lookup, .inr ⟨row, id, creates.found, creates.create, filled⟩⟩, fun _ => rfl⟩

theorem Ensuring.ensured (ensured : Ensured toLowerCase fate rows t.now address) :
    done.1.now.principals (toLowerCase address) ≠ none ∧ ∀ address',
      Ensured toLowerCase fate rows done.1.now address' ↔ Ensured toLowerCase fate rows t.now address' := by
  cases ensuring with
  | existing lookup present => exact ⟨present, fun _ => Iff.rfl⟩
  | failed reason ensures => exact absurd ensured ensures
  | created row id reason creates refused =>
    obtain ⟨row', id', found, create, filled⟩ := ensured.2.resolve_left (not_not.mpr creates.absent)
    obtain ⟨rfl, _⟩ := creates.same found create
    exact absurd (refused.symm.trans filled) (by simp)
  | recreated row id creates filled =>
    refine ⟨?_, ensured_after creates filled creates.created⟩
    have now := creates.created (toLowerCase address)
    exact fun absent => absurd (now.symm.trans absent) (by simp)

end

end one

section all

variable {t : Trail} {addresses : List String}

theorem ensureAll_cons (address : String) : ensureAll toLowerCase fate rows t (address :: addresses) =
      ((ensureAll toLowerCase fate rows (ensureOne toLowerCase fate rows t address).1 addresses).1,
        (address, (ensureOne toLowerCase fate rows t address).2) ::
          (ensureAll toLowerCase fate rows (ensureOne toLowerCase fate rows t address).1 addresses).2) := rfl

theorem grown_ensureAll : Grown toLowerCase tenantId t.now (ensureAll toLowerCase fate rows t addresses).1.now := by
  induction addresses generalizing t with
  | nil => exact Grown.refl t.now
  | cons address rest ih => exact (ensuring t address).grown.trans ih

theorem harmless_ensureAll (held : Held toLowerCase rows t.now) :
    (ensureAll toLowerCase fate rows t addresses).1.Harmless toLowerCase tenantId ↔
      t.Harmless toLowerCase tenantId ∧
        ∀ address ∈ addresses, BackfillSpared toLowerCase tenantId fate rows t.now address := by
  induction addresses generalizing t with
  | nil => exact (and_iff_left (fun _ mem => absurd mem not_mem_nil)).symm
  | cons address rest ih =>
    have one := @ensuring toLowerCase fate rows t address
    rw [forall_mem_cons]
    refine (ih (one.held held)).trans ?_
    rw [one.harmless held, and_assoc]
    refine and_congr_right fun _ => and_congr_right fun spared => ?_
    exact forall₂_congr fun address' _ => one.spared spared address'

theorem ensured_ensureAll : (ensureAll toLowerCase fate rows t addresses).2.filterMap EnsureOutcome.failure = [] ↔
      ∀ address ∈ addresses, Ensured toLowerCase fate rows t.now address := by
  induction addresses generalizing t with
  | nil => exact ⟨fun _ _ mem => absurd mem not_mem_nil, fun _ => rfl⟩
  | cons address rest ih =>
    have one := @ensuring toLowerCase fate rows t address
    rw [forall_mem_cons, ← one.outcome, ensureAll_cons]
    cases failure : EnsureOutcome.failure (address, (ensureOne toLowerCase fate rows t address).2) with
    | some message =>
      rw [filterMap_cons_some failure]
      simp
    | none =>
      rw [filterMap_cons_none failure, ih]
      have ensured := one.outcome.mp failure
      simp only [true_and]
      exact forall₂_congr fun address' _ => (one.ensured ensured).2 address'

theorem present_ensureAll (ensured : ∀ address ∈ addresses, Ensured toLowerCase fate rows t.now address) :
    ∀ address ∈ addresses,
      (ensureAll toLowerCase fate rows t addresses).1.now.principals (toLowerCase address) ≠ none := by
  induction addresses generalizing t with
  | nil => exact fun _ mem => absurd mem not_mem_nil
  | cons address rest ih =>
    have one := (@ensuring toLowerCase fate rows t address).ensured (ensured address mem_cons_self)
    intro address' mem
    rcases mem_cons.mp mem with rfl | later
    · exact (@grown_ensureAll toLowerCase 0 fate rows _ rest).present _ one.1
    · refine ih ?_ address' later
      exact fun a there => (one.2 a).mpr (ensured a (mem_cons_of_mem _ there))

end all

theorem held_mailboxRows (s : Platform) (addresses : List String) : Held toLowerCase (mailboxRows s.db addresses) s :=
  fun _ _ _ found => (Table.mem_selectAll.mp (byAddress_some found).1).1

end ensure

section job

variable {fate : MailFate} {mode : RestoreMode} {bundle : Option Bundle}

variable {s : Platform} {address : String} {archive : List Message}

theorem mailAt_importMail_other {a : String} (other : a ≠ toLowerCase address) :
    mailAt (importMail toLowerCase mode archive address s) a = mailAt s a := by
  have same : (importMail toLowerCase mode archive address s).principals a = s.principals a := if_neg other
  rw [mailAt, same, mailAt]

theorem mailAt_importMail (present : s.principals (toLowerCase address) ≠ none) :
    mailAt (importMail toLowerCase mode archive address s) (toLowerCase address) =
      restoreMaildir mode archive (mailAt s (toLowerCase address)) := by
  obtain ⟨p, found⟩ := ne_none_iff_exists'.mp present
  simp [mailAt, importMail, found]

theorem mailSpared_after (present : s.principals (toLowerCase address) ≠ none)
    (spared : MailSpared toLowerCase tenantId s mode (address, archive)) (entry : String × List Message) :
    MailSpared toLowerCase tenantId (importMail toLowerCase mode archive address s) mode entry ↔
      MailSpared toLowerCase tenantId s mode entry := by
  refine forall_congr' fun foreign => ?_
  have same : mailAt (importMail toLowerCase mode archive address s) (toLowerCase entry.1) =
      mailAt s (toLowerCase entry.1) := by
    by_cases own : toLowerCase entry.1 = toLowerCase address
    · rw [own, mailAt_importMail present]
      exact spared (own ▸ foreign)
    · exact mailAt_importMail_other own
  rw [same]

section

variable {t : Trail} {addresses : List String}
  (present : ∀ address ∈ addresses, t.now.principals (toLowerCase address) ≠ none)
include present

theorem harmless_runJob : (runJob toLowerCase mode fate bundle t addresses).1.Harmless toLowerCase tenantId ↔
      t.Harmless toLowerCase tenantId ∧
        ∀ entry ∈ reached fate bundle addresses, MailSpared toLowerCase tenantId t.now mode entry := by
  induction addresses generalizing t with
  | nil => exact (and_iff_left (fun _ mem => absurd mem not_mem_nil)).symm
  | cons address rest ih =>
    have here := present address mem_cons_self
    have isSome : (t.now.principals (toLowerCase address)).isSome = true := isSome_iff_ne_none.mpr here
    unfold runJob reached
    cases archived : bundle.bind (archiveOf · address) with
    | none => exact (and_iff_left (fun _ mem => absurd mem not_mem_nil)).symm
    | some archive =>
      cases goes : fate.reaches address with
      | false => exact (and_iff_left (fun _ mem => absurd mem not_mem_nil)).symm
      | true =>
        simp only [isSome, Bool.and_self, if_true]
        have later : ∀ a ∈ rest,
            (importMail toLowerCase mode archive address t.now).principals (toLowerCase a) ≠ none := by
          intro a mem
          have before := present a (mem_cons_of_mem _ mem)
          unfold importMail
          dsimp only
          split
          · simpa using before
          · exact before
        rw [ih later, forall_mem_cons]
        have first := @untouched_importMail toLowerCase tenantId t.now address mode archive isSome
        constructor
        · rintro ⟨⟨untouched, before⟩, after⟩
          have spared := first.mp untouched
          exact ⟨before, spared, fun e mem => (mailSpared_after here spared e).mp (after e mem)⟩
        · rintro ⟨before, spared, after⟩
          exact ⟨⟨first.mpr spared, before⟩, fun e mem => (mailSpared_after here spared e).mpr (after e mem)⟩

theorem harmless_runRestore : (runRestore toLowerCase mode fate bundle addresses t).1.Harmless toLowerCase tenantId ↔
      t.Harmless toLowerCase tenantId ∧
        ((∀ address ∈ addresses, isSafeAddress address = true) → fate.createJob = none →
          ∀ entry ∈ reached fate bundle addresses, MailSpared toLowerCase tenantId t.now mode entry) := by
  unfold runRestore
  cases refused : addresses.find? (fun address => !isSafeAddress address) with
  | some address =>
    refine (and_iff_left ?_).symm
    intro safe
    have accepted := safe address (mem_of_find?_eq_some refused)
    have caught := find?_some refused
    rw [accepted] at caught
    contradiction
  | none =>
    have safe : ∀ address ∈ addresses, isSafeAddress address = true := by
      intro address mem
      simpa using find?_eq_none.mp refused address mem
    cases creates : fate.createJob with
    | some message => exact (and_iff_left (fun _ impossible => by contradiction)).symm
    | none =>
      have job := @harmless_runJob toLowerCase tenantId fate mode bundle t addresses present
      generalize runJob toLowerCase mode fate bundle t addresses = result at job ⊢
      have always : (∀ entry ∈ reached fate bundle addresses, MailSpared toLowerCase tenantId t.now mode entry) ↔
          ((∀ address ∈ addresses, isSafeAddress address = true) → (none : Option String) = none →
            ∀ entry ∈ reached fate bundle addresses, MailSpared toLowerCase tenantId t.now mode entry) :=
        ⟨fun spared _ _ => spared, fun spared => spared safe rfl⟩
      have spared := job.trans (and_congr_right fun _ => always)
      obtain ⟨t', done⟩ := result
      cases done with
      | false | true => exact spared

end

end job

theorem restoreMailboxes_ensured (session : fate.session = none) (select : fate.select = none)
    (found : (ensureAll toLowerCase fate (mailboxRows s.db addresses) (.start s) addresses).2.filterMap
      EnsureOutcome.failure = []) : restoreMailboxes toLowerCase fate s bundle mode addresses =
      runRestore toLowerCase mode fate bundle addresses
        (ensureAll toLowerCase fate (mailboxRows s.db addresses) (.start s) addresses).1 := by
  simp [restoreMailboxes, session, select, found]

theorem restoreMailboxes_not_ensured (session : fate.session = none) (select : fate.select = none)
    {detail : String} {details : List String}
    (found : (ensureAll toLowerCase fate (mailboxRows s.db addresses) (.start s) addresses).2.filterMap
      EnsureOutcome.failure = detail :: details) : restoreMailboxes toLowerCase fate s bundle mode addresses =
      ((ensureAll toLowerCase fate (mailboxRows s.db addresses) (.start s) addresses).1,
        some (ensureFailed (detail :: details))) := by
  simp [restoreMailboxes, session, select, found]

theorem harmless_restoreMailboxes :
    (restoreMailboxes toLowerCase fate s bundle mode addresses).1.Harmless toLowerCase tenantId ↔
      AddressesSpared toLowerCase tenantId fate s bundle mode addresses := by
  unfold AddressesSpared
  cases session : fate.session with
  | some message =>
    simp only [restoreMailboxes, session]
    exact ⟨fun _ impossible => by contradiction, fun _ => trivial⟩
  | none =>
    cases select : fate.select with
    | some message =>
      simp only [restoreMailboxes, session, select]
      exact ⟨fun _ _ impossible => by contradiction, fun _ => trivial⟩
    | none =>
      let rows := mailboxRows s.db addresses
      let done := ensureAll toLowerCase fate rows (.start s) addresses
      have harmless : done.1.Harmless toLowerCase tenantId ↔
          ∀ address ∈ addresses, BackfillSpared toLowerCase tenantId fate rows s address :=
        (harmless_ensureAll (held_mailboxRows s addresses)).trans (and_iff_right trivial)
      have grown : Grown toLowerCase tenantId s done.1.now :=
        @grown_ensureAll toLowerCase tenantId fate rows (.start s) addresses
      have ensured : done.2.filterMap EnsureOutcome.failure = [] ↔
          ∀ address ∈ addresses, Ensured toLowerCase fate rows s address := ensured_ensureAll
      -- the new accounts have no mail, and are no one else's for that
      have mail : ∀ entry, MailSpared toLowerCase tenantId done.1.now mode entry ↔
          MailSpared toLowerCase tenantId s mode entry := by
        intro entry
        unfold MailSpared
        rw [grown.foreign, grown.mail]
      have both : (restoreMailboxes toLowerCase fate s bundle mode addresses).1.Harmless toLowerCase tenantId ↔
          (∀ address ∈ addresses, BackfillSpared toLowerCase tenantId fate rows s address) ∧
            ((∀ address ∈ addresses, Ensured toLowerCase fate rows s address) →
              (∀ address ∈ addresses, isSafeAddress address = true) → fate.createJob = none →
                ∀ entry ∈ reached fate bundle addresses, MailSpared toLowerCase tenantId s mode entry) := by
        cases found : done.2.filterMap EnsureOutcome.failure with
        | nil =>
          have all := ensured.mp found
          rw [restoreMailboxes_ensured session select found]
          refine (harmless_runRestore (present_ensureAll all)).trans (and_congr harmless ?_)
          constructor
          · exact fun spared _ safe creates entry mem => (mail entry).mp (spared safe creates entry mem)
          · exact fun spared safe creates entry mem => (mail entry).mpr (spared all safe creates entry mem)
        | cons detail details =>
          rw [restoreMailboxes_not_ensured session select found]
          refine harmless.trans (and_iff_left ?_).symm
          intro all
          have none := ensured.mpr all
          rw [found] at none
          contradiction
      exact both.trans ⟨fun both _ _ => both, fun both => both rfl rfl⟩

theorem harmless_ofDatabase {done : Database × Option Failure} :
    (Trail.ofDatabase s done).1.Harmless toLowerCase tenantId ↔
      Untouched toLowerCase tenantId s { s with db := done.1 } :=
  and_iff_left trivial

theorem alike_planned (captured : CapturedFor owner visit) {rows : ConfigDump → Except Failure (List (TableName × Row))}
    (dumped : ∀ db now picked, rows (buildConfigDump db owner now) = .ok picked → Dumped db owner picked) :
    Alike ((readAndAuthorizeConfigDump job visit.item.restoreJobId visit.item.bundleId visit.bundle).bind
      rows) := by
  intro picked planned
  obtain ⟨dump, read, ok⟩ := Results.bind_ok planned
  obtain ⟨bundle, _, there, config, _⟩ := read_ok read
  obtain ⟨db, now, rfl⟩ := captured bundle there dump config
  exact ⟨db, owner, dumped db now picked ok⟩

theorem harmless_dispatch (captured : CapturedFor owner visit) (s : Platform) :
    (dispatchExecutor toLowerCase wire job s visit).1.Harmless toLowerCase tenantId ↔
      Spared toLowerCase tenantId wire job s visit := by
  unfold dispatchExecutor Spared
  cases visit.item.payload with
  | configTables selector =>
    refine harmless_ofDatabase.trans (untouched_restoreRows (alike_planned captured ?_))
    exact fun _ _ _ => configTablesRows_dumped
  | deploymentsById selector | domainsById selector =>
    refine harmless_ofDatabase.trans (untouched_restoreRows (alike_planned captured ?_))
    exact fun _ _ _ => idFilteredRows_dumped (by decide)
  | mailboxesByAddress selector =>
    dsimp only
    unfold execMailboxesByAddressItem
    cases resolved : targets job visit.item visit.bundle selector with
    | error failure => exact ⟨fun _ _ _ impossible => by contradiction, fun _ => trivial⟩
    | ok target =>
      obtain ⟨mode, addresses⟩ := target
      cases addresses with
      | nil =>
        refine ⟨fun _ => ?_, fun _ => trivial⟩
        rintro _ _ same _ _
        cases same
        exact ⟨fun _ mem => absurd mem not_mem_nil, fun _ _ _ _ mem => absurd mem not_mem_nil⟩
      | cons first rest =>
        refine harmless_restoreMailboxes.trans ⟨?_, fun spared => spared mode _ rfl⟩
        rintro spared _ _ same
        cases same
        exact spared
  | filesPaths _ | unknown _ => exact ⟨fun _ => trivial, fun _ => trivial⟩

end steps

def smoothMail : MailFate where
  session := none
  select := none
  lookup := fun _ => none
  create := fun _ => .ok 9
  backfill := fun _ => none
  createJob := none
  reaches := fun _ => true
  progress := none

def smoothly (payload : ItemPayload) (bundle : Bundle) : Visit where
  item := ⟨1, 1, 1, payload, 0, .applying, none⟩
  bundle := some bundle
  fate := ⟨none, none⟩
  mail := smoothMail
  files := none

def aBundle (mailboxes : List (String × List Message)) : Bundle :=
  ⟨.ok (buildConfigDump aDatabase 1 0), mailboxes⟩

theorem captured_aBundle (payload : ItemPayload) (mailboxes : List (String × List Message)) :
    CapturedFor 1 (smoothly payload (aBundle mailboxes)) := by
  intro bundle there dump config
  cases there
  cases config
  exact ⟨aDatabase, 0, rfl⟩

/- tenant 2 has the address now, and mail of its own -/
def reassigned : Platform where
  db := Database.set aDatabase .mailboxes (Table.empty.put
    ⟨5, ⟨[("tenant_id", .ref 2), ("full_address", .text "info@example.org"),
      ("stalwart_principal_id", .ref 4)], by decide⟩⟩)
  principals := fun a => if a = "info@example.org" then some ⟨4, [⟨some "new@example.org", 2⟩]⟩ else none

def replaceMail : Visit :=
  smoothly (.mailboxesByAddress ⟨.addresses "info@example.org" [], some "replace", true⟩)
    (aBundle [("info@example.org.mbox.tar.gz", [⟨some "old@example.org", 1⟩])])

end HostingPlatform.BackupRestore
