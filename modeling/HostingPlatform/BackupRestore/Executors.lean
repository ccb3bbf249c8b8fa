import HostingPlatform.BackupRestore.Schema
import HostingPlatform.Js.Value
import HostingPlatform.Results

/-! The executors that restore rows from the config component. -/
namespace HostingPlatform.BackupRestore

open Table List TenantBundles.Config

/-- What a column holds once a dumped value has gone through JSON, the driver and the column's type:
parameters of queries. Texts, ids and nulls come back as they were. -/
structure Wire where
  back : TableName → String → Cell → Cell
  null : ∀ table column, back table column .null = .null
  ref : ∀ table column id, back table column (.ref id) = .ref id
  text : ∀ table column s, back table column (.text s) = .text s

def notFound (message : String) : Failure := .api ⟨"NOT_FOUND", message, 404⟩

def validationError (message : String) : Failure := .api ⟨"VALIDATION_ERROR", message, 400⟩

/- `bundle`: none where the target has it no longer -/
def readAndAuthorizeConfigDump (job : Option RestoreJob) (restoreJobId bundleId : Nat)
    (bundle : Option Bundle) : Except Failure ConfigDump :=
  match bundle with
  | none => .error (notFound s!"Bundle {bundleId} not found on remote target")
  | some bundle =>
    match bundle.config with
    | .error message => .error (.error message)
    | .ok dump =>
      if dump.schemaVersion ≠ 1 then
        .error (.error s!"config dump has unknown schemaVersion {dump.schemaVersion}")
      else
        match job with
        | none => .error (notFound s!"Restore job {restoreJobId} not found")
        | some job =>
          if dump.tenantId ≠ job.tenantId then
            .error (validationError
              s!"Bundle's tenantId ({dump.tenantId}) does not match cart's tenantId ({job.tenantId}); refusing cross-tenant restore")
          else .ok dump

def Database.set (db : Database) (table : TableName) (rows : Rows) : Database :=
  fun t => if t = table then rows else db t

def mapColumns (f : String → Cell → Cell) (columns : Js.Record Cell) : Js.Record Cell where
  entries := columns.entries.map fun entry => (entry.1, f entry.1 entry.2)
  keyed := by
    rw [List.map_map]
    exact columns.keyed

def restored (wire : Wire) (table : TableName) (row : Row) : Row :=
  { row with columns := mapColumns (wire.back table) row.columns }

/- DO UPDATE SET each dumped column -/
def merged (dumped live : Row) : Row :=
  { live with columns := mapColumns (fun column cell => (dumped.columns.get column).getD cell) live.columns }

def rowAt (rows : Rows) (id : Nat) : Option Row := rows.select (fun row => row.id == id)

/- INSERT … ON CONFLICT (id) DO UPDATE -/
def written (new : Row) : Option Row → Row
  | none => new
  | some live => merged new live

def upsertRow (wire : Wire) (db : Database) (entry : TableName × Row) : Database :=
  let new := restored wire entry.1 entry.2
  Database.set db entry.1 ((db entry.1).put (written new (rowAt (db entry.1) new.id)))

/- what the transaction throws, which is rolled back then, and what the UPDATE of restore_items
throws after it -/
structure Fate where
  (transaction progress : Option String)

def restoreRows (wire : Wire) (fate : Fate) (db : Database)
    (planned : Except Failure (List (TableName × Row))) : Database × Option Failure :=
  match planned with
  | .error failure => (db, some failure)
  | .ok rows =>
    match fate.transaction with
    | some message => (db, some (.error message))
    | none => (rows.foldl (upsertRow wire) db, fate.progress.map .error)

/- must match the tables of the dump -/
def allowedTableToSql : List (String × TableName) :=
  [("tenants", .tenants), ("users", .users), ("domains", .domains), ("emailDomains", .emailDomains),
    ("mailboxes", .mailboxes), ("emailAliases", .emailAliases),
    ("mailSubmitCredentials", .mailSubmitCredentials), ("sshKeys", .sshKeys), ("sftpUsers", .sftpUsers),
    ("deployments", .deployments), ("ingressAuthConfigs", .ingressAuthConfigs),
    ("sslCertificates", .sslCertificates), ("cronJobs", .cronJobs), ("resourceQuotas", .resourceQuotas),
    ("tenantOidcProviders", .tenantOidcProviders), ("tenantMtlsProviders", .tenantMtlsProviders),
    ("tenantZitiProviders", .tenantZitiProviders), ("tenantZrokAccounts", .tenantZrokAccounts)]

/- a truthy `ALLOWED_TABLE_TO_SQL[t]` -/
def isAllowed (t : String) : Bool := (allowedTableToSql.lookup t).isSome || t ∈ Js.inherited

def checkTable (dump : ConfigDump) (t : String) : Except Failure Unit :=
  if !isAllowed t then .error (.error s!"config-tables: table '{t}' is not in the restore allow-list")
  else if (dump.rows t).isNone then
    .error (.error s!"config-tables: table '{t}' missing from the bundle dump")
  else .ok ()

def checkTables (dump : ConfigDump) : List String → Except Failure Unit
  | [] => .ok ()
  | t :: rest =>
    match checkTable dump t with
    | .error failure => .error failure
    | .ok () => checkTables dump rest

def tableRows (dump : ConfigDump) (t : String) : List (TableName × Row) :=
  match allowedTableToSql.lookup t with
  | none => []
  | some table => ((dump.rows t).getD []).map fun row => (table, row)

def pickedCamel (dump : ConfigDump) : ConfigTablesSelector → Except Failure (List String)
  | .all => .ok (dump.tables.map Prod.fst)
  | .tables tables => .ok tables
  | .unsupported json => .error (.error s!"config-tables: unsupported selector {json}")

def configTablesRows (selector : ConfigTablesSelector) (dump : ConfigDump) :
    Except Failure (List (TableName × Row)) :=
  (pickedCamel dump selector).bind fun picked =>
    (checkTables dump picked).map fun _ => picked.flatMap (tableRows dump)

def execConfigTablesItem (wire : Wire) (fate : Fate) (db : Database) (job : Option RestoreJob)
    (item : RestoreItem) (bundle : Option Bundle) (selector : ConfigTablesSelector) :
    Database × Option Failure :=
  restoreRows wire fate db
    ((readAndAuthorizeConfigDump job item.restoreJobId item.bundleId bundle).bind
      (configTablesRows selector))

def missingIds (key : String) (missing : List Nat) : Failure :=
  let sample := ", ".intercalate ((missing.take 5).map toString)
  let more := if 5 < missing.length then "…" else ""
  notFound s!"{key}: {missing.length} requested id(s) not present in bundle: {sample}{more}"

/- the rows that applyIdFilteredUpsert picks; `none` stands for all -/
def filteredRows (table : TableName) (dump : ConfigDump) :
    Option (List Nat) → Except Failure (List (TableName × Row))
  | none => .ok (((dump.rows table.key).getD []).map fun row => (table, row))
  | some ids =>
    let picked := ((dump.rows table.key).getD []).filter fun row => row.id ∈ ids
    if picked.length ≠ ids.eraseDups.length then
      .error (missingIds table.key (ids.eraseDups.filter fun id => !(picked.any fun row => row.id == id)))
    else .ok (picked.map fun row => (table, row))

def idsOf (type : String) : IdsSelector → Except Failure (Option (List Nat))
  | .all => .ok none
  | .ids first rest => .ok (some (first :: rest))
  | .unsupported json => .error (.error s!"{type}: unsupported selector {json}")

def idFilteredRows (type : String) (table : TableName) (selector : IdsSelector) (dump : ConfigDump) :
    Except Failure (List (TableName × Row)) :=
  (idsOf type selector).bind (filteredRows table dump)

def execByIdItem (type : String) (table : TableName) (wire : Wire) (fate : Fate) (db : Database)
    (job : Option RestoreJob) (item : RestoreItem) (bundle : Option Bundle) (selector : IdsSelector) :
    Database × Option Failure :=
  restoreRows wire fate db
    ((readAndAuthorizeConfigDump job item.restoreJobId item.bundleId bundle).bind
      (idFilteredRows type table selector))

def execDeploymentsByIdItem := execByIdItem "deployments-by-id" .deployments

def execDomainsByIdItem := execByIdItem "domains-by-id" .domains

variable {table : TableName} {t : String} {restoreJobId bundleId id tenantId : Nat} {wire : Wire}
  {fate : Fate} {row : Row} {rows : List (TableName × Row)} {now : Int} {captured : Database}
  {job : RestoreJob} {mailboxes : List (String × List Message)} {tables : List TableName}

theorem rows_buildConfigDump (db : Database) (tenantId : Nat) (now : Int) (dumped : table ∈ configDumpTables) :
    (buildConfigDump db tenantId now).rows table.key = some (selectTenantRows db table tenantId) := by
  cases table <;> first | rfl | exact absurd dumped (by decide)

theorem key_of_allowed (allowed : allowedTableToSql.lookup t = some table) :
    t = table.key ∧ table ∈ configDumpTables := by
  obtain ⟨before, after, split, _⟩ := lookup_eq_some_iff.mp allowed
  have mem : (t, table) ∈ allowedTableToSql := by
    rw [split]
    exact mem_append_right before mem_cons_self
  have every : ∀ entry ∈ allowedTableToSql, entry.1 = entry.2.key ∧ entry.2 ∈ configDumpTables := by
    decide
  exact every (t, table) mem

theorem get_mapColumns (f : String → Cell → Cell) (columns : Js.Record Cell) (column : String) :
    (mapColumns f columns).get column = (columns.get column).map (f column) := by
  obtain ⟨entries, keyed⟩ := columns
  unfold mapColumns Js.Record.get
  dsimp only
  clear keyed
  induction entries with
  | nil => rfl
  | cons entry rest ih =>
    rw [map_cons, lookup_cons, lookup_cons]
    by_cases same : column == entry.1
    · rw [same, eq_of_beq same]
      rfl
    · rw [Bool.eq_false_iff.mpr same]
      exact ih

theorem read_ok {job : Option RestoreJob} {bundle : Option Bundle} {dump : ConfigDump}
    (ok : readAndAuthorizeConfigDump job restoreJobId bundleId bundle = .ok dump) :
    ∃ b j, bundle = some b ∧ b.config = .ok dump ∧ job = some j ∧ dump.tenantId = j.tenantId := by
  unfold readAndAuthorizeConfigDump at ok
  cases bundle with
  | none => contradiction
  | some b =>
    cases config : b.config with
    | error message => simp [config] at ok
    | ok read =>
      simp only [config] at ok
      split at ok
      · contradiction
      cases job with
      | none => contradiction
      | some j =>
        dsimp only at ok
        split at ok
        · contradiction
        rename_i same
        cases ok
        exact ⟨b, j, rfl, config, rfl, not_not.mp same⟩

theorem restoreRows_planned {db db' : Database} {planned : Except Failure (List (TableName × Row))}
    (succeeded : restoreRows wire fate db planned = (db', none)) : ∃ rows, planned = .ok rows := by
  cases planned with
  | error failure => cases succeeded
  | ok rows => exact ⟨rows, rfl⟩

theorem rowAt_iff {rows : Rows} : rowAt rows id = some row ↔ row ∈ rows ∧ row.id = id := by
  constructor
  · intro found
    obtain ⟨mem, own⟩ := mem_of_select found
    exact ⟨mem, eq_of_beq own⟩
  rintro ⟨mem, own⟩
  cases found : rowAt rows id with
  | none => simpa [own] using select_none found row mem
  | some other =>
    obtain ⟨there, named⟩ := mem_of_select found
    rw [rows.eq_of_key there mem ((eq_of_beq named).trans own.symm)]

theorem written_id {new : Row} {rows : Rows} : (written new (rowAt rows new.id)).id = new.id := by
  cases found : rowAt rows new.id with
  | none => rfl
  | some live => exact (rowAt_iff.mp found).2

theorem rowAt_put (rows : Rows) (new : Row) (id : Nat) :
    rowAt (rows.put new) id = if id = new.id then some new else rowAt rows id := by
  ext row
  rw [rowAt_iff, mem_put]
  split
  · rename_i same
    constructor
    · rintro ⟨rfl | ⟨_, other⟩, own⟩
      · rfl
      · exact absurd (own.trans same) other
    · intro this
      cases this
      exact ⟨.inl rfl, same.symm⟩
  · rename_i other
    rw [rowAt_iff]
    constructor
    · rintro ⟨rfl | ⟨mem, _⟩, own⟩
      · exact absurd own.symm other
      · exact ⟨mem, own⟩
    · rintro ⟨mem, rfl⟩
      exact ⟨.inr ⟨mem, other⟩, rfl⟩

theorem rowAt_upsertRow (wire : Wire) (db : Database) (entry : TableName × Row) (table : TableName) (id : Nat) :
    rowAt (upsertRow wire db entry table) id =
      if table = entry.1 ∧ id = entry.2.id then
        some (written (restored wire entry.1 entry.2) (rowAt (db entry.1) entry.2.id))
      else rowAt (db table) id := by
  by_cases same : table = entry.1
  · subst same
    have own : (written (restored wire entry.1 entry.2) (rowAt (db entry.1) entry.2.id)).id = entry.2.id :=
      @written_id (restored wire entry.1 entry.2) (db entry.1)
    have put : upsertRow wire db entry entry.1 =
        (db entry.1).put (written (restored wire entry.1 entry.2) (rowAt (db entry.1) entry.2.id)) :=
      if_pos rfl
    rw [put, rowAt_put, own]
    simp
  · have kept : upsertRow wire db entry table = db table := if_neg same
    rw [kept, if_neg (fun both => same both.1)]

theorem rowAt_restore_other (wire : Wire) (entries : List (TableName × Row)) (db : Database)
    (other : ∀ entry ∈ entries, entry.1 = table → entry.2.id ≠ id) :
    rowAt (entries.foldl (upsertRow wire) db table) id = rowAt (db table) id := by
  induction entries generalizing db with
  | nil => rfl
  | cons entry rest ih =>
    rw [foldl_cons, ih _ (fun e mem => other e (mem_cons_of_mem _ mem)), rowAt_upsertRow, if_neg]
    rintro ⟨same, own⟩
    exact other entry mem_cons_self same.symm own.symm

theorem merged_merged (dumped live : Row) : merged dumped (merged dumped live) = merged dumped live := by
  unfold merged mapColumns
  congr 2
  rw [map_map]
  apply map_congr_left
  intro entry _
  cases named : dumped.columns.get entry.1 <;> simp [named]

theorem merged_self (row : Row) : merged row row = row := by
  have same : row.columns.entries.map (fun entry => (entry.1, (row.columns.get entry.1).getD entry.2)) =
      row.columns.entries := by
    apply (map_congr_left _).trans (map_id _)
    rintro ⟨column, cell⟩ mem
    rw [Js.Record.get_of_mem mem]
    rfl
  unfold merged mapColumns
  congr 2

theorem merged_written (new : Row) (live : Option Row) : merged new (written new live) = written new live := by
  cases live with
  | none => exact merged_self new
  | some live => exact merged_merged new live

theorem rowAt_reapplied (wire : Wire) {now : Row} (entries : List (TableName × Row)) (db : Database)
    (alike : ∀ entry ∈ entries, entry.1 = table → entry.2.id = row.id → entry.2 = row)
    (found : rowAt (db table) row.id = some now) (applied : merged (restored wire table row) now = now) :
    rowAt (entries.foldl (upsertRow wire) db table) row.id = some now := by
  induction entries generalizing db with
  | nil => exact found
  | cons entry rest ih =>
    apply ih
    · exact fun e mem => alike e (mem_cons_of_mem _ mem)
    rw [rowAt_upsertRow]
    split
    · rename_i here
      obtain ⟨same, own⟩ := here
      subst same
      rw [alike entry mem_cons_self rfl own.symm, found]
      exact congrArg some applied
    · exact found

theorem rowAt_restore (wire : Wire) (entries : List (TableName × Row)) (db : Database)
    (applied : (table, row) ∈ entries)
    (alike : ∀ entry ∈ entries, entry.1 = table → entry.2.id = row.id → entry.2 = row) :
    rowAt (entries.foldl (upsertRow wire) db table) row.id =
      some (written (restored wire table row) (rowAt (db table) row.id)) := by
  induction entries generalizing db with
  | nil => contradiction
  | cons entry rest ih =>
    have later : ∀ e ∈ rest, e.1 = table → e.2.id = row.id → e.2 = row :=
      fun e mem => alike e (mem_cons_of_mem _ mem)
    by_cases here : entry.1 = table ∧ entry.2.id = row.id
    · obtain ⟨same, own⟩ := here
      have this : entry.2 = row := alike entry mem_cons_self same own
      apply rowAt_reapplied wire rest _ later
      · subst same
        rw [rowAt_upsertRow, if_pos ⟨rfl, own.symm⟩, this]
      · exact merged_written _ _
    · have kept : rowAt (upsertRow wire db entry table) row.id = rowAt (db table) row.id := by
        rw [rowAt_upsertRow, if_neg]
        exact fun both => here ⟨both.1.symm, both.2.symm⟩
      rcases mem_cons.mp applied with rfl | mem
      · exact absurd ⟨rfl, rfl⟩ here
      · rw [foldl_cons, ih _ mem later, kept]

def Dumped (captured : Database) (tenantId : Nat) (entries : List (TableName × Row)) : Prop :=
  ∀ entry ∈ entries, entry.2 ∈ selectTenantRows captured entry.1 tenantId

theorem configTablesRows_dumped {selector : ConfigTablesSelector}
    (picked : configTablesRows selector (buildConfigDump captured tenantId now) = .ok rows) :
    Dumped captured tenantId rows := by
  obtain ⟨ts, _, checked⟩ := Results.bind_ok picked
  cases check : checkTables (buildConfigDump captured tenantId now) ts with
  | error failure =>
    rw [check] at checked
    contradiction
  | ok _ =>
    rw [check] at checked
    cases checked
    intro entry mem
    obtain ⟨t, _, there⟩ := mem_flatMap.mp mem
    unfold tableRows at there
    cases allowed : allowedTableToSql.lookup t with
    | none => simp [allowed] at there
    | some table =>
      obtain ⟨rfl, dumped⟩ := key_of_allowed allowed
      simp only [allowed, rows_buildConfigDump captured tenantId now dumped] at there
      obtain ⟨row, was, rfl⟩ := mem_map.mp there
      exact was

theorem idFilteredRows_dumped {type : String} {selector : IdsSelector} (dumped : table ∈ configDumpTables)
    (picked : idFilteredRows type table selector (buildConfigDump captured tenantId now) = .ok rows) :
    Dumped captured tenantId rows := by
  obtain ⟨ids, _, filtered⟩ := Results.bind_ok picked
  unfold filteredRows at filtered
  rw [rows_buildConfigDump captured tenantId now dumped] at filtered
  cases ids with
  | none =>
    cases filtered
    intro entry mem
    obtain ⟨row, was, rfl⟩ := mem_map.mp mem
    exact was
  | some ids =>
    dsimp only at filtered
    split at filtered
    · contradiction
    cases filtered
    intro entry mem
    obtain ⟨row, was, rfl⟩ := mem_map.mp mem
    exact (mem_filter.mp was).1

theorem Dumped.alike {entries : List (TableName × Row)} (dumped : Dumped captured tenantId entries)
    (mem : (table, row) ∈ entries) : ∀ entry ∈ entries, entry.1 = table → entry.2.id = row.id → entry.2 = row := by
  rintro ⟨_, other⟩ there rfl own
  have was := (mem_selectAll.mp (dumped _ there)).1
  exact (captured _).eq_of_key was (mem_selectAll.mp (dumped _ mem)).1 own

/-! The executor that restores mail, the step before it that recreates lost principals, and the
cart's run over its items. -/

/- Stalwart has one account for an address, with its mail -/
structure Principal where
  id : Nat
  mail : List Message

/- the accounts by their addresses in lower case -/
structure Platform where
  db : Database
  principals : String → Option Principal

/- an execution with the states before each of its writes, the newest first -/
structure Trail where
  now : Platform
  past : List Platform

def Trail.start (s : Platform) : Trail := ⟨s, []⟩

def Trail.write (t : Trail) (f : Platform → Platform) : Trail := ⟨f t.now, t.now :: t.past⟩

inductive RestoreMode where
  | mergeSkipDuplicates | mergeOverwrite | replace
  deriving DecidableEq

def validModes : List (String × RestoreMode) :=
  [("merge-skip-duplicates", .mergeSkipDuplicates), ("merge-overwrite", .mergeOverwrite),
    ("replace", .replace)]

/-- What the calls of the executor throw or return: `lookup`, findMailboxByEmail for an address;
`create`, createMailbox for a row's address; `backfill`, the UPDATE of that row; `reaches`, whether
the Job gets through an address. -/
structure MailFate where
  (session select : Option String)
  lookup : String → Option String
  create : String → Except String Nat
  backfill : String → Option String
  createJob : Option String
  reaches : String → Bool
  progress : Option String

def isLocalChar (c : Char) : Bool := c.isAlphanum || c ∈ ['.', '_', '+', '-']

def isDomainChar (c : Char) : Bool := c.isAlphanum || c ∈ ['.', '-']

def isSafeAddress (address : String) : Bool :=
  match Js.cut '@' address with
  | none => false
  | some (name, domain) =>
    name != "" && name.toList.all isLocalChar && domain != "" && domain.toList.all isDomainChar

def archiveSuffix : String := ".mbox.tar.gz"

/- the download route takes only flat names, without a plus sign -/
def isArtifactName (name : String) : Bool :=
  name != "" && name.toList.all fun c => c.isAlphanum || c ∈ ['.', '_', '@', '-']

def archiveOf (bundle : Bundle) (address : String) : Option (List Message) :=
  if isArtifactName (address ++ archiveSuffix) then bundle.mailboxes.lookup (address ++ archiveSuffix)
  else none

/- `name.replace(/\.mbox\.tar\.gz$/, '')` -/
def addressOf (name : String) : String :=
  if Js.endsWith name archiveSuffix then
    String.ofList (name.toList.take (name.toList.length - archiveSuffix.toList.length))
  else name

def bundleAddresses (bundle : Bundle) : List String :=
  (bundle.mailboxes.map fun archive => addressOf archive.1).filter (· != "")

/- the mode and the addresses; no addresses where the bundle has no mailboxes -/
def targets (job : Option RestoreJob) (item : RestoreItem) (bundle : Option Bundle)
    (selector : MailboxesSelector) : Except Failure (RestoreMode × List String) :=
  let mode := selector.mode.getD "merge-skip-duplicates"
  match validModes.lookup mode with
  | none => .error (validationError s!"mailboxes-by-address: invalid mode '{mode}'")
  | some mode =>
    if mode = .replace ∧ selector.confirmDestructive = false then
      .error (.api ⟨"CONFIRMATION_REQUIRED",
        "mailbox restore mode 'replace' is destructive — set confirmDestructive: true to proceed", 400⟩)
    else
      match job with
      | none => .error (notFound s!"Restore job {item.restoreJobId} not found")
      | some _ =>
        match selector.target with
        | .all =>
          match bundle with
          | none => .error (notFound s!"Bundle {item.bundleId} not found on remote target")
          | some bundle => .ok (mode, bundleAddresses bundle)
        | .addresses first rest =>
          match (first :: rest).find? (fun address => !isSafeAddress address) with
          | some address =>
            .error (validationError s!"mailboxes-by-address: invalid address '{address}'")
          | none => .ok (mode, first :: rest)
        | .unsupported json => .error (.error s!"mailboxes-by-address: unsupported selector {json}")

def fullAddress (row : Row) : String :=
  match row.get "full_address" with
  | .text address => address
  | _ => ""

/- WHERE full_address IN addresses -/
def mailboxRows (db : Database) (addresses : List String) : List Row :=
  (db .mailboxes).selectAll fun row => addresses.any fun address => row.get "full_address" == .text address

def setPrincipalId (id : Nat) (row : Row) : Row :=
  { row with
    columns := mapColumns
      (fun column cell => if column = "stalwart_principal_id" then .ref id else cell) row.columns }

theorem setPrincipalId_id (id : Nat) (row : Row) : (setPrincipalId id row).id = row.id := rfl

/- UPDATE mailboxes SET stalwart_principal_id WHERE id -/
def backfill (rowId id : Nat) (s : Platform) : Platform :=
  { s with
    db := Database.set s.db .mailboxes
      ((s.db .mailboxes).update (fun row => row.id == rowId) (setPrincipalId id) (setPrincipalId_id id)) }

inductive EnsureOutcome where
  | existing
  | recreated (principalId : Nat)
  | failed (reason : String)

def mailboxRowMissing : String :=
  "MAILBOX_ROW_MISSING: platform DB has no row for this address either. Add a config-tables(mailboxes) restore item BEFORE the mailboxes-by-address item in this cart to recreate the DB row from the bundle, then re-run."

section mail

variable (toLowerCase : String → String)

/- of several rows with an address the map keeps the last -/
def byAddress (rows : List Row) (address : String) : Option Row :=
  rows.reverse.find? fun row => toLowerCase (fullAddress row) == toLowerCase address

def createMailbox (address : String) (id : Nat) (s : Platform) : Platform :=
  { s with
    principals := fun a => if a = toLowerCase address then some ⟨id, []⟩ else s.principals a }

/- one address of ensureStalwartPrincipals -/
def ensureOne (fate : MailFate) (rows : List Row) (t : Trail) (address : String) :
    Trail × EnsureOutcome :=
  match fate.lookup address with
  | some message => (t, .failed message)
  | none =>
    match t.now.principals (toLowerCase address) with
    | some _ => (t, .existing)
    | none =>
      match byAddress toLowerCase rows address with
      | none => (t, .failed mailboxRowMissing)
      | some row =>
        match fate.create (fullAddress row) with
        | .error message => (t, .failed message)
        | .ok id =>
          match fate.backfill (fullAddress row) with
          | some message => (t.write (createMailbox toLowerCase (fullAddress row) id), .failed message)
          | none =>
            ((t.write (createMailbox toLowerCase (fullAddress row) id)).write (backfill row.id id),
              .recreated id)

def ensureAll (fate : MailFate) (rows : List Row) : Trail → List String →
    Trail × List (String × EnsureOutcome)
  | t, [] => (t, [])
  | t, address :: rest =>
    let (t, outcome) := ensureOne toLowerCase fate rows t address
    let (t, outcomes) := ensureAll fate rows t rest
    (t, (address, outcome) :: outcomes)

def EnsureOutcome.failure : String × EnsureOutcome → Option String
  | (address, .failed reason) => some s!"{address}: {reason}"
  | (_, .existing) | (_, .recreated _) => none

/- jmap-restore.py on one account -/
def restoreMaildir (mode : RestoreMode) (archive mail : List Message) : List Message :=
  match mode with
  | .replace => archive
  | .mergeOverwrite => mail ++ archive
  | .mergeSkipDuplicates => mail ++ archive.filter fun message =>
      message.messageId.all fun id => id == "" || mail.all fun present => present.messageId != some id

def importMail (mode : RestoreMode) (archive : List Message) (address : String) (s : Platform) : Platform :=
  { s with
    principals := fun a =>
      if a = toLowerCase address then
        (s.principals a).map fun p => { p with mail := restoreMaildir mode archive p.mail }
      else s.principals a }

/- the Job ends with the first address that it does not get through -/
def runJob (mode : RestoreMode) (fate : MailFate) (bundle : Option Bundle) : Trail → List String → Trail × Bool
  | t, [] => (t, true)
  | t, address :: rest =>
    match bundle.bind (archiveOf · address) with
    | none => (t, false)
    | some archive =>
      if fate.reaches address && (t.now.principals (toLowerCase address)).isSome then
        runJob mode fate bundle (t.write (importMail toLowerCase mode archive address)) rest
      else (t, false)

def unavailable (message : String) : Failure :=
  .api ⟨"STALWART_UNAVAILABLE", s!"Stalwart JMAP session failed: {message}", 503⟩

def ensureFailed (details : List String) : Failure :=
  let reasons := "; ".intercalate details
  .api ⟨"PRINCIPAL_ENSURE_FAILED",
    s!"Could not ensure Stalwart principals before restore: {reasons}", 409⟩

def runRestore (mode : RestoreMode) (fate : MailFate) (bundle : Option Bundle) (addresses : List String)
    (t : Trail) : Trail × Option Failure :=
  match addresses.find? (fun address => !isSafeAddress address) with
  | some address => (t, some (.error s!"buildMailboxesByAddressJobSpec: invalid address '{address}'"))
  | none =>
    match fate.createJob with
    | some message => (t, some (.error message))
    | none =>
      match runJob toLowerCase mode fate bundle t addresses with
      | (t, false) => (t, some (.error "mailboxes-by-address Job failed"))
      | (t, true) => (t, fate.progress.map .error)

def restoreMailboxes (fate : MailFate) (s : Platform) (bundle : Option Bundle) (mode : RestoreMode)
    (addresses : List String) : Trail × Option Failure :=
  match fate.session with
  | some message => (.start s, some (unavailable message))
  | none =>
    match fate.select with
    | some message => (.start s, some (.error message))
    | none =>
      let (t, outcomes) := ensureAll toLowerCase fate (mailboxRows s.db addresses) (.start s) addresses
      match outcomes.filterMap EnsureOutcome.failure with
      | [] => runRestore toLowerCase mode fate bundle addresses t
      | details => (t, some (ensureFailed details))

def execMailboxesByAddressItem (fate : MailFate) (s : Platform) (job : Option RestoreJob)
    (item : RestoreItem) (bundle : Option Bundle) (selector : MailboxesSelector) :
    Trail × Option Failure :=
  match targets job item bundle selector with
  | .error failure => (.start s, some failure)
  | .ok (_, []) => (.start s, fate.progress.map .error)
  | .ok (mode, addresses) => restoreMailboxes toLowerCase fate s bundle mode addresses

/- an item as the cart comes to it: its bundle, and what its calls run into -/
structure Visit where
  item : RestoreItem
  bundle : Option Bundle
  fate : Fate
  mail : MailFate
  files : Option Failure

def Trail.ofDatabase (s : Platform) (done : Database × Option Failure) : Trail × Option Failure :=
  ((Trail.start s).write fun s => { s with db := done.1 }, done.2)

/- files go to the tenant's volume, which is no part of the platform here -/
def dispatchExecutor (wire : Wire) (job : Option RestoreJob) (s : Platform) (visit : Visit) :
    Trail × Option Failure :=
  match visit.item.payload with
  | .configTables selector =>
    Trail.ofDatabase s (execConfigTablesItem wire visit.fate s.db job visit.item visit.bundle selector)
  | .deploymentsById selector =>
    Trail.ofDatabase s (execDeploymentsByIdItem wire visit.fate s.db job visit.item visit.bundle selector)
  | .domainsById selector =>
    Trail.ofDatabase s (execDomainsByIdItem wire visit.fate s.db job visit.item visit.bundle selector)
  | .mailboxesByAddress selector =>
    execMailboxesByAddressItem toLowerCase visit.mail s job visit.item visit.bundle selector
  | .filesPaths _ => (.start s, visit.files)
  | .unknown type => (.start s, some (.error s!"Unknown restore item type '{type}'"))

/- the cart stops at the first item that fails -/
def executeItem (wire : Wire) (job : Option RestoreJob) (s : Platform) (visit : Visit) : Option Platform :=
  match dispatchExecutor toLowerCase wire job s visit with
  | (t, none) => some t.now
  | (_, some _) => none

end mail

def SameRows (db db' : Database) : Prop := ∀ table id, rowAt (db table) id = rowAt (db' table) id

section dump

variable (wire : Wire) (fate : Fate) (tenantId : Nat) (captured : Database) (now : Int)
  (mailboxes : List (String × List Message)) (job : RestoreJob) (item : RestoreItem)

def restoreDump (db : Database) (selector : ConfigTablesSelector) : Database × Option Failure :=
  execConfigTablesItem wire fate db (some job) item
    (some ⟨.ok (buildConfigDump captured tenantId now), mailboxes⟩) selector

/-- The restore succeeds, every dumped row of the tables is as it was captured, and a second
restore changes nothing. -/
def BringsBack (db : Database) (selector : ConfigTablesSelector) (tables : List TableName) : Prop :=
  ∃ db', restoreDump wire fate tenantId captured now mailboxes job item db selector = (db', none) ∧
    (∀ table ∈ tables, ∀ row ∈ selectTenantRows captured table tenantId, row ∈ db' table) ∧
    ∃ db'', restoreDump wire fate tenantId captured now mailboxes job item db' selector = (db'', none) ∧
      SameRows db'' db'

end dump

def notAllowed : Failure :=
  .error "config-tables: table 'tenantCertificates' is not in the restore allow-list"

theorem all_refused (captured : Database) (tenantId : Nat) (now : Int) :
    configTablesRows .all (buildConfigDump captured tenantId now) = .error notAllowed := by
  have keys : (buildConfigDump captured tenantId now).tables.map Prod.fst =
      allowedTableToSql.map Prod.fst ++ ["tenantCertificates"] := rfl
  have checked : checkTables (buildConfigDump captured tenantId now)
      (allowedTableToSql.map Prod.fst ++ ["tenantCertificates"]) = .error notAllowed := by
    rfl
  simp [configTablesRows, pickedCamel, keys, Except.bind, checked, Except.map]

theorem all_fails {item : RestoreItem} {db db' : Database} :
    restoreDump wire fate tenantId captured now mailboxes job item db .all ≠ (db', none) := by
  intro succeeded
  obtain ⟨rows, planned⟩ := restoreRows_planned succeeded
  obtain ⟨dump, read, picked⟩ := Results.bind_ok planned
  obtain ⟨bundle, _, same, config, _⟩ := read_ok read
  cases same
  cases config
  rw [all_refused] at picked
  contradiction

/-- Selector 'all' never brings a dump back. -/
theorem never_brings_back (wire : Wire) (fate : Fate) (tenantId : Nat) (captured : Database) (now : Int)
    (mailboxes : List (String × List Message)) (job : RestoreJob) (item : RestoreItem) (db : Database) :
    ¬ BringsBack wire fate tenantId captured now mailboxes job item db .all configDumpTables := by
  rintro ⟨db', succeeded, _⟩
  exact all_fails succeeded

/- every value comes back as it was -/
def plainWire : Wire := ⟨fun _ _ cell => cell, fun _ _ => rfl, fun _ _ _ => rfl, fun _ _ _ => rfl⟩

def aTenant : Row := ⟨1, ⟨[("name", .text "Fixture Co"), ("status", .text "active")], by decide⟩⟩

def aDomain : Row := ⟨2, ⟨[("tenant_id", .ref 1), ("domain_name", .text "example.org")], by decide⟩⟩

def aDatabase : Database
  | .tenants => Table.empty.put aTenant
  | .domains => Table.empty.put aDomain
  | _ => Table.empty

def aCart : RestoreJob := ⟨1, 1, .executing, none, none⟩

def restoreAll : RestoreItem := ⟨1, 1, 1, .configTables .all, 0, .applying, none⟩

/-- The domain was deleted, and the restore of all tables is refused. -/
theorem deleted_domain_stays_lost :
    ¬ ∀ (wire : Wire) (tenantId : Nat) (captured : Database) (now : Int) (job : RestoreJob)
      (item : RestoreItem) (db : Database), job.tenantId = tenantId →
        BringsBack wire ⟨none, none⟩ tenantId captured now [] job item db .all configDumpTables := by
  intro always
  obtain ⟨_, succeeded, _⟩ := always plainWire 1 aDatabase 0 aCart restoreAll
    (Database.set aDatabase .domains empty) rfl
  exact all_fails succeeded

end HostingPlatform.BackupRestore
