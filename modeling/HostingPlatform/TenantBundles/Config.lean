import HostingPlatform.Table
import HostingPlatform.Js.Record

/-! The config component of a bundle: the rows of a tenant as SELECT * returns them. -/
namespace HostingPlatform.TenantBundles.Config

/- what a column holds; a `ref` is the id of a row -/
inductive Cell where
  | null
  | ref (id : Nat)
  | text (s : String)
  | int (n : Int)
  | bool (b : Bool)
  | json (source : String)
  | bytea (bytes : List Nat)
  deriving DecidableEq

/- a row by its primary key `id` and its other columns, in the order of the table -/
structure Row where
  id : Nat
  columns : Js.Record Cell

/- a column that the table does not have reads as null -/
def Row.get (row : Row) (column : String) : Cell := (row.columns.get column).getD .null

abbrev Rows : Type := Table Row Row.id

inductive TableName where
  | tenants | users | domains | emailDomains | mailboxes | emailAliases | mailSubmitCredentials
  | sshKeys | sftpUsers | deployments | ingressAuthConfigs | sslCertificates | cronJobs
  | resourceQuotas | tenantOidcProviders | tenantMtlsProviders | tenantZitiProviders
  | tenantZrokAccounts | tenantCertificates | ingressRoutes
  deriving DecidableEq

/- the table's name in the schema, which is its key in a dump -/
def TableName.key : TableName → String
  | .tenants => "tenants"
  | .users => "users"
  | .domains => "domains"
  | .emailDomains => "emailDomains"
  | .mailboxes => "mailboxes"
  | .emailAliases => "emailAliases"
  | .mailSubmitCredentials => "mailSubmitCredentials"
  | .sshKeys => "sshKeys"
  | .sftpUsers => "sftpUsers"
  | .deployments => "deployments"
  | .ingressAuthConfigs => "ingressAuthConfigs"
  | .sslCertificates => "sslCertificates"
  | .cronJobs => "cronJobs"
  | .resourceQuotas => "resourceQuotas"
  | .tenantOidcProviders => "tenantOidcProviders"
  | .tenantMtlsProviders => "tenantMtlsProviders"
  | .tenantZitiProviders => "tenantZitiProviders"
  | .tenantZrokAccounts => "tenantZrokAccounts"
  | .tenantCertificates => "tenantCertificates"
  | .ingressRoutes => "ingressRoutes"

/- the tables that this component and its restore touch -/
abbrev Database : Type := TableName → Rows

/- parents before children -/
def configDumpTables : List TableName :=
  [.tenants, .users, .domains, .emailDomains, .mailboxes, .emailAliases, .mailSubmitCredentials,
    .sshKeys, .sftpUsers, .deployments, .ingressAuthConfigs, .sslCertificates, .cronJobs,
    .resourceQuotas, .tenantOidcProviders, .tenantMtlsProviders, .tenantZitiProviders,
    .tenantZrokAccounts, .tenantCertificates]

def refersTo (column : String) (id : Nat) (row : Row) : Bool := row.get column == .ref id

/- the tenant that a row belongs to by its table's rule: its own id, the owner of the domain that
its route serves, or its tenant_id -/
def belongsTo (db : Database) (table : TableName) (tenantId : Nat) (row : Row) : Bool :=
  match table with
  | .tenants => row.id == tenantId
  | .ingressAuthConfigs =>
    (db .ingressRoutes).rows.any fun ir => refersTo "ingress_route_id" ir.id row &&
      (db .domains).rows.any fun d => refersTo "domain_id" d.id ir && refersTo "tenant_id" tenantId d
  | .ingressRoutes =>
    (db .domains).rows.any fun d => refersTo "domain_id" d.id row && refersTo "tenant_id" tenantId d
  | _ => refersTo "tenant_id" tenantId row

def selectTenantRows (db : Database) (tableName : TableName) (tenantId : Nat) : List Row :=
  (db tableName).selectAll (belongsTo db tableName tenantId)

structure ConfigDump where
  schemaVersion : Nat
  exportedAt : Int
  tenantId : Nat
  tables : List (String × List Row)

def configDumpSchemaVersion : Nat := 1

/- the schema exports each of the tables -/
def buildConfigDump (db : Database) (tenantId : Nat) (now : Int) : ConfigDump where
  schemaVersion := configDumpSchemaVersion
  exportedAt := now
  tenantId := tenantId
  tables := configDumpTables.map fun tableName =>
    (tableName.key, selectTenantRows db tableName tenantId)

/- `dump.tables[key]` for a key of its own -/
def ConfigDump.rows (dump : ConfigDump) (key : String) : Option (List Row) := dump.tables.lookup key

end HostingPlatform.TenantBundles.Config
