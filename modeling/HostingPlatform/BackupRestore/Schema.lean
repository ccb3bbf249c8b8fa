import HostingPlatform.Shared
import HostingPlatform.TenantBundles.Config

/-! The rows of a restore cart, and what the store has of the bundles that its items name. -/
namespace HostingPlatform.BackupRestore

open TenantBundles.Config

/- what is thrown: an ApiError, or an Error by its message -/
inductive Failure where
  | api (error : ApiError)
  | error (message : String)

inductive JobStatus where
  | draft | executing | paused | done | failed
  deriving DecidableEq

inductive ItemStatus where
  | pending | applying | done | failed | skipped
  deriving DecidableEq

/- selectors; one that the executor does not know, such as an empty list, stands by its JSON -/
inductive ConfigTablesSelector where
  | all
  | tables (tables : List String)
  | unsupported (json : String)

inductive IdsSelector where
  | all
  | ids (first : Nat) (rest : List Nat)
  | unsupported (json : String)

inductive MailboxesTarget where
  | all
  | addresses (first : String) (rest : List String)
  | unsupported (json : String)

structure MailboxesSelector where
  target : MailboxesTarget
  mode : Option String
  confirmDestructive : Bool

inductive FilesSelector where
  | full
  | paths (first : String) (rest : List String)
  | unsupported (json : String)

/- an item's type with its selector -/
inductive ItemPayload where
  | configTables (selector : ConfigTablesSelector)
  | deploymentsById (selector : IdsSelector)
  | domainsById (selector : IdsSelector)
  | filesPaths (selector : FilesSelector)
  | mailboxesByAddress (selector : MailboxesSelector)
  | unknown (type : String)

structure RestoreJob where
  (id tenantId : Nat)
  status : JobStatus
  preRestoreSnapshotId : Option Nat
  lastError : Option String

structure RestoreItem where
  (id restoreJobId bundleId : Nat)
  payload : ItemPayload
  seq : Nat
  status : ItemStatus
  lastError : Option String

structure Message where
  messageId : Option String
  content : Nat
  deriving DecidableEq

/- `config`: what reading db-rows.json.gz gives; `mailboxes`: the messages of each archive -/
structure Bundle where
  config : Except String ConfigDump
  mailboxes : List (String × List Message)

end HostingPlatform.BackupRestore
