import Mathlib.Data.List.Sort
import ContainerCP.Sql.Script
import ContainerCP.Storage.SqliteTables

/-! The saves of `SQLiteStorage`, statement by statement. A statement that fails,
at its preparation, at a binding or at its step, has no effect; the process may
stop in front of any of them. -/
namespace ContainerCP.Storage

open Sql (Verdict Script)
open Sql.Script (exec query peek transaction)

/-- The statements of a save. -/
inductive SaveStatement where
  | tableInfo
  | alterBegin
  | alter
  | alterCommit
  | alterRollback
  | begin
  | clear
  | write (index : Nat)
  | enumerate
  | prune (id : UInt64)
  | commit
  | rollback
  deriving DecidableEq

/-- What becomes of each statement, and the time at which a row is written. -/
structure SaveRun where
  verdict : SaveStatement → Verdict := fun _ => .succeeds
  now : Nat → Bytes := fun _ => []

abbrev SqliteScript := Script Unit SqliteData Empty

namespace SaveRun

variable (run : SaveRun)

/-- `TransactionGuard`. -/
def transactionGuard (body : SqliteScript Bool) : SqliteScript Bool :=
  transaction ⟨run.verdict .begin, run.verdict .commit, run.verdict .rollback⟩ () body

/-- The loop that writes the records one by one, by the statement that is given. -/
def writeAll {R : Type} (statement : Bytes → R → SqliteData → Option SqliteData) :
    Nat → List R → SqliteScript Bool
  | _, [] => pure true
  | index, record :: rest => do
      if ← exec (run.verdict (.write index)) (statement (run.now index) record) then
        writeAll statement (index + 1) rest
      else
        return false

/-- `replace_all`. -/
def replaceAll (resource : Resource) (records : List resource.Record) : SqliteScript Bool :=
  run.transactionGuard do
    if ← exec (run.verdict .clear) (SqliteData.delete resource fun _ => true) then
      run.writeAll (SqliteData.insert resource) 0 records
    else
      return false

/-- The loop of `sync_parent_rows` over the existing ids. -/
def pruneAll (resource : Resource) (supplied : List UInt64) : List UInt64 → SqliteScript Bool
  | [] => pure true
  | id :: rest => do
      if id ∈ supplied then
        pruneAll resource supplied rest
      else if ← exec (run.verdict (.prune id)) (SqliteData.delete resource (· = id.toInt64)) then
        pruneAll resource supplied rest
      else
        return false

/-- The ids of a table as `std::set<uint64_t>` holds them. -/
def existingIds (resource : Resource) (db : SqliteData) : List UInt64 :=
  ((db.tables resource).keys.map Int64.toUInt64).insertionSort (· ≤ ·)

/-- `sync_parent_rows`. -/
def syncParentRows (resource : Resource) (records : List resource.Record) : SqliteScript Bool :=
  run.transactionGuard do
    if ← run.writeAll (SqliteData.upsert resource) 0 records then
      match ← query (run.verdict .enumerate) (fun db => some (existingIds resource db)) with
      | some ids => run.pruneAll resource (records.map resource.recordId) ids
      | none => return false
    else
      return false

/-- `ensure_sites_template_column`, which commits a transaction of its own. -/
def ensureSitesTemplateColumn : SqliteScript Bool := do
  if (← peek (run.verdict .tableInfo) fun db => some db.sitesTemplateColumn) = some true then
    return true
  else
    transaction ⟨run.verdict .alterBegin, run.verdict .alterCommit, run.verdict .alterRollback⟩ ()
      (exec (run.verdict .alter) SqliteData.addSitesTemplateColumn)

/-- `try_save_sites`. -/
def trySaveSites (sites : List Site) : SqliteScript Bool := do
  if ← run.ensureSitesTemplateColumn then
    run.syncParentRows .sites sites
  else
    return false

/-- The `try_save_` functions: the tables that others point to are synchronised,
the others are replaced as a whole. -/
def trySave : (resource : Resource) → List resource.Record → SqliteScript Bool
  | .sites => run.trySaveSites
  | .accessUsers => run.syncParentRows .accessUsers
  | .mailDomains => run.syncParentRows .mailDomains
  | .nodes => run.replaceAll .nodes
  | .phpVersions => run.replaceAll .phpVersions
  | .profiles => run.replaceAll .profiles
  | .users => run.replaceAll .users
  | .domains => run.replaceAll .domains
  | .databases => run.replaceAll .databases
  | .backups => run.replaceAll .backups
  | .reverseProxies => run.replaceAll .reverseProxies
  | .accessGrants => run.replaceAll .accessGrants
  | .authUsers => run.replaceAll .authUsers
  | .sslCertificates => run.replaceAll .sslCertificates
  | .mailMailboxes => run.replaceAll .mailMailboxes
  | .mailAliases => run.replaceAll .mailAliases
  | .accessKeys => run.replaceAll .accessKeys

end SaveRun

end ContainerCP.Storage
