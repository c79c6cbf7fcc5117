import OciAcmePublisher.Database
import OciAcmePublisher.Effects.Triple

/-!
# Schema migrations

`apply_migrations` and the part of `StateStore.open` that leads to it. The connection is opened with `isolation_level=None`: every
statement commits by itself, and the `with connection` block around the statements of a version opens no transaction.
-/

namespace OciAcmePublisher

open Effects Tables

/-- A column with its type and constraints. -/
structure Column where
  name : String
  declaration : String
  deriving DecidableEq, Repr

/-- What a migration creates: a table, or an index on columns of a table. -/
inductive SchemaObject where
  | table (columns : List Column)
  | index (table : String) (columns : List String)
  deriving DecidableEq, Repr

/-- A `CREATE` statement of a migration. -/
structure CreateStatement where
  ifNotExists : Bool := false
  name : String
  object : SchemaObject
  deriving DecidableEq, Repr

/-- A versioned migration. -/
structure Migration where
  version : Int
  statements : List CreateStatement
  deriving DecidableEq, Repr

/-- The table of the applied versions; `apply_migrations` and the first migration create it where it is missing. -/
def createSchemaMeta : CreateStatement where
  ifNotExists := true
  name := "schema_meta"
  object := .table [⟨"version", "INTEGER PRIMARY KEY"⟩, ⟨"applied_at", "TEXT NOT NULL"⟩]

/-- `_MIGRATIONS`. -/
def migrations : List Migration :=
  [{ version := 1
     statements :=
       [createSchemaMeta,
        { name := "operations"
          object := .table
            [⟨"operation_id", "TEXT PRIMARY KEY"⟩, ⟨"certificate_id", "TEXT NOT NULL"⟩,
             ⟨"operation_type", "TEXT NOT NULL"⟩, ⟨"state", "TEXT NOT NULL"⟩, ⟨"local_fingerprint", "TEXT"⟩,
             ⟨"oci_certificate_ocid", "TEXT"⟩, ⟨"oci_version_number", "INTEGER"⟩, ⟨"opc_request_id", "TEXT"⟩,
             ⟨"started_at", "TEXT NOT NULL"⟩, ⟨"updated_at", "TEXT NOT NULL"⟩, ⟨"completed_at", "TEXT"⟩,
             ⟨"error_code", "TEXT"⟩, ⟨"error_message_redacted", "TEXT"⟩] },
        { name := "certificate_state"
          object := .table
            [⟨"certificate_id", "TEXT PRIMARY KEY"⟩, ⟨"last_local_fingerprint", "TEXT"⟩,
             ⟨"last_oci_current_fingerprint", "TEXT"⟩, ⟨"last_oci_current_version", "INTEGER"⟩,
             ⟨"last_successful_renewal_at", "TEXT"⟩, ⟨"last_successful_publication_at", "TEXT"⟩,
             ⟨"last_successful_audit_at", "TEXT"⟩, ⟨"last_error_code", "TEXT"⟩, ⟨"updated_at", "TEXT NOT NULL"⟩] },
        { name := "alert_dedup"
          object := .table
            [⟨"dedup_key", "TEXT PRIMARY KEY"⟩, ⟨"last_sent_at", "TEXT NOT NULL"⟩,
             ⟨"last_status", "TEXT NOT NULL"⟩] },
        { name := "operations_certificate_state"
          object := .index "operations" ["certificate_id", "state"] }] }]

/-! ## The database file -/

/-- The schema of a database file: its tables and indexes, which share one namespace, and the rows of `schema_meta`. -/
structure Schema where
  objects : Table (String × SchemaObject) String Prod.fst := .empty
  versions : Table (Int × Timestamp) Int Prod.fst := .empty

/-- What an object needs of those that are there: an index its table, with the columns. -/
def SchemaObject.fits (objects : List (String × SchemaObject)) : SchemaObject → Bool
  | .table _ => true
  | .index name columns => objects.any fun o =>
      match o.2 with
      | .table cs => o.1 = name && columns.all (cs.map (·.name)).contains
      | .index .. => false

/-- Both are tables, or both are indexes. -/
def SchemaObject.sameKind : SchemaObject → SchemaObject → Bool
  | .table _, .table _ => true
  | .index .., .index .. => true
  | _, _ => false

/-- A `CREATE` statement; none where it fails. -/
def Schema.create (db : Schema) (s : CreateStatement) : Option Schema :=
  match db.objects.rows.find? (·.1 = s.name) with
  | some existing => if s.ifNotExists && existing.2.sameKind s.object then some db else none
  | none =>
    if s.object.fits db.objects.rows then
      (db.objects.insert (s.name, s.object)).map fun t => { db with objects := t }
    else none

/-- The table of the applied versions is there. -/
def Schema.hasMeta (db : Schema) : Bool := db.objects.rows.contains (createSchemaMeta.name, createSchemaMeta.object)

/-- The operations of opening the state store. -/
inductive SchemaOp where
  | makeParent | createFile | closeFile | chmodFile | connect
  | pragma (text : String)
  | create (statement : CreateStatement)
  | selectVersions
  | now
  | insertVersion (version : Int) (appliedAt : Timestamp)
  deriving DecidableEq

/-- The signature of a connection. -/
@[reducible] def connection : Signature where
  Op := SchemaOp
  Reply
    | .selectVersions => List Int
    | .now => Timestamp
    | _ => Unit

/-- What an operation that takes effect answers and leaves. -/
def Schema.Step (db : Schema) : (op : SchemaOp) → connection.Reply op → Schema → Prop
  | .create s, _, db' => db.create s = some db'
  | .selectVersions, found, db' => db' = db ∧ db.hasMeta = true ∧ found.Perm (db.versions.rows.map Prod.fst)
  | .insertVersion version appliedAt, _, db' =>
    db.hasMeta = true ∧ ∃ t, db.versions.insert (version, appliedAt) = some t ∧ db' = { db with versions := t }
  | _, _, db' => db' = db

/-- SQLite: a statement takes effect as a whole, or raises and changes nothing. -/
def sqlite (faults : SchemaOp → Exc → Prop) : Env connection Exc Schema :=
  stepping Schema.Step (fun x => x.isInstance .sqliteError = true) faults

/-! ## Applying the migrations -/

/-- An action on a connection. -/
abbrev SchemaAction (α : Type) := Program connection Exc α

/-- Perform one operation on a connection. -/
abbrev execute (op : SchemaOp) : SchemaAction (connection.Reply op) := Program.perform (S := connection) op

/-- The loop over the statements of a version. -/
def applyStatements : List CreateStatement → SchemaAction Unit
  | [] => return ()
  | statement :: rest => do
    execute (.create statement)
    applyStatements rest

/-- The `with connection` block of a version. -/
def applyVersion (migration : Migration) : SchemaAction Unit := do
  applyStatements migration.statements
  let now ← execute .now
  execute (.insertVersion migration.version now)

/-- The loop over the migrations. -/
def applyPending (applied : List Int) : List Migration → SchemaAction Unit
  | [] => return ()
  | migration :: rest =>
    if migration.version ∈ applied then applyPending applied rest
    else do
      applyVersion migration
      applyPending applied rest

/-- `apply_migrations`. -/
def applyMigrations (migrations : List Migration) : SchemaAction Unit := do
  execute (.create createSchemaMeta)
  let applied ← execute .selectVersions
  applyPending applied migrations

/-- `StateStore.open`. -/
def openStateStore (migrations : List Migration) : SchemaAction Unit := do
  execute .makeParent
  execute .createFile
  execute .closeFile
  execute .chmodFile
  execute .connect
  execute (.pragma "journal_mode=WAL")
  execute (.pragma "foreign_keys=ON")
  execute (.pragma "busy_timeout=5000")
  applyMigrations migrations

end OciAcmePublisher
