import OciAcmePublisher.Tables
import OciAcmePublisher.Errors

/-!
# The state database

The three tables of the SQLite state store and the statements `StateStore` executes on them. Every statement is atomic: it takes
effect as a whole, or raises and changes nothing. Timestamps have second precision and are counted in seconds, as the stored
RFC 3339 texts order.
-/

namespace OciAcmePublisher

open Tables

abbrev Timestamp := Int

/-- Operation categories persisted for recovery. -/
inductive OperationType where
  | bootstrap | renew | publish | reconcile | audit | rollback
  deriving DecidableEq, Repr

/-- Persisted state-machine states, including terminal failures. -/
inductive OperationState where
  | discovered | configValidated | http01PreflightOk | acmeCompleted | localCertValidated | ociReconciled
  | ociPendingUploaded | ociPendingVerified | ociCurrentConfirmed | auditPending | auditSuccess | completed
  | configFailed | http01PreflightFailed | acmeFailed | localValidationFailed | ociUploadFailed | ociVersionFailed
  | ociPromotionFailed | auditFailed | rollbackFailed | manualInterventionRequired
  deriving DecidableEq, Repr

/-- `_TERMINAL_STATES`. -/
def terminalStates : List OperationState :=
  [.completed, .configFailed, .http01PreflightFailed, .acmeFailed, .localValidationFailed, .ociUploadFailed,
    .ociVersionFailed, .ociPromotionFailed, .auditFailed, .rollbackFailed, .manualInterventionRequired]

def OperationState.isTerminal (s : OperationState) : Bool := terminalStates.contains s

/-- A row of `operations`. -/
structure OperationRow where
  operationId : String
  certificateId : String
  operationType : OperationType
  state : OperationState
  localFingerprint : Option String := none
  ociCertificateOcid : Option String := none
  ociVersionNumber : Option Int := none
  opcRequestId : Option String := none
  startedAt : Timestamp
  updatedAt : Timestamp
  completedAt : Option Timestamp := none
  errorCode : Option String := none
  errorMessageRedacted : Option String := none
  deriving DecidableEq, Repr

/-- A safe subset of durable recovery data: what `active_operations` returns of a row. -/
structure Operation where
  operationId : String
  certificateId : String
  operationType : OperationType
  state : OperationState
  localFingerprint : Option String
  ociCertificateOcid : Option String
  ociVersionNumber : Option Int
  deriving DecidableEq, Repr

def OperationRow.toOperation (r : OperationRow) : Operation where
  operationId := r.operationId
  certificateId := r.certificateId
  operationType := r.operationType
  state := r.state
  localFingerprint := r.localFingerprint
  ociCertificateOcid := r.ociCertificateOcid
  ociVersionNumber := r.ociVersionNumber

/-- The row is still active: its state is not terminal. -/
def OperationRow.active (r : OperationRow) : Bool := !r.state.isTerminal

/-- A row of `certificate_state`: the last known facts of a certificate. -/
structure CertificateState where
  certificateId : String
  lastLocalFingerprint : Option String := none
  lastOciCurrentFingerprint : Option String := none
  lastOciCurrentVersion : Option Int := none
  lastSuccessfulRenewalAt : Option Timestamp := none
  lastSuccessfulPublicationAt : Option Timestamp := none
  lastSuccessfulAuditAt : Option Timestamp := none
  lastErrorCode : Option String := none
  updatedAt : Timestamp
  deriving DecidableEq, Repr

/-- A row of `alert_dedup`. -/
structure AlertRow where
  dedupKey : String
  lastSentAt : Timestamp
  lastStatus : String
  deriving DecidableEq, Repr

structure Database where
  operations : Table OperationRow String (·.operationId) := .empty
  certificateStates : Table CertificateState String (·.certificateId) := .empty
  alerts : Table AlertRow String (·.dedupKey) := .empty

/-- The arguments of the `UPDATE` that `transition` executes. -/
structure Transition where
  state : OperationState
  ociVersionNumber : Option Int := none
  ociCertificateOcid : Option String := none
  opcRequestId : Option String := none
  errorCode : Option String := none
  errorMessageRedacted : Option String := none
  updatedAt : Timestamp
  completedAt : Option Timestamp
  deriving DecidableEq, Repr

/-- `COALESCE` keeps the stored value where the new one is null; the error columns are overwritten. -/
def OperationRow.transition (r : OperationRow) (t : Transition) : OperationRow :=
  { r with
    state := t.state
    ociVersionNumber := t.ociVersionNumber.or r.ociVersionNumber
    ociCertificateOcid := t.ociCertificateOcid.or r.ociCertificateOcid
    opcRequestId := t.opcRequestId.or r.opcRequestId
    errorCode := t.errorCode
    errorMessageRedacted := t.errorMessageRedacted
    updatedAt := t.updatedAt
    completedAt := t.completedAt }

theorem OperationRow.transition_operationId (t : Transition) (r : OperationRow) :
    (r.transition t).operationId = r.operationId := rfl

/-- The columns a success of each kind writes in `certificate_state`, besides the error code and `updated_at`. -/
inductive FactUpdate where
  | publication (localFingerprint currentFingerprint : String) (currentVersion : Int)
  | audit
  | rollback (currentFingerprint : String) (currentVersion : Int)
  | renewal
  deriving DecidableEq, Repr

def CertificateState.record (s : CertificateState) (now : Timestamp) : FactUpdate → CertificateState
  | .publication localFingerprint currentFingerprint currentVersion =>
    { s with
      lastLocalFingerprint := some localFingerprint
      lastOciCurrentFingerprint := some currentFingerprint
      lastOciCurrentVersion := some currentVersion
      lastSuccessfulPublicationAt := some now
      lastErrorCode := none
      updatedAt := now }
  | .audit => { s with lastSuccessfulAuditAt := some now, lastErrorCode := none, updatedAt := now }
  | .rollback currentFingerprint currentVersion =>
    { s with
      lastOciCurrentFingerprint := some currentFingerprint
      lastOciCurrentVersion := some currentVersion
      lastErrorCode := none
      updatedAt := now }
  | .renewal => { s with lastSuccessfulRenewalAt := some now, lastErrorCode := none, updatedAt := now }

theorem CertificateState.record_certificateId (s : CertificateState) (now : Timestamp) (u : FactUpdate) :
    (s.record now u).certificateId = s.certificateId := by
  cases u <;> rfl

/-- The statements of `StateStore`. -/
inductive Statement where
  | insertOperation (row : OperationRow)
  | updateOperation (operationId : String) (t : Transition)
  | completeReconciled (certificateId localFingerprint : String) (currentVersion : Int)
      (excludingOperationId : String) (now : Timestamp)
  | completeInterruptedAudits (certificateId excludingOperationId : String) (now : Timestamp)
  | selectActive (certificateId : String)
  | selectConfirmedOcid (certificateId : String)
  | upsertFacts (certificateId : String) (update : FactUpdate) (now : Timestamp)
  | selectAlert (dedupKey : String)
  | upsertAlert (row : AlertRow)
  deriving DecidableEq, Repr

/-- What a statement returns: nothing, the number of rows it changed, or the rows it selected. -/
@[reducible] def Statement.Reply : Statement → Type
  | .insertOperation _ => Unit
  | .updateOperation .. => Nat
  | .completeReconciled .. => Nat
  | .completeInterruptedAudits .. => Nat
  | .selectActive _ => List Operation
  | .selectConfirmedOcid _ => Option String
  | .upsertFacts .. => Unit
  | .selectAlert _ => Option (Timestamp × String)
  | .upsertAlert _ => Unit

/-- The rows `complete_reconciled_operations` closes. -/
def OperationRow.closedBy (certificateId localFingerprint excludingOperationId : String) (r : OperationRow) : Bool :=
  r.certificateId = certificateId && r.localFingerprint = some localFingerprint &&
    r.operationId ≠ excludingOperationId && r.active

/-- The rows `complete_interrupted_audits` closes. -/
def OperationRow.staleAudit (certificateId excludingOperationId : String) (r : OperationRow) : Bool :=
  r.certificateId = certificateId && r.operationType = .audit && r.state = .auditPending &&
    r.operationId ≠ excludingOperationId

/-- The row of a reconciled operation once OCI CURRENT proves the same local material won. -/
def OperationRow.complete (r : OperationRow) (currentVersion : Int) (now : Timestamp) : OperationRow :=
  { r with
    state := .completed
    ociVersionNumber := some currentVersion
    errorCode := none
    errorMessageRedacted := none
    updatedAt := now
    completedAt := some now }

theorem OperationRow.complete_operationId (currentVersion : Int) (now : Timestamp) (r : OperationRow) :
    (r.complete currentVersion now).operationId = r.operationId := rfl

/-- The row of a stale audit once a newer audit has succeeded. -/
def OperationRow.completeAudit (r : OperationRow) (now : Timestamp) : OperationRow :=
  { r with
    state := .completed
    errorCode := none
    errorMessageRedacted := none
    updatedAt := now
    completedAt := some now }

theorem OperationRow.completeAudit_operationId (now : Timestamp) (r : OperationRow) :
    (r.completeAudit now).operationId = r.operationId := rfl

/-- The rows `confirmed_oci_certificate_ocid` chooses from: completed ones that carry an OCID. -/
def Database.confirmedRows (db : Database) (certificateId : String) : List OperationRow :=
  db.operations.rows.filter fun r =>
    r.certificateId = certificateId && r.state = .completed && r.ociCertificateOcid.isSome

/-- The rows `active_operations` returns. -/
def Database.activeRows (db : Database) (certificateId : String) : List OperationRow :=
  db.operations.rows.filter fun r => r.certificateId = certificateId && r.active

/-- A null `completed_at` sorts last in `ORDER BY completed_at DESC`. -/
def completedBefore (a b : OperationRow) : Bool :=
  match a.completedAt, b.completedAt with
  | none, _ => true
  | some _, none => false
  | some x, some y => decide (x ≤ y)

/-- `UPDATE operations SET f WHERE p`. -/
def Database.updateOperations (db : Database) (p : OperationRow → Bool) (f : OperationRow → OperationRow)
    (hf : ∀ r, (f r).operationId = r.operationId) : Database :=
  { db with operations := db.operations.updateWhere p f hf }

/-- The upsert of the facts a success records. -/
def Database.factsUpdated (db : Database) (certificateId : String) (update : FactUpdate) (now : Timestamp) :
    Table CertificateState String (·.certificateId) :=
  db.certificateStates.upsert (CertificateState.record { certificateId := certificateId, updatedAt := now } now update)
    (fun s => s.record now update) (fun s => s.record_certificateId now update)

/-- The upsert of an alert that was sent. -/
def Database.alertsUpdated (db : Database) (row : AlertRow) : Table AlertRow String (·.dedupKey) :=
  db.alerts.upsert row (fun r => { r with lastSentAt := row.lastSentAt, lastStatus := row.lastStatus }) (fun _ => rfl)

/-- What a statement that takes effect returns and leaves. Among rows with equal timestamps SQLite may return any order. -/
def Database.Step (db : Database) : (s : Statement) → s.Reply → Database → Prop
  | .insertOperation row, _, db' => ∃ t, db.operations.insert row = some t ∧ db' = { db with operations := t }
  | .updateOperation operationId t, n, db' =>
    n = db.operations.countWhere (fun r => r.operationId = operationId) ∧
      db' = db.updateOperations (fun r => r.operationId = operationId) (fun r => r.transition t)
        (OperationRow.transition_operationId t)
  | .completeReconciled certificateId localFingerprint currentVersion excluding now, n, db' =>
    n = db.operations.countWhere (OperationRow.closedBy certificateId localFingerprint excluding) ∧
      db' = db.updateOperations (OperationRow.closedBy certificateId localFingerprint excluding)
        (fun r => r.complete currentVersion now) (OperationRow.complete_operationId currentVersion now)
  | .completeInterruptedAudits certificateId excluding now, n, db' =>
    n = db.operations.countWhere (OperationRow.staleAudit certificateId excluding) ∧
      db' = db.updateOperations (OperationRow.staleAudit certificateId excluding) (fun r => r.completeAudit now)
        (OperationRow.completeAudit_operationId now)
  | .selectActive certificateId, rows, db' =>
    db' = db ∧ ∃ l : List OperationRow, l.Perm (db.activeRows certificateId) ∧ l.Pairwise (fun a b => a.startedAt ≤ b.startedAt) ∧
      rows = l.map OperationRow.toOperation
  | .selectConfirmedOcid certificateId, ocid, db' =>
    db' = db ∧
      ((ocid = none ∧ db.confirmedRows certificateId = []) ∨
        ∃ r ∈ db.confirmedRows certificateId, (∀ r' ∈ db.confirmedRows certificateId, completedBefore r' r) ∧
          ocid = r.ociCertificateOcid)
  | .upsertFacts certificateId update now, _, db' =>
    db' = { db with certificateStates := db.factsUpdated certificateId update now }
  | .selectAlert dedupKey, found, db' =>
    db' = db ∧ found = (db.alerts.rows.find? (·.dedupKey = dedupKey)).map fun r => (r.lastSentAt, r.lastStatus)
  | .upsertAlert row, _, db' =>
    db' = { db with alerts := db.alertsUpdated row }

end OciAcmePublisher
