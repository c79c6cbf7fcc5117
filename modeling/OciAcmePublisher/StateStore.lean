import OciAcmePublisher.Effects.Triple
import OciAcmePublisher.Ports

/-!
# The state store

The methods of `StateStore` as actions. The connection commits every statement by itself, so each method is its statements one
after the other, with the clock and the identifier it reads between them.
-/

namespace OciAcmePublisher

open Effects

/-- Execute one statement. -/
def sql (statement : Statement) : Action statement.Reply := perform (.sql statement)

/-- The optional columns of a state transition. -/
structure TransitionFields where
  ociVersionNumber : Option Int := none
  ociCertificateOcid : Option String := none
  opcRequestId : Option String := none
  errorCode : Option String := none
  errorMessageRedacted : Option String := none
  deriving DecidableEq, Repr

namespace StateStore

/-- Persist the state before the caller performs a side effect. -/
def startOperation (certificateId : String) (operationType : OperationType) (localFingerprint : Option String)
    (ociCertificateOcid : Option String) : Action Operation := do
  let operationId ← perform .uuid4
  let now ← utcNow
  sql (.insertOperation {
    operationId := operationId
    certificateId := certificateId
    operationType := operationType
    state := .discovered
    localFingerprint := localFingerprint
    ociCertificateOcid := ociCertificateOcid
    startedAt := now
    updatedAt := now })
  return {
    operationId := operationId
    certificateId := certificateId
    operationType := operationType
    state := .discovered
    localFingerprint := localFingerprint
    ociCertificateOcid := ociCertificateOcid
    ociVersionNumber := none }

/-- `completed_at` of a transition: now for a terminal state, null otherwise. -/
def completedAt (state : OperationState) : Action (Option Timestamp) :=
  if state.isTerminal then utcNow.bind fun now => .ret (some now) else .ret none

/-- Persist a state transition before or after the relevant external action. -/
def transition (operationId : String) (state : OperationState) (fields : TransitionFields := {}) : Action Unit := do
  let completed ← completedAt state
  let updated ← utcNow
  let rowcount ← sql (.updateOperation operationId {
    state := state
    ociVersionNumber := fields.ociVersionNumber
    ociCertificateOcid := fields.ociCertificateOcid
    opcRequestId := fields.opcRequestId
    errorCode := fields.errorCode
    errorMessageRedacted := fields.errorMessageRedacted
    updatedAt := updated
    completedAt := completed })
  if rowcount = 1 then return () else .raise (.of .keyError "operation does not exist")

/-- Return nonterminal operations for crash recovery decisions. -/
def activeOperations (certificateId : String) : Action (List Operation) := sql (.selectActive certificateId)

/-- Return the last OCI identity durably confirmed by this publisher. -/
def confirmedOciCertificateOcid (certificateId : String) : Action (Option String) :=
  sql (.selectConfirmedOcid certificateId)

/-- The four `record_.._success` methods: the upsert of the columns each one writes. -/
def recordFacts (certificateId : String) (update : FactUpdate) : Action Unit := do
  let now ← utcNow
  sql (.upsertFacts certificateId update now)

/-- Upsert the last confirmed local/remote agreement without sensitive data. -/
def recordPublicationSuccess (certificateId localFingerprint currentFingerprint : String) (currentVersion : Int) :
    Action Unit :=
  recordFacts certificateId (.publication localFingerprint currentFingerprint currentVersion)

/-- Persist only the successful audit timestamp, never endpoint certificate material. -/
def recordAuditSuccess (certificateId : String) : Action Unit := recordFacts certificateId .audit

/-- Record OCI CURRENT after rollback without overwriting the local lineage fact. -/
def recordRollbackSuccess (certificateId currentFingerprint : String) (currentVersion : Int) : Action Unit :=
  recordFacts certificateId (.rollback currentFingerprint currentVersion)

/-- Persist the renewal timestamp independently from the OCI publication timestamp. -/
def recordRenewalSuccess (certificateId : String) : Action Unit := recordFacts certificateId .renewal

/-- Close interrupted operations once OCI CURRENT proves the same local material won. -/
def completeReconciledOperations (certificateId localFingerprint : String) (currentVersion : Int)
    (excludingOperationId : String) : Action Nat := do
  let now ← utcNow
  sql (.completeReconciled certificateId localFingerprint currentVersion excludingOperationId now)

/-- Close stale audit attempts once a newer audit has independently succeeded. -/
def completeInterruptedAudits (certificateId excludingOperationId : String) : Action Nat := do
  let now ← utcNow
  sql (.completeInterruptedAudits certificateId excludingOperationId now)

/-- Return whether a safe alert event is outside its durable cooldown window. -/
def shouldSendAlert (dedupKey status : String) (minimumRepeatIntervalMinutes : Nat) : Action Bool := do
  let row ← sql (.selectAlert dedupKey)
  match row with
  | none => return true
  | some (lastSentAt, lastStatus) =>
    if lastStatus ≠ status then return true
    else do
      let now ← perform .now
      return decide (lastSentAt * 1000000 < now - seconds (60 * minimumRepeatIntervalMinutes))

/-- Record only event identity and time after a notification is delivered. -/
def recordAlertSent (dedupKey status : String) : Action Unit := do
  let now ← utcNow
  sql (.upsertAlert { dedupKey := dedupKey, lastSentAt := now, lastStatus := status })

/-! ## Footprints -/

/-- The operations that read the store or record alerts and facts other than a successful audit, with the clock they read. -/
def records : Op → Bool
  | .sql (.upsertFacts _ .audit _) => false
  | .now | .sql (.upsertFacts ..) | .sql (.selectAlert _) | .sql (.upsertAlert _) | .sql (.selectActive _)
  | .sql (.selectConfirmedOcid _) => true
  | _ => false

/-- The operation records a successful audit, or closes the audits before it. -/
def recordsAudit : Op → Bool
  | .sql (.upsertFacts _ .audit _) | .sql (.completeInterruptedAudits ..) => true
  | _ => false

/-- The operations a method performs on behalf of the operation `operationId` of the certificate: the clock and every statement but
the insertion of an operation row, the update of another operation's row and those that record an audit. -/
def footprint (certificateId operationId : String) : Op → Bool
  | .now => true
  | .sql (.insertOperation _) | .sql (.upsertFacts _ .audit _) | .sql (.completeInterruptedAudits ..) => false
  | .sql (.updateOperation id _) => id = operationId
  | .sql (.completeReconciled id ..) => id = certificateId
  | .sql _ => true
  | _ => false

variable {A : Op → Prop} {certificateId operationId : String}

theorem uses_utcNow (hnow : A .now) : utcNow.Uses A :=
  Program.uses_bind (Program.uses_perform.2 hnow) fun _ => trivial

/-- The start of an operation inserts one row, with what it is given. -/
theorem uses_startOperation (hid : A .uuid4) (hnow : A .now) (certificateId : String) (operationType : OperationType)
    (localFingerprint ociCertificateOcid : Option String)
    (hrow : ∀ row : OperationRow, row.certificateId = certificateId → row.operationType = operationType →
      row.localFingerprint = localFingerprint → row.ociCertificateOcid = ociCertificateOcid →
        A (.sql (.insertOperation row))) :
    (startOperation certificateId operationType localFingerprint ociCertificateOcid).Uses A := by
  refine Program.uses_bind (Program.uses_perform.2 hid) fun _ => ?_
  refine Program.uses_bind (uses_utcNow hnow) fun _ => ?_
  exact Program.uses_bind (Program.uses_perform.2 (hrow _ rfl rfl rfl rfl)) fun _ => trivial

theorem uses_completedAt (hnow : A .now) (state : OperationState) : (completedAt state).Uses A := by
  unfold completedAt
  split
  · exact Program.uses_bind (uses_utcNow hnow) fun _ => trivial
  · trivial

/-- A transition updates the row of its operation, with the state and the OCID it is given. -/
theorem uses_transition_to (hnow : A .now) {state : OperationState} {fields : TransitionFields}
    (hrow : ∀ t, t.state = state → t.ociCertificateOcid = fields.ociCertificateOcid →
      A (.sql (.updateOperation operationId t))) : (transition operationId state fields).Uses A := by
  refine Program.uses_bind (uses_completedAt hnow state) fun _ => ?_
  refine Program.uses_bind (uses_utcNow hnow) fun _ => ?_
  refine Program.uses_bind (Program.uses_perform.2 (hrow _ rfl rfl)) fun _ => ?_
  split <;> trivial

theorem uses_transition_row (hnow : A .now) (hrow : ∀ t, A (.sql (.updateOperation operationId t))) (state : OperationState)
    (fields : TransitionFields) : (transition operationId state fields).Uses A :=
  uses_transition_to hnow fun t _ _ => hrow t

theorem uses_transition (hA : ∀ op, footprint certificateId operationId op = true → A op) (state : OperationState)
    (fields : TransitionFields) : (transition operationId state fields).Uses A :=
  uses_transition_row (hA _ rfl) (fun _ => hA _ (decide_eq_true rfl)) state fields

theorem uses_recordFacts {id : String} {update : FactUpdate} (hnow : A .now)
    (hfact : ∀ now, A (.sql (.upsertFacts id update now))) : (recordFacts id update).Uses A :=
  Program.uses_bind (uses_utcNow hnow) fun _ => Program.uses_perform.2 (hfact _)

theorem uses_completeReconciledOperations (hA : ∀ op, footprint certificateId operationId op = true → A op)
    (localFingerprint : String) (currentVersion : Int) (excluding : String) :
    (completeReconciledOperations certificateId localFingerprint currentVersion excluding).Uses A :=
  Program.uses_bind (uses_utcNow (hA _ rfl)) fun _ => Program.uses_perform.2 (hA _ (decide_eq_true rfl))

theorem uses_completeInterruptedAudits {id excluding : String} (hnow : A .now)
    (hclose : ∀ now, A (.sql (.completeInterruptedAudits id excluding now))) :
    (completeInterruptedAudits id excluding).Uses A :=
  Program.uses_bind (uses_utcNow hnow) fun _ => Program.uses_perform.2 (hclose _)

theorem uses_shouldSendAlert (hA : ∀ op, records op = true → A op)
    (dedupKey status : String) (minutes : Nat) : (shouldSendAlert dedupKey status minutes).Uses A := by
  refine Program.uses_bind (Program.uses_perform.2 (hA _ rfl)) fun row => ?_
  rcases row with _ | ⟨lastSentAt, lastStatus⟩
  · trivial
  · simp only
    split
    · trivial
    · exact Program.uses_bind (Program.uses_perform.2 (hA _ rfl)) fun _ => trivial

theorem uses_recordAlertSent (hA : ∀ op, records op = true → A op)
    (dedupKey status : String) : (recordAlertSent dedupKey status).Uses A :=
  Program.uses_bind (uses_utcNow (hA _ rfl)) fun _ => Program.uses_perform.2 (hA _ rfl)

end StateStore

end OciAcmePublisher
