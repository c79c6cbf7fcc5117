import OciAcmePublisher.AcmeService
import OciAcmePublisher.Effects.Refinement
import OciAcmePublisher.NotificationService
import OciAcmePublisher.Reconciler
import OciAcmePublisher.RetentionService
import OciAcmePublisher.RollbackService
import OciAcmePublisher.StagingEvidence

/-!
# The publication service

`PublicationService`: the orchestration of one certificate set (publish, renew, bootstrap, audit, rollback, retention) and the
timer run over all sets. `passes` bounds the rounds of every TLS audit.
-/

namespace OciAcmePublisher

open Effects

/-- `PublicationServiceError` with its text. -/
def publicationServiceError (message : String) : Exc := .of .publicationServiceError message

/-- A newly created OCI certificate OCID and verified current version. -/
structure BootstrapResult where
  certificateId : String
  ociCertificateOcid : String
  currentVersionNumber : Int
  deriving DecidableEq, Repr

/-- Scheduled deletions after protected versions have been excluded. -/
structure RetentionResult where
  certificateId : String
  scheduledVersionNumbers : List Int
  deriving DecidableEq, Repr

/-- One isolated renewal failure, kept free of certificate material. -/
structure RenewalFailure where
  certificateId : String
  error : Exc
  deriving DecidableEq, Repr

/-- All independently attempted renewal results for one timer invocation. -/
structure RenewalBatchResult where
  publications : List PublicationResult := []
  failures : List RenewalFailure := []
  deriving DecidableEq, Repr

/-- `_RENEWABLE_CERTIFICATE_FAILURES`. -/
def renewableCertificateFailures : List ExcClass :=
  [.auditError, .certificateValidationError, .chainBuildError, .configurationError, .ociAuthenticationError,
    .ociCertificateError, .acmeOperationError, .certificateStoreError, .preflightError, .publicationServiceError,
    .reconciliationError, .rollbackError]

/-- `configured_certificate`: one configured certificate set, or a failure. -/
def configuredCertificate (config : AppConfig) (certificateId : String) : Except Exc CertificateConfig :=
  match config.certificates.find? (·.id = certificateId) with
  | some certificate => .ok certificate
  | none => .error (publicationServiceError "configured certificate id was not found")

theorem configuredCertificate_id {config : AppConfig} {certificateId : String} {certificate : CertificateConfig}
    (h : configuredCertificate config certificateId = .ok certificate) : certificate.id = certificateId := by
  unfold configuredCertificate at h
  split at h
  · rename_i hfound
    cases h
    simpa using List.find?_some hfound
  · cases h

/-- `_failure_notification_event`. -/
def failureNotificationEvent (error : Exc) : String :=
  if error.isInstance .preflightError then "HTTP01_PREFLIGHT_FAILED"
  else if error.isInstance .acmeOperationError then "ACME_FAILED"
  else if error.isOneOf [.certificateStoreError, .certificateValidationError, .chainBuildError] then
    "LOCAL_CERT_REJECTED"
  else if error.isInstance .rollbackError then "OCI_ROLLBACK_FAILED"
  else if error.isInstance .auditError then "AUDIT_FAILED"
  else "OCI_UPLOAD_FAILED"

/-- `certificate_days_remaining`: none where the stored leaf cannot be read. -/
def certificateDaysRemaining (Γ : Ctx) (config : AppConfig) (certificate : CertificateConfig) (now : Instant) :
    Action (Option Rat) := do
  let content ← (perform (.readFile (config.acme.certificatesDir ++ "/" ++ certificate.id ++ "/current/cert.pem"))).attempt
  match content with
  | .error error => if error.isOneOf [.osError, .valueError] then return none else .raise error
  | .ok raw => return (Γ.loadPem raw).map fun parsed => max 0 (((parsed.notValidAfter - now : Int) : Rat) / (days 1 : Int))

/-- `_expiry_notification_event`: classify only an observable public-certificate expiry threshold. -/
def expiryNotificationEvent (Γ : Ctx) (config : AppConfig) (certificate : CertificateConfig) (now : Instant) :
    Action (Option String) := do
  let remaining ← certificateDaysRemaining Γ config certificate now
  match remaining with
  | none => return none
  | some remaining =>
    if remaining ≤ config.monitoring.criticalDays then return some "CERTIFICATE_EXPIRY_CRITICAL"
    else if remaining ≤ config.monitoring.warningDays then return some "CERTIFICATE_EXPIRY_WARNING"
    else return none

/-- `operation_type.value.lower()`. -/
def OperationType.lowerName : OperationType → String
  | .bootstrap => "bootstrap"
  | .renew => "renew"
  | .publish => "publish"
  | .reconcile => "reconcile"
  | .audit => "audit"
  | .rollback => "rollback"

namespace PublicationService

variable (Γ : Ctx) (config : AppConfig)

/-- The adapters of the certificate's region and the opened state store. -/
def openPorts (certificate : CertificateConfig) : Action Unit := do
  perform (.createAdapters certificate.oci.region)
  perform (.openStore config.global.stateDir)

/-- `_notify_event`: deliver one safe event with durable cooldown. -/
def notifyEvent (certificateId event : String) : Action Unit := do
  let opened ← (perform (.openStore config.global.stateDir)).attempt
  match opened with
  | .error error => if error.isOneOf [.osError, .sqliteError] then return () else .raise error
  | .ok _ => do
    let outcome ← (NotificationService.notify Γ config.notifications event
      [("certificate_id", certificateId), ("status", event)]).attempt
    match outcome with
    | .ok _ => return ()
    | .error error => if error.isInstance .notificationError then return () else .raise error

/-- `_notify_renewal_failure`. -/
def notifyRenewalFailure (certificateId : String) (error : Exc) : Action Unit :=
  notifyEvent Γ config certificateId (failureNotificationEvent error)

/-- `_notify_audit_failure`. -/
def notifyAuditFailure (certificateId : String) : Action Unit := do
  let outcome ← (NotificationService.notify Γ config.notifications "AUDIT_FAILED"
    [("certificate_id", certificateId), ("status", "AUDIT_FAILED")]).attempt
  match outcome with
  | .ok _ => return ()
  | .error error => if error.isInstance .notificationError then return () else .raise error

/-- `_require_production_qualification`: block every production certificate mutation until Gate 0 evidence matches. -/
def requireProductionQualification (certificate : CertificateConfig) : Action Unit :=
  if config.global.environment = .production then requireQualifiedProfile config certificate else return ()

/-- `_run_preflight`. -/
def runPreflight (certificate : CertificateConfig) : Action Unit := do
  logEvent .info "HTTP01_PREFLIGHT_STARTED" [("certificate_id", .text certificate.id)]
  let outcome ← (perform (.preflight certificate.webrootId certificate.domains)).attempt
  match outcome with
  | .error error =>
    if error.isInstance .preflightError then do
      logEvent .error "HTTP01_PREFLIGHT_FAILED" [("certificate_id", .text certificate.id)]
      .raise error
    else .raise error
  | .ok _ => logEvent .info "HTTP01_PREFLIGHT_SUCCESS" [("certificate_id", .text certificate.id)]

/-- `_audit_service`: a staging audit trusts the pinned root only, and reads it first. -/
def auditService (certificate : CertificateConfig) : Action AuditConfig :=
  if config.global.environment = .staging then
    (perform (.readFile certificate.chain.rootPemPath)).bind fun _ => .ret certificate.audit
  else return certificate.audit

/-- What `audit` does once it has failed. -/
def auditFailed (certificate : CertificateConfig) (operationId : String) : Action Unit := do
  StateStore.transition operationId .auditFailed { errorCode := some "AUDIT_FAILED" }
  notifyAuditFailure Γ config certificate.id
  logEvent .error "AUDIT_FAILED" [("certificate_id", .text certificate.id)]

/-- The `try` block of `audit`. -/
def auditCurrent (passes : Nat) (certificate : CertificateConfig) (ocid operationId requestId : String) :
    Action Bool := do
  let bundle ← perform (.getPublicBundle ocid none requestId)
  let now ← perform .now
  let expected ← ofExcept (validatePublicCertificate Γ bundle.certificatePem certificate config.global now)
  let configuration ← auditService config certificate
  let result ← AuditService.audit Γ configuration passes expected
  if result.successful = false then do
    auditFailed Γ config certificate operationId
    return false
  else do
    StateStore.transition operationId .auditSuccess
    StateStore.recordAuditSuccess certificate.id
    StateStore.transition operationId .completed
    let _ ← StateStore.completeInterruptedAudits certificate.id operationId
    logEvent .info "AUDIT_SUCCESS" [("certificate_id", .text certificate.id)]
    return true

/-- `audit`, from the operation row on. -/
def auditStarted (passes : Nat) (certificate : CertificateConfig) (ocid operationId : String) : Action Bool := do
  let requestId ← perform .uuid4
  StateStore.transition operationId .auditPending { opcRequestId := some requestId }
  (auditCurrent Γ config passes certificate ocid operationId requestId).handle fun error =>
    if error.isInstance .auditError then
      (auditFailed Γ config certificate operationId).bind fun _ => .raise error
    else .raise error

/-- `audit`: audit public endpoints against the OCI CURRENT public bundle fingerprint. -/
def audit (passes : Nat) (certificateId : String) : Action Bool := do
  let certificate ← ofExcept (configuredCertificate config certificateId)
  match certificate.oci.certificateOcid with
  | none => .raise (publicationServiceError "audit requires a configured OCI certificate OCID")
  | some ocid => do
    openPorts config certificate
    let operation ← StateStore.startOperation certificate.id .audit none (some ocid)
    auditStarted Γ config passes certificate ocid operation.operationId

/-- `rollback`: restore one eligible OCI PREVIOUS version. -/
def rollback (passes : Nat) (certificateId : String) : Action RollbackResult := do
  let certificate ← ofExcept (configuredCertificate config certificateId)
  openPorts config certificate
  let now ← perform .now
  let configuration ← auditService config certificate
  RollbackService.rollback Γ config certificate now (some configuration) passes

/-- The loop of `retention` over the planned versions. -/
def scheduleDeletions (certificate : CertificateConfig) (ocid : String) (deletionTime : Instant) :
    List Int → Action Unit
  | [] => return ()
  | versionNumber :: rest => do
    let requestId ← perform .uuid4
    let version ← perform (.getVersion ocid versionNumber requestId)
    if version.etag = none then
      .raise (.of .ociCertificateError "OCI version deletion requires a version ETag")
    else do
      perform (.scheduleVersionDeletion ocid versionNumber deletionTime version.etag requestId)
      logEvent .info "RETENTION_SCHEDULED"
        [("certificate_id", .text certificate.id), ("version_number", .number versionNumber)]
      scheduleDeletions certificate ocid deletionTime rest

/-- `retention`: schedule deletion only for safe deprecated versions. -/
def retention (certificateId : String) : Action RetentionResult := do
  let certificate ← ofExcept (configuredCertificate config certificateId)
  match certificate.oci.certificateOcid with
  | none => .raise (publicationServiceError "retention requires a configured OCI certificate OCID")
  | some ocid => do
    openPorts config certificate
    let requestId ← perform .uuid4
    let versions ← perform (.listVersions ocid requestId)
    let active ← StateStore.activeOperations certificate.id
    let now ← perform .now
    let plan := planRetention certificate.retention versions (active.filterMap (·.ociVersionNumber)) now
    scheduleDeletions certificate ocid plan.deletionTime plan.versionNumbers
    return { certificateId := certificate.id, scheduledVersionNumbers := plan.versionNumbers }

/-- `_enforce_post_publication_audit`: roll back only under explicit policy. -/
def enforcePostPublicationAudit (passes : Nat) (certificate : CertificateConfig) : Action Unit :=
  if certificate.audit.mode ≠ .enforce then return ()
  else do
    let successful ← (audit Γ config passes certificate.id).handle fun error =>
      if error.isInstance .auditError then return false else .raise error
    if successful = true then return ()
    else if certificate.audit.automaticRollbackOnFailure = false then
      .raise (auditError "TLS audit failed after OCI publication")
    else do
      let outcome ← (rollback Γ config passes certificate.id).attempt
      match outcome with
      | .ok _ => return ()
      | .error error =>
        if error.isInstance .rollbackError then do
          logEvent .error "OCI_ROLLBACK_FAILED" [("certificate_id", .text certificate.id)]
          .raise error
        else .raise error

/-- `_run_post_publication_audit`: only enforce mode can block publication. -/
def runPostPublicationAudit (passes : Nat) (certificate : CertificateConfig) : Action Unit :=
  match certificate.audit.mode with
  | .disabled => return ()
  | .enforce => enforcePostPublicationAudit Γ config passes certificate
  | .observe =>
    Program.handle ((audit Γ config passes certificate.id).bind fun _ => .ret ()) fun error =>
      if error.isInstance .auditError then return () else .raise error

/-- The failures of retention that do not invalidate CURRENT. -/
def retentionFailures : List ExcClass :=
  [.ociAuthenticationError, .ociCertificateError, .osError, .publicationServiceError, .sqliteError]

/-- `_run_post_publication_retention`. -/
def runPostPublicationRetention (certificate : CertificateConfig) : Action Unit :=
  if certificate.retention.enabled = false then return ()
  else do
    let outcome ← (retention config certificate.id).attempt
    match outcome with
    | .error error =>
      if error.isOneOf retentionFailures then do
        logEvent .error "RETENTION_FAILED" [("certificate_id", .text certificate.id)]
        notifyEvent Γ config certificate.id "RETENTION_FAILED"
      else .raise error
    | .ok result =>
      if result.scheduledVersionNumbers = [] then
        logEvent .info "RETENTION_SKIPPED" [("certificate_id", .text certificate.id)]
      else return ()

/-- `publish`: publish local already-issued material after full local validation. -/
def publish (passes : Nat) (certificateId : String) (operationType : OperationType) : Action PublicationResult := do
  let certificate ← ofExcept (configuredCertificate config certificateId)
  requireProductionQualification config certificate
  let material ← perform (.loadLineage certificate.id)
  let validated ← perform .now
  let fingerprint ← ofExcept
    (validateCertificateMaterial Γ material certificate config.compatibility config.global validated)
  let chain ← buildChain Γ config certificate material
  logEvent .info "LOCAL_CERT_VALIDATED" [("certificate_id", .text certificate.id)]
  openPorts config certificate
  let now ← perform .now
  let result ← PublicationReconciler.publish Γ config certificate material chain fingerprint now operationType
  logEvent .info "OPERATION_COMPLETED"
    [("certificate_id", .text certificate.id), ("operation", .text operationType.lowerName),
      ("version_number", .number result.currentVersionNumber)]
  runPostPublicationAudit Γ config passes certificate
  runPostPublicationRetention Γ config certificate
  return result

/-- The fingerprint of the stored generation before a renewal, where there is one. -/
def beforeFingerprint (certificate : CertificateConfig) : Action (Option String) := do
  let found ← perform (.lineageExists certificate.id)
  if found = false then return none
  else do
    let stored ← perform (.loadLineage certificate.id)
    let now ← perform .now
    let fingerprint ← ofExcept
      (validateCertificateMaterial Γ stored certificate config.compatibility config.global now)
    return some fingerprint

/-- `renew`: issue natively when due, then reconcile local material into OCI. The result is the publication's, whether the
fingerprint has changed or not. -/
def renew (passes : Nat) (certificateId : String) (force : Bool) : Action PublicationResult := do
  let certificate ← ofExcept (configuredCertificate config certificateId)
  requireProductionQualification config certificate
  runPreflight certificate
  let _ ← beforeFingerprint Γ config certificate
  logEvent .info "ACME_STARTED" [("certificate_id", .text certificate.id)]
  let _ ← NativeAcmeService.issue Γ config certificate force
  logEvent .info "ACME_COMPLETED" [("certificate_id", .text certificate.id)]
  publish Γ config passes certificateId .renew

/-! ## Bootstrap -/

/-- The operation was started by an interrupted bootstrap of the same material that had created the OCI certificate. -/
def isRecoverable (fingerprint : String) (operation : Operation) : Bool :=
  operation.operationType = .bootstrap && operation.localFingerprint = some fingerprint &&
    operation.ociCertificateOcid.isSome

/-- The end of a bootstrap: the version OCI has made CURRENT is recorded, and the operation completed. -/
def confirmCreated (certificate : CertificateConfig) (fingerprint : String) (operationId ocid : String)
    (bundle : OciPublicBundle) (remoteFingerprint : String) (requestId : Option String) : Action BootstrapResult := do
  StateStore.transition operationId .ociCurrentConfirmed
    { ociVersionNumber := some bundle.versionNumber, opcRequestId := requestId }
  StateStore.recordPublicationSuccess certificate.id fingerprint remoteFingerprint bundle.versionNumber
  StateStore.transition operationId .completed
  return {
    certificateId := certificate.id
    ociCertificateOcid := ocid
    currentVersionNumber := bundle.versionNumber }

/-- The CURRENT bundle of the OCI certificate, which must hold the local leaf. -/
def readCreated (certificate : CertificateConfig) (fingerprint ocid requestId mismatch : String) :
    Action (OciPublicBundle × String) := do
  let bundle ← perform (.getPublicBundle ocid none requestId)
  let now ← perform .now
  let remoteFingerprint ← ofExcept
    (validatePublicCertificate Γ bundle.certificatePem certificate config.global now)
  if remoteFingerprint ≠ fingerprint then .raise (publicationServiceError mismatch)
  else return (bundle, remoteFingerprint)

/-- `_recover_bootstrap`: finish a post-create bootstrap crash without creating a second OCI OCID. -/
def recoverBootstrap (certificate : CertificateConfig) (fingerprint : String) : Action (Option BootstrapResult) := do
  let active ← StateStore.activeOperations certificate.id
  match active.filter (isRecoverable fingerprint) with
  | [] => return none
  | [operation] =>
    match operation.ociCertificateOcid with
    | none => .raise (publicationServiceError "bootstrap recovery lacks OCI certificate state")
    | some ocid => do
      let requestId ← perform .uuid4
      let (bundle, remoteFingerprint) ← readCreated Γ config certificate fingerprint ocid requestId
        "bootstrap recovery OCI certificate does not match local material"
      let result ← confirmCreated certificate fingerprint operation.operationId ocid bundle remoteFingerprint
        (some requestId)
      logEvent .info "OPERATION_COMPLETED"
        [("certificate_id", .text certificate.id), ("operation", .text "bootstrap-recovery"),
          ("version_number", .number bundle.versionNumber)]
      return some result
  | _ => .raise (publicationServiceError "bootstrap recovery has ambiguous OCI certificate state")

/-- The creation of the OCI certificate: its OCID. -/
def create (certificate : CertificateConfig) (material : LineageMaterial) (chain : OciCertificateChain)
    (fingerprint requestId : String) : Action String := do
  let now ← perform .now
  let label ← ofExcept (versionName Γ now fingerprint)
  perform (.createImportedCertificate certificate.oci.compartmentOcid certificate.oci.certificateName
    { versionName := label
      certificatePem := material.leafPem
      certChainPem := chain.certChainPem
      privateKeyPem := material.privateKeyPem } requestId)

/-- The `try` block of `bootstrap` after the creation. -/
def confirmCreation (certificate : CertificateConfig) (fingerprint operationId ocid requestId : String) :
    Action BootstrapResult := do
  StateStore.transition operationId .ociReconciled { ociCertificateOcid := some ocid, opcRequestId := some requestId }
  let (bundle, remoteFingerprint) ← readCreated Γ config certificate fingerprint ocid requestId
    "initial OCI certificate current version does not match local material"
  confirmCreated certificate fingerprint operationId ocid bundle remoteFingerprint none

/-- The `except` clauses of `bootstrap`: the state a failure leaves the operation in, and the exception goes on. -/
def creationFailed (operationId : String) (created : Bool) (error : Exc) : Action BootstrapResult :=
  if error.isInstance .ociCertificateError then do
    StateStore.transition operationId (if created then .ociVersionFailed else .ociUploadFailed)
    .raise error
  else if error.isOneOf [.certificateValidationError, .publicationServiceError] then do
    StateStore.transition operationId .ociVersionFailed
    .raise error
  else .raise error

/-- From the operation row to the result. -/
def createStarted (certificate : CertificateConfig) (material : LineageMaterial) (chain : OciCertificateChain)
    (fingerprint operationId : String) : Action BootstrapResult := do
  StateStore.transition operationId .localCertValidated
  let attempt ← Program.attempt (do
    let requestId ← perform .uuid4
    let ocid ← create Γ certificate material chain fingerprint requestId
    return (requestId, ocid))
  match attempt with
  | .error error => creationFailed operationId false error
  | .ok (requestId, ocid) =>
    (confirmCreation Γ config certificate fingerprint operationId ocid requestId).handle (creationFailed operationId true)

/-- Create the OCI certificate and verify it. -/
def createCertificate (certificate : CertificateConfig) (material : LineageMaterial) (chain : OciCertificateChain)
    (fingerprint : String) : Action BootstrapResult := do
  let operation ← StateStore.startOperation certificate.id .bootstrap (some fingerprint) none
  createStarted Γ config certificate material chain fingerprint operation.operationId

/-- `bootstrap`: issue the initial lineage then create and verify one imported OCI certificate. -/
def bootstrap (certificateId : String) : Action BootstrapResult := do
  let certificate ← ofExcept (configuredCertificate config certificateId)
  if certificate.oci.certificateOcid ≠ none then
    .raise (publicationServiceError "bootstrap requires certificate_ocid to be absent")
  else do
    requireProductionQualification config certificate
    runPreflight certificate
    logEvent .info "ACME_STARTED" [("certificate_id", .text certificate.id)]
    let _ ← NativeAcmeService.issue Γ config certificate false
    logEvent .info "ACME_COMPLETED" [("certificate_id", .text certificate.id)]
    let material ← perform (.loadLineage certificate.id)
    let now ← perform .now
    let fingerprint ← ofExcept
      (validateCertificateMaterial Γ material certificate config.compatibility config.global now)
    let chain ← buildChain Γ config certificate material
    openPorts config certificate
    let recovered ← recoverBootstrap Γ config certificate fingerprint
    match recovered with
    | some result => return result
    | none => createCertificate Γ config certificate material chain fingerprint

/-! ## The timer run -/

/-- The configuration a recovered OCID is renewed with. -/
def withRecoveredOcid (certificate : CertificateConfig) (ocid : String) : AppConfig :=
  { config with
    certificates := config.certificates.map fun item =>
      if item.id = certificate.id then certificate.withOcid ocid else item }

/-- The attempt of one set: bootstrap it where it has no OCI certificate yet, renew it otherwise. -/
def attemptRenewal (passes : Nat) (certificate : CertificateConfig) : Action PublicationResult :=
  match certificate.oci.certificateOcid with
  | some _ => renew Γ config passes certificate.id false
  | none => do
    perform (.openStore config.global.stateDir)
    let recovered ← StateStore.confirmedOciCertificateOcid certificate.id
    match recovered with
    | none => do
      let created ← bootstrap Γ config certificate.id
      return {
        certificateId := created.certificateId
        currentVersionNumber := created.currentVersionNumber
        localFingerprint := "initial-publication"
        changed := true }
    | some ocid => renew Γ (withRecoveredOcid config certificate ocid) passes certificate.id false

/-- The expiry notification after a renewal. -/
def notifyExpiry (certificate : CertificateConfig) : Action Unit := do
  let now ← perform .now
  let event ← expiryNotificationEvent Γ config certificate now
  match event with
  | none => return ()
  | some event => notifyEvent Γ config certificate.id event

/-- What a timer run does to one set. -/
inductive BatchOp where
  | notifyUnverified (certificate : CertificateConfig)
  | attempt (certificate : CertificateConfig)
  | notifyExpiry (certificate : CertificateConfig)
  | notifyFailure (certificate : CertificateConfig) (error : Exc)
  deriving DecidableEq

/-- The signature of a timer run. -/
@[reducible] def batch : Signature where
  Op := BatchOp
  Reply
    | .attempt _ => PublicationResult
    | _ => Unit

/-- The handler of a failed set: a declared failure is kept and notified, any other exception goes on. -/
def keepFailure (certificate : CertificateConfig) (error : Exc) (result : RenewalBatchResult) :
    Program batch Exc RenewalBatchResult :=
  if error.isOneOf renewableCertificateFailures then do
    Program.perform (S := batch) (.notifyFailure certificate error)
    return { result with failures := result.failures ++ [⟨certificate.id, error⟩] }
  else .raise error

/-- The `try` block of one set, with its handler. -/
def attemptSet (certificate : CertificateConfig) (result : RenewalBatchResult) :
    Program batch Exc RenewalBatchResult := do
  let outcome ← (Program.perform (S := batch) (.attempt certificate)).attempt
  match outcome with
  | .error error => keepFailure certificate error result
  | .ok publication => do
    let published := { result with publications := result.publications ++ [publication] }
    let notified ← (Program.perform (S := batch) (.notifyExpiry certificate)).attempt
    match notified with
    | .error error => keepFailure certificate error published
    | .ok _ => return published

/-- The notification of a set whose configuration is not live-verified. -/
def warnUnverified (certificate : CertificateConfig) : Program batch Exc Unit :=
  if config.compatibility.liveVerified = false then Program.perform (S := batch) (.notifyUnverified certificate)
  else return ()

/-- The loop of `renew_all` over the sets that are left. -/
def renewSets : List CertificateConfig → RenewalBatchResult → Program batch Exc RenewalBatchResult
  | [], result => return result
  | certificate :: rest, result => do
    warnUnverified config certificate
    let result ← attemptSet certificate result
    renewSets rest result

/-- What each operation of a timer run does. -/
def batchStep (passes : Nat) : (op : batch.Op) → Action (batch.Reply op)
  | .notifyUnverified certificate => notifyEvent Γ config certificate.id "COMPATIBILITY_NOT_VERIFIED"
  | .attempt certificate => attemptRenewal Γ config passes certificate
  | .notifyExpiry certificate => notifyExpiry Γ config certificate
  | .notifyFailure certificate error => notifyRenewalFailure Γ config certificate.id error

/-- `renew_all`: attempt every set sequentially, preserving failures without skipping later sets. -/
def renewAll (passes : Nat) : Action RenewalBatchResult :=
  (renewSets config config.certificates {}).subst (batchStep Γ config passes)

end PublicationService

end OciAcmePublisher
