import OciAcmePublisher.StateStore
import OciAcmePublisher.OciRetry

/-!
# Publication reconciliation

`PublicationReconciler`: converge one existing OCI certificate to validated local material. Every mutation is preceded by the
reads that decide it; an ambiguous outcome is left to the next run.
-/

namespace OciAcmePublisher

open Effects

/-- Safe publication result suitable for logs, status and metrics. -/
structure PublicationResult where
  certificateId : String
  currentVersionNumber : Int
  localFingerprint : String
  changed : Bool
  deriving DecidableEq, Repr

/-- `ReconciliationError` with its text. -/
def reconciliationError (message : String) : Exc := .of .reconciliationError message

namespace PublicationReconciler

/-- `_verify_bundle`. -/
def verifyBundle (Γ : Ctx) (bundle : OciPublicBundle) (certificate : CertificateConfig) (config : AppConfig)
    (now : Instant) : Except Exc String :=
  match validatePublicCertificate Γ bundle.certificatePem certificate config.global now with
  | .ok fingerprint => .ok fingerprint
  | .error _ => .error (reconciliationError "OCI public bundle failed local identity validation")

theorem verifyBundle_ok {Γ : Ctx} {bundle : OciPublicBundle} {certificate : CertificateConfig} {config : AppConfig} {now : Instant}
    {fingerprint : String} (h : verifyBundle Γ bundle certificate config now = .ok fingerprint) :
    validatePublicCertificate Γ bundle.certificatePem certificate config.global now = .ok fingerprint := by
  unfold verifyBundle at h
  split at h
  · rename_i hvalid
    rw [hvalid, h]
  · cases h

/-- The candidate carries a stage of an uploaded version that is not CURRENT yet. -/
def isPendingOrLatest (candidate : OciCertificateVersion) : Bool :=
  candidate.stages.contains .pending || candidate.stages.contains .latest

/-- The loop of `_find_matching_pending` over the listed versions. -/
def firstMatching (Γ : Ctx) (certificateId : String) (certificate : CertificateConfig) (config : AppConfig)
    (localFingerprint : String) (now : Instant) (requestId : String) :
    List OciCertificateVersion → Action (Option OciCertificateVersion)
  | [] => return none
  | candidate :: rest =>
    if isPendingOrLatest candidate then do
      let bundle ← perform (.getPublicBundle certificateId (some candidate.versionNumber) requestId)
      let fingerprint ← ofExcept (verifyBundle Γ bundle certificate config now)
      if fingerprint = localFingerprint then return some candidate
      else firstMatching Γ certificateId certificate config localFingerprint now requestId rest
    else firstMatching Γ certificateId certificate config localFingerprint now requestId rest

/-- `_find_matching_pending`. -/
def findMatchingPending (Γ : Ctx) (certificateId : String) (certificate : CertificateConfig) (config : AppConfig)
    (localFingerprint : String) (now : Instant) (requestId : String) : Action (Option OciCertificateVersion) := do
  let versions ← perform (.listVersions certificateId requestId)
  firstMatching Γ certificateId certificate config localFingerprint now requestId versions

/-- The errors of a promotion that `_promote_current` may try again. -/
def promotionRetryable : Exc → Bool
  | .service status code _ =>
    [429, 500, 502, 503, 504].contains status || (status == 409 && code == "IncorrectState")
  | .of .. => true

/-- The retry policy of the promotion. -/
def promotionPolicy (config : AppConfig) : ReadRetryPolicy where
  maxAttempts := config.oci.mutationReconciliationAttempts
  baseDelaySeconds := 1
  maximumDelaySeconds := 15

/-- The attempts that are left of `_promote_current`. -/
def promoteCurrent.attempts (policy : ReadRetryPolicy) (certificateId : String) (versionNumber : Int)
    (requestId : String) : Nat → Action Unit
  | 0 => .raise (.of .runtimeError "OCI promotion retry policy has no attempts")
  | remaining + 1 => do
    let refreshed ← perform (.getCertificate certificateId requestId)
    if refreshed.currentVersionNumber = some versionNumber then return ()
    else do
      let outcome ← (perform (.promoteCurrent certificateId versionNumber refreshed.etag requestId)).attempt
      match outcome with
      | .ok _ => return ()
      | .error error =>
        if error.isOneOf transportFailures ∧ promotionRetryable error = true ∧ remaining ≠ 0 then do
          sleepFor policy (policy.maxAttempts - (remaining + 1)) none
          attempts policy certificateId versionNumber requestId remaining
        else .raise error

/-- `_promote_current`: promote after OCI settles, reconciling every ambiguous retry first. -/
def promoteCurrent (config : AppConfig) (certificateId : String) (versionNumber : Int) (requestId : String) :
    Action Unit :=
  promoteCurrent.attempts (promotionPolicy config) certificateId versionNumber requestId
    (promotionPolicy config).maxAttempts

/-- The renewal timestamp is recorded for renewals only. -/
def recordRenewal (certificate : CertificateConfig) (operationType : OperationType) : Action Unit :=
  if operationType = .renew then StateStore.recordRenewalSuccess certificate.id else .ret ()

/-- `_complete`. -/
def complete (operationId : String) (certificate : CertificateConfig) (localFingerprint remoteFingerprint : String)
    (versionNumber : Int) (changed : Bool) (operationType : OperationType) : Action PublicationResult := do
  StateStore.recordPublicationSuccess certificate.id localFingerprint remoteFingerprint versionNumber
  let _ ← StateStore.completeReconciledOperations certificate.id localFingerprint versionNumber operationId
  recordRenewal certificate operationType
  StateStore.transition operationId .completed { ociVersionNumber := some versionNumber }
  return {
    certificateId := certificate.id
    currentVersionNumber := versionNumber
    localFingerprint := localFingerprint
    changed := changed }

/-- The version to promote: a matching one that is there already, or the one this run uploads. -/
def obtainCandidate (Γ : Ctx) (config : AppConfig) (certificate : CertificateConfig) (material : LineageMaterial)
    (chain : OciCertificateChain) (localFingerprint : String) (now : Instant) (certificateId operationId : String)
    (requestId : String) (etag : Option String) : Action OciCertificateVersion := do
  let candidate ← findMatchingPending Γ certificateId certificate config localFingerprint now requestId
  match candidate with
  | some version => return version
  | none => do
    let label ← ofExcept (versionName Γ now localFingerprint)
    perform (.uploadPendingVersion certificateId etag
      { versionName := label
        certificatePem := material.leafPem
        certChainPem := chain.certChainPem
        privateKeyPem := material.privateKeyPem } requestId)
    StateStore.transition operationId .ociPendingUploaded { opcRequestId := some requestId }
    logEvent .info "OCI_VERSION_UPLOADED" [("certificate_id", .text certificate.id)]
    let visible ← findMatchingPending Γ certificateId certificate config localFingerprint now requestId
    match visible with
    | some version => return version
    | none =>
      .raise (reconciliationError "OCI upload outcome is not yet visible; reconcile before retry")

/-- From the verified candidate to the confirmed publication. -/
def promoteAndConfirm (Γ : Ctx) (config : AppConfig) (certificate : CertificateConfig) (localFingerprint : String)
    (now : Instant) (operationType : OperationType) (certificateId operationId requestId : String)
    (candidate : OciCertificateVersion) : Action PublicationResult := do
  StateStore.transition operationId .ociPendingVerified
    { ociVersionNumber := some candidate.versionNumber, opcRequestId := some requestId }
  logEvent .info "OCI_PENDING_VERIFIED"
    [("certificate_id", .text certificate.id), ("version_number", .number candidate.versionNumber)]
  promoteCurrent config certificateId candidate.versionNumber requestId
  logEvent .info "OCI_PROMOTED"
    [("certificate_id", .text certificate.id), ("version_number", .number candidate.versionNumber)]
  let confirmed ← retryReadUntilSync (perform (.getPublicBundle certificateId none requestId))
    (fun bundle => bundle.versionNumber = candidate.versionNumber) { maxAttempts := config.oci.maxReadAttempts }
  let confirmedFingerprint ← ofExcept (verifyBundle Γ confirmed certificate config now)
  if confirmedFingerprint ≠ localFingerprint then
    .raise (reconciliationError "OCI CURRENT fingerprint does not match local certificate")
  else do
    StateStore.transition operationId .ociCurrentConfirmed
      { ociVersionNumber := some confirmed.versionNumber, opcRequestId := some requestId }
    logEvent .info "OCI_CURRENT_CONFIRMED"
      [("certificate_id", .text certificate.id), ("version_number", .number confirmed.versionNumber)]
    complete operationId certificate localFingerprint confirmedFingerprint confirmed.versionNumber true operationType

/-- From the operation row to the result. -/
def reconcile (Γ : Ctx) (config : AppConfig) (certificate : CertificateConfig) (material : LineageMaterial)
    (chain : OciCertificateChain) (localFingerprint : String) (now : Instant) (operationType : OperationType)
    (certificateId operationId : String) : Action PublicationResult := do
  let requestId ← perform .uuid4
  let remote ← perform (.getCertificate certificateId requestId)
  let currentBundle ← perform (.getPublicBundle certificateId none requestId)
  let currentFingerprint ← ofExcept (verifyBundle Γ currentBundle certificate config now)
  StateStore.transition operationId .ociReconciled
    { ociVersionNumber := some currentBundle.versionNumber, opcRequestId := some requestId }
  if currentFingerprint = localFingerprint then do
    logEvent .info "OCI_VERSION_REUSED"
      [("certificate_id", .text certificate.id), ("version_number", .number currentBundle.versionNumber)]
    complete operationId certificate localFingerprint currentFingerprint currentBundle.versionNumber false operationType
  else do
    let candidate ← obtainCandidate Γ config certificate material chain localFingerprint now certificateId operationId
      requestId remote.etag
    promoteAndConfirm Γ config certificate localFingerprint now operationType certificateId operationId requestId
      candidate

/-- `PublicationReconciler.publish`: converge one existing OCI certificate to validated local material. -/
def publish (Γ : Ctx) (config : AppConfig) (certificate : CertificateConfig) (material : LineageMaterial)
    (chain : OciCertificateChain) (localFingerprint : String) (now : Instant) (operationType : OperationType) :
    Action PublicationResult :=
  match certificate.oci.certificateOcid with
  | none => .raise (reconciliationError "publish requires a configured OCI certificate OCID")
  | some certificateId => do
    let operation ← StateStore.startOperation certificate.id operationType (some localFingerprint) (some certificateId)
    reconcile Γ config certificate material chain localFingerprint now operationType certificateId
      operation.operationId

end PublicationReconciler

end OciAcmePublisher
