import OciAcmePublisher.AuditService
import OciAcmePublisher.OciRetry
import OciAcmePublisher.StateStore

/-!
# Rollback

`RollbackService`: promote the only eligible PREVIOUS version and verify the remote result.
-/

namespace OciAcmePublisher

open Effects

/-- `RollbackError` with its text. -/
def rollbackError (message : String) : Exc := .of .rollbackError message

/-- The version restored and its confirmed public fingerprint. -/
structure RollbackResult where
  certificateId : String
  versionNumber : Int
  fingerprint : String
  deriving DecidableEq, Repr

namespace RollbackService

/-- The version is PREVIOUS and its deletion is not scheduled. -/
def isEligiblePrevious (version : OciCertificateVersion) : Bool :=
  version.stages.contains .previous && version.timeOfDeletion.isNone

/-- `_previous_version`. -/
def previousVersion (certificateOcid requestId : String) : Action OciCertificateVersion := do
  let versions ← perform (.listVersions certificateOcid requestId)
  match versions.filter isEligiblePrevious with
  | [candidate] => return candidate
  | _ => .raise (rollbackError "OCI does not expose exactly one eligible PREVIOUS version")

/-- `_validate_bundle`. -/
def validateBundle (Γ : Ctx) (certificatePem : String) (certificate : CertificateConfig) (config : AppConfig)
    (now : Instant) : Except Exc String :=
  match validatePublicCertificate Γ certificatePem certificate config.global now with
  | .ok fingerprint => .ok fingerprint
  | .error _ => .error (rollbackError "OCI rollback bundle failed local validation")

theorem validateBundle_ok {Γ : Ctx} {certificatePem : String} {certificate : CertificateConfig} {config : AppConfig} {now : Instant}
    {fingerprint : String} (h : validateBundle Γ certificatePem certificate config now = .ok fingerprint) :
    validatePublicCertificate Γ certificatePem certificate config.global now = .ok fingerprint := by
  unfold validateBundle at h
  split at h
  · rename_i hvalid
    rw [hvalid, h]
  · cases h

/-- The end of a rollback whose audit did not converge. -/
def auditFailed (operationId : String) (certificate : CertificateConfig) : Action Unit := do
  StateStore.transition operationId .rollbackFailed
  logEvent .error "OCI_ROLLBACK_FAILED" [("certificate_id", .text certificate.id)]
  .raise (rollbackError "rollback completed but endpoint audit did not converge")

/-- The audit of a rollback, where one is configured. -/
def auditRollback (Γ : Ctx) (certificate : CertificateConfig) (operationId : String) (audit : Option AuditConfig)
    (passes : Nat) (confirmedFingerprint : String) : Action Unit :=
  match audit with
  | none => return ()
  | some configuration => do
    StateStore.transition operationId .auditPending
    let auditResult ← (AuditService.audit Γ configuration passes confirmedFingerprint).attempt
    match auditResult with
    | .error error => if error.isInstance .auditError then auditFailed operationId certificate else .raise error
    | .ok result =>
      if result.successful = false then auditFailed operationId certificate
      else StateStore.transition operationId .auditSuccess

/-- The second half of `rollback`: confirm CURRENT, record it and audit it. -/
def confirm (Γ : Ctx) (config : AppConfig) (certificate : CertificateConfig) (now : Instant) (audit : Option AuditConfig)
    (passes : Nat) (certificateOcid operationId requestId : String) (candidate : OciCertificateVersion)
    (fingerprint : String) : Action RollbackResult := do
  let confirmed ← retryReadUntilSync (perform (.getPublicBundle certificateOcid none requestId))
    (fun current => current.versionNumber = candidate.versionNumber) { maxAttempts := config.oci.maxReadAttempts }
  let confirmedFingerprint ← ofExcept (validateBundle Γ confirmed.certificatePem certificate config now)
  if confirmed.versionNumber ≠ candidate.versionNumber ∨ confirmedFingerprint ≠ fingerprint then
    .raise (rollbackError "OCI rollback promotion was not confirmed")
  else do
    StateStore.transition operationId .ociCurrentConfirmed
      { ociVersionNumber := some confirmed.versionNumber, opcRequestId := some requestId }
    StateStore.recordRollbackSuccess certificate.id confirmedFingerprint confirmed.versionNumber
    auditRollback Γ certificate operationId audit passes confirmedFingerprint
    StateStore.transition operationId .completed { ociVersionNumber := some confirmed.versionNumber }
    logEvent .info "OCI_ROLLBACK_SUCCESS"
      [("certificate_id", .text certificate.id), ("version_number", .number confirmed.versionNumber)]
    return {
      certificateId := certificate.id
      versionNumber := confirmed.versionNumber
      fingerprint := confirmedFingerprint }

/-- From the operation row to the result. -/
def restore (Γ : Ctx) (config : AppConfig) (certificate : CertificateConfig) (now : Instant) (audit : Option AuditConfig)
    (passes : Nat) (certificateOcid operationId : String) : Action RollbackResult := do
  logEvent .info "OCI_ROLLBACK_STARTED" [("certificate_id", .text certificate.id)]
  let requestId ← perform .uuid4
  let candidate ← previousVersion certificateOcid requestId
  let bundle ← perform (.getPublicBundle certificateOcid (some candidate.versionNumber) requestId)
  let fingerprint ← ofExcept (validateBundle Γ bundle.certificatePem certificate config now)
  let remote ← perform (.getCertificate certificateOcid requestId)
  StateStore.transition operationId .ociReconciled
    { ociVersionNumber := some candidate.versionNumber, opcRequestId := some requestId }
  perform (.promoteCurrent certificateOcid candidate.versionNumber remote.etag requestId)
  confirm Γ config certificate now audit passes certificateOcid operationId requestId candidate fingerprint

/-- `RollbackService.rollback`: restore a valid undeleted PREVIOUS version and confirm it is CURRENT. -/
def rollback (Γ : Ctx) (config : AppConfig) (certificate : CertificateConfig) (now : Instant)
    (audit : Option AuditConfig) (passes : Nat) : Action RollbackResult :=
  match certificate.oci.certificateOcid with
  | none => .raise (rollbackError "rollback requires a configured OCI certificate OCID")
  | some certificateOcid => do
    let operation ← StateStore.startOperation certificate.id .rollback none (some certificateOcid)
    restore Γ config certificate now audit passes certificateOcid operation.operationId

end RollbackService

end OciAcmePublisher
