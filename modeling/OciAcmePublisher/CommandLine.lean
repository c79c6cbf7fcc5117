import OciAcmePublisher.Cli
import OciAcmePublisher.Locking
import OciAcmePublisher.OciService
import OciAcmePublisher.PreflightService

/-!
# The commands of the command line

What each command of `cli.py` does around the services: it loads the configuration, calls one service, writes the
metrics textfile and prints its result. A mutating command runs under the publisher lock; `main` maps what it raises to
a line and an exit code.
-/

namespace OciAcmePublisher

open Effects

namespace Commands

variable (Γ : Ctx) (passes : Nat)

/-- Load the configuration, and configure logging by it. -/
def loaded (path : String) : Command AppConfig := do
  let config ← console (.loadConfig path)
  console (.configureLogging config)
  return config

/-- `_publish`. -/
def publish (path certificateId : String) (operationType : OperationType) : Command ExitCode := do
  let config ← loaded path
  let result ← (PublicationService.publish Γ config passes certificateId operationType).right
  console (.writeConfiguredMetrics config)
  console (.print [("certificate_id", .text result.certificateId), ("changed", .flag result.changed),
    ("current_version_number", .number result.currentVersionNumber), ("result", .text "OCI_CURRENT_CONFIRMED")])
  return .success

/-- What the renewals of `_renew` came to: of one certificate set, or of all of them. -/
def renewals (config : AppConfig) (certificateId : Option String) (force : Bool) : Action RenewalBatchResult :=
  match certificateId with
  | some id => do
    let result ← PublicationService.renew Γ config passes id force
    return { publications := [result] }
  | none => PublicationService.renewAll Γ config passes

/-- `_renew`. -/
def renew (path : String) (certificateId : Option String) (force : Bool) : Command ExitCode := do
  let config ← loaded path
  let batch ← (renewals Γ passes config certificateId force).right
  console (.writeConfiguredMetrics config)
  console (.print [("certificate_ids", .texts (batch.publications.map (·.certificateId))),
    ("changed", .flag (batch.publications.any (·.changed))),
    ("current_version_numbers", .numbers (batch.publications.map (·.currentVersionNumber))),
    ("failed_certificate_ids", .texts (batch.failures.map (·.certificateId))), ("result", .text "RENEW_COMPLETED")])
  return renewStatus batch

/-- `_bootstrap`. -/
def bootstrap (path certificateId : String) : Command ExitCode := do
  let config ← loaded path
  let result ← (PublicationService.bootstrap Γ config certificateId).right
  console (.writeConfiguredMetrics config)
  console (.print [("certificate_id", .text result.certificateId),
    ("current_version_number", .number result.currentVersionNumber),
    ("oci_certificate_ocid", .text result.ociCertificateOcid), ("result", .text "BOOTSTRAP_COMPLETED")])
  return .success

/-- The facts that both probes print. -/
def printedProbe (certificateId leafFingerprint rootFingerprint : String) (chainBytes : Nat)
    (enforced : Bool) : List (String × Printed) :=
  [("certificate_id", .text certificateId), ("chain_bytes", .number chainBytes),
    ("documented_subject_country_enforced", .flag enforced), ("leaf_fingerprint", .text leafFingerprint),
    ("root_fingerprint", .text rootFingerprint)]

/-- The certificate set a probe is run for. -/
def probed (config : AppConfig) (certificateId : String) : Except Exc CertificateConfig :=
  match config.certificates.find? (·.id = certificateId) with
  | none => .error (compatibilityProbeError "configured certificate id was not found")
  | some certificate => .ok certificate

/-- `_compatibility_probe` with `--live`. -/
def liveProbe (path certificateId : String) : Command ExitCode := do
  let config ← loaded path
  let certificate ← ofExcept (probed config certificateId)
  ofExcept (CompatibilityProbe.requireLiveTestEnvironment config certificate)
  let result ← (CompatibilityProbe.liveProbe Γ config passes certificate).right
  console (.print (printedProbe result.certificateId result.leafFingerprint result.rootFingerprint result.chainBytes
      result.documentedSubjectCountryEnforced ++
    [("initial_version_number", .number result.initialVersionNumber), ("oci_certificate_ocid", .text result.ociCertificateOcid),
      ("promoted_version_number", .number result.promotedVersionNumber), ("result", .text "COMPATIBILITY_LIVE_PASSED"),
      ("rollback_version_number", .number result.rollbackVersionNumber)]))
  return .success

/-- `_staging_verify`. -/
def stagingVerify (path certificateId evidenceOutput : String) : Command ExitCode := do
  let config ← loaded path
  let certificate ← ofExcept (configuredCertificate config certificateId)
  ofExcept (CompatibilityProbe.requireLiveTestEnvironment config certificate)
  let result ← (CompatibilityProbe.liveProbe Γ config passes certificate).right
  console (.writeEvidence evidenceOutput certificate result)
  console (.print [("certificate_id", .text certificate.id), ("evidence_path", .text evidenceOutput),
    ("promoted_version_number", .number result.promotedVersionNumber), ("result", .text "STAGING_EVIDENCE_WRITTEN"),
    ("rollback_version_number", .number result.rollbackVersionNumber)])
  return .success

/-- `_audit`. -/
def audit (path certificateId : String) : Command ExitCode := do
  let config ← loaded path
  let successful ← (PublicationService.audit Γ config passes certificateId).right
  console (.writeConfiguredMetrics config)
  let certificate ← ofExcept (configuredCertificate config certificateId)
  let isObserveOnly := decide (certificate.audit.mode = .observe)
  console (.print [("certificate_id", .text certificateId), ("result", .text
    (if successful then "AUDIT_SUCCESS" else if isObserveOnly then "AUDIT_FAILED_OBSERVE" else "AUDIT_FAILED_ENFORCE"))])
  return if successful || isObserveOnly then .success else .auditEnforceFailed

/-- `_rollback`. -/
def rollback (path certificateId : String) : Command ExitCode := do
  let config ← loaded path
  let result ← (PublicationService.rollback Γ config passes certificateId).right
  console (.writeConfiguredMetrics config)
  console (.print [("certificate_id", .text result.certificateId), ("result", .text "ROLLBACK_SUCCESS"),
    ("version_number", .number result.versionNumber)])
  return .success

/-- `_retention`. -/
def retention (path certificateId : String) : Command ExitCode := do
  let config ← loaded path
  let result ← (PublicationService.retention config certificateId).right
  console (.writeConfiguredMetrics config)
  console (.print [("certificate_id", .text result.certificateId), ("result", .text "RETENTION_SCHEDULED"),
    ("version_numbers", .numbers result.scheduledVersionNumbers)])
  return .success

/-! ## Commands without the lock -/

/-- `_validate_config`. -/
def validateConfig (path : String) (asJson : Bool) : Command ExitCode := do
  let config ← loaded path
  console (.logEvent .info "CONFIG_VALIDATED" [("certificate_count", .number config.certificates.length)])
  if asJson then
    console (.print [("certificate_count", .number config.certificates.length),
      ("environment", .text (match config.global.environment with | .production => "production" | .staging => "staging")),
      ("result", .text "CONFIG_VALIDATED"), ("schema_version", .number 4)])
  else console (.printLine "configuration valid")
  return .success

/-- Every certificate set of the loop is qualified. -/
def requireQualified (config : AppConfig) : List CertificateConfig → Action Unit
  | [] => return ()
  | certificate :: rest => do
    requireQualifiedProfile config certificate
    requireQualified config rest

/-- The certificate sets of `_preflight`. -/
def selected (config : AppConfig) : Option String → List CertificateConfig
  | some certificateId => config.certificates.filter (·.id = certificateId)
  | none => config.certificates

/-- `_preflight`. -/
def preflight (path : String) (certificateId : Option String) : Command ExitCode := do
  let config ← loaded path
  if selected config certificateId = [] then
    .raise (compatibilityProbeError "configured certificate id was not found")
  else do
    if config.global.environment = .production then
      (requireQualified config (selected config certificateId)).right
    OperationalPreflight.run Γ config (selected config certificateId)
    console (.print [("certificate_ids", .texts ((selected config certificateId).map (·.id))),
      ("result", .text "PREFLIGHT_SUCCESS")])
    return .success

/-- `_onboard`: run the non-mutating gate before the operator chooses to issue a certificate. -/
def onboard (path : String) (certificateId : Option String) : Command ExitCode := do
  let _ ← preflight Γ path certificateId
  console (.print [("next_action",
      .text "Review the staging result, then run an explicit bootstrap or issuance command."),
    ("result", .text "ONBOARDING_PREREQUISITES_PASSED")])
  return .success

/-- `_compatibility_probe` without `--live`. -/
def offlineProbe (path certificateId : String) : Command ExitCode := do
  let config ← loaded path
  let certificate ← ofExcept (probed config certificateId)
  let result ← (CompatibilityProbe.offlineProbe Γ config certificate).right
  console (.print (printedProbe result.certificateId result.leafFingerprint result.rootFingerprint result.chainBytes
      result.documentedSubjectCountryEnforced ++ [("result", .text "COMPATIBILITY_OFFLINE_PASSED")]))
  return .success

end Commands

/-- A command, with the arguments it was parsed from: those of the mutating ones, the live probe and the staging verification, and
those of the ones that take no lock. -/
inductive CommandLine where
  | publish (path certificateId : String)
  | reconcile (path certificateId : String)
  | renew (path : String) (certificateId : Option String) (force : Bool)
  | bootstrap (path certificateId : String)
  | rollback (path certificateId : String)
  | retention (path certificateId : String)
  | audit (path certificateId : String)
  | liveProbe (path certificateId : String)
  | stagingVerify (path certificateId evidenceOutput : String)
  | validateConfig (path : String) (asJson : Bool)
  | preflight (path : String) (certificateId : Option String)
  | onboard (path : String) (certificateId : Option String)
  | offlineProbe (path certificateId : String)
  deriving DecidableEq, Repr

/-- `public_message` of a `PublisherError`. -/
def Exc.publicMessage : Exc → String
  | .of _ message => message
  | .service .. => ""

/-- The event and the line of an exception that `main` reports. -/
def mainReport (error : Exc) : ExitCode → String × String
  | .http01PreflightFailed => ("HTTP01_PREFLIGHT_FAILED", "HTTP-01 preflight failed")
  | .acmeFailed => ("ACME_FAILED", "ACME operation failed")
  | .x509ValidationFailed => ("X509_VALIDATION_FAILED", "local certificate validation failed")
  | .auditEnforceFailed => ("AUDIT_ENFORCE_FAILED", "TLS audit failed")
  | .rollbackFailed => ("ROLLBACK_FAILED", "OCI rollback failed")
  | .ociCertificateProfileIncompatible => ("OCI_CERTIFICATE_PROFILE_INCOMPATIBLE", "OCI_CERTIFICATE_PROFILE_INCOMPATIBLE")
  | .ociImportFailed => ("OCI_IMPORT_FAILED", "OCI publication failed")
  -- a `PublisherError`, with its public message
  | _ => ("CONFIGURATION_INVALID", error.publicMessage)

/-- What `main` makes of the end of a command: its exit code, or the code of an exception it reports. Any other goes on. -/
def mainStatus : Except Exc ExitCode → Command ExitCode
  | .ok code => return code
  | .error x =>
    match mainExitCode x.raised with
    | some code => do
      console (.logEvent .error "OPERATION_FAILED" [("error_code", .text (mainReport x code).1)])
      console (.printLine (mainReport x code).2)
      return code
    | none => .raise x

/-- `main` for a parsed command. -/
def CommandLine.job (Γ : Ctx) (passes : Nat) : CommandLine → Job commands ExitCode ExitCode
  | .publish path id => .locked (Commands.publish Γ passes path id .publish) mainStatus
  | .reconcile path id => .locked (Commands.publish Γ passes path id .reconcile) mainStatus
  | .renew path id force => .locked (Commands.renew Γ passes path id force) mainStatus
  | .bootstrap path id => .locked (Commands.bootstrap Γ path id) mainStatus
  | .rollback path id => .locked (Commands.rollback Γ passes path id) mainStatus
  | .retention path id => .locked (Commands.retention path id) mainStatus
  | .audit path id => .locked (Commands.audit Γ passes path id) mainStatus
  | .liveProbe path id => .locked (Commands.liveProbe Γ passes path id) mainStatus
  | .stagingVerify path id evidenceOutput => .locked (Commands.stagingVerify Γ passes path id evidenceOutput) mainStatus
  | .validateConfig path asJson => .free ((Commands.validateConfig path asJson).attempt.bind mainStatus)
  | .preflight path id => .free ((Commands.preflight Γ path id).attempt.bind mainStatus)
  | .onboard path id => .free ((Commands.onboard Γ path id).attempt.bind mainStatus)
  | .offlineProbe path id => .free ((Commands.offlineProbe Γ path id).attempt.bind mainStatus)

/-- What the command's own operations answer: `loads` says which configurations a path may hold. They leave the publisher's world
alone. -/
def commandEnv (Γ : Ctx) (faults : Faults) (commandFaults : CommandOp → Exc → Prop) (loads : String → AppConfig → Prop) :
    Env commands Exc World
  | w, .inl (.loadConfig path), .ok config, w' => loads path config ∧ w' = w
  | w, .inl op, .error x, w' => commandFaults op x ∧ w' = w
  | w, .inl _, .ok _, w' => w' = w
  | w, .inr op, answer, w' => service Γ faults w op answer w'

end OciAcmePublisher
