import OciAcmePublisher.Errors

/-!
# Configuration

The configuration records, with the fields the modelled functions read. A value that `AppConfig.model_validate` returns satisfies
the field bounds and the model validators; the bounds the proofs rest on are fields of the records, so that a record outside
them cannot be built. `model_copy` replaces a field without validating the record again, and so does a record update here.
-/

namespace OciAcmePublisher

/-- ACME deployment environment. -/
inductive Environment where
  | production | staging
  deriving DecidableEq, Repr

/-- Endpoint audit behavior. -/
inductive AuditMode where
  | disabled | observe | enforce
  deriving DecidableEq, Repr

structure GlobalConfig where
  environment : Environment
  stateDir : String
  clockSkewToleranceSeconds : Nat := 300
  deriving DecidableEq, Repr

structure CompatibilityConfig where
  liveVerified : Bool := false
  liveEvidencePaths : List String := []
  enforceDocumentedSubjectCountry : Bool := true
  rejectMixedAlgorithmChain : Bool := true
  deriving DecidableEq, Repr

structure AcmeConfig where
  email : String
  agreeToTerms : Bool
  directoryUrl : String
  accountKeyPath : String
  certificatesDir : String
  operationTimeoutSeconds : Nat := 1800
  renewBeforeDays : Nat := 30
  rotatePrivateKeyOnRenewal : Bool := true
  preferredProfile : Option String := none
  deriving DecidableEq, Repr

/-- The responder's limit on a challenge file is between 1 and 4096 bytes. -/
structure ResponderConfig where
  bindAddress : String := "127.0.0.1"
  bindPort : Nat := 8080
  maxChallengeFileBytes : Nat := 4096
  maxChallengeFileBytes_pos : 0 < maxChallengeFileBytes := by decide
  maxChallengeFileBytes_le : maxChallengeFileBytes ≤ 4096 := by decide
  deriving DecidableEq, Repr

structure Http01Config where
  webrootBase : String
  responder : ResponderConfig := {}
  deriving DecidableEq, Repr

/-- The read and mutation retry limits are at least one (`Field(ge=1)`), so a retry loop makes at least one attempt. -/
structure OciConfig where
  maxReadAttempts : Nat := 5
  mutationReconciliationAttempts : Nat := 5
  maxReadAttempts_pos : 0 < maxReadAttempts := by decide
  mutationReconciliationAttempts_pos : 0 < mutationReconciliationAttempts := by decide
  deriving DecidableEq

structure NotificationsConfig where
  enabled : Bool := false
  provider : String := "slack"
  credentialRef : Option String := none
  allowedHosts : List String := []
  minimumRepeatIntervalMinutes : Nat := 60
  deriving DecidableEq, Repr

structure MonitoringConfig where
  warningDays : Nat := 20
  criticalDays : Nat := 7
  deriving DecidableEq, Repr

/-- A key family with its own parameter: `family_parameters_match` refuses every other combination of the three fields. -/
inductive KeyConfig where
  | rsa (size : Nat)
  | ecdsa (curve : String)
  deriving DecidableEq, Repr

structure ChainConfig where
  rootPemPath : String
  allowedRootSha256 : List String
  allowedIssuerCommonNames : List String
  deriving DecidableEq, Repr

structure CertificateOciConfig where
  region : String
  compartmentOcid : String
  certificateOcid : Option String := none
  certificateName : String
  deriving DecidableEq, Repr

structure AuditEndpoint where
  hostname : String
  port : Nat
  deriving DecidableEq, Repr

/-- Without an automatic rollback there is nothing to enforce. -/
theorem AuditMode.unenforced (mode : AuditMode) : false = true → mode = .enforce := nofun

/-- `automatic_rollback_requires_enforcement`: the automatic rollback is configured in enforce mode only. -/
structure AuditConfig where
  mode : AuditMode := .observe
  automaticRollbackOnFailure : Bool := false
  propagationTimeoutSeconds : Nat := 600
  retryIntervalSeconds : Nat := 15
  requireAllAddresses : Bool := true
  rejectNonGlobalAddresses : Bool := true
  endpoints : List AuditEndpoint := []
  rollback_enforced : automaticRollbackOnFailure = true → mode = .enforce := by first | exact AuditMode.unenforced _ | decide
  deriving DecidableEq

/-- The bounds are those of the fields: at least one DEPRECATED version is kept. -/
structure RetentionConfig where
  enabled : Bool := true
  keepDeprecatedVersions : Nat := 2
  minimumAgeDays : Nat := 30
  deletionDelayDays : Nat := 30
  keep_bounds : 1 ≤ keepDeprecatedVersions ∧ keepDeprecatedVersions ≤ 100 := by decide
  age_bounds : 0 ≤ minimumAgeDays ∧ minimumAgeDays ≤ 3650 := by decide
  delay_bounds : 1 ≤ deletionDelayDays ∧ deletionDelayDays ≤ 3650 := by decide
  deriving DecidableEq, Repr

/-- The settings where none are given. -/
def RetentionConfig.standard : RetentionConfig := {}

structure CertificateConfig where
  id : String
  webrootId : String
  commonName : String
  domains : List String
  key : KeyConfig
  chain : ChainConfig
  oci : CertificateOciConfig
  audit : AuditConfig := {}
  retention : RetentionConfig := .standard
  deriving DecidableEq

structure AppConfig where
  global : GlobalConfig
  compatibility : CompatibilityConfig := {}
  acme : AcmeConfig
  http01 : Http01Config
  oci : OciConfig := {}
  notifications : NotificationsConfig := {}
  monitoring : MonitoringConfig := {}
  certificates : List CertificateConfig
  deriving DecidableEq

/-- `certificate.model_copy(update={"oci": certificate.oci.model_copy(update={"certificate_ocid": ocid})})`. -/
def CertificateConfig.withOcid (certificate : CertificateConfig) (ocid : String) : CertificateConfig :=
  { certificate with oci := { certificate.oci with certificateOcid := some ocid } }

@[simp] theorem CertificateConfig.withOcid_id (certificate : CertificateConfig) (ocid : String) :
    (certificate.withOcid ocid).id = certificate.id := rfl

@[simp] theorem CertificateConfig.withOcid_certificateOcid (certificate : CertificateConfig) (ocid : String) :
    (certificate.withOcid ocid).oci.certificateOcid = some ocid := rfl

end OciAcmePublisher
