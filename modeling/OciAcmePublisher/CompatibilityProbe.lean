import OciAcmePublisher.PublicationService

/-!
# The compatibility probe

`compatibility_probe`: the Gate 0 checks, offline on the stored generation and live against a staging listener. A live probe that
returns is the evidence that unlocks production.
-/

namespace OciAcmePublisher

open Effects

/-- `CompatibilityProbeError` with its text. `LiveProbePrerequisiteError` derives from it, and nothing tells the two apart. -/
def compatibilityProbeError (message : String) : Exc := .of .compatibilityProbeError message

/-- Safe profile facts from a completed offline validation. -/
structure CompatibilityProbeResult where
  certificateId : String
  leafFingerprint : String
  rootFingerprint : String
  chainBytes : Nat
  documentedSubjectCountryEnforced : Bool
  deriving DecidableEq, Repr

/-- Evidence produced by the mutating, staging-only portion of Gate 0. -/
structure LiveCompatibilityProbeResult where
  certificateId : String
  ociCertificateOcid : String
  initialVersionNumber : Int
  promotedVersionNumber : Int
  rollbackVersionNumber : Int
  leafFingerprint : String
  rootFingerprint : String
  chainBytes : Nat
  documentedSubjectCountryEnforced : Bool
  deriving DecidableEq, Repr

namespace CompatibilityProbe

variable (Γ : Ctx) (config : AppConfig)

/-- The `try` block of `probe_material`. -/
def validateProfile (certificate : CertificateConfig) (material : LineageMaterial) :
    Action (String × OciCertificateChain) := do
  let now ← perform .now
  let leafFingerprint ← ofExcept
    (validateCertificateMaterial Γ material certificate config.compatibility config.global now)
  let chain ← buildChain Γ config certificate material
  return (leafFingerprint, chain)

/-- `probe_material`: validate all local profile constraints that do not require OCI mutation. -/
def probeMaterial (certificate : CertificateConfig) (material : LineageMaterial) : Action CompatibilityProbeResult := do
  let (leafFingerprint, chain) ← (validateProfile Γ config certificate material).handle fun error =>
    if error.isInstance .valueError then
      .raise (compatibilityProbeError "local certificate profile is incompatible with OCI policy")
    else .raise error
  return {
    certificateId := certificate.id
    leafFingerprint := leafFingerprint
    rootFingerprint := certificateSha256 chain.root
    chainBytes := chain.certChainPem.length
    documentedSubjectCountryEnforced := config.compatibility.enforceDocumentedSubjectCountry }

/-- `offline_probe`: load the real lineage and run all offline Gate 0 validations. -/
def offlineProbe (certificate : CertificateConfig) : Action CompatibilityProbeResult := do
  let material ← perform (.loadLineage certificate.id)
  probeMaterial Γ config certificate material

/-- `require_live_test_environment`: enforce the narrow boundary for the mutating Gate 0 test. -/
def requireLiveTestEnvironment (certificate : CertificateConfig) : Except Exc Unit :=
  if config.global.environment ≠ .staging then
    .error (compatibilityProbeError "live compatibility probe requires environment: staging")
  else if certificate.audit.endpoints = [] then
    .error (compatibilityProbeError "live compatibility probe requires a manually associated TLS audit endpoint")
  else if certificate.oci.certificateOcid = none then
    .error (compatibilityProbeError ("live compatibility probe requires an existing test certificate OCID; " ++
      "run bootstrap, associate that OCID manually, then rerun the probe"))
  else .ok ()

/-- An audit that must succeed. -/
def requireAudit (passes : Nat) (certificateId message : String) : Action Unit := do
  let successful ← PublicationService.audit Γ config passes certificateId
  if successful = true then return () else .raise (compatibilityProbeError message)

/-- `live_probe`: run Gate 0 after bootstrap and manual test-listener association. -/
def liveProbe (passes : Nat) (certificate : CertificateConfig) : Action LiveCompatibilityProbeResult := do
  ofExcept (requireLiveTestEnvironment config certificate)
  let baseline ← PublicationService.publish Γ config passes certificate.id .publish
  let offline ← offlineProbe Γ config certificate
  let published ← PublicationService.renew Γ config passes certificate.id true
  requireAudit Γ config passes certificate.id "manual TLS consumer did not present promoted CURRENT version"
  let rollback ← PublicationService.rollback Γ config passes certificate.id
  requireAudit Γ config passes certificate.id "manual TLS consumer did not present rolled-back CURRENT version"
  match certificate.oci.certificateOcid with
  | none => .raise (compatibilityProbeError "live compatibility probe did not obtain an OCI certificate OCID")
  | some ocid => return {
      certificateId := certificate.id
      ociCertificateOcid := ocid
      initialVersionNumber := baseline.currentVersionNumber
      promotedVersionNumber := published.currentVersionNumber
      rollbackVersionNumber := rollback.versionNumber
      leafFingerprint := offline.leafFingerprint
      rootFingerprint := offline.rootFingerprint
      chainBytes := offline.chainBytes
      documentedSubjectCountryEnforced := offline.documentedSubjectCountryEnforced }

end CompatibilityProbe

end OciAcmePublisher
