import OciAcmePublisher.Ports

/-!
# Retained staging evidence

A production mutation needs a retained record of a staging run that qualified the same certificate profile.
-/

namespace OciAcmePublisher

open Effects

/-- `ConfigurationError` with its text. -/
def configurationError (message : String) : Exc := .of .configurationError message

/-- `certificate_profile`: the CA-independent properties exercised by the live compatibility gate. -/
def certificateProfile (certificate : CertificateConfig) : CertificateProfile where
  identifierCount := certificate.domains.length
  commonNameIsFirstIdentifier := certificate.domains.head? = some certificate.commonName
  containsWildcard := certificate.domains.any fun domain => "*.".toList.isPrefixOf domain.toList
  key := certificate.key

/-- The record qualifies the profile. -/
def Evidence.qualifies (evidence : Evidence) (profile : CertificateProfile) : Bool :=
  evidence.schemaVersion = some 2 && evidence.result = some "STAGING_COMPATIBILITY_PASSED" &&
    evidence.qualifiedProfile = some profile

/-- The loop over the evidence paths. -/
def requireQualifiedProfile.search (profile : CertificateProfile) : List String → Action Unit
  | [] => .raise (configurationError "no retained staging evidence qualifies this certificate profile")
  | path :: rest => do
    let payload ← perform (.readEvidence path)
    if payload.qualifies profile then return () else search profile rest

/-- `require_qualified_profile`: require a protected Gate 0 record matching the exact production certificate profile. -/
def requireQualifiedProfile (config : AppConfig) (certificate : CertificateConfig) : Action Unit :=
  if config.compatibility.liveVerified = false then
    .raise (configurationError "production operation requires compatibility.live_verified")
  else requireQualifiedProfile.search (certificateProfile certificate) config.compatibility.liveEvidencePaths

end OciAcmePublisher
