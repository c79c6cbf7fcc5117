import OciAcmePublisher.CertificateValidator

/-!
# The OCI import chain

`build_oci_chain` orders and verifies the ACME intermediates up to the locally pinned root. The content of the root file is an
argument; the code reads it at each call.
-/

namespace OciAcmePublisher

/-- The OCI chain excludes the leaf and ends at its verified pinned root. -/
structure OciCertificateChain where
  root : X509
  intermediates : List X509
  certChainPem : Bytes
  deriving DecidableEq

/-- `ChainBuildError` with its text. -/
def chainBuildError (message : String) : Exc := .of .chainBuildError message

/-- `_subject_common_name`. -/
def subjectCommonName (certificate : X509) : Except Exc String :=
  match certificate.commonNames with
  | [some value] => .ok value
  | _ => throw (chainBuildError "certificate subject has no single textual Common Name")

/-- `_load_pinned_root`, from the content of the root file (none where reading it raises `OSError`). -/
def loadPinnedRoot (Γ : Ctx) (rootFile : Option Bytes) (configuration : CertificateConfig) : Except Exc X509 :=
  match rootFile.bind Γ.loadPem with
  | none => throw (chainBuildError "configured root certificate cannot be loaded")
  | some root => do
    require (certificateSha256 root ∈ configuration.chain.allowedRootSha256)
      (chainBuildError "configured root fingerprint is not allowlisted")
    return root

/-- A key algorithm family. -/
inductive AlgorithmFamily where
  | rsa | ecdsa
  deriving DecidableEq, Repr

/-- `_algorithm_family`. -/
def algorithmFamily (certificate : X509) : Except Exc AlgorithmFamily :=
  match certificate.publicKey with
  | .rsa .. => .ok .rsa
  | .ec .. => .ok .ecdsa
  | .other _ => throw (chainBuildError "chain contains an unsupported key algorithm")

/-- `_validate_ca`. -/
def validateCa (certificate : X509) : Except Exc Unit :=
  match certificate.basicConstraintsCa with
  | none => throw (chainBuildError "issuer certificate lacks BasicConstraints")
  | some ca => require (ca = true) (chainBuildError "issuer certificate is not a CA")

/-- The loop over the intermediates: each one issues the certificate before it. Returns the last one. -/
def verifyIssuers (Γ : Ctx) (current : X509) : List X509 → Except Exc X509
  | [] => .ok current
  | issuer :: rest => do
    require (current.issuer = issuer.subject) (chainBuildError "ACME certificate chain issuer order is invalid")
    validateCa issuer
    verifyCertificateSignature Γ current issuer
    verifyIssuers Γ issuer rest

/-- The mixed-algorithm check over the whole path. -/
def checkSingleFamily (path : List X509) : Except Exc Unit := do
  let families ← path.mapM algorithmFamily
  require (families.eraseDups.length = 1) (chainBuildError "chain mixes RSA and ECDSA key families")

/-- `build_oci_chain`: verify order, signatures and root pin, then serialize the OCI bundle chain. -/
def buildOciChain (Γ : Ctx) (rootFile : Option Bytes) (material : LineageMaterial) (certificate : CertificateConfig)
    (compatibility : CompatibilityConfig) : Except Exc OciCertificateChain := do
  let root ← loadPinnedRoot Γ rootFile certificate
  let intermediates := material.intermediates.filter (fun item => certificateSha256 item ≠ certificateSha256 root)
  match intermediates with
  | [] => throw (chainBuildError "ACME certificate chain is empty")
  | first :: _ =>
    require (∀ item ∈ intermediates, item.subject ≠ root.subject)
      (chainBuildError "ACME certificate chain must not contain the configured root")
    let current ← verifyIssuers Γ material.leaf intermediates
    require (current.issuer = root.subject)
      (chainBuildError "configured root does not issue the final intermediate")
    validateCa root
    verifyCertificateSignature Γ current root
    let issuerName ← subjectCommonName first
    require (issuerName ∈ certificate.chain.allowedIssuerCommonNames)
      (chainBuildError "intermediate issuer Common Name is not allowlisted")
    if compatibility.rejectMixedAlgorithmChain then
      checkSingleFamily (material.leaf :: (intermediates ++ [root]))
    let chainPem := (intermediates ++ [root]).flatMap Γ.toPem
    require (¬51200 < chainPem.length + material.leafPem.length)
      (chainBuildError "OCI certificate bundle exceeds size limit")
    return { root := root, intermediates := intermediates, certChainPem := chainPem }

end OciAcmePublisher
