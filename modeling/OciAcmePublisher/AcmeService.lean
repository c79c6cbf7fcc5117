import OciAcmePublisher.ChainBuilder
import OciAcmePublisher.Ports

/-!
# Native issuance

`NativeAcmeService.issue`: reuse the stored generation while it is not due, else place an order, answer its HTTP-01 challenges,
choose a chain and commit a new generation. The account client is one operation: building it reads or creates the account key and
registers the account.
-/

namespace OciAcmePublisher

open Effects

/-- `AcmeOperationError` with its text. -/
def acmeOperationError (message : String) : Exc := .of .acmeOperationError message

/-- The content of the root file, none where reading it raises `OSError` or `ValueError`. -/
def readRootFile (certificate : CertificateConfig) : Action (Option Bytes) := do
  let content ← (perform (.readFile certificate.chain.rootPemPath)).attempt
  match content with
  | .ok raw => return some raw
  | .error error => if error.isOneOf [.osError, .valueError] then return none else .raise error

/-- `build_oci_chain`, with the read of the root file. -/
def buildChain (Γ : Ctx) (config : AppConfig) (certificate : CertificateConfig) (material : LineageMaterial) :
    Action OciCertificateChain := do
  let rootFile ← readRootFile certificate
  ofExcept (buildOciChain Γ rootFile material certificate config.compatibility)

namespace NativeAcmeService

/-- `_load_optional`. -/
def loadOptional (certificate : CertificateConfig) : Action (Option LineageMaterial) := do
  let found ← perform (.lineageExists certificate.id)
  if found = false then return none
  else do
    let material ← perform (.loadLineage certificate.id)
    return some material

/-- `_renewal_due` at the time `now`. -/
def renewalDue (config : AppConfig) (material : LineageMaterial) (now : Instant) : Bool :=
  material.leaf.notValidAfter ≤ now + days config.acme.renewBeforeDays

/-- The key can sign: RSA or elliptic-curve. -/
def isSupportedKey (key : PrivateKey) : Bool :=
  match key.publicKey with
  | .rsa .. | .ec .. => true
  | .other _ => false

/-- `_certificate_key`: the stored key unless it is rotated. -/
def certificateKey (config : AppConfig) (certificate : CertificateConfig) (current : Option LineageMaterial) :
    Action PrivateKey :=
  match current, config.acme.rotatePrivateKeyOnRenewal with
  | some material, false =>
    if isSupportedKey material.privateKey then return material.privateKey
    else .raise (acmeOperationError "stored certificate private key type is unsupported")
  | _, _ => perform (.generateKey certificate.key)

/-- `_TOKEN`. -/
def isToken (token : String) : Bool :=
  1 ≤ token.length && token.length ≤ 256 &&
    token.toList.all fun c => ('A' ≤ c && c ≤ 'Z') || ('a' ≤ c && c ≤ 'z') || ('0' ≤ c && c ≤ '9') || c == '_' || c == '-'

/-- `_http01`: the token and the validation of the only HTTP-01 challenge. -/
def http01 (authorization : Authorization) : Except Exc (String × String) :=
  match authorization.challenges.filterMap fun | .http01 token validation => some (token, validation) | .other _ => none with
  | [challenge] => .ok challenge
  | _ => .error (acmeOperationError "ACME authorization did not offer exactly one HTTP-01 challenge")

/-- The file of a challenge. -/
def challengePath (config : AppConfig) (certificate : CertificateConfig) (token : String) : String :=
  config.http01.webrootBase ++ "/" ++ certificate.webrootId ++ "/.well-known/acme-challenge/" ++ token

/-- The challenge of an authorization, checked. -/
def challenge (authorization : Authorization) : Except Exc (String × String) :=
  match http01 authorization with
  | .error error => .error error
  | .ok (token, validation) =>
    if isToken token then .ok (token, validation)
    else .error (acmeOperationError "ACME server returned an invalid HTTP-01 token")

/-- The loop over the authorizations: how it ended, and the challenge files it has written, which are removed however it
ended. -/
def answerChallenges (config : AppConfig) (certificate : CertificateConfig) (order : Order) :
    List Authorization → List String → Action (Except Exc Unit × List String)
  | [], paths => return (.ok (), paths)
  | authorization :: rest, paths =>
    match challenge authorization with
    | .error error => return (.error error, paths)
    | .ok (token, validation) => do
      let path := challengePath config certificate token
      let written ← (perform (.writeChallenge path validation)).attempt
      match written with
      | .error error => return (.error error, paths)
      | .ok _ => do
        let answered ← (perform (.answerChallenge order.uri token)).attempt
        match answered with
        | .error error => return (.error error, paths ++ [path])
        | .ok _ => answerChallenges config certificate order rest (paths ++ [path])

/-- One candidate of `_select_chain`: none where it is not acceptable. -/
def selectCandidate (Γ : Ctx) (config : AppConfig) (certificate : CertificateConfig) (privateKey : PrivateKey)
    (privateKeyPem : Bytes) (candidate : String) : Action LineageMaterial :=
  match (encodeAscii candidate).bind Γ.loadPemAll with
  | none => .raise (.of .valueError "Unable to load PEM file")
  | some (leaf :: intermediate :: rest) => do
    let material : LineageMaterial := {
      leaf := leaf
      intermediates := intermediate :: rest
      privateKey := privateKey
      leafPem := Γ.toPem leaf
      chainPem := (intermediate :: rest).flatMap Γ.toPem
      privateKeyPem := privateKeyPem }
    let now ← perform .now
    let _ ← ofExcept (validateCertificateMaterial Γ material certificate config.compatibility config.global now)
    let _ ← buildChain Γ config certificate material
    return material
  | some _ => .raise (acmeOperationError "ACME response did not contain an intermediate chain")

/-- The loop of `_select_chain`. -/
def selectChain (Γ : Ctx) (config : AppConfig) (certificate : CertificateConfig) (privateKey : PrivateKey)
    (privateKeyPem : Bytes) : List String → Action LineageMaterial
  | [] => .raise (acmeOperationError "ACME server returned no acceptable certificate chain")
  | candidate :: rest =>
    if candidate = "" then selectChain Γ config certificate privateKey privateKeyPem rest
    else do
      let outcome ← (selectCandidate Γ config certificate privateKey privateKeyPem candidate).attempt
      match outcome with
      | .ok material => return material
      | .error error =>
        if error.isOneOf [.certificateValidationError, .chainBuildError, .valueError] then
          selectChain Γ config certificate privateKey privateKeyPem rest
        else .raise error

/-- The order, with the identifiers the certificate asks for. -/
def placeOrder (Γ : Ctx) (config : AppConfig) (certificate : CertificateConfig) (privateKey : PrivateKey) :
    Action Order := do
  perform .acmeClient
  let order ← perform (.newOrder (Γ.csr certificate.commonName certificate.domains privateKey) config.acme.preferredProfile)
  let observed := order.authorizations.map (·.identifier)
  if observed ⊆ certificate.domains ∧ certificate.domains ⊆ observed then return order
  else .raise (acmeOperationError "ACME order returned unexpected identifiers")

/-- From the answered challenges to the committed generation. -/
def finalize (Γ : Ctx) (config : AppConfig) (certificate : CertificateConfig) (privateKey : PrivateKey) (order : Order) :
    Action LineageMaterial := do
  let started ← perform .now
  let deadline := started + seconds config.acme.operationTimeoutSeconds
  perform (.pollAuthorizations order.uri deadline)
  let finalized ← perform (.finalizeOrder order.uri deadline)
  let privateKeyPem := Γ.privateKeyPem privateKey
  let material ← selectChain Γ config certificate privateKey privateKeyPem
    (finalized.fullchainPem :: finalized.alternativeFullchainsPem)
  let now ← perform .now
  let token ← perform (.tokenHex 4)
  perform (.commitLineage certificate.id {
    leafPem := material.leafPem
    chainPem := material.chainPem
    privateKeyPem := privateKeyPem
    name := Γ.compactTimestamp now ++ "-" ++ String.ofList ((certificateSha256 material.leaf).toList.take 12) ++ "-" ++
      token })

/-- The exceptions the order raises to its caller. -/
def orderFailure (error : Exc) : Exc :=
  if error.isInstance .acmeOperationError then error
  else if error.isOneOf [.acmeError, .requestException, .osError, .typeError, .valueError] then
    acmeOperationError "native ACME operation failed"
  else error

/-- The `try` block of `issue`: how it ended, and the challenge files it has written. -/
def runOrder (Γ : Ctx) (config : AppConfig) (certificate : CertificateConfig) (privateKey : PrivateKey) :
    Action (Except Exc LineageMaterial × List String) := do
  let placed ← (placeOrder Γ config certificate privateKey).attempt
  match placed with
  | .error error => return (.error error, [])
  | .ok order => do
    let (answered, paths) ← answerChallenges config certificate order order.authorizations []
    match answered with
    | .error error => return (.error error, paths)
    | .ok _ => do
      let committed ← (finalize Γ config certificate privateKey order).attempt
      return (committed, paths)

/-- `_remove_challenge` of every path. -/
def removeChallenges : List String → Action Unit
  | [] => return ()
  | path :: rest => do
    perform (.removeChallenge path)
    removeChallenges rest

/-- `NativeAcmeService.issue`. -/
def issue (Γ : Ctx) (config : AppConfig) (certificate : CertificateConfig) (force : Bool) : Action LineageMaterial := do
  let current ← loadOptional certificate
  let reused ← reusable current
  match reused with
  | some material => return material
  | none => do
    let privateKey ← certificateKey config certificate current
    let (outcome, paths) ← runOrder Γ config certificate privateKey
    removeChallenges paths
    ofExcept (outcome.mapError orderFailure)
where
  /-- The stored generation, unless there is none, the renewal is forced or it is due. -/
  reusable : Option LineageMaterial → Action (Option LineageMaterial)
    | none => return none
    | some material =>
      if force = true then return none
      else do
        let now ← perform .now
        return if renewalDue config material now then none else some material

end NativeAcmeService

end OciAcmePublisher
