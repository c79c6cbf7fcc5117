import OciAcmePublisher.Effects.Sums
import OciAcmePublisher.OciService
import OciAcmePublisher.RetryLoops

/-!
# The OCI adapters

`oci_certificates.py` below the OCI ports: what each adapter method asks of the SDK clients, how often, and what it accepts of the
responses. The clients answer with values of no fixed type.
-/

namespace OciAcmePublisher

open Effects

/-- `CreateCertificateByImportingConfigDetails` and `UpdateCertificateByImportingConfigDetails`; a creation names no stage. -/
structure ImportingConfig where
  versionName : String
  stage : Option String := none
  certificatePem : String
  certChainPem : String
  privateKeyPem : String
  deriving DecidableEq, Repr

/-- `UpdateCertificateDetails`. -/
structure UpdateDetails where
  certificateConfig : Option ImportingConfig := none
  currentVersionNumber : Option Int := none
  deriving DecidableEq, Repr

/-- The requests of the two SDK clients. -/
inductive SdkOp where
  | getCertificate (certificateId opcRequestId : String)
  | listCertificateVersions (certificateId opcRequestId : String) (page : Option String)
  | getCertificateVersion (certificateId : String) (versionNumber : Int) (opcRequestId : String)
  | createCertificate (name compartmentId : String) (certificateConfig : ImportingConfig) (opcRequestId : String)
  | updateCertificate (certificateId : String) (details : UpdateDetails) (ifMatch : Option String) (opcRequestId : String)
  | scheduleCertificateVersionDeletion (certificateId : String) (versionNumber : Int) (timeOfDeletion : Instant)
      (ifMatch : Option String) (opcRequestId : String)
  | getCertificateBundle (certificateId opcRequestId certificateBundleType : String) (versionNumber : Option Int)
  deriving DecidableEq

@[reducible] def sdkRequests : Signature where
  Op := SdkOp
  Reply _ := SdkResponse

/-- The requests, and what the adapters do besides them. -/
@[reducible] def adapting : Signature := sdkRequests.sum publisher

/-- What an adapter method does. -/
abbrev Adapter (α : Type) := Program adapting Exc α

/-- Make one request. -/
abbrev request (op : SdkOp) : Adapter SdkResponse := Program.perform (S := adapting) (.inl op)

namespace OciAdapters

/-- `isinstance(value, str)`. -/
def asText (message : String) : SdkValue → Except Exc String
  | .str value => .ok value
  | _ => .error (ociCertificateError message)

/-- `value is None or isinstance(value, int)`. -/
def asOptionalInt (message : String) : SdkValue → Except Exc (Option Int)
  | .none => .ok Option.none
  | .int value => .ok (some value)
  | _ => .error (ociCertificateError message)

/-- What a retried read does on the outside: its request, the draw of the jitter and `time.sleep`. -/
def retrying (op : SdkOp) : (step : (OciRetry.reading SdkResponse).Op) → Adapter ((OciRetry.reading SdkResponse).Reply step)
  | .operation => request op
  | .uniform ceiling => Program.perform (S := adapting) (.inr (.uniform ceiling))
  | .sleep seconds => Program.perform (S := adapting) (.inr (.sleep seconds))

/-- `self._read(..)`. -/
def read (oci : OciConfig) (op : SdkOp) : Adapter SdkResponse :=
  (OciRetry.retryReadSync { maxAttempts := oci.maxReadAttempts }).subst (retrying op)

/-- `resource_id != certificate_id` is refused. -/
def requireId (certificateId : String) : SdkValue → Except Exc Unit
  | .str id => require (id = certificateId) (ociCertificateError "OCI returned a mismatched certificate identifier")
  | _ => .error (ociCertificateError "OCI returned a mismatched certificate identifier")

/-- The certificate of a response, which must be the one that was asked for. -/
def certificateFromResponse (certificateId : String) (response : SdkResponse) : Except Exc OciCertificate := do
  requireId certificateId (response.data.getattr "id" .none)
  -- a missing current version has no number either
  let currentNumber ← asOptionalInt "OCI returned an invalid current version"
    ((response.data.getattr "current_version" .none).getattr "version_number" .none)
  let etag ← (response.header "etag").asOptionalText "OCI returned an invalid ETag"
  return ⟨certificateId, etag, currentNumber⟩

/-- `get_certificate`: get the resource and its optimistic-concurrency ETag. -/
def getCertificate (oci : OciConfig) (certificateId opcRequestId : String) : Adapter OciCertificate := do
  let response ← read oci (.getCertificate certificateId opcRequestId)
  ofExcept (certificateFromResponse certificateId response)

/-- What the listing does on the outside. -/
def listing (oci : OciConfig) : (step : sdkClient.Op) → Adapter (sdkClient.Reply step)
  | .listCertificateVersions certificateId opcRequestId page => request (.listCertificateVersions certificateId opcRequestId page)
  | .pause attempt retryAfter => (sleepFor { maxAttempts := oci.maxReadAttempts } attempt retryAfter).right

/-- `list_versions`, its loop unrolled `passes` times. -/
def list (oci : OciConfig) (passes : Nat) (certificateId opcRequestId : String) : Adapter (List OciCertificateVersion) :=
  (listVersions oci passes certificateId opcRequestId).subst (listing oci)

/-- `get_version`: get one version's stage/name metadata. -/
def getVersion (oci : OciConfig) (certificateId : String) (versionNumber : Int) (opcRequestId : String) :
    Adapter OciCertificateVersion := do
  let response ← read oci (.getCertificateVersion certificateId versionNumber opcRequestId)
  ofExcept (versionFromData response.data (response.header "etag"))

/-- `raw.decode("ascii")`. The rest of the text names the byte and its position. -/
def decoded (raw : Bytes) : Except Exc String :=
  match decodeAscii raw with
  | some text => .ok text
  | none => .error (.of .unicodeError "'ascii' codec can't decode byte")

/-- The import of a version, with the PEM files decoded. -/
def importing (imported : ImportedVersion) (stage : Option String) : Except Exc ImportingConfig := do
  let certificatePem ← decoded imported.certificatePem
  let certChainPem ← decoded imported.certChainPem
  let privateKeyPem ← decoded imported.privateKeyPem
  return {
    versionName := imported.versionName
    stage := stage
    certificatePem := certificatePem
    certChainPem := certChainPem
    privateKeyPem := privateKeyPem }

/-- The OCID of a created certificate. -/
def createdId (response : SdkResponse) : Except Exc String :=
  match response.data.getattr "id" .none with
  | .str id => if id = "" then .error (ociCertificateError "OCI create response lacks certificate OCID") else .ok id
  | _ => .error (ociCertificateError "OCI create response lacks certificate OCID")

/-- `create_imported_certificate`: OCI decides its initial stage. -/
def createImportedCertificate (compartmentId certificateName : String) (imported : ImportedVersion) (opcRequestId : String) :
    Adapter String := do
  let certificateConfig ← ofExcept (importing imported none)
  let response ← request (.createCertificate certificateName compartmentId certificateConfig opcRequestId)
  ofExcept (createdId response)

/-- `upload_pending_version`: import exactly one new version at PENDING; this never promotes it. -/
def uploadPendingVersion (certificateId : String) (etag : Option String) (imported : ImportedVersion) (opcRequestId : String) :
    Adapter Unit := do
  let certificateConfig ← ofExcept (importing imported (some "PENDING"))
  let _ ← request (.updateCertificate certificateId { certificateConfig := some certificateConfig } etag opcRequestId)
  return ()

/-- `promote_current`: promote with a distinct request containing no other resource changes. -/
def promoteCurrent (certificateId : String) (versionNumber : Int) (etag : Option String)
    (opcRequestId : String) : Adapter Unit := do
  let _ ← request (.updateCertificate certificateId { currentVersionNumber := some versionNumber } etag opcRequestId)
  return ()

/-- `except ServiceError as error: raise OciCertificateError(..) from error`. -/
def hidingServiceError {α : Type} (message : String) (p : Adapter α) : Adapter α :=
  p.handle fun error => if error.isInstance .serviceError then .raise (ociCertificateError message) else .raise error

/-- `schedule_version_deletion`: schedule deletion rather than deleting immediately. -/
def scheduleVersionDeletion (certificateId : String) (versionNumber : Int) (timeOfDeletion : Instant) (etag : Option String)
    (opcRequestId : String) : Adapter Unit := do
  let _ ← hidingServiceError "OCI version deletion scheduling failed"
    (request (.scheduleCertificateVersionDeletion certificateId versionNumber timeOfDeletion etag opcRequestId))
  return ()

/-- The bundle of a response. -/
def bundleFromData (data : SdkValue) : Except Exc OciPublicBundle := do
  let certificatePem ← asText "OCI retrieval response does not contain a public bundle" (data.getattr "certificate_pem" .none)
  let certChainPem ← asText "OCI retrieval response does not contain a public bundle" (data.getattr "cert_chain_pem" .none)
  let versionNumber ← (data.getattr "version_number" .none).asInt "OCI retrieval response has invalid version metadata"
  let versionName ← (data.getattr "version_name" .none).asOptionalText "OCI retrieval response has invalid version metadata"
  let stages ← (data.getattr "stages" .none).asStages "OCI retrieval response has invalid stages"
  return ⟨certificatePem, certChainPem, versionNumber, versionName, stages⟩

/-- `get_public_bundle`: retrieve the current or numbered public bundle only. -/
def getPublicBundle (oci : OciConfig) (certificateId : String) (versionNumber : Option Int) (opcRequestId : String) :
    Adapter OciPublicBundle := do
  let response ← hidingServiceError "OCI public bundle retrieval failed"
    (read oci (.getCertificateBundle certificateId opcRequestId "CERTIFICATE_CONTENT_PUBLIC_ONLY" versionNumber))
  ofExcept (bundleFromData response.data)

/-- What the adapters make of the operations of the publisher; `passes` bounds the pages of a listing. -/
def implement (oci : OciConfig) (passes : Nat) : (op : Op) → Adapter op.Reply
  | .getCertificate certificateId opcRequestId => getCertificate oci certificateId opcRequestId
  | .listVersions certificateId opcRequestId => list oci passes certificateId opcRequestId
  | .getVersion certificateId versionNumber opcRequestId => getVersion oci certificateId versionNumber opcRequestId
  | .createImportedCertificate compartmentId certificateName imported opcRequestId =>
    createImportedCertificate compartmentId certificateName imported opcRequestId
  | .uploadPendingVersion certificateId etag imported opcRequestId =>
      uploadPendingVersion certificateId etag imported opcRequestId
  | .promoteCurrent certificateId versionNumber etag opcRequestId => promoteCurrent certificateId versionNumber etag opcRequestId
  | .scheduleVersionDeletion certificateId versionNumber timeOfDeletion etag opcRequestId =>
    scheduleVersionDeletion certificateId versionNumber timeOfDeletion etag opcRequestId
  | .getPublicBundle certificateId versionNumber opcRequestId => getPublicBundle oci certificateId versionNumber opcRequestId
  | op => Program.perform (S := adapting) (.inr op)

end OciAdapters

end OciAcmePublisher
