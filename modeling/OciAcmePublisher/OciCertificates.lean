import OciAcmePublisher.Config
import OciAcmePublisher.OciRetry
import OciAcmePublisher.Effects.Eval

/-!
# The management adapter

`CertificatesManagementAdapter.list_versions`, below the port `listVersions`: the requests it makes of the SDK client and what it
accepts of the answers. The `while True` loop is unrolled `passes` times.
-/

namespace OciAcmePublisher

open Effects

/-- A value of an SDK response, as far as the adapter tells values apart. A `bool` is the `int` it is an instance of. -/
inductive SdkValue where
  | none
  | int (value : Int)
  | str (value : String)
  | datetime (value : Instant)
  | list (values : List SdkValue)
  | object (attributes : List (String × SdkValue))

/-- `getattr(value, name, default)`. No builtin value has an attribute the adapter asks for. -/
def SdkValue.getattr (value : SdkValue) (name : String) (default : SdkValue) : SdkValue :=
  match value with
  | .object attributes => (attributes.lookup name).getD default
  | _ => default

/-- A response of the SDK client. -/
structure SdkResponse where
  data : SdkValue
  headers : List (String × SdkValue)

/-- `response.headers.get(name)`. -/
def SdkResponse.header (response : SdkResponse) (name : String) : SdkValue := (response.headers.lookup name).getD .none

/-- `OciCertificateError` with its text. -/
def ociCertificateError (message : String) : Exc := .of .ociCertificateError message

/-- The stage of a name. -/
def Stage.ofName (name : String) : Stage :=
  if name = "CURRENT" then .current
  else if name = "PENDING" then .pending
  else if name = "LATEST" then .latest
  else if name = "PREVIOUS" then .previous
  else if name = "DEPRECATED" then .deprecated
  else if name = "PENDING_ACTIVATION" then .pendingActivation
  else .other name

namespace SdkValue

/-- `isinstance(value, int)`. -/
def asInt (message : String) : SdkValue → Except Exc Int
  | .int value => .ok value
  | _ => .error (ociCertificateError message)

/-- `value is None or isinstance(value, str)`. -/
def asOptionalText (message : String) : SdkValue → Except Exc (Option String)
  | .none => .ok Option.none
  | .str value => .ok (some value)
  | _ => .error (ociCertificateError message)

/-- `value is None or isinstance(value, datetime)`. -/
def asOptionalTime (message : String) : SdkValue → Except Exc (Option Instant)
  | .none => .ok Option.none
  | .datetime value => .ok (some value)
  | _ => .error (ociCertificateError message)

/-- `isinstance(stage, str)`, for one of the stages. -/
def asStage (message : String) : SdkValue → Except Exc Stage
  | .str name => .ok (Stage.ofName name)
  | _ => .error (ociCertificateError message)

/-- `isinstance(value, list)` with only stages in it. -/
def asStages (message : String) : SdkValue → Except Exc (List Stage)
  | .list stages => stages.mapM (asStage message)
  | _ => .error (ociCertificateError message)

end SdkValue

/-- `_version_from_data`. -/
def versionFromData (data : SdkValue) (etag : SdkValue := .none) : Except Exc OciCertificateVersion := do
  let number ← (data.getattr "version_number" .none).asInt "OCI response has no certificate version number"
  let name ← (data.getattr "version_name" .none).asOptionalText "OCI response has invalid certificate version name"
  -- the default of the stages is a tuple, which is no list
  let stages ← (data.getattr "stages" (.object [])).asStages "OCI response has invalid certificate stages"
  let created ← (data.getattr "time_created" .none).asOptionalTime "OCI response has invalid version creation time"
  let deletion ← (data.getattr "time_of_deletion" .none).asOptionalTime "OCI response has invalid version deletion time"
  let etag ← etag.asOptionalText "OCI returned an invalid version ETag"
  return ⟨number, name, stages, created, deletion, etag⟩

/-- What the adapter does on the outside: page requests of the SDK client, and the pauses `time.sleep(policy.delay(..))` between
the attempts of a read. -/
inductive ClientOp where
  | listCertificateVersions (certificateId opcRequestId : String) (page : Option String)
  | pause (attempt : Nat) (retryAfter : Option HeaderSeconds)
  deriving DecidableEq

@[reducible] def ClientOp.Reply : ClientOp → Type
  | .listCertificateVersions .. => SdkResponse
  | .pause .. => Unit

/-- The signature of the SDK client. -/
@[reducible] def sdkClient : Signature where
  Op := ClientOp
  Reply := ClientOp.Reply

/-- Perform one operation of the client. -/
abbrev client (op : ClientOp) : Program sdkClient Exc op.Reply := Program.perform (S := sdkClient) op

/-- The attempts that are left of `retry_read_sync`. -/
def retryReadSync.attempts {α : Type} (operation : Program sdkClient Exc α) (policy : ReadRetryPolicy) :
    Nat → Program sdkClient Exc α
  | 0 => .raise (.of .runtimeError "read retry policy has no attempts")
  | remaining + 1 => do
    let attempt := policy.maxAttempts - (remaining + 1)
    let outcome ← operation.attempt
    match outcome with
    | .ok result => return result
    | .error error =>
      if error.isOneOf transportFailures then
        match retryableException error with
        | none => .raise error
        | some retryAfter =>
          if remaining = 0 then .raise error
          else do
            client (.pause attempt retryAfter)
            attempts operation policy remaining
      else .raise error

/-- Bounded synchronous retry for OCI read adapters running in an executor. -/
def retryReadSync {α : Type} (operation : Program sdkClient Exc α) (policy : ReadRetryPolicy) : Program sdkClient Exc α :=
  retryReadSync.attempts operation policy policy.maxAttempts

/-- The versions of a page: an attribute `items` of the data or else the data itself, which must be a list. -/
def pageVersions (response : SdkResponse) : Except Exc (List OciCertificateVersion) :=
  match response.data.getattr "items" response.data with
  | .list items => items.mapM versionFromData
  | _ => .error (ociCertificateError "OCI returned invalid certificate-version list")

/-- The token of the next page, if there is one. -/
def nextPage (seenPages : List String) (response : SdkResponse) : Except Exc (Option String) :=
  match response.header "opc-next-page" with
  | .none => .ok none
  | .str token =>
    if token = "" ∨ token ∈ seenPages then
      .error (ociCertificateError "OCI returned an invalid certificate-version page token")
    else .ok (some token)
  | _ => .error (ociCertificateError "OCI returned an invalid certificate-version page token")

/-- The loop of `list_versions`, with the versions, the page and the seen tokens at its head. -/
def listVersions.loop (oci : OciConfig) (certificateId opcRequestId : String) :
    Nat → List OciCertificateVersion → Option String → List String → Program sdkClient Exc (List OciCertificateVersion)
  | 0, _, _, _ => .diverge
  | passes + 1, versions, page, seenPages => do
    let response ← retryReadSync (client (.listCertificateVersions certificateId opcRequestId page))
      { maxAttempts := oci.maxReadAttempts }
    let listed ← ofExcept (pageVersions response)
    let next ← ofExcept (nextPage seenPages response)
    match next with
    | none => return versions ++ listed
    | some token => loop oci certificateId opcRequestId passes (versions ++ listed) (some token) (token :: seenPages)

/-- Return every version page, rejecting malformed or cyclic OCI page tokens. -/
def listVersions (oci : OciConfig) (passes : Nat) (certificateId opcRequestId : String) :
    Program sdkClient Exc (List OciCertificateVersion) :=
  listVersions.loop oci certificateId opcRequestId passes [] none []

/-! ## Evaluation -/

theorem SdkValue.asInt_iff {message : String} {value : SdkValue} {n : Int} : value.asInt message = .ok n ↔ value = .int n := by
  cases value <;> simp [asInt]

theorem SdkValue.asOptionalText_iff {message : String} {value : SdkValue} {text : Option String} :
    value.asOptionalText message = .ok text ↔ value = text.elim .none .str := by
  cases value <;> cases text <;> simp [asOptionalText]

theorem SdkValue.asOptionalTime_iff {message : String} {value : SdkValue} {time : Option Instant} :
    value.asOptionalTime message = .ok time ↔ value = time.elim .none .datetime := by
  cases value <;> cases time <;> simp [asOptionalTime]

theorem SdkValue.asStage_iff {message : String} {value : SdkValue} {stage : Stage} :
    value.asStage message = .ok stage ↔ ∃ name, value = .str name ∧ stage = Stage.ofName name := by
  cases value <;> simp [asStage, eq_comm]

/-- A read whose first attempt is answered ends with the answer. -/
theorem retryReadSync_eval {W : Type} {h : Answers sdkClient Exc W} {op : ClientOp} {a : op.Reply} {w w' : W}
    {policy : ReadRetryPolicy} (hpos : 0 < policy.maxAttempts) (hop : h w op = (.ok a, w')) :
    (retryReadSync (client op) policy).eval h w = (.returned a, w') := by
  obtain ⟨remaining, hremaining⟩ : ∃ n, policy.maxAttempts = n + 1 := ⟨policy.maxAttempts - 1, by omega⟩
  unfold retryReadSync
  rw [hremaining]
  exact Program.eval_bind_returned (Program.eval_attempt_returned (Program.eval_perform hop))

end OciAcmePublisher
