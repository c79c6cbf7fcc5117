import OciAcmePublisher.CommandPorts
import OciAcmePublisher.Http01Preflight

/-!
# The operational preflight

`OperationalPreflight`: the clock, the responder, the webroots and the root pins are checked, then OCI is read for every certificate
set, and then its HTTP-01 route is tried. It changes nothing in OCI, but the route is tried with a challenge file.
-/

namespace OciAcmePublisher

open Effects

namespace OperationalPreflight

variable (Γ : Ctx)

/-- `_verify_clock`. -/
def verifyClock : Command Unit := do
  let outcome ← (console .timedatectl).attempt
  match outcome with
  | .error error =>
    if error.isInstance .osError then .raise (preflightError "system clock synchronization cannot be verified") else .raise error
  | .ok none => .raise (preflightError "system clock synchronization cannot be verified")
  | .ok (some (returnCode, output)) =>
    if returnCode ≠ 0 ∨ Γ.lower (strip output) ≠ "yes" then .raise (preflightError "system clock is not synchronized")
    else return ()

/-- The request of `_request_readiness`. -/
def readinessRequest : String := "GET /readyz HTTP/1.1\r\nHost: localhost\r\nConnection: close\r\n\r\n"

/-- `_verify_responder`. -/
def verifyResponder (http01 : Http01Config) : Command Unit := do
  let outcome ← (console (.request http01.responder.bindAddress http01.responder.bindPort readinessRequest)).attempt
  match outcome with
  | .error error =>
    if error.isOneOf [.osError, .timeoutError] then .raise (preflightError "local HTTP-01 responder is unavailable")
    else .raise error
  | .ok response =>
    if ("HTTP/1.1 200 ".toUTF8.toList).isPrefixOf response then return ()
    else .raise (preflightError "local HTTP-01 responder is not ready")

/-- `_verify_webroot`. -/
def verifyWebroot (http01 : Http01Config) (certificate : CertificateConfig) : Command Unit := do
  let found ← console (.isDir (http01.webrootBase ++ "/" ++ certificate.webrootId))
  if found = true then return () else .raise (preflightError "configured HTTP-01 webroot is unavailable")

/-- `_verify_root_pin`. -/
def verifyRootPin (certificate : CertificateConfig) : Action Unit := do
  let content ← (perform (.readFile certificate.chain.rootPemPath)).attempt
  match content with
  | .error error =>
    if error.isOneOf [.osError, .valueError] then .raise (preflightError "configured chain root is unreadable or invalid")
    else .raise error
  | .ok raw =>
    match Γ.loadPem raw with
    | none => .raise (preflightError "configured chain root is unreadable or invalid")
    | some root =>
      if certificateSha256 root ∈ certificate.chain.allowedRootSha256 then return ()
      else .raise (preflightError "configured chain root is not allowlisted")

/-- `_verify_oci_read`. -/
def verifyOciRead (certificate : CertificateConfig) : Action Unit := do
  perform (.createAdapters certificate.oci.region)
  match certificate.oci.certificateOcid with
  | none => return ()
  | some ocid => do
    let requestId ← perform .uuid4
    let _ ← perform (.getCertificate ocid requestId)
    return ()

/-- The first loop of `run`. -/
def verifyLocal (http01 : Http01Config) : List CertificateConfig → Command Unit
  | [] => return ()
  | certificate :: rest => do
    verifyWebroot http01 certificate
    (verifyRootPin Γ certificate).right
    verifyLocal http01 rest

/-- The second loop of `run`. -/
def verifyOciReads : List CertificateConfig → Action Unit
  | [] => return ()
  | certificate :: rest => do
    verifyOciRead certificate
    verifyOciReads rest

/-- The third loop of `run`. -/
def tryRoutes : List CertificateConfig → Action Unit
  | [] => return ()
  | certificate :: rest => do
    perform (.preflight certificate.webrootId certificate.domains)
    tryRoutes rest

/-- `run`. -/
def run (config : AppConfig) (certificates : List CertificateConfig) : Command Unit := do
  verifyClock Γ
  verifyResponder config.http01
  verifyLocal Γ config.http01 certificates
  (verifyOciReads certificates).right
  (tryRoutes certificates).right

end OperationalPreflight

end OciAcmePublisher
