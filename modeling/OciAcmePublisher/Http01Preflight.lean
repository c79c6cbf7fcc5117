import OciAcmePublisher.AuditService
import OciAcmePublisher.Http01Paths

/-!
# The HTTP-01 preflight

`Http01Preflight`: a synthetic challenge file is written, every address of every domain is asked for it, and the file is removed. The
domains are checked concurrently; the first check that raises decides, whichever that is.
-/

namespace OciAcmePublisher

/-- The checks before an order that the configuration asks for. -/
structure SelfCheckConfig where
  enabled : Bool := true
  requireAllAddresses : Bool := true
  rejectNonGlobalAddresses : Bool := true
  deriving DecidableEq, Repr

/-- `PreflightError` with its text. -/
def preflightError (message : String) : Exc := .of .preflightError message

/-- What the route of a domain answers: the resolver raises, or gives addresses, each with what `_check_address` does there. -/
abbrev DomainRoute := Except Exc (List (String × Except Exc Unit))

/-- What becomes of the synthetic file. `_write_challenge` raises `OSError`, or `ChallengeFileError` for want of an account;
`_remove_challenge` raises `OSError`. -/
structure SyntheticFile where
  written : Except Exc Unit
  removed : Except Exc Unit
  written_error : ∀ x, written = .error x → x.isOneOf [.osError, .challengeFileError] = true
  removed_error : ∀ x, removed = .error x → x.isInstance .osError = true

namespace Http01Preflight

/-- `resolve_all_addresses`, for what name resolution answers. -/
def resolveAllAddresses (records : Except Exc (List String)) : Except Exc (List String) := do
  let records ← records
  let addresses := AuditService.sortedSet records
  if addresses = [] then .error (preflightError "DNS did not return an address") else .ok addresses

/-- The route of a domain whose addresses are checked one by one. -/
def routeOf (resolved : Except Exc (List String)) (checkAddress : String → Except Exc Unit) : DomainRoute := do
  let addresses ← resolved
  return addresses.map fun address => (address, checkAddress address)

/-- `_validate_addresses`. -/
def validateAddresses (Γ : Ctx) (addresses : List String) (rejectNonGlobal : Bool) : Except Exc Unit :=
  addresses.forM fun address =>
    if ¬Γ.isIpAddress address then .error (preflightError "DNS returned an invalid IP address")
    else if rejectNonGlobal = true ∧ ¬Γ.isGlobal address then .error (preflightError "DNS returned a non-global address")
    else .ok ()

/-- The exceptions `asyncio.gather(.., return_exceptions=True)` collects. -/
def collectErrors (results : List (Except Exc Unit)) : List Exc :=
  results.filterMap fun
    | .error error => some error
    | .ok _ => none

/-- `_check_domain`. -/
def checkDomain (Γ : Ctx) (policy : SelfCheckConfig) (route : DomainRoute) : Except Exc Unit := do
  let addresses ← route
  validateAddresses Γ (addresses.map (·.1)) policy.rejectNonGlobalAddresses
  let errors := collectErrors (addresses.map (·.2))
  if errors ≠ [] ∧ policy.requireAllAddresses = true then
    .error (preflightError "one or more HTTP-01 addresses failed preflight")
  else .ok ()

/-- `asyncio.gather` of checks, in the order in which they end: the first exception is raised at once. -/
def gather : List (Except Exc Unit) → Except Exc Unit
  | [] => .ok ()
  | .ok _ :: rest => gather rest
  | .error error :: _ => .error error

/-- `run`, with the domains in the order in which their checks end. The total timeout does not pass. -/
def run (Γ : Ctx) (policy : SelfCheckConfig) (file : SyntheticFile) (route : String → DomainRoute) (completion : List String) :
    Except Exc Unit :=
  if policy.enabled = false then .ok ()
  else do
    file.written
    let outcome : Except Exc Unit :=
      match gather (completion.map fun domain => checkDomain Γ policy (route domain)) with
      | .ok _ => .ok ()
      | .error error =>
        if error.isInstance .timeoutError then .error (preflightError "HTTP-01 preflight exceeded its total timeout")
        else .error error
    file.removed
    outcome

end Http01Preflight

end OciAcmePublisher
