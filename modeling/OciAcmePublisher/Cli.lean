import OciAcmePublisher.PublicationService

/-!
# Exit codes of the command line

`main` maps what a command raises to an exit code; the timer's batch collects failures and is mapped by `_renewal_exit_code`.
-/

namespace OciAcmePublisher

/-- Stable exit codes exposed by the command line interface. -/
inductive ExitCode where
  | success | configurationInvalid | http01PreflightFailed | acmeFailed | x509ValidationFailed | ociImportFailed
  | ociPromotionFailed | auditEnforceFailed | rollbackFailed | retentionStrictFailed | ociCertificateProfileIncompatible
  | lineageDrift | lockedOrTemporaryFailure
  deriving DecidableEq, Repr

/-- The status the process ends with. -/
def ExitCode.value : ExitCode → Nat
  | .success => 0
  | .configurationInvalid => 2
  | .http01PreflightFailed => 3
  | .acmeFailed => 4
  | .x509ValidationFailed => 5
  | .ociImportFailed => 6
  | .ociPromotionFailed => 7
  | .auditEnforceFailed => 8
  | .rollbackFailed => 9
  | .retentionStrictFailed => 10
  | .ociCertificateProfileIncompatible => 11
  | .lineageDrift => 12
  | .lockedOrTemporaryFailure => 75

/-- An exception as `isinstance` sees it, of a declared class or of any subclass of one or several of them. Only a
`PublisherError` has the attribute `code`. -/
structure RaisedError where
  isInstance : ExcClass → Bool
  inherits : ∀ {c b : ExcClass}, c.base = some b → isInstance c = true → isInstance b = true
  code : ExitCode

/-- `except (A, B, ...)` and `isinstance(error, A | B | ...)`. -/
def RaisedError.isOneOf (error : RaisedError) (classes : List ExcClass) : Bool := classes.any error.isInstance

/-- `LockUnavailableError` is raised with a code of its own; a `ConfigurationError` is an invalid configuration. -/
def ExcClass.code : ExcClass → ExitCode
  | .lockUnavailableError => .lockedOrTemporaryFailure
  | _ => .configurationInvalid

theorem ExcClass.mro_closed (c : ExcClass) : (c.mro.all fun b => b.base.all c.mro.contains) = true := by
  cases c <;> rfl

/-- An exception of a declared class itself. -/
def Exc.raised (x : Exc) : RaisedError where
  isInstance := x.isInstance
  inherits hbase h := by
    have hclosed := List.all_eq_true.1 x.cls.mro_closed _ (List.contains_iff_mem.1 h)
    rwa [hbase] at hclosed
  code := x.cls.code

/-- The classes of a failed local certificate check. -/
def x509Failures : List ExcClass := [.certificateStoreError, .certificateValidationError, .chainBuildError]

/-- The classes of a failed OCI publication. -/
def ociFailures : List ExcClass :=
  [.ociAuthenticationError, .ociCertificateError, .reconciliationError, .publicationServiceError]

/-- The `except` clauses of `main`. An exception of none of these classes goes on. -/
def mainExitCode (error : RaisedError) : Option ExitCode :=
  if error.isOneOf [.publisherError] then some error.code
  else if error.isOneOf x509Failures then some .x509ValidationFailed
  else if error.isOneOf [.preflightError] then some .http01PreflightFailed
  else if error.isOneOf [.acmeOperationError] then some .acmeFailed
  else if error.isOneOf [.auditError] then some .auditEnforceFailed
  else if error.isOneOf [.rollbackError] then some .rollbackFailed
  -- `LiveProbePrerequisiteError` is a `CompatibilityProbeError`
  else if error.isOneOf [.compatibilityProbeError] then some .ociCertificateProfileIncompatible
  else if error.isOneOf ociFailures then some .ociImportFailed
  else none

/-- `_renewal_exit_code`, of the errors of the failures. -/
def renewalExitCode (errors : List RaisedError) : ExitCode :=
  if errors.any (·.isOneOf [.preflightError]) then .http01PreflightFailed
  else if errors.any (·.isOneOf [.acmeOperationError]) then .acmeFailed
  else if errors.any (·.isOneOf x509Failures) then .x509ValidationFailed
  else if errors.any (·.isOneOf [.auditError]) then .auditEnforceFailed
  else if errors.any (·.isOneOf [.rollbackError]) then .rollbackFailed
  else .ociImportFailed

/-- The status `_renew` returns for a batch. -/
def renewStatus (batch : RenewalBatchResult) : ExitCode :=
  if batch.failures = [] then .success else renewalExitCode (batch.failures.map (·.error.raised))

end OciAcmePublisher
