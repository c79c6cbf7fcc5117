import Mathlib.Data.List.Sort
import OciAcmePublisher.Effects.Triple
import OciAcmePublisher.Ports

/-!
# The TLS audit

`AuditService`: the configured endpoints are checked against the expected fingerprint, again and again until all of them match or
the propagation timeout has passed. The rounds of the loop are not bounded by the code; `passes` bounds them here, and a run that
needs more is cut. The probes of one endpoint run concurrently; they are performed in the order of the addresses.
-/

namespace OciAcmePublisher

open Effects

/-- `AuditError` with its text. -/
def auditError (message : String) : Exc := .of .auditError message

/-- Convergence result that can be persisted and notified without PEM content. -/
structure AuditResult where
  successful : Bool
  attempts : Nat
  failedEndpoints : List String
  deriving DecidableEq, Repr

namespace AuditService

/-- `sorted(set(values))`. -/
def sortedSet (values : List String) : List String := values.dedup.insertionSort (· ≤ ·)

/-- `resolve_endpoint_addresses`: all A and AAAA addresses of an audit endpoint. -/
def resolveEndpointAddresses (hostname : String) : Action (List String) := do
  let results ← perform (.resolve hostname)
  let addresses := sortedSet results
  if addresses = [] then .raise (auditError "endpoint DNS returned no addresses") else return addresses

/-- `_validate_addresses`. -/
def validateAddresses (Γ : Ctx) (addresses : List String) (rejectNonGlobal : Bool) : Except Exc Unit :=
  addresses.forM fun address =>
    if ¬Γ.isIpAddress address then .error (auditError "endpoint DNS returned an invalid address")
    else if rejectNonGlobal = true ∧ ¬Γ.isGlobal address then
      .error (auditError "endpoint DNS returned a non-global address")
    else .ok ()

/-- The checks of all addresses pass where every address passes its own. -/
theorem forM_checks_iff {isValid isGlobal : String → Bool} {rejectNonGlobal : Bool} {invalid nonGlobal : Exc} (addresses : List String) :
    (addresses.forM fun address => if ¬isValid address then .error invalid
        else if rejectNonGlobal = true ∧ ¬isGlobal address then .error nonGlobal else .ok ()) = (.ok () : Except Exc Unit) ↔
      ∀ address ∈ addresses, isValid address = true ∧ (rejectNonGlobal = true → isGlobal address = true) := by
  rw [List.forM_eq_forM]
  induction addresses with
  | nil => simp [pure, Except.pure]
  | cons address rest ih =>
    rw [List.forM_cons, List.forall_mem_cons, ← ih]
    by_cases hvalid : isValid address = true
    · by_cases hglobal : rejectNonGlobal = true ∧ ¬isGlobal address = true
      · rw [if_neg (not_not_intro hvalid), if_pos hglobal]
        exact ⟨nofun, fun h => absurd (h.1.2 hglobal.1) hglobal.2⟩
      · rw [if_neg (not_not_intro hvalid), if_neg hglobal]
        have hpolicy : rejectNonGlobal = true → isGlobal address = true :=
          fun hreject => by_contra fun h => hglobal ⟨hreject, h⟩
        exact ⟨fun h => ⟨⟨hvalid, hpolicy⟩, h⟩, fun h => h.2⟩
    · rw [if_pos hvalid]
      exact ⟨nofun, fun h => absurd h.1.1 hvalid⟩

/-- What the checks raise is one of their two errors. -/
theorem forM_checks_error {isValid isGlobal : String → Bool} {rejectNonGlobal : Bool} {invalid nonGlobal x : Exc}
    {addresses : List String}
    (h : (addresses.forM fun address => if ¬isValid address then .error invalid
      else if rejectNonGlobal = true ∧ ¬isGlobal address then .error nonGlobal else .ok ()) = (.error x : Except Exc Unit)) :
    x = invalid ∨ x = nonGlobal := by
  rw [List.forM_eq_forM] at h
  induction addresses with
  | nil => cases h
  | cons address rest ih =>
    rw [List.forM_cons] at h
    split at h
    · cases h
      exact Or.inl rfl
    · split at h
      · cases h
        exact Or.inr rfl
      · exact ih h

/-- `asyncio.gather(.., return_exceptions=True)` of the probes: the fingerprint of each address, none for a probe that raised. -/
def gather (endpoint : AuditEndpoint) (timeoutSeconds : Nat) : List String → Action (List (Option String))
  | [] => return []
  | address :: rest => do
    let outcome ← (perform (.probe address endpoint.hostname endpoint.port timeoutSeconds)).attempt
    match outcome with
    | .ok fingerprint => do
      let results ← gather endpoint timeoutSeconds rest
      return some fingerprint :: results
    | .error error =>
      if error.isInstance .exception then do
        let results ← gather endpoint timeoutSeconds rest
        return none :: results
      else .raise error

/-- The verdict on the probes of an endpoint. -/
def matched (configuration : AuditConfig) (expectedFingerprint : String) (results : List (Option String)) : Bool :=
  let hits := (results.filterMap id).map (· == expectedFingerprint)
  if configuration.requireAllAddresses then hits.length == results.length && hits.all id else hits.any id

/-- What a resolver is: the addresses of a hostname. -/
abbrev Resolver := String → Action (List String)

/-- `_endpoint_matches`. -/
def endpointMatches (Γ : Ctx) (resolver : Resolver) (configuration : AuditConfig) (endpoint : AuditEndpoint)
    (expectedFingerprint : String) : Action Bool :=
  Program.handle
    (do
      let addresses ← resolver endpoint.hostname
      ofExcept (validateAddresses Γ addresses configuration.rejectNonGlobalAddresses)
      let results ← gather endpoint configuration.retryIntervalSeconds addresses
      return matched configuration expectedFingerprint results)
    fun error => if error.isInstance .auditError then return false else .raise error

/-- `_once`: the endpoints that do not match. -/
def once (Γ : Ctx) (resolver : Resolver) (configuration : AuditConfig) (expectedFingerprint : String) :
    List AuditEndpoint → Action (List String)
  | [] => return []
  | endpoint :: rest => do
    let isMatch ← endpointMatches Γ resolver configuration endpoint expectedFingerprint
    let failures ← once Γ resolver configuration expectedFingerprint rest
    return if isMatch then failures else s!"{endpoint.hostname}:{endpoint.port}" :: failures

/-- The loop of `audit`, after `attempts` rounds. -/
def rounds (Γ : Ctx) (resolver : Resolver) (configuration : AuditConfig) (expectedFingerprint : String) (deadline : Rat) :
    Nat → Nat → Action AuditResult
  | 0, _ => .diverge
  | passes + 1, attempts => do
    let latestFailures ← once Γ resolver configuration expectedFingerprint configuration.endpoints
    if latestFailures = [] then return { successful := true, attempts := attempts + 1, failedEndpoints := [] }
    else do
      let clock ← perform .monotonic
      if deadline ≤ clock then
        if configuration.mode = .enforce then
          .raise (auditError "TLS audit did not converge before propagation timeout")
        else return { successful := false, attempts := attempts + 1, failedEndpoints := latestFailures }
      else do
        perform (.wait configuration.retryIntervalSeconds)
        rounds Γ resolver configuration expectedFingerprint deadline passes (attempts + 1)

/-- `AuditService.audit` of a service with a resolver of its own. -/
def auditWith (Γ : Ctx) (resolver : Resolver) (configuration : AuditConfig) (passes : Nat) (expectedFingerprint : String) :
    Action AuditResult :=
  if configuration.mode = .disabled then return { successful := true, attempts := 0, failedEndpoints := [] }
  else do
    let start ← perform .monotonic
    rounds Γ resolver configuration expectedFingerprint (start + configuration.propagationTimeoutSeconds) passes 0

/-- `AuditService.audit`: check each configured endpoint until all required addresses converge or timeout. -/
def audit (Γ : Ctx) (configuration : AuditConfig) (passes : Nat) (expectedFingerprint : String) : Action AuditResult :=
  auditWith Γ resolveEndpointAddresses configuration passes expectedFingerprint

/-! ## Footprint -/

variable {Γ : Ctx} {A : Op → Prop}

theorem uses_gather (hA : ∀ op, op.observes = true → A op) (endpoint : AuditEndpoint) (timeoutSeconds : Nat)
    (addresses : List String) : (gather endpoint timeoutSeconds addresses).Uses A := by
  induction addresses with
  | nil => trivial
  | cons address rest ih =>
    refine Program.uses_bind (Program.uses_attempt (Program.uses_perform.2 (hA _ rfl))) fun outcome => ?_
    cases outcome with
    | ok fingerprint => exact Program.uses_bind ih fun _ => trivial
    | error error =>
      simp only
      split
      · exact Program.uses_bind ih fun _ => trivial
      · trivial

theorem uses_endpointMatches (hA : ∀ op, op.observes = true → A op) (configuration : AuditConfig)
    (endpoint : AuditEndpoint) (expectedFingerprint : String) :
    (endpointMatches Γ resolveEndpointAddresses configuration endpoint expectedFingerprint).Uses A := by
  refine Program.uses_handle ?_ fun error => ?_
  · refine Program.uses_bind ?_ fun addresses => ?_
    · refine Program.uses_bind (Program.uses_perform.2 (hA _ rfl)) fun results => ?_
      simp only
      split <;> trivial
    · refine Program.uses_bind ?_ fun _ => Program.uses_bind (uses_gather hA _ _ _) fun _ => trivial
      unfold ofExcept
      split <;> trivial
  · split <;> trivial

theorem uses_once (hA : ∀ op, op.observes = true → A op) (configuration : AuditConfig) (expectedFingerprint : String)
    (endpoints : List AuditEndpoint) : (once Γ resolveEndpointAddresses configuration expectedFingerprint endpoints).Uses A := by
  induction endpoints with
  | nil => trivial
  | cons endpoint rest ih =>
    exact Program.uses_bind (uses_endpointMatches hA _ _ _) fun _ => Program.uses_bind ih fun _ => trivial

theorem uses_rounds (hA : ∀ op, op.observes = true → A op) (configuration : AuditConfig) (expectedFingerprint : String)
    (deadline : Rat) (passes attempts : Nat) :
    (rounds Γ resolveEndpointAddresses configuration expectedFingerprint deadline passes attempts).Uses A := by
  induction passes generalizing attempts with
  | zero => trivial
  | succ passes ih =>
    refine Program.uses_bind (uses_once hA _ _ _) fun failures => ?_
    split
    · trivial
    · refine Program.uses_bind (Program.uses_perform.2 (hA _ rfl)) fun clock => ?_
      split
      · split <;> trivial
      · exact Program.uses_bind (Program.uses_perform.2 (hA _ rfl)) fun _ => ih _

/-- The audit observes, and does nothing else. -/
theorem uses_audit (hA : ∀ op, op.observes = true → A op) (configuration : AuditConfig) (passes : Nat)
    (expectedFingerprint : String) : (audit Γ configuration passes expectedFingerprint).Uses A := by
  unfold audit auditWith
  split
  · trivial
  · exact Program.uses_bind (Program.uses_perform.2 (hA _ rfl)) fun _ => uses_rounds hA _ _ _ _ _

end AuditService

end OciAcmePublisher
