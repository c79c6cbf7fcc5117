import Mathlib.Algebra.Order.Ring.Unbundled.Rat
import OciAcmePublisher.Effects.Triple
import OciAcmePublisher.Ports

/-!
# Bounded retries of OCI reads

The retry policy and `retry_read_until_sync`. The loop over `range(max_attempts)` is a recursion on the attempts that are left.
-/

namespace OciAcmePublisher

open Effects

/-- Full-jitter retry limits for bounded, idempotent OCI read operations. -/
structure ReadRetryPolicy where
  maxAttempts : Nat
  baseDelaySeconds : Rat := 1 / 4
  maximumDelaySeconds : Rat := 10

namespace ReadRetryPolicy

/-- Full jitter under the exponential cap. -/
def jitter (policy : ReadRetryPolicy) (attempt : Nat) : Action Rat :=
  perform (.uniform (min policy.maximumDelaySeconds (policy.baseDelaySeconds * 2 ^ attempt)))

/-- Choose the server's `Retry-After` first, otherwise full jitter under the exponential cap. A negative value and a NaN fail
the comparison with zero. -/
def delay (policy : ReadRetryPolicy) (attempt : Nat) : Option HeaderSeconds → Action Rat
  | some (.finite seconds) =>
    if 0 ≤ seconds then .ret (min seconds policy.maximumDelaySeconds) else policy.jitter attempt
  | some .infinite => .ret policy.maximumDelaySeconds
  | some .nan | none => policy.jitter attempt

end ReadRetryPolicy

/-- `_retryable_exception` of an error that `except (ServiceError, TimeoutError, OSError)` catches: the `Retry-After` of a
transient one, none for one that must be raised. -/
def retryableException : Exc → Option (Option HeaderSeconds)
  | .service status code retryAfter =>
    if status ∈ [429, 500, 502, 503, 504] ∨ (status = 404 ∧ code = "NotAuthorizedOrNotFound") then some retryAfter
    else none
  | .of .. => some none

/-- The classes a read retry catches. -/
def transportFailures : List ExcClass := [.serviceError, .timeoutError, .osError]

/-- `time.sleep(policy.delay(..))`. -/
def sleepFor (policy : ReadRetryPolicy) (attempt : Nat) (retryAfter : Option HeaderSeconds) : Action Unit := do
  let seconds ← policy.delay attempt retryAfter
  perform (.sleep seconds)

/-- The attempts that are left of `retry_read_until_sync`. -/
def retryReadUntilSync.attempts {α : Type} (operation : Action α) (accepted : α → Bool) (policy : ReadRetryPolicy) :
    Nat → Action α
  | 0 => .raise (.of .runtimeError "read retry policy has no attempts")
  | remaining + 1 => do
    let attempt := policy.maxAttempts - (remaining + 1)
    let outcome ← operation.attempt
    match outcome with
    | .error error =>
      if error.isOneOf transportFailures then
        match retryableException error with
        | none => .raise error
        | some retryAfter =>
          if remaining = 0 then .raise error
          else do
            sleepFor policy attempt retryAfter
            attempts operation accepted policy remaining
      else .raise error
    | .ok result =>
      if accepted result ∨ remaining = 0 then return result
      else do
        sleepFor policy attempt none
        attempts operation accepted policy remaining

/-- Repeat a read until an expected eventually-consistent state becomes visible. -/
def retryReadUntilSync {α : Type} (operation : Action α) (accepted : α → Bool) (policy : ReadRetryPolicy) : Action α :=
  retryReadUntilSync.attempts operation accepted policy policy.maxAttempts

/-- The rule of the retry: every attempt answers or raises as the read does, and a pause leads to the next one. -/
theorem Triple.retryRead {α W : Type} {env : Env publisher Exc W} {P C : W → Prop} {Q : α → W → Prop} {R E : Exc → W → Prop}
    {operation : Action α} (accepted : α → Bool) (policy : ReadRetryPolicy) (hread : Triple env P operation Q R C)
    (hpause : ∀ attempt retryAfter, Triple env P (sleepFor policy attempt retryAfter) (fun _ => P) E C)
    (hnone : ∀ w, P w → E (.of .runtimeError "read retry policy has no attempts") w) (hraise : ∀ x w, R x w → E x w)
    (hretry : ∀ x w, R x w → P w) (hunaccepted : ∀ a w, Q a w → P w) (hC : ∀ w, P w → C w) :
    Triple env P (retryReadUntilSync operation accepted policy) Q E C := by
  unfold retryReadUntilSync
  induction policy.maxAttempts with
  | zero => exact Triple.raise hnone hC
  | succ remaining ih =>
    have hagain : ∀ attempt retryAfter, Triple env P ((sleepFor policy attempt retryAfter).bind fun _ =>
        retryReadUntilSync.attempts operation accepted policy remaining) Q E C :=
      fun attempt retryAfter => Triple.bind (hpause attempt retryAfter) fun _ => ih
    refine Triple.bind (Triple.attempt hread (fun a w h => hC w (hunaccepted a w h)) fun x w h => hC w (hretry x w h)) ?_
    rintro (error | result)
    · have hgives : Triple env (R error) (.raise error : Action α) Q E C :=
        Triple.raise (hraise error) fun w h => hC w (hretry error w h)
      simp only
      split
      · split
        · exact hgives
        · split
          · exact hgives
          · exact (hagain _ _).pre (hretry error)
      · exact hgives
    · simp only
      split
      · exact Triple.ret (fun _ h => h) fun w h => hC w (hunaccepted result w h)
      · exact (hagain _ _).pre (hunaccepted result)

/-! ## Footprints -/

variable {A : Op → Prop} {α : Type}

/-- The operations a pause performs. -/
def pauses : Op → Bool
  | .uniform _ | .sleep _ => true
  | _ => false

theorem ReadRetryPolicy.uses_delay (hA : ∀ op, pauses op = true → A op) (policy : ReadRetryPolicy) (attempt : Nat)
    (retryAfter : Option HeaderSeconds) : (policy.delay attempt retryAfter).Uses A := by
  have hj : (policy.jitter attempt).Uses A := Program.uses_perform.2 (hA _ rfl)
  unfold ReadRetryPolicy.delay
  split
  · split
    · trivial
    · exact hj
  · trivial
  · exact hj
  · exact hj

theorem uses_sleepFor (hA : ∀ op, pauses op = true → A op) (policy : ReadRetryPolicy) (attempt : Nat)
    (retryAfter : Option HeaderSeconds) : (sleepFor policy attempt retryAfter).Uses A :=
  Program.uses_bind (policy.uses_delay hA attempt retryAfter) fun _ => Program.uses_perform.2 (hA _ rfl)

theorem raises_sleepFor {φ : Exc → Prop} (policy : ReadRetryPolicy) (attempt : Nat) (retryAfter : Option HeaderSeconds) :
    (sleepFor policy attempt retryAfter).Raises φ := by
  refine Program.raises_bind ?_ fun _ => Program.raises_perform _
  unfold ReadRetryPolicy.delay
  split
  · split
    · trivial
    · exact Program.raises_perform _
  · trivial
  · exact Program.raises_perform _
  · exact Program.raises_perform _

theorem uses_retryReadUntilSync (hA : ∀ op, pauses op = true → A op) {operation : Action α}
    (hop : operation.Uses A) (accepted : α → Bool) (policy : ReadRetryPolicy) :
    (retryReadUntilSync operation accepted policy).Uses A := by
  unfold retryReadUntilSync
  induction policy.maxAttempts with
  | zero => trivial
  | succ remaining ih =>
    refine Program.uses_bind (Program.uses_attempt hop) fun outcome => ?_
    cases outcome with
    | error error =>
      simp only
      split
      · split
        · trivial
        · split
          · trivial
          · exact Program.uses_bind (uses_sleepFor hA _ _ _) fun _ => ih
      · trivial
    | ok result =>
      simp only
      split
      · trivial
      · exact Program.uses_bind (uses_sleepFor hA _ _ _) fun _ => ih

end OciAcmePublisher
