import OciAcmePublisher.Effects.Eval
import OciAcmePublisher.Effects.Refinement
import OciAcmePublisher.OciCertificates

/-!
# The loops of the read retries

`retry_read_sync` and `retry_read_until_sync` over nothing but the read, the draw of the jitter and `time.sleep`, and how they run
against a script of what the read does. The loops of the publisher and of the SDK adapter are these, with their own reads and pauses.
-/

namespace OciAcmePublisher.OciRetry

open Effects

/-- What a retried read does on the outside. -/
inductive ReadOp where
  | operation
  | uniform (ceiling : Rat)
  | sleep (seconds : Rat)
  deriving DecidableEq, Repr

/-- The signature of a retried read of values in `α`. -/
@[reducible] def reading (α : Type) : Signature where
  Op := ReadOp
  Reply
    | .operation => α
    | .uniform _ => Rat
    | .sleep _ => Unit

/-- A program over the read. -/
abbrev Reading (α β : Type) := Program (reading α) Exc β

/-- Perform one operation of the read. -/
abbrev reads (α : Type) (op : ReadOp) : Reading α ((reading α).Reply op) := Program.perform (S := reading α) op

variable {α : Type}

/-- Full jitter under the exponential cap. -/
def jitter (policy : ReadRetryPolicy) (attempt : Nat) : Reading α Rat :=
  reads α (.uniform (min policy.maximumDelaySeconds (policy.baseDelaySeconds * 2 ^ attempt)))

/-- `ReadRetryPolicy.delay`. -/
def delay (policy : ReadRetryPolicy) (attempt : Nat) : Option HeaderSeconds → Reading α Rat
  | some (.finite seconds) =>
    if 0 ≤ seconds then .ret (min seconds policy.maximumDelaySeconds) else jitter policy attempt
  | some .infinite => .ret policy.maximumDelaySeconds
  | some .nan | none => jitter policy attempt

/-- `time.sleep(policy.delay(..))`. -/
def sleepFor (policy : ReadRetryPolicy) (attempt : Nat) (retryAfter : Option HeaderSeconds) : Reading α Unit := do
  let seconds ← delay policy attempt retryAfter
  reads α (.sleep seconds)

/-- The attempts that are left of `retry_read_sync`. -/
def retryReadSync.attempts (policy : ReadRetryPolicy) : Nat → Reading α α
  | 0 => .raise (.of .runtimeError "read retry policy has no attempts")
  | remaining + 1 => do
    let attempt := policy.maxAttempts - (remaining + 1)
    let outcome ← (reads α .operation).attempt
    match outcome with
    | .ok result => return result
    | .error error =>
      if error.isOneOf transportFailures then
        match retryableException error with
        | none => .raise error
        | some retryAfter =>
          if remaining = 0 then .raise error
          else do
            sleepFor policy attempt retryAfter
            attempts policy remaining
      else .raise error

/-- Bounded synchronous retry for OCI read adapters running in an executor. -/
def retryReadSync (policy : ReadRetryPolicy) : Reading α α := retryReadSync.attempts policy policy.maxAttempts

/-- The attempts that are left of `retry_read_until_sync`. -/
def retryReadUntilSync.attempts (accepted : α → Bool) (policy : ReadRetryPolicy) : Nat → Reading α α
  | 0 => .raise (.of .runtimeError "read retry policy has no attempts")
  | remaining + 1 => do
    let attempt := policy.maxAttempts - (remaining + 1)
    let outcome ← (reads α .operation).attempt
    match outcome with
    | .error error =>
      if error.isOneOf transportFailures then
        match retryableException error with
        | none => .raise error
        | some retryAfter =>
          if remaining = 0 then .raise error
          else do
            sleepFor policy attempt retryAfter
            attempts accepted policy remaining
      else .raise error
    | .ok result =>
      if accepted result ∨ remaining = 0 then return result
      else do
        sleepFor policy attempt none
        attempts accepted policy remaining

/-- Repeat a read until an expected eventually-consistent state becomes visible. -/
def retryReadUntilSync (accepted : α → Bool) (policy : ReadRetryPolicy) : Reading α α :=
  retryReadUntilSync.attempts accepted policy policy.maxAttempts

/-! ## Runs against a script -/

/-- What `random.random` draws. -/
abbrev Draw := {u : Rat // 0 ≤ u ∧ u < 1}

/-- What every call of the operation returns or raises, and every draw. -/
structure Script (α : Type) where
  outcomes : Nat → Except Exc α
  draws : Nat → Draw

/-- What a retried read has done: a call of the operation, or a pause. -/
inductive ReadEvent where
  | called
  | slept (seconds : Rat)
  deriving DecidableEq, Repr

/-- The calls and the draws a read has made, and all it has done, in order. -/
structure Progress where
  calls : Nat := 0
  drawn : Nat := 0
  trace : List ReadEvent := []
  deriving DecidableEq, Repr

/-- The answers of the script. `uniform(0, c)` is `c * random()`; `time.sleep` refuses a negative number of seconds. -/
def Script.answers (script : Script α) : Answers (reading α) Exc Progress := fun w op =>
  match op with
  | .operation => (script.outcomes w.calls, { w with calls := w.calls + 1, trace := w.trace ++ [.called] })
  | .uniform ceiling => (.ok (ceiling * script.draws w.drawn), { w with drawn := w.drawn + 1 })
  | .sleep seconds =>
    if seconds < 0 then (.error (.of .valueError "sleep length must be non-negative"), w)
    else (.ok (), { w with trace := w.trace ++ [.slept seconds] })

/-- A run of the loop against the script, from its beginning. -/
def Script.run (script : Script α) (loop : Reading α α) : Outcome Exc α × Progress := loop.eval script.answers {}

/-! ## The loops of the publisher and of the adapter -/

/-- The operations of the read as the publisher performs them. -/
def onPublisher (operation : Action α) : (op : ReadOp) → Action ((reading α).Reply op)
  | .operation => operation
  | .uniform ceiling => perform (.uniform ceiling)
  | .sleep seconds => perform (.sleep seconds)

/-- The operations of the adapter, for a page request that is the read and pauses under the policy. -/
def ofClient (policy : ReadRetryPolicy) : (op : ClientOp) → Reading SdkResponse op.Reply
  | .listCertificateVersions .. => reads SdkResponse .operation
  | .pause attempt retryAfter => sleepFor policy attempt retryAfter

theorem subst_sleepFor (operation : Action α) (policy : ReadRetryPolicy) (attempt : Nat) (retryAfter : Option HeaderSeconds) :
    (sleepFor policy attempt retryAfter).subst (onPublisher operation) =
      OciAcmePublisher.sleepFor policy attempt retryAfter := by
  have hjitter : (jitter policy attempt : Reading α Rat).subst (onPublisher operation) = policy.jitter attempt :=
    Program.subst_perform _
  have hdelay : (delay policy attempt retryAfter : Reading α Rat).subst (onPublisher operation) =
      policy.delay attempt retryAfter := by
    rcases retryAfter with _ | seconds | _ | _
    · exact hjitter
    · unfold delay ReadRetryPolicy.delay
      by_cases hseconds : 0 ≤ seconds
      · simp only [if_pos hseconds]
        rfl
      · simp only [if_neg hseconds]
        exact hjitter
    · rfl
    · exact hjitter
  refine (Program.subst_bind _ _).trans ?_
  rw [hdelay]
  exact congrArg _ (funext fun seconds => Program.subst_perform _)

/-- The publisher's `retry_read_until_sync` is the loop, with the publisher's operations. -/
theorem subst_retryReadUntilSync (operation : Action α) (accepted : α → Bool) (policy : ReadRetryPolicy) :
    (retryReadUntilSync accepted policy).subst (onPublisher operation) =
      OciAcmePublisher.retryReadUntilSync operation accepted policy := by
  unfold retryReadUntilSync OciAcmePublisher.retryReadUntilSync
  induction policy.maxAttempts with
  | zero => rfl
  | succ remaining ih =>
    have hagain : ∀ attempt retryAfter, ((sleepFor policy attempt retryAfter).bind fun _ =>
        retryReadUntilSync.attempts accepted policy remaining).subst (onPublisher operation) =
          (OciAcmePublisher.sleepFor policy attempt retryAfter).bind fun _ =>
            OciAcmePublisher.retryReadUntilSync.attempts operation accepted policy remaining := by
      intro attempt retryAfter
      rw [Program.subst_bind, subst_sleepFor, ih]
    refine (Program.subst_bind _ _).trans ?_
    rw [Program.subst_attempt, Program.subst_perform]
    refine congrArg _ (funext fun outcome => ?_)
    cases outcome with
    | error error =>
      by_cases hcaught : error.isOneOf transportFailures = true
      · cases hretry : retryableException error with
        | none =>
          simp only [hcaught, hretry, if_true]
          rfl
        | some retryAfter =>
          simp only [hcaught, hretry, if_true]
          by_cases hlast : remaining = 0
          · simp only [if_pos hlast]
            rfl
          · simp only [if_neg hlast]
            exact hagain _ _
      · simp only [if_neg hcaught]
        rfl
    | ok result =>
      simp only
      by_cases hends : accepted result = true ∨ remaining = 0
      · simp only [if_pos hends]
        rfl
      · simp only [if_neg hends]
        exact hagain _ _

/-- The adapter's `retry_read_sync` of a page request is the loop, where its pauses are taken under the policy. -/
theorem subst_retryReadSync (policy : ReadRetryPolicy) (certificateId opcRequestId : String) (page : Option String) :
    (OciAcmePublisher.retryReadSync (client (.listCertificateVersions certificateId opcRequestId page)) policy).subst
        (ofClient policy) = retryReadSync policy := by
  unfold retryReadSync OciAcmePublisher.retryReadSync
  induction policy.maxAttempts with
  | zero => rfl
  | succ remaining ih =>
    refine (Program.subst_bind _ _).trans ?_
    rw [Program.subst_attempt, Program.subst_perform]
    refine congrArg _ (funext fun outcome => ?_)
    cases outcome with
    | error error =>
      by_cases hcaught : error.isOneOf transportFailures = true
      · cases hretry : retryableException error with
        | none =>
          simp only [hcaught, hretry, if_true]
          rfl
        | some retryAfter =>
          simp only [hcaught, hretry, if_true]
          by_cases hlast : remaining = 0
          · simp only [if_pos hlast]
            rfl
          · simp only [if_neg hlast]
            refine (Program.subst_bind _ _).trans ?_
            rw [Program.subst_perform]
            exact congrArg _ (funext fun _ => ih)
      · simp only [if_neg hcaught]
        rfl
    | ok result => rfl

end OciAcmePublisher.OciRetry
