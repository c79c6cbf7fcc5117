import Mathlib.Algebra.Order.Ring.Rat
import Mathlib.Algebra.Order.Ring.Pow
import OciAcmePublisher.RetryLoops

/-!
# What a retried read comes to

Which call decides a read, as a fact about the outcomes alone, and the run of the loop: it makes the calls up to that one, with a
pause between any two, and ends as that call ends.
-/

namespace OciAcmePublisher.OciRetry

open Effects

variable {α : Type}

/-- The outcome asks for another attempt, and the `Retry-After` that goes with it: a transient error, or a value that is not
accepted. -/
def again (accepted : α → Bool) : Except Exc α → Option (Option HeaderSeconds)
  | .ok result => if accepted result then none else some none
  | .error error => if error.isOneOf transportFailures then retryableException error else none

/-- Of at most `n` calls, number `k` decides: the calls before it ask for another attempt, and it does not or is the last. -/
structure Decides (accepted : α → Bool) (outcomes : Nat → Except Exc α) (n k : Nat) : Prop where
  within : k < n
  before : ∀ i < k, (again accepted (outcomes i)).isSome = true
  settles : again accepted (outcomes k) = none ∨ k + 1 = n

/-- A read under the policy is bounded and swallows nothing: the call that decides is made and is the last, the read ends as that
call ends, and what lies between two calls is one pause of at least no and at most the maximum delay. -/
def Bounded (policy : ReadRetryPolicy) (accepted : α → Bool) (script : Script α) (run : Outcome Exc α × Progress) : Prop :=
  ∃ (k : Nat) (pauses : List Rat), Decides accepted script.outcomes policy.maxAttempts k ∧
    run.1 = Outcome.ofExcept (script.outcomes k) ∧ run.2.calls = k + 1 ∧ pauses.length = k ∧
    (∀ seconds ∈ pauses, 0 ≤ seconds ∧ seconds ≤ policy.maximumDelaySeconds) ∧
    run.2.trace = .called :: pauses.flatMap fun seconds => [.slept seconds, .called]

variable {accepted : α → Bool} {policy : ReadRetryPolicy} {script : Script α}

/-! ## One attempt -/

/-- One attempt of the loop: the outcome is the result, or the loop goes on behind a pause. -/
theorem attempts_succ (remaining : Nat) :
    retryReadUntilSync.attempts accepted policy (remaining + 1) = (reads α .operation).attempt.bind fun outcome =>
      match again accepted outcome with
      | none => ofExcept outcome
      | some retryAfter =>
        if remaining = 0 then ofExcept outcome
        else (sleepFor policy (policy.maxAttempts - (remaining + 1)) retryAfter).bind fun _ =>
          retryReadUntilSync.attempts accepted policy remaining := by
  refine congrArg ((reads α .operation).attempt.bind) (funext fun outcome => ?_)
  cases outcome with
  | error error =>
    by_cases hcaught : error.isOneOf transportFailures = true
    · cases hretry : retryableException error with
      | none =>
        simp only [again, hcaught, hretry, if_true]
        rfl
      | some retryAfter =>
        simp only [again, hcaught, hretry, if_true]
        rfl
    · simp only [again, if_neg hcaught]
      rfl
  | ok result =>
    by_cases haccepted : accepted result = true
    · simp only [again, haccepted, true_or, if_true]
      rfl
    · simp only [again, haccepted, Bool.false_eq_true, false_or]
      rfl

/-- The first call of a loop that has attempts left, and what comes of it. -/
theorem eval_attempts_succ (remaining : Nat) (w : Progress) :
    (retryReadUntilSync.attempts accepted policy (remaining + 1)).eval script.answers w =
      (match again accepted (script.outcomes w.calls) with
        | none => ofExcept (script.outcomes w.calls)
        | some retryAfter =>
          if remaining = 0 then ofExcept (script.outcomes w.calls)
          else (sleepFor policy (policy.maxAttempts - (remaining + 1)) retryAfter).bind fun _ =>
            retryReadUntilSync.attempts accepted policy remaining).eval script.answers
        { w with calls := w.calls + 1, trace := w.trace ++ [ReadEvent.called] } := by
  rw [attempts_succ]
  cases houtcome : script.outcomes w.calls with
  | ok result =>
    refine Program.eval_bind_returned (Program.eval_attempt_returned (Program.eval_perform ?_))
    rw [← houtcome]
    rfl
  | error error =>
    refine Program.eval_bind_returned (Program.eval_attempt_raised (Program.eval_perform_raised ?_))
    rw [← houtcome]
    rfl

theorem eval_ofExcept {S : Signature} {W : Type} {h : Answers S Exc W} (outcome : Except Exc α) (w : W) :
    (ofExcept outcome : Program S Exc α).eval h w = (Outcome.ofExcept outcome, w) := by
  cases outcome <;> rfl

/-! ## One pause -/

/-- The delays of a policy whose numbers are not negative lie between zero and its maximum. -/
theorem eval_delay (script : Script α) (hbase : 0 ≤ policy.baseDelaySeconds) (hmaximum : 0 ≤ policy.maximumDelaySeconds) (attempt : Nat)
    (retryAfter : Option HeaderSeconds) (w : Progress) :
    ∃ seconds drawn, 0 ≤ seconds ∧ seconds ≤ policy.maximumDelaySeconds ∧
      (delay policy attempt retryAfter : Reading α Rat).eval script.answers w = (.returned seconds, { w with drawn := drawn }) := by
  have hjitter : ∃ seconds drawn, 0 ≤ seconds ∧ seconds ≤ policy.maximumDelaySeconds ∧
      (jitter policy attempt : Reading α Rat).eval script.answers w = (.returned seconds, { w with drawn := drawn }) := by
    have hceiling : 0 ≤ min policy.maximumDelaySeconds (policy.baseDelaySeconds * 2 ^ attempt) :=
      le_min hmaximum (mul_nonneg hbase (pow_nonneg zero_le_two attempt))
    have hdraw := (script.draws w.drawn).2
    refine ⟨_, w.drawn + 1, mul_nonneg hceiling hdraw.1, ?_, Program.eval_perform rfl⟩
    exact (mul_le_of_le_one_right hceiling hdraw.2.le).trans (min_le_left _ _)
  rcases retryAfter with _ | seconds | _ | _
  · exact hjitter
  · unfold delay
    by_cases hseconds : 0 ≤ seconds
    · simp only [if_pos hseconds]
      exact ⟨_, w.drawn, le_min hseconds hmaximum, min_le_right _ _, rfl⟩
    · simp only [if_neg hseconds]
      exact hjitter
  · exact ⟨_, w.drawn, hmaximum, le_rfl, rfl⟩
  · exact hjitter

/-- A pause sleeps once, and returns. -/
theorem eval_sleepFor (script : Script α) (hbase : 0 ≤ policy.baseDelaySeconds) (hmaximum : 0 ≤ policy.maximumDelaySeconds) (attempt : Nat)
    (retryAfter : Option HeaderSeconds) (w : Progress) :
    ∃ seconds drawn, 0 ≤ seconds ∧ seconds ≤ policy.maximumDelaySeconds ∧
      (sleepFor policy attempt retryAfter : Reading α Unit).eval script.answers w =
        (.returned (), { w with drawn := drawn, trace := w.trace ++ [.slept seconds] }) := by
  obtain ⟨seconds, drawn, hzero, hle, hdelay⟩ := eval_delay script hbase hmaximum attempt retryAfter w
  refine ⟨seconds, drawn, hzero, hle, (Program.eval_bind_returned hdelay).trans (Program.eval_perform ?_)⟩
  simp only [Script.answers, if_neg (not_lt.2 hzero)]

/-! ## The run -/

/-- The attempts that are left make their calls up to the one that decides. By induction on their number: an outcome that asks for
another attempt is followed by a pause and by the run of the attempts that are left then. -/
theorem eval_attempts (accepted : α → Bool) (script : Script α) (remaining : Nat)
    (hdelays : 0 < remaining → 0 ≤ policy.baseDelaySeconds ∧ 0 ≤ policy.maximumDelaySeconds) (w : Progress) :
    ∃ (k : Nat) (pauses : List Rat) (drawn : Nat),
      Decides accepted (fun i => script.outcomes (w.calls + i)) (remaining + 1) k ∧ pauses.length = k ∧
      (∀ seconds ∈ pauses, 0 ≤ seconds ∧ seconds ≤ policy.maximumDelaySeconds) ∧
      (retryReadUntilSync.attempts accepted policy (remaining + 1)).eval script.answers w =
        (Outcome.ofExcept (script.outcomes (w.calls + k)),
          ⟨w.calls + k + 1, drawn, w.trace ++ .called :: pauses.flatMap fun seconds => [.slept seconds, .called]⟩) := by
  induction remaining generalizing w with
  | zero =>
    refine ⟨0, [], w.drawn, ⟨Nat.zero_lt_one, nofun, Or.inr rfl⟩, rfl, nofun, ?_⟩
    rw [eval_attempts_succ]
    cases again accepted (script.outcomes w.calls) with
    | none => exact eval_ofExcept _ _
    | some retryAfter => exact eval_ofExcept _ _
  | succ remaining ih =>
    rw [eval_attempts_succ]
    cases hagain : again accepted (script.outcomes w.calls) with
    | none =>
      refine ⟨0, [], w.drawn, ⟨Nat.succ_pos _, nofun, Or.inl hagain⟩, rfl, nofun, ?_⟩
      exact eval_ofExcept _ _
    | some retryAfter =>
      obtain ⟨hbase, hmaximum⟩ := hdelays (Nat.succ_pos remaining)
      obtain ⟨seconds, drawn, hzero, hle, hpause⟩ := eval_sleepFor script hbase hmaximum
        (policy.maxAttempts - (remaining + 1 + 1)) retryAfter
        { w with calls := w.calls + 1, trace := w.trace ++ [.called] }
      obtain ⟨k, pauses, drawn', hdecides, hlength, hpauses, hrest⟩ := ih (fun _ => ⟨hbase, hmaximum⟩)
        ⟨w.calls + 1, drawn, w.trace ++ [.called] ++ [.slept seconds]⟩
      have hshift : ∀ i, w.calls + 1 + i = w.calls + (i + 1) := fun i => by omega
      simp only [hshift] at hdecides hrest
      refine ⟨k + 1, seconds :: pauses, drawn', ⟨Nat.succ_lt_succ hdecides.within, ?_, ?_⟩, congrArg (· + 1) hlength, ?_, ?_⟩
      · intro i hi
        cases i with
        | zero => exact Option.isSome_iff_exists.2 ⟨retryAfter, hagain⟩
        | succ i => exact hdecides.before i (Nat.lt_of_succ_lt_succ hi)
      · exact hdecides.settles.imp_right (congrArg (· + 1))
      · intro s hs
        rcases List.mem_cons.1 hs with rfl | hs
        · exact ⟨hzero, hle⟩
        · exact hpauses s hs
      · simp only [if_neg (Nat.succ_ne_zero remaining)]
        refine (Program.eval_bind_returned hpause).trans (hrest.trans ?_)
        simp [List.append_assoc]

/-- `retry_read_sync` is `retry_read_until_sync` of a read of which every value is accepted. -/
theorem retryReadSync_eq (policy : ReadRetryPolicy) :
    (retryReadSync policy : Reading α α) = retryReadUntilSync (fun _ => true) policy := by
  unfold retryReadSync retryReadUntilSync
  induction policy.maxAttempts with
  | zero => rfl
  | succ remaining ih =>
    refine congrArg ((reads α .operation).attempt.bind) (funext fun outcome => ?_)
    cases outcome with
    | ok result => simp
    | error error => simp only [ih]

/-- A read under a policy of at least one attempt, whose delays are not negative where it may pause, is bounded and swallows
nothing, whatever the read does and whatever `Retry-After` says; and `retry_read_sync` is the case where every value is accepted. -/
theorem read_retries_bounded (policy : ReadRetryPolicy) (hpositive : 1 ≤ policy.maxAttempts)
    (hdelays : 1 < policy.maxAttempts → 0 ≤ policy.baseDelaySeconds ∧ 0 ≤ policy.maximumDelaySeconds) (accepted : α → Bool)
    (script : Script α) :
    Bounded policy accepted script (script.run (retryReadUntilSync accepted policy)) ∧
      (retryReadSync policy : Reading α α) = retryReadUntilSync (fun _ => true) policy := by
  refine ⟨?_, retryReadSync_eq policy⟩
  obtain ⟨remaining, hattempts⟩ := Nat.exists_eq_add_of_le' hpositive
  obtain ⟨k, pauses, drawn, hdecides, hlength, hpauses, hrun⟩ := eval_attempts accepted script remaining
    (fun h => hdelays (by omega)) {}
  simp only [Nat.zero_add, ← hattempts] at hdecides hrun
  have hresult : script.run (retryReadUntilSync accepted policy) = _ := hrun
  refine ⟨k, pauses, hdecides, ?_, ?_, hlength, hpauses, ?_⟩
  · rw [hresult]
  · rw [hresult]
  · rw [hresult]
    rfl

/-- A read that is told once to come back in five seconds. -/
def throttledOnce : Script Nat where
  outcomes
    | 0 => .error (.service 429 "TooManyRequests" (some (.finite 5)))
    | _ + 1 => .ok 7
  draws _ := ⟨0, le_rfl, zero_lt_one⟩

theorem read_retries_bounded_sample :
    Bounded ⟨2, 1 / 4, 10⟩ (fun _ => true) throttledOnce
        (throttledOnce.run (retryReadUntilSync (fun _ => true) ⟨2, 1 / 4, 10⟩)) ∧
      (retryReadSync ⟨2, 1 / 4, 10⟩ : Reading Nat Nat) = retryReadUntilSync (fun _ => true) ⟨2, 1 / 4, 10⟩ :=
  read_retries_bounded ⟨2, 1 / 4, 10⟩ (by decide) (fun _ => ⟨by decide +kernel, by decide +kernel⟩) (fun _ => true) throttledOnce

/-- With a negative maximum the pause itself raises: the read ends with an error that no call gave. -/
theorem read_retries_bounded_false :
    ¬Bounded ⟨2, 1 / 4, -1⟩ (fun _ => true) throttledOnce
      (throttledOnce.run (retryReadUntilSync (fun _ => true) ⟨2, 1 / 4, -1⟩)) := by
  rintro ⟨k, -, -, hends, -⟩
  have hraised : (throttledOnce.run (retryReadUntilSync (fun _ => true) ⟨2, 1 / 4, -1⟩)).1 =
      .raised (.of .valueError "sleep length must be non-negative") := by decide +kernel
  rw [hraised] at hends
  cases k with
  | zero => exact absurd hends (by decide)
  | succ k => cases hends

end OciAcmePublisher.OciRetry
