import OciAcmePublisher.Effects.Triple

/-!
# Evaluation

Runs where every operation has one answer: how the evaluation of a composed program follows from those of its parts, with and
without a record of what was performed.
-/

namespace Effects

variable {S : Signature} {X W α β : Type}

/-- One answer for every operation, and the world it leaves. -/
abbrev Answers (S : Signature) (X W : Type) := W → (op : S.Op) → Except X (S.Reply op) × W

namespace Program

variable {h : Answers S X W} {p : Program S X α} {w w' : W} {a : α} {x : X}

theorem eval_bind_returned {f : α → Program S X β} (hp : p.eval h w = (.returned a, w')) :
    (p.bind f).eval h w = (f a).eval h w' := by
  induction p generalizing w with
  | ret b =>
    cases hp
    rfl
  | raise x => cases hp
  | diverge => cases hp
  | call op k ih => exact ih _ hp

theorem eval_bind_raised {f : α → Program S X β} (hp : p.eval h w = (.raised x, w')) :
    (p.bind f).eval h w = (.raised x, w') := by
  induction p generalizing w with
  | ret b => cases hp
  | raise y =>
    cases hp
    rfl
  | diverge => cases hp
  | call op k ih => exact ih _ hp

theorem eval_attempt_returned (hp : p.eval h w = (.returned a, w')) : p.attempt.eval h w = (.returned (.ok a), w') := by
  induction p generalizing w with
  | ret b =>
    cases hp
    rfl
  | raise x => cases hp
  | diverge => cases hp
  | call op k ih => exact ih _ hp

theorem eval_attempt_raised (hp : p.eval h w = (.raised x, w')) : p.attempt.eval h w = (.returned (.error x), w') := by
  induction p generalizing w with
  | ret b => cases hp
  | raise y =>
    cases hp
    rfl
  | diverge => cases hp
  | call op k ih => exact ih _ hp

theorem eval_perform {op : S.Op} {r : S.Reply op} (hop : h w op = (.ok r, w')) :
    (perform op : Program S X _).eval h w = (.returned r, w') := by
  show (Program.eval h _ (h w op).2) = _
  rw [hop]
  rfl

theorem eval_perform_raised {op : S.Op} (hop : h w op = (.error x, w')) :
    (perform op : Program S X _).eval h w = (.raised x, w') := by
  show (Program.eval h _ (h w op).2) = _
  rw [hop]
  rfl

/-- An operation that is answered goes on with the answer. -/
theorem eval_perform_bind {op : S.Op} {f : S.Reply op → Program S X β} {r : S.Reply op} (hop : h w op = (.ok r, w')) :
    ((perform op).bind f).eval h w = (f r).eval h w' :=
  eval_bind_returned (eval_perform hop)

end Program

/-- The same answers, with a record of them. -/
def Answers.record (h : Answers S X W) : Answers S X (W × List (Event S X)) :=
  fun w op => ((h w.1 op).1, ((h w.1 op).2, w.2 ++ [⟨op, (h w.1 op).1⟩]))

theorem Answers.record_eq {h : Answers S X W} {op : S.Op} {r : S.Reply op} {w w' : W} (hop : h w op = (.ok r, w'))
    (t : List (Event S X)) : h.record (w, t) op = (.ok r, (w', t ++ [⟨op, .ok r⟩])) := by
  unfold Answers.record
  rw [hop]

/-- The record changes neither the outcome nor the world, and it grows by operations of the footprint. -/
theorem Program.eval_record (h : Answers S X W) (p : Program S X α) (w : W) (t : List (Event S X)) :
    ∃ s, p.eval h.record (w, t) = ((p.eval h w).1, ((p.eval h w).2, t ++ s)) ∧
      ∀ A : S.Op → Prop, p.Uses A → ∀ e ∈ s, A e.op := by
  induction p generalizing w t with
  | ret a => exact ⟨[], by simp [Program.eval], fun _ _ _ he => by cases he⟩
  | raise x => exact ⟨[], by simp [Program.eval], fun _ _ _ he => by cases he⟩
  | diverge => exact ⟨[], by simp [Program.eval], fun _ _ _ he => by cases he⟩
  | call op k ih =>
    obtain ⟨s, heval, huses⟩ := ih (h w op).1 (h w op).2 (t ++ [⟨op, (h w op).1⟩])
    refine ⟨⟨op, (h w op).1⟩ :: s, ?_, fun A hA e he => ?_⟩
    · rw [List.append_assoc] at heval
      exact heval
    · rcases List.mem_cons.1 he with rfl | he
      · exact hA.1
      · exact huses A (hA.2 _) e he

/-- A part that returns leaves a longer record. -/
theorem Program.eval_record_returned {h : Answers S X W} {p : Program S X α} {w w' : W} {a : α}
    (hp : p.eval h w = (.returned a, w')) (t : List (Event S X)) :
    ∃ s, p.eval h.record (w, t) = (.returned a, (w', t ++ s)) := by
  obtain ⟨s, heval, -⟩ := p.eval_record h w t
  rw [hp] at heval
  exact ⟨s, heval⟩

end Effects
