import OciAcmePublisher.Effects.Triple

/-!
# Programs that come to an end

A program that unrolls a loop diverges where the loop goes on past the rounds it was unrolled for. In an environment that bounds the
rounds no run gets there; where every operation gets an answer such a program has a run to its end.
-/

namespace Effects

variable {S : Signature} {X α β W : Type} {env : Env S X W}

theorem Exec.performed {op : S.Op} {a : S.Reply op} {w w' : W} (h : Exec env (Program.perform op) w (.returned a) w') :
    env w op (.ok a) w' := by
  rcases exec_perform_iff.1 h with ⟨h, -⟩ | ⟨r, he, ho | ho⟩
  · cases h
  · cases r <;> cases ho
    exact he
  · cases ho

theorem Exec.mono {env' : Env S X W} (henv : ∀ w op r w', env w op r w' → env' w op r w') {p : Program S X α} {w w' : W}
    {o : Outcome X α} (h : Exec env p w o w') : Exec env' p w o w' := by
  induction h with
  | ret a w => exact .ret a w
  | raise x w => exact .raise x w
  | crash p w => exact .crash p w
  | call he _ ih => exact .call (henv _ _ _ _ he) ih

/-- What holds of the runs among more answers holds of those among fewer. -/
theorem Triple.among {env' : Env S X W} (henv : ∀ w op r w', env w op r w' → env' w op r w') {P C : W → Prop}
    {Q : α → W → Prop} {E : X → W → Prop} {p : Program S X α} (h : Triple env' P p Q E C) : Triple env P p Q E C :=
  fun w hw o w' hx => h w hw o w' (hx.mono henv)

/-- The environment of the steps `step` where every operation takes effect. -/
def succeeding (step : W → (op : S.Op) → S.Reply op → W → Prop) : Env S X W :=
  fun w op answer w' => ∃ reply, answer = .ok reply ∧ step w op reply w'

theorem stepping_of_succeeding {step : W → (op : S.Op) → S.Reply op → W → Prop} {refused : X → Prop} {faults : S.Op → X → Prop}
    {w w' : W} {op : S.Op} {answer : Except X (S.Reply op)} (h : succeeding step w op answer w') :
    stepping step refused faults w op answer w' := by
  obtain ⟨reply, rfl, hs⟩ := h
  exact hs

namespace Program

theorem raises_ensure {φ : X → Prop} {p : Program S X α} {q : Program S X Unit} (hp : p.Raises φ) (hq : q.Raises φ) :
    (p.ensure q).Raises φ := by
  rw [ensure_eq]
  exact raises_attempt_bind hp (fun _ => raises_bind hq fun _ => trivial) fun _ hx => raises_bind hq fun _ => hx

/-- No run of the program from the world diverges. -/
def Ends (env : Env S X W) : Program S X α → W → Prop
  | .ret _, _ => True
  | .raise _, _ => True
  | .diverge, _ => False
  | .call op k, w => ∀ r w', env w op r w' → (k r).Ends env w'

theorem Halts.ends {p : Program S X α} (hp : p.Halts) (w : W) : p.Ends env w := by
  induction p generalizing w with
  | ret | raise => trivial
  | diverge => exact hp.elim
  | call op k ih => exact fun r w' _ => ih r (hp r) w'

theorem ends_bind {p : Program S X α} {f : α → Program S X β} {w : W} (hp : p.Ends env w)
    (hf : ∀ a w', Exec env p w (.returned a) w' → (f a).Ends env w') : (p.bind f).Ends env w := by
  induction p generalizing w with
  | ret a => exact hf a w (.ret a w)
  | raise => trivial
  | diverge => exact hp.elim
  | call op k ih => exact fun r w' hr => ih r (hp r w' hr) fun a w₂ hx => hf a w₂ (.call hr hx)

theorem ends_handle {p : Program S X α} {h : X → Program S X α} {w : W} (hp : p.Ends env w)
    (hh : ∀ x w', Exec env p w (.raised x) w' → (h x).Ends env w') : (p.handle h).Ends env w := by
  induction p generalizing w with
  | ret => trivial
  | raise x => exact hh x w (.raise x w)
  | diverge => exact hp.elim
  | call op k ih => exact fun r w' hr => ih r (hp r w' hr) fun x w₂ hx => hh x w₂ (.call hr hx)

theorem ends_attempt {p : Program S X α} {w : W} (hp : p.Ends env w) : p.attempt.Ends env w :=
  ends_handle (ends_bind hp fun _ _ _ => trivial) fun _ _ _ => trivial

theorem ends_ensure {p : Program S X α} {q : Program S X Unit} {w : W} (hp : p.Ends env w) (hq : ∀ w', q.Ends env w') :
    (p.ensure q).Ends env w := by
  rw [ensure_eq]
  refine ends_bind (ends_attempt hp) fun r w' _ => ?_
  cases r <;> exact ends_bind (hq w') fun _ _ _ => trivial

/-- Fewer answers keep a program from diverging where more do. -/
theorem Ends.mono {env' : Env S X W} (henv : ∀ w op r w', env' w op r w' → env w op r w') {p : Program S X α} {w : W}
    (hp : p.Ends env w) : p.Ends env' w := by
  induction p generalizing w with
  | ret | raise => trivial
  | diverge => exact hp.elim
  | call op k ih => exact fun r w' hr => ih r (hp r w' (henv _ _ _ _ hr))

/-- Where every operation gets an answer, a program that does not diverge has a run to its end. -/
theorem Ends.exists_finished (henv : ∀ w op, ∃ r w', env w op r w') {p : Program S X α} {w : W} (hp : p.Ends env w) :
    ∃ o w', Exec env p w o w' ∧ o ≠ .crashed := by
  induction p generalizing w with
  | ret a => exact ⟨_, _, .ret a w, nofun⟩
  | raise x => exact ⟨_, _, .raise x w, nofun⟩
  | diverge => exact hp.elim
  | call op k ih =>
    obtain ⟨r, w₁, hr⟩ := henv w op
    obtain ⟨o, w', hx, ho⟩ := ih r (hp r w₁ hr)
    exact ⟨o, w', .call hr hx, ho⟩

end Program

end Effects
