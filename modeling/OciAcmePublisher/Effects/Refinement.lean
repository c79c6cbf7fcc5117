import OciAcmePublisher.Effects.Triple

/-!
# Operations implemented by programs

A program over one signature becomes a program over another when each of its operations is given a program. What the implemented
program does is what the abstract one does where an operation answers as a finished run of its implementation ends.
-/

namespace Effects

variable {S B : Signature} {X α W : Type} {env : Env S X W}

/-- Every operation of `p` is replaced by its implementation. -/
def Program.subst (σ : (op : B.Op) → Program S X (B.Reply op)) : Program B X α → Program S X α
  | .ret a => .ret a
  | .raise x => .raise x
  | .diverge => .diverge
  | .call op k => (σ op).attempt.bind fun r => (k r).subst σ

theorem Program.bind_assoc {β γ : Type} (p : Program S X α) (f : α → Program S X β) (g : β → Program S X γ) :
    (p.bind f).bind g = p.bind fun a => (f a).bind g := by
  induction p with
  | ret | raise | diverge => rfl
  | call op k ih =>
    simp only [bind]
    congr 1
    funext r
    exact ih r

theorem Program.bind_ret (p : Program S X α) : (p.bind fun a => .ret a) = p := by
  induction p with
  | ret | raise | diverge => rfl
  | call op k ih =>
    simp only [bind]
    congr 1
    funext r
    exact ih r

/-- An attempt whose exceptions are raised again is the program itself. -/
theorem Program.attempt_bind_raise {β : Type} {g : Except X α → Program S X β} {f : α → Program S X β}
    (p : Program S X α) (hok : ∀ a, g (.ok a) = f a) (herr : ∀ x, g (.error x) = .raise x) :
    p.attempt.bind g = p.bind f := by
  induction p with
  | ret a => exact hok a
  | raise x => exact herr x
  | diverge => rfl
  | call op k ih =>
    simp only [attempt, bind, handle]
    congr 1
    funext r
    exact ih r

/-- A handler around an attempt is one around what follows it. -/
theorem Program.attempt_bind_handle {β : Type} (p : Program S X α) (f : Except X α → Program S X β)
    (h : X → Program S X β) : (p.attempt.bind f).handle h = p.attempt.bind fun r => (f r).handle h := by
  induction p with
  | ret | raise | diverge => rfl
  | call op k ih =>
    simp only [attempt, bind, handle]
    congr 1
    funext r
    exact ih r

section Subst

variable {β : Type} {σ : (op : B.Op) → Program S X (B.Reply op)}

theorem Program.subst_bind (p : Program B X α) (f : α → Program B X β) :
    (p.bind f).subst σ = (p.subst σ).bind fun a => (f a).subst σ := by
  induction p with
  | ret | raise | diverge => rfl
  | call op k ih =>
    simp only [bind, subst, bind_assoc]
    congr 1
    funext r
    exact ih r

theorem Program.subst_handle (p : Program B X α) (h : X → Program B X α) :
    (p.handle h).subst σ = (p.subst σ).handle fun x => (h x).subst σ := by
  induction p with
  | ret | raise | diverge => rfl
  | call op k ih =>
    simp only [handle, subst, attempt_bind_handle]
    congr 1
    funext r
    exact ih r

theorem Program.subst_perform (op : B.Op) : (perform op : Program B X _).subst σ = σ op :=
  (attempt_bind_raise (f := fun a => .ret a) (σ op) (fun _ => rfl) fun _ => rfl).trans (bind_ret _)

theorem Program.subst_attempt (p : Program B X α) : p.attempt.subst σ = (p.subst σ).attempt := by
  unfold attempt
  rw [subst_handle, subst_bind]
  rfl

theorem Program.subst_ensure (p : Program B X α) (q : Program B X Unit) :
    (p.ensure q).subst σ = (p.subst σ).ensure (q.subst σ) := by
  rw [ensure_eq, ensure_eq, subst_bind, subst_attempt]
  congr 1
  funext r
  cases r with
  | ok a => exact subst_bind q _
  | error x => exact subst_bind q _

end Subst

/-- The environment in which an operation does what its implementation does. -/
def implementing (env : Env S X W) (σ : (op : B.Op) → Program S X (B.Reply op)) : Env B X W :=
  fun w op r w' => Exec env (σ op) w (Outcome.ofExcept r) w'

/-- A finished `attempt` is a finished run of the program. -/
theorem exec_attempt {p : Program S X α} {w w' : W} {r : Except X α} (h : Exec env p.attempt w (.returned r) w') :
    Exec env p w (Outcome.ofExcept r) w' := by
  rcases exec_handle_iff.1 h with ⟨x, w₁, hp, hx⟩ | ⟨a, ha, hp⟩ | ⟨hc, -⟩
  · obtain ⟨rfl, hr | hr⟩ := exec_ret_iff.1 hx
    · cases hr
      rcases exec_bind_iff.1 hp with ⟨a, w₂, -, hret⟩ | ⟨y, hy, hp'⟩ | ⟨hc, -⟩
      · obtain ⟨-, h | h⟩ := exec_ret_iff.1 hret <;> cases h
      · cases hy
        exact hp'
      · cases hc
    · cases hr
  · cases ha
    rcases exec_bind_iff.1 hp with ⟨a, w₂, hp', hret⟩ | ⟨y, hy, -⟩ | ⟨hc, -⟩
    · obtain ⟨rfl, hr | hr⟩ := exec_ret_iff.1 hret
      · cases hr
        exact hp'
      · cases hr
    · cases hy
    · cases hc
  · cases hc

/-- An `attempt` raises nothing. -/
theorem not_exec_attempt_raised {p : Program S X α} {w w' : W} {x : X} : ¬Exec env p.attempt w (.raised x) w' := by
  intro h
  rcases exec_handle_iff.1 h with ⟨y, w₁, -, hy⟩ | ⟨a, ha, -⟩ | ⟨hc, -⟩
  · obtain ⟨-, h | h⟩ := exec_ret_iff.1 hy <;> cases h
  · cases ha
  · cases hc

/-- A finished sequence that starts with one operation and its answer. -/
theorem exec_attempt_bind {op : S.Op} {f : Except X (S.Reply op) → Program S X α} {w w' : W} {o : Outcome X α}
    (h : Exec env ((Program.perform op).attempt.bind f) w o w') (ho : o ≠ .crashed) :
    ∃ r w₁, env w op r w₁ ∧ Exec env (f r) w₁ o w' := by
  rcases exec_bind_iff.1 h with ⟨r, w₁, hp, hf⟩ | ⟨x, -, hp⟩ | ⟨hc, -⟩
  · rcases exec_perform_iff.1 (exec_attempt hp) with ⟨hc, -⟩ | ⟨r', he, hr | hr⟩
    · cases r <;> cases hc
    · cases r <;> cases r' <;> cases hr <;> exact ⟨_, w₁, he, hf⟩
    · cases r <;> cases hr
  · exact absurd hp not_exec_attempt_raised
  · exact absurd hc ho

/-- A finished sequence that starts with one operation: it answers and the run goes on, or it raises. -/
theorem exec_perform_bind {op : S.Op} {f : S.Reply op → Program S X α} {w w' : W} {o : Outcome X α}
    (h : Exec env ((Program.perform op).bind f) w o w') (ho : o ≠ .crashed) :
    (∃ a w₁, env w op (.ok a) w₁ ∧ Exec env (f a) w₁ o w') ∨ ∃ x, env w op (.error x) w' ∧ o = .raised x := by
  rcases exec_bind_iff.1 h with ⟨a, w₁, hp, hf⟩ | ⟨x, rfl, hp⟩ | ⟨hc, -⟩
  · rcases exec_perform_iff.1 hp with ⟨hc, -⟩ | ⟨r, he, hr | hr⟩
    · cases hc
    · cases r with
      | ok b =>
        cases hr
        exact Or.inl ⟨_, w₁, he, hf⟩
      | error y => cases hr
    · cases hr
  · rcases exec_perform_iff.1 hp with ⟨hc, -⟩ | ⟨r, he, hr | hr⟩
    · cases hc
    · cases r with
      | ok b => cases hr
      | error y =>
        cases hr
        exact Or.inr ⟨_, he, rfl⟩
    · cases hr
  · exact absurd hc ho

/-- A finished run of the implemented program is a run of the abstract one. -/
theorem Exec.abstract {σ : (op : B.Op) → Program S X (B.Reply op)} {p : Program B X α} {w w' : W} {o : Outcome X α}
    (h : Exec env (p.subst σ) w o w') (ho : o ≠ .crashed) : Exec (implementing env σ) p w o w' := by
  induction p generalizing w with
  | ret a =>
    obtain ⟨rfl, rfl | rfl⟩ := exec_ret_iff.1 h
    · exact .ret a _
    · exact absurd rfl ho
  | raise x =>
    obtain ⟨rfl, rfl | rfl⟩ := exec_raise_iff.1 h
    · exact .raise x _
    · exact absurd rfl ho
  | diverge => exact absurd (exec_diverge_iff.1 h).2 ho
  | call op k ih =>
    rcases exec_bind_iff.1 h with ⟨r, w₁, hp, hk⟩ | ⟨x, -, hp⟩ | ⟨hc, -⟩
    · exact .call (exec_attempt hp) (ih r hk)
    · exact absurd hp not_exec_attempt_raised
    · exact absurd hc ho

/-- What the implementation of every operation keeps, the implemented program keeps. -/
theorem Triple.subst {σ : (op : B.Op) → Program S X (B.Reply op)} {I C : W → Prop} (hI : ∀ w, I w → C w)
    (hσ : ∀ op, Triple env I (σ op) (fun _ => I) (fun _ => I) C) (p : Program B X α) :
    Triple env I (p.subst σ) (fun _ => I) (fun _ => I) C := by
  induction p with
  | ret a => exact Triple.ret (fun _ hw => hw) hI
  | raise x => exact Triple.raise (fun _ hw => hw) hI
  | diverge => exact Triple.diverge hI
  | call op k ih =>
    refine Triple.bind (Triple.attempt (hσ op) (fun _ => hI) fun _ => hI) fun r => ?_
    cases r <;> exact ih _

/-- What is known of the implementation of an operation is known of the operation. -/
theorem Triple.implemented {σ : (op : B.Op) → Program S X (B.Reply op)} {op : B.Op} {P C : W → Prop} {Q : B.Reply op → W → Prop}
    {E : X → W → Prop} (h : Triple env P (σ op) Q E C) :
    Triple (implementing env σ) P (Program.perform op) Q E fun _ => True := by
  refine Triple.perform (fun _ _ => trivial) ?_ ?_
  · exact fun w a w' hw hrun => ⟨h w hw _ w' hrun, trivial⟩
  · exact fun w x w' hw hrun => ⟨h w hw _ w' hrun, trivial⟩

/-- Where every implementation does in one operation's place what that operation may do, wherever it is cut, the implemented program
does what the abstract one may do. -/
theorem Exec.refined {env' : Env B X W} {σ : (op : B.Op) → Program S X (B.Reply op)}
    (hσ : ∀ w op, Triple env (fun v => v = w) (σ op) (fun a v => env' w op (.ok a) v) (fun x v => env' w op (.error x) v)
      fun v => v = w ∨ ∃ r, env' w op r v) {p : Program B X α} {w w' : W} {o : Outcome X α} (h : Exec env (p.subst σ) w o w') :
    Exec env' p w o w' := by
  induction p generalizing w with
  | ret a =>
    obtain ⟨rfl, rfl | rfl⟩ := exec_ret_iff.1 h
    · exact .ret a _
    · exact .crash _ _
  | raise x =>
    obtain ⟨rfl, rfl | rfl⟩ := exec_raise_iff.1 h
    · exact .raise x _
    · exact .crash _ _
  | diverge =>
    obtain ⟨rfl, rfl⟩ := exec_diverge_iff.1 h
    exact .crash _ _
  | call op k ih =>
    have hattempt : Triple env _ (σ op).attempt _ (fun _ _ => False) _ :=
      Triple.attempt (hσ w op) (fun a v hv => Or.inr ⟨.ok a, hv⟩) fun x v hv => Or.inr ⟨.error x, hv⟩
    rcases exec_bind_iff.1 h with ⟨r, w₁, hp, hk⟩ | ⟨x, -, hp⟩ | ⟨rfl, hp⟩
    · have hstep := hattempt w rfl _ w₁ hp
      cases r with
      | ok a => exact .call hstep (ih _ hk)
      | error x => exact .call hstep (ih _ hk)
    · exact absurd hp not_exec_attempt_raised
    · rcases hattempt w rfl _ w' hp with rfl | ⟨r, hstep⟩
      · exact .crash _ _
      · exact .call hstep (.crash _ _)

end Effects
