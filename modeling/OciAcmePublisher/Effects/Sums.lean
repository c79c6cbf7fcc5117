import OciAcmePublisher.Effects.Guarantee
import OciAcmePublisher.Effects.Refinement

/-!
# Programs over two signatures

A program over one signature, among the operations of another.
-/

namespace Effects

variable {S T : Signature} {X α β V W : Type}

/-- The operations of both signatures. -/
@[reducible] def Signature.sum (S T : Signature) : Signature where
  Op := S.Op ⊕ T.Op
  Reply := Sum.elim S.Reply T.Reply

namespace Program

/-- A program over the second signature, over both. -/
def right : Program T X α → Program (S.sum T) X α
  | .ret a => .ret a
  | .raise x => .raise x
  | .diverge => .diverge
  | .call op k => .call (.inr op) fun r => (k r).right

theorem right_bind (p : Program T X α) (f : α → Program T X β) :
    (p.bind f).right = (p.right : Program (S.sum T) X α).bind fun a => (f a).right := by
  induction p with
  | ret | raise | diverge => rfl
  | call op k ih =>
    simp only [bind, right]
    congr 1
    funext r
    exact ih r

theorem uses_right {A : (S.sum T).Op → Prop} {p : Program T X α} (hp : p.Uses fun op => A (.inr op)) :
    (p.right : Program (S.sum T) X α).Uses A := by
  induction p with
  | call op k ih => exact ⟨hp.1, fun r => ih r (hp.2 r)⟩
  | _ => trivial

theorem yields_right {φ : α → Prop} {p : Program T X α} (hp : p.Yields φ) : (p.right : Program (S.sum T) X α).Yields φ := by
  induction p with
  | call op k ih => exact fun r => ih r (hp r)
  | ret a => exact hp
  | _ => trivial

end Program

/-- The program over both signatures runs as the program over the second, where the operations of the second do what
they do there. -/
theorem exec_right_iff {env : Env (S.sum T) X W} {env' : Env T X W}
    (henv : ∀ w op r w', env w (.inr op) r w' ↔ env' w op r w') {p : Program T X α} {w w' : W} {o : Outcome X α} :
    Exec env (p.right : Program (S.sum T) X α) w o w' ↔ Exec env' p w o w' := by
  induction p generalizing w with
  | ret a => exact exec_ret_iff.trans exec_ret_iff.symm
  | raise x => exact exec_raise_iff.trans exec_raise_iff.symm
  | diverge => exact exec_diverge_iff.trans exec_diverge_iff.symm
  | call op k ih =>
    unfold Program.right
    rw [exec_call_iff, exec_call_iff]
    refine or_congr_right (exists_congr fun r => exists_congr fun w₁ => ?_)
    exact and_congr (henv _ _ _ _) (ih r)

/-- What a program keeps to in a part of the world, it keeps to in the whole. -/
theorem Guarded.right {env : Env (S.sum T) X W} {env' : Env T X V} {π : W → V} {G : V → V → Prop} {P : V → Prop}
    {Q : α → V → Prop}
    {E : X → V → Prop} (henv : ∀ w op r w', env w (.inr op) r w' → env' (π w) op r (π w')) {p : Program T X α}
    (hp : Guarded env' G P p Q E) :
    Guarded env (fun w w' => G (π w) (π w')) (fun w => P (π w)) p.right (fun a w => Q a (π w)) fun x w => E x (π w) := by
  intro w hw
  replace hp := hp (π w) hw
  clear hw
  induction p generalizing w with
  | ret a => exact hp
  | raise x => exact hp
  | diverge => trivial
  | call op k ih => exact fun r w' hr => ⟨(hp r _ (henv _ _ _ _ hr)).1, ih r w' (hp r _ (henv _ _ _ _ hr)).2⟩

/-- What the implementation of every operation keeps to, the implemented program keeps to. -/
theorem Guarded.subst {B : Signature} {env : Env S X W} {σ : (op : B.Op) → Program S X (B.Reply op)} {G : W → W → Prop}
    {I : W → Prop} (hσ : ∀ op, Guarded env G I (σ op) (fun _ => I) fun _ => I) (p : Program B X α) :
    Guarded env G I (p.subst σ) (fun _ => I) fun _ => I := by
  induction p with
  | ret a => exact Guarded.ret fun _ hw => hw
  | raise x => exact Guarded.raise fun _ hw => hw
  | diverge => exact fun _ _ => trivial
  | call op k ih =>
    refine Guarded.bind (Guarded.attempt (hσ op)) fun r => ?_
    cases r <;> exact ih _

end Effects
