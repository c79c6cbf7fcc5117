import OciAcmePublisher.Effects.Program

/-!
# Programs that differ in what they hide

A twin relation pairs operations that have the same replies: operations that differ only in what must not be observed. Two
programs are alike if they perform paired operations and go on alike whatever the answer. Alike programs that are run against
environments that answer paired operations identically end alike, and leave worlds that agree, also when both are cut after the
same number of operations.
-/

namespace Effects

variable {S : Signature} {X α β : Type}

/-- A reflexive pairing of operations with the same replies. -/
structure Twin (S : Signature) where
  rel : S.Op → S.Op → Prop
  refl : ∀ op, rel op op
  reply : ∀ {op op'}, rel op op' → S.Reply op = S.Reply op'

/-- The answer of an operation, as an answer of its twin. -/
def Twin.cast (T : Twin S) {op op' : S.Op} (h : T.rel op op') (r : Except X (S.Reply op)) : Except X (S.Reply op') :=
  (T.reply h) ▸ r

@[simp] theorem Twin.cast_self (T : Twin S) {op : S.Op} (h : T.rel op op) (r : Except X (S.Reply op)) : T.cast h r = r := rfl

/-- The two programs perform paired operations. -/
inductive Alike (T : Twin S) : Program S X α → Program S X α → Prop where
  | ret (a : α) : Alike T (.ret a) (.ret a)
  | raise (x : X) : Alike T (.raise x) (.raise x)
  | diverge : Alike T .diverge .diverge
  | call {op op' : S.Op} (h : T.rel op op') {k : Except X (S.Reply op) → Program S X α}
      {k' : Except X (S.Reply op') → Program S X α} : (∀ r, Alike T (k r) (k' (T.cast h r))) →
      Alike T (.call op k) (.call op' k')

variable {T : Twin S}

theorem Alike.refl (p : Program S X α) : Alike T p p := by
  induction p with
  | ret a => exact .ret a
  | raise x => exact .raise x
  | diverge => exact .diverge
  | call op k ih =>
    refine .call (T.refl op) fun r => ?_
    rw [Twin.cast_self]
    exact ih r

theorem Alike.bind {p q : Program S X α} {f g : α → Program S X β} (h : Alike T p q) (hf : ∀ a, Alike T (f a) (g a)) :
    Alike T (p.bind f) (q.bind g) := by
  induction h with
  | ret a => exact hf a
  | raise x => exact .raise x
  | diverge => exact .diverge
  | call hop _ ih => exact .call hop fun r => ih r

theorem Alike.handle {p q : Program S X α} {f g : X → Program S X α} (h : Alike T p q) (hf : ∀ x, Alike T (f x) (g x)) :
    Alike T (p.handle f) (q.handle g) := by
  induction h with
  | ret a => exact .ret a
  | raise x => exact hf x
  | diverge => exact .diverge
  | call hop _ ih => exact .call hop fun r => ih r

theorem Alike.attempt {p q : Program S X α} (h : Alike T p q) : Alike T p.attempt q.attempt := by
  unfold Program.attempt
  apply Alike.handle
  · exact h.bind fun a => .refl _
  · exact fun x => .refl _

/-- Paired operations, each performed once. -/
theorem Alike.paired {op op' : S.Op} (h : T.rel op op') {f : S.Reply op → Program S X α} {g : S.Reply op' → Program S X α}
    (hf : ∀ a, Alike T (f a) (g (T.reply h ▸ a))) :
    Alike T ((Program.perform op : Program S X _).bind f) ((Program.perform op' : Program S X _).bind g) := by
  refine .call h fun r => ?_
  cases r with
  | ok a =>
    have hcast : T.cast h (Except.ok a : Except X (S.Reply op)) = .ok (T.reply h ▸ a) := by
      unfold Twin.cast
      generalize T.reply h = e
      generalize S.Reply op' = R at e
      subst e
      rfl
    rw [hcast]
    exact hf a
  | error x =>
    have hcast : T.cast h (Except.error x : Except X (S.Reply op)) = .error x := by
      unfold Twin.cast
      generalize T.reply h = e
      generalize S.Reply op' = R at e
      subst e
      rfl
    rw [hcast]
    exact .raise x

namespace Program

variable {W W' : Type}

/-- Run a program with one answer for every operation, cut before the operation that exceeds the number allowed. -/
def evalFor (h : W → (op : S.Op) → Except X (S.Reply op) × W) : Nat → Program S X α → W → Outcome X α × W
  | _, .ret a, w => (.returned a, w)
  | _, .raise x, w => (.raised x, w)
  | _, .diverge, w => (.crashed, w)
  | 0, .call .., w => (.crashed, w)
  | n + 1, .call op k, w => evalFor h n (k (h w op).1) (h w op).2

end Program

/-- The two environments answer paired operations identically in worlds that agree, and the worlds agree again. -/
def AnswerAlike {W W' : Type} (T : Twin S) (agree : W → W' → Prop) (h : W → (op : S.Op) → Except X (S.Reply op) × W)
    (h' : W' → (op : S.Op) → Except X (S.Reply op) × W') : Prop :=
  ∀ w w' op op', ∀ t : T.rel op op', agree w w' →
    T.cast t (h w op).1 = (h' w' op').1 ∧ agree (h w op).2 (h' w' op').2

/-- Alike programs end alike in environments that answer alike. -/
theorem Alike.evalFor {W W' : Type} {agree : W → W' → Prop} {h : W → (op : S.Op) → Except X (S.Reply op) × W}
    {h' : W' → (op : S.Op) → Except X (S.Reply op) × W'} (hanswers : AnswerAlike T agree h h') {p q : Program S X α}
    (hpq : Alike T p q) (n : Nat) {w : W} {w' : W'} (hw : agree w w') :
    (p.evalFor h n w).1 = (q.evalFor h' n w').1 ∧ agree (p.evalFor h n w).2 (q.evalFor h' n w').2 := by
  induction hpq generalizing n w w' with
  | ret a =>
    cases n with
    | zero => exact ⟨rfl, hw⟩
    | succ n => exact ⟨rfl, hw⟩
  | raise x =>
    cases n with
    | zero => exact ⟨rfl, hw⟩
    | succ n => exact ⟨rfl, hw⟩
  | diverge =>
    cases n with
    | zero => exact ⟨rfl, hw⟩
    | succ n => exact ⟨rfl, hw⟩
  | call hop _ ih =>
    cases n with
    | zero => exact ⟨rfl, hw⟩
    | succ n =>
      obtain ⟨hreply, hagree⟩ := hanswers w w' _ _ hop hw
      have hnext := ih (h w _).1 n hagree
      rw [hreply] at hnext
      exact hnext

end Effects
