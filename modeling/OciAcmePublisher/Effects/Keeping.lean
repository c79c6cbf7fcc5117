import OciAcmePublisher.Effects.Monitor
import OciAcmePublisher.Effects.Sums

/-!
# Programs that keep to a guarantee from any world

The guarantees that need nothing of what a run knows: a program keeps to one when its parts do. One of them is that what
is performed is justified by what was performed before, with the answers it got.
-/

namespace Effects

variable {S T : Signature} {X α β V W : Type} {env : Env S X W} {G : W → W → Prop}

/-- Whatever the world, every operation of every run of the program keeps to the guarantee. -/
abbrev Keeps (env : Env S X W) (G : W → W → Prop) (p : Program S X α) : Prop :=
  Guarded env G (fun _ => True) p (fun _ _ => True) fun _ _ => True

namespace Keeps

theorem ret {a : α} : Keeps env G (.ret a) := Guarded.ret fun _ _ => trivial

theorem raise {x : X} : Keeps env G (.raise x : Program S X α) := Guarded.raise fun _ _ => trivial

theorem perform {op : S.Op} (h : ∀ w r w', env w op r w' → G w w') : Keeps env G (Program.perform op) :=
  Guarded.perform (fun w r w' _ => h w r w') (fun _ _ _ _ _ => trivial) fun _ _ _ _ _ => trivial

theorem bind {p : Program S X α} {f : α → Program S X β} (hp : Keeps env G p) (hf : ∀ a, Keeps env G (f a)) :
    Keeps env G (p.bind f) :=
  Guarded.bind hp hf

theorem handle {p : Program S X α} {h : X → Program S X α} (hp : Keeps env G p) (hh : ∀ x, Keeps env G (h x)) :
    Keeps env G (p.handle h) :=
  Guarded.handle hp hh

theorem attempt {p : Program S X α} (hp : Keeps env G p) : Keeps env G p.attempt :=
  handle (bind hp fun _ => ret) fun _ => ret

/-- What every operation of the footprint keeps to, the program keeps to. -/
theorem frame {A : S.Op → Prop} {p : Program S X α} (hp : p.Uses A) (h : ∀ op, A op → ∀ w r w', env w op r w' → G w w') :
    Keeps env G p :=
  Guarded.frame hp fun w op r w' hop _ he => ⟨h op hop w r w' he, trivial⟩

theorem right {env : Env (S.sum T) X W} {env' : Env T X V} {π : W → V} {G : V → V → Prop}
    (henv : ∀ w op r w', env w (.inr op) r w' → env' (π w) op r (π w')) {p : Program T X α} (hp : Keeps env' G p) :
    Keeps env (fun w w' => G (π w) (π w')) p.right :=
  Guarded.right henv hp

/-- What the implementation of every operation of the footprint keeps to, the implemented program keeps to. -/
theorem subst {B : Signature} {A : B.Op → Prop} {σ : (op : B.Op) → Program S X (B.Reply op)} {p : Program B X α} (hp : p.Uses A)
    (hσ : ∀ op, A op → Keeps env G (σ op)) : Keeps env G (p.subst σ) := by
  induction p with
  | ret a => exact ret
  | raise x => exact raise
  | diverge => exact fun _ _ => trivial
  | call op k ih =>
    refine bind (attempt (hσ op hp.1)) fun r => ?_
    cases r <;> exact ih _ (hp.2 _)

end Keeps

/-! ## What is performed, by what was performed before -/

section Justified

variable {J : List (Event S X) → Event S X → Prop} {φ : List (Event S X) → Prop}

/-- What is performed next is justified. -/
def Justifies (J : List (Event S X) → Event S X → Prop) (t t' : List (Event S X)) : Prop := ∀ e, t' = t ++ [e] → J t e

theorem justifies_refl (t : List (Event S X)) : Justifies J t t := by
  intro e h
  exact absurd (congrArg List.length h) (by simp)

theorem justifies_snoc {t : List (Event S X)} {e : Event S X} (h : J t e) : Justifies J t (t ++ [e]) := by
  intro a ha
  rw [← List.singleton_inj.1 (List.append_cancel_left ha)]
  exact h

/-- What lasts, a program keeps whose operations it justifies. -/
theorem Lasting.justifies (hφ : Lasting φ) {A : S.Op → Prop} {p : Program S X α} (hp : p.Uses A)
    (h : ∀ t op r, φ t → A op → J t ⟨op, r⟩) : Guarded anyAnswer (Justifies J) φ p (fun _ => φ) fun _ _ => True := by
  refine (Guarded.frame hp ?_).conseq (fun _ h => h) (fun _ _ h => h) fun _ _ _ => trivial
  rintro t op r _ hop ht rfl
  exact ⟨justifies_snoc (h t op r ht hop), hφ t _ ht⟩

/-- An operation that is answered has happened, beside what lasts. -/
theorem Lasting.answers (hφ : Lasting φ) {op : S.Op} (h : ∀ t r, φ t → J t ⟨op, r⟩) :
    Guarded anyAnswer (Justifies J) φ (Program.perform op : Program S X _)
      (fun a t => φ t ∧ (⟨op, .ok a⟩ : Event S X) ∈ t) fun _ _ => True := by
  refine Guarded.perform ?_ ?_ fun _ _ _ _ _ => trivial
  · rintro t r _ ht rfl
    exact justifies_snoc (h t r ht)
  · rintro t a _ ht rfl
    exact ⟨hφ t _ ht, List.mem_append_right _ (List.mem_singleton_self _)⟩

/-- Where what is justified is justified on other grounds as well, as long as `φ` lasts. -/
theorem Lasting.weaken {J' : List (Event S X) → Event S X → Prop} (hφ : Lasting φ) {p : Program S X α}
    (hp : Keeps anyAnswer (Justifies J) p) (h : ∀ t e, φ t → J t e → J' t e) :
    Guarded anyAnswer (Justifies J') φ p (fun _ _ => True) fun _ _ => True := by
  intro t ht
  replace hp := hp t trivial
  induction p generalizing t with
  | ret | raise | diverge => trivial
  | call op k ih =>
    rintro r _ rfl
    have hk := hp r _ rfl
    exact ⟨justifies_snoc (h t _ ht (hk.1 _ rfl)), ih r _ (hφ t _ ht) hk.2⟩

end Justified

/-- The operations of the second signature among those of both. -/
def rightEvents (t : List (Event (S.sum T) X)) : List (Event T X) :=
  t.filterMap fun e =>
    match e with
    | ⟨.inl _, _⟩ => none
    | ⟨.inr op, r⟩ => some ⟨op, r⟩

theorem rightEvents_inl (t : List (Event (S.sum T) X)) (op : S.Op) (r : Except X (S.Reply op)) :
    rightEvents (t ++ [⟨.inl op, r⟩]) = rightEvents t := by
  simp [rightEvents]

theorem rightEvents_inr (t : List (Event (S.sum T) X)) (op : T.Op) (r : Except X (T.Reply op)) :
    rightEvents (t ++ [⟨.inr op, r⟩]) = rightEvents t ++ [⟨op, r⟩] := by
  simp [rightEvents]

/-- What every operation of the second signature is justified by, it is in the record of a run over both. -/
theorem Exec.checked_right {env : Env (S.sum T) X W} {J : List (Event T X) → Event T X → Prop} {p : Program (S.sum T) X α}
    (hp : Keeps (recording env) (fun s s' => Justifies J (rightEvents s.2) (rightEvents s'.2)) p) {w w' : W}
    {t : List (Event (S.sum T) X)} {o : Outcome X α} (h : Exec (recording env) p (w, []) o (w', t)) :
    Monitor.whole.Checked J (rightEvents t) := by
  refine (h.guaranteed (hp (w, []) trivial)).1.invariant (I := fun s => Monitor.whole.Checked J (rightEvents s.2)) ?_
    (Monitor.checked_nil _)
  rintro ⟨w, t⟩ op r ⟨w', t'⟩ hchecked ⟨⟨-, rfl⟩, hjustified⟩
  cases op with
  | inl op =>
    have hsame : rightEvents (t ++ [⟨.inl op, r⟩]) = rightEvents t := rightEvents_inl t op r
    rw [hsame]
    exact hchecked
  | inr op =>
    have hlast : rightEvents (t ++ [⟨.inr op, r⟩]) = rightEvents t ++ [⟨op, r⟩] := rightEvents_inr t op r
    rw [hlast] at hjustified ⊢
    rw [Monitor.checked_snoc, Monitor.after_whole]
    exact ⟨hchecked, hjustified _ rfl⟩

end Effects
