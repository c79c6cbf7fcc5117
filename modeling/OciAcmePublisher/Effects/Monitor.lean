import Mathlib.Data.List.Induction
import OciAcmePublisher.Effects.Triple

/-!
# Monitors

A monitor folds a state over the operations a program performs, with the answers they get. A check that is made before every
operation, against the state the monitor is in, is a safety property of the run: it is proved one operation at a time.
-/

namespace Effects

variable {S : Signature} {X α σ : Type}

/-- A monitor: where it starts, and what it makes of one performed operation. -/
structure Monitor (S : Signature) (X σ : Type) where
  start : σ
  step : σ → Event S X → σ

namespace Monitor

variable (M : Monitor S X σ) {check : σ → Event S X → Prop}

/-- The state after what was performed. -/
def after (t : List (Event S X)) : σ := t.foldl M.step M.start

@[simp] theorem after_nil : M.after [] = M.start := rfl

@[simp] theorem after_snoc (t : List (Event S X)) (e : Event S X) : M.after (t ++ [e]) = M.step (M.after t) e := by
  simp [after]

/-- The check passes before every operation. -/
def Checked (check : σ → Event S X → Prop) (t : List (Event S X)) : Prop :=
  ∀ before e rest, t = before ++ e :: rest → check (M.after before) e

/-- The check, from a state on. -/
def checkedFrom (check : σ → Event S X → Prop) : σ → List (Event S X) → Prop
  | _, [] => True
  | s, e :: rest => check s e ∧ checkedFrom check (M.step s e) rest

instance [∀ s e, Decidable (check s e)] : ∀ s t, Decidable (M.checkedFrom check s t)
  | _, [] => instDecidableTrue
  | s, e :: rest =>
    have : Decidable (M.checkedFrom check (M.step s e) rest) := instDecidableCheckedFrom (M.step s e) rest
    instDecidableAnd

theorem checkedFrom_iff (s : σ) (t : List (Event S X)) :
    M.checkedFrom check s t ↔ ∀ before e rest, t = before ++ e :: rest → check (before.foldl M.step s) e := by
  induction t generalizing s with
  | nil =>
    refine ⟨fun _ before e rest h => ?_, fun _ => trivial⟩
    simp at h
  | cons a t ih =>
    refine ⟨?_, fun h => ⟨h [] a t rfl, (ih _).2 fun before e rest ht => h (a :: before) e rest (by rw [ht]; rfl)⟩⟩
    rintro ⟨ha, ht⟩ before e rest h
    cases before with
    | nil =>
      cases h
      exact ha
    | cons b before =>
      cases h
      exact (ih _).1 ht before e rest rfl

instance [∀ s e, Decidable (check s e)] (t : List (Event S X)) : Decidable (M.Checked check t) :=
  decidable_of_iff _ (M.checkedFrom_iff M.start t)

theorem checked_nil : M.Checked check [] := by
  intro before e rest h
  simp at h

/-- One more operation: the check passes before it as well. -/
theorem checked_snoc {t : List (Event S X)} {e : Event S X} :
    M.Checked check (t ++ [e]) ↔ M.Checked check t ∧ check (M.after t) e := by
  constructor
  · intro h
    refine ⟨fun before a rest ht => h before a (rest ++ [e]) (by rw [ht]; simp), h t e [] rfl⟩
  · rintro ⟨ht, he⟩ before a rest h
    rcases List.eq_nil_or_concat rest with rfl | ⟨rest, b, rfl⟩
    · obtain ⟨rfl, hlast⟩ := List.append_inj' h rfl
      cases hlast
      exact he
    · have h' : t ++ [e] = (before ++ a :: rest) ++ [b] := by simpa using h
      exact ht before a rest (List.append_inj' h' rfl).1

theorem Checked.imp {check' : σ → Event S X → Prop} {t : List (Event S X)} (h : M.Checked check t)
    (himp : ∀ s e, check s e → check' s e) : M.Checked check' t :=
  fun before e rest ht => himp _ _ (h before e rest ht)

/-! ### Runs under every answer -/

/-- The check passed so far, and the monitor's state is as `φ` says. -/
def Sees (check : σ → Event S X → Prop) (φ : σ → Prop) (t : List (Event S X)) : Prop :=
  M.Checked check t ∧ φ (M.after t)

variable {M} {φ : σ → Prop}

/-- An operation before which the check passes. -/
theorem perform_sees {op : S.Op} {Q : S.Reply op → σ → Prop} {E : σ → Prop}
    (hcheck : ∀ s r, φ s → check s ⟨op, r⟩) (hok : ∀ s a, φ s → Q a (M.step s ⟨op, .ok a⟩))
    (herr : ∀ s x, φ s → E (M.step s ⟨op, .error x⟩)) :
    Triple anyAnswer (M.Sees check φ) (Program.perform op : Program S X _) (fun a => M.Sees check (Q a))
      (fun _ => M.Sees check E) (M.Checked check) := by
  refine Triple.perform (fun _ ht => ht.1) ?_ ?_
  · rintro t a _ ⟨ht, hs⟩ rfl
    have hchecked : M.Checked check (t ++ [⟨op, .ok a⟩]) := M.checked_snoc.2 ⟨ht, hcheck _ _ hs⟩
    exact ⟨⟨hchecked, by simpa using hok _ a hs⟩, hchecked⟩
  · rintro t x _ ⟨ht, hs⟩ rfl
    have hchecked : M.Checked check (t ++ [⟨op, .error x⟩]) := M.checked_snoc.2 ⟨ht, hcheck _ _ hs⟩
    exact ⟨⟨hchecked, by simpa using herr _ x hs⟩, hchecked⟩

/-- A program whose operations neither concern the check nor move the monitor. -/
theorem frame_sees {A : S.Op → Prop} {p : Program S X α} (hp : p.Uses A)
    (hcheck : ∀ op r s, A op → check s ⟨op, r⟩) (hstep : ∀ op r s, A op → M.step s ⟨op, r⟩ = s) :
    Triple anyAnswer (M.Sees check φ) p (fun _ => M.Sees check φ) (fun _ => M.Sees check φ) (M.Sees check φ) := by
  refine Triple.frame hp ?_
  rintro t op r _ hop ⟨ht, hs⟩ rfl
  refine ⟨M.checked_snoc.2 ⟨ht, hcheck op r _ hop⟩, ?_⟩
  rw [M.after_snoc, hstep op r _ hop]
  exact hs

/-- A program whose operations keep what is known, which lets them pass the check. -/
theorem keep_sees {A : S.Op → Prop} {p : Program S X α} (hp : p.Uses A)
    (hcheck : ∀ op r s, A op → φ s → check s ⟨op, r⟩) (hstep : ∀ op r s, A op → φ s → φ (M.step s ⟨op, r⟩)) :
    Triple anyAnswer (M.Sees check φ) p (fun _ => M.Sees check φ) (fun _ => M.Sees check φ) (M.Sees check φ) := by
  refine Triple.frame hp ?_
  rintro t op r _ hop ⟨ht, hs⟩ rfl
  refine ⟨M.checked_snoc.2 ⟨ht, hcheck op r _ hop hs⟩, ?_⟩
  rw [M.after_snoc]
  exact hstep op r _ hop hs

/-- The monitor that keeps everything. -/
def whole : Monitor S X (List (Event S X)) where
  start := []
  step t e := t ++ [e]

@[simp] theorem after_whole (t : List (Event S X)) : (whole : Monitor S X _).after t = t := by
  induction t using List.reverseRecOn with
  | nil => rfl
  | append_singleton t e ih => rw [after_snoc, ih, whole]

end Monitor

/-! ### What has happened stays so -/

/-- What is true of a run so far stays true. -/
def Lasting (φ : List (Event S X) → Prop) : Prop := ∀ t e, φ t → φ (t ++ [e])

theorem Lasting.mem (e : Event S X) : Lasting fun t => e ∈ t := fun _ _ h => List.mem_append_left _ h

theorem Lasting.and {φ ψ : List (Event S X) → Prop} (hφ : Lasting φ) (hψ : Lasting ψ) : Lasting fun t => φ t ∧ ψ t :=
  fun t e h => ⟨hφ t e h.1, hψ t e h.2⟩

theorem Lasting.const (p : Prop) : Lasting fun _ : List (Event S X) => p := fun _ _ h => h

theorem Lasting.of_exists {ι : Type} {φ : ι → List (Event S X) → Prop} (h : ∀ i, Lasting (φ i)) :
    Lasting fun t => ∃ i, φ i t :=
  fun t e ⟨i, hi⟩ => ⟨i, h i t e hi⟩

theorem Lasting.imp {p : Prop} {φ : List (Event S X) → Prop} (h : Lasting φ) : Lasting fun t => p → φ t :=
  fun t e hφ hp => h t e (hφ hp)

theorem Program.uses_anything (p : Program S X α) : p.Uses fun _ => True := by
  induction p with
  | call op k ih => exact ⟨trivial, ih⟩
  | _ => trivial

/-- Every program keeps what lasts. -/
theorem Lasting.triple {φ : List (Event S X) → Prop} (h : Lasting φ) (p : Program S X α) :
    Triple anyAnswer φ p (fun _ => φ) (fun _ => φ) φ := by
  refine Triple.frame p.uses_anything ?_
  rintro t op r _ - ht rfl
  exact h t _ ht

/-- A triple, with what lasts beside it. -/
theorem Lasting.beside {P : List (Event S X) → Prop} {φ C : List (Event S X) → Prop} {Q : α → List (Event S X) → Prop}
    {E : X → List (Event S X) → Prop} {p : Program S X α} (h : Lasting φ) (hp : Triple anyAnswer P p Q E C) :
    Triple anyAnswer (fun t => P t ∧ φ t) p (fun a t => Q a t ∧ φ t) (fun x t => E x t ∧ φ t) fun t => C t ∧ φ t :=
  hp.and (h.triple p)

/-- An operation that is answered has happened. -/
theorem perform_mem {P : List (Event S X) → Prop} (op : S.Op) :
    Triple anyAnswer P (Program.perform op : Program S X _) (fun a t => (⟨op, .ok a⟩ : Event S X) ∈ t) (fun _ _ => True)
      fun _ => True := by
  refine Triple.perform (fun _ _ => trivial) ?_ fun _ _ _ _ _ => ⟨trivial, trivial⟩
  rintro t a _ - rfl
  exact ⟨List.mem_append_right _ (List.mem_singleton_self _), trivial⟩

end Effects
