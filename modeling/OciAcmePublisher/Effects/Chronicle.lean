import OciAcmePublisher.Effects.Guarantee

/-!
# Chronicles

An environment that keeps what was performed together with the world it was performed in, so that what happened while the world was
in some state can be told apart.
-/

namespace Effects

variable {S : Signature} {X W α : Type} {env : Env S X W}

/-- What was performed, each with the world before it. -/
abbrev Chronicle (S : Signature) (X W : Type) := List (W × Event S X)

/-- Every operation is kept with its answer and the world before it. -/
def chronicling (env : Env S X W) : Env S X (W × Chronicle S X W) :=
  fun w op r w' => env w.1 op r w'.1 ∧ w'.2 = w.2 ++ [(w.1, ⟨op, r⟩)]

/-- What was performed in the worlds that `φ` describes. -/
def Chronicle.within (φ : W → Bool) (c : Chronicle S X W) : List (Event S X) := (c.filter fun x => φ x.1).map (·.2)

theorem Chronicle.within_append (φ : W → Bool) (c d : Chronicle S X W) :
    Chronicle.within φ (c ++ d) = Chronicle.within φ c ++ Chronicle.within φ d := by
  unfold Chronicle.within
  rw [List.filter_append, List.map_append]

/-- Where every world is as `φ` says, everything was performed within. -/
theorem Chronicle.within_of_forall {φ : W → Bool} {c : Chronicle S X W} (h : ∀ x ∈ c, φ x.1 = true) :
    Chronicle.within φ c = c.map (·.2) := by
  unfold Chronicle.within
  rw [List.filter_eq_self.2 h]

variable {p : Program S X α} {w w' : W × Chronicle S X W} {o : Outcome X α}

/-- A run does not read its chronicle: it appends to it what it would write into an empty one. -/
theorem Exec.chronicled (h : Exec (chronicling env) p w o w') :
    ∃ c, w'.2 = w.2 ++ c ∧ Exec (chronicling env) p (w.1, []) o (w'.1, c) := by
  have hgrow : ∀ past : Chronicle S X W, ∃ c, w'.2 = w.2 ++ c ∧
      Exec (chronicling env) p (w.1, past) o (w'.1, past ++ c) := by
    induction h with
    | ret a w =>
      intro past
      refine ⟨[], by simp, ?_⟩
      rw [List.append_nil]
      exact .ret a _
    | raise x w =>
      intro past
      refine ⟨[], by simp, ?_⟩
      rw [List.append_nil]
      exact .raise x _
    | crash p w =>
      intro past
      refine ⟨[], by simp, ?_⟩
      rw [List.append_nil]
      exact .crash p _
    | @call op k w w₁ w₂ r o he _ ih =>
      intro past
      obtain ⟨hstep, hlog⟩ := he
      obtain ⟨c, hc, hx⟩ := ih (past ++ [(w.1, ⟨op, r⟩)])
      refine ⟨(w.1, ⟨op, r⟩) :: c, by rw [hc, hlog, List.append_assoc]; rfl, ?_⟩
      rw [List.append_assoc] at hx
      have hcall : chronicling env (w.1, past) op r (w₁.1, past ++ [(w.1, ⟨op, r⟩)]) := ⟨hstep, rfl⟩
      exact .call hcall hx
  obtain ⟨c, hc, hx⟩ := hgrow []
  exact ⟨c, hc, hx⟩

/-- A run that is chronicled is a run. -/
theorem Exec.unchronicle (h : Exec (chronicling env) p w o w') : Exec env p w.1 o w'.1 := by
  induction h with
  | ret a w => exact .ret a _
  | raise x w => exact .raise x _
  | crash p w => exact .crash p _
  | call he _ ih => exact .call he.1 ih

/-- The chronicle of a run that keeps to a guarantee. -/
theorem Exec.chronicle_guaranteed {G : W → W → Prop} {Q : α → W → Prop} {E : X → W → Prop}
    (h : Exec (chronicling env) p w o w') (hp : p.Guarantees env G Q E w.1) :
    Exec (chronicling (restricting env G)) p w o w' := by
  induction h with
  | ret a w => exact .ret a w
  | raise x w => exact .raise x w
  | crash p w => exact .crash p w
  | @call op k w w₁ w₂ r o he _ ih =>
    obtain ⟨hG, hk⟩ := hp _ _ he.1
    have hcall : chronicling (restricting env G) w op r w₁ := ⟨⟨he.1, hG⟩, he.2⟩
    exact .call hcall (ih hk)

/-- A chronicle is a record, with the worlds. -/
theorem Exec.chronicle_record (h : Exec (chronicling env) p w o w') :
    Exec (recording env) p (w.1, w.2.map (·.2)) o (w'.1, w'.2.map (·.2)) := by
  induction h with
  | ret a w => exact .ret a _
  | raise x w => exact .raise x _
  | crash p w => exact .crash p _
  | @call op k w w₁ w₂ r o he _ ih =>
    have hcall : recording env (w.1, w.2.map (·.2)) op r (w₁.1, w₁.2.map (·.2)) := by
      refine ⟨he.1, ?_⟩
      rw [he.2, List.map_append]
      rfl
    exact .call hcall ih

/-- What every operation of the footprint keeps holds in every world of the chronicle. -/
theorem Exec.chronicle_keeps {A : S.Op → Prop} {I : W → Prop} (hI : ∀ w op r w', A op → I w → env w op r w' → I w')
    (h : Exec (chronicling env) p w o w') (hp : p.Uses A) (hw : I w.1) :
    ∀ x ∈ w'.2, x ∈ w.2 ∨ (I x.1 ∧ A x.2.op) := by
  induction h with
  | ret | raise | crash => exact fun x hx => Or.inl hx
  | @call op k w w₁ w₂ r o he _ ih =>
    intro x hx
    rcases ih (hp.2 _) (hI _ _ _ _ hp.1 hw he.1) x hx with h | h
    · rw [he.2, List.mem_append, List.mem_singleton] at h
      rcases h with h | rfl
      · exact Or.inl h
      · exact Or.inr ⟨hw, hp.1⟩
    · exact Or.inr h

/-- A history of runs, each kept with its own chronicle. -/
inductive Annals {ι : Type} (env : Env S X W) (calls : ι → Program S X α) : W → List (ι × Chronicle S X W) → W → Prop where
  | nil (w : W) : Annals env calls w [] w
  | snoc {w w₁ w₂ : W} {l : List (ι × Chronicle S X W)} {i : ι} {o : Outcome X α} {c : Chronicle S X W} :
      Annals env calls w l w₁ → Exec (chronicling env) (calls i) (w₁, []) o (w₂, c) → Annals env calls w (l ++ [(i, c)]) w₂

/-- What every run keeps, the annals keep: of the world, and of what has been written so far. -/
theorem Annals.keeps {ι : Type} {calls : ι → Program S X α} {I : List (ι × Chronicle S X W) → W → Prop}
    (hI : ∀ l w i o c w', I l w → Exec (chronicling env) (calls i) (w, []) o (w', c) → I (l ++ [(i, c)]) w') {w w' : W}
    {l : List (ι × Chronicle S X W)} (h : Annals env calls w l w') (hw : I [] w) : I l w' := by
  induction h with
  | nil => exact hw
  | snoc _ hx ih => exact hI _ _ _ _ _ _ ih hx

/-- The chronicle of a run, as a part of the world sees it. -/
theorem Exec.chronicle_map {V : Type} {env' : Env S X V} (π : W → V)
    (henv : ∀ w op r w', env w op r w' → env' (π w) op r (π w')) (h : Exec (chronicling env) p w o w') :
    Exec (chronicling env') p (π w.1, w.2.map fun x => (π x.1, x.2)) o (π w'.1, w'.2.map fun x => (π x.1, x.2)) := by
  induction h with
  | ret a w => exact .ret a _
  | raise x w => exact .raise x _
  | crash p w => exact .crash p _
  | @call op k w w₁ w₂ r o he _ ih =>
    have hcall : chronicling env' (π w.1, w.2.map fun x => (π x.1, x.2)) op r
        (π w₁.1, w₁.2.map fun x => (π x.1, x.2)) := by
      refine ⟨henv _ _ _ _ he.1, ?_⟩
      rw [he.2, List.map_append]
      rfl
    exact .call hcall ih

/-- A run, as a part of the world sees it. -/
theorem Exec.map {V : Type} {env' : Env S X V} (π : W → V) (henv : ∀ w op r w', env w op r w' → env' (π w) op r (π w'))
    {w w' : W} (h : Exec env p w o w') : Exec env' p (π w) o (π w') := by
  induction h with
  | ret a w => exact .ret a _
  | raise x w => exact .raise x _
  | crash p w => exact .crash p _
  | call he _ ih => exact .call (henv _ _ _ _ he) ih

/-- A handler that refuses the operations that do not pass a test. -/
def Handler.checked (h : Handler S X W) (test : W → S.Op → Bool) : Handler S X W := fun w op =>
  if test w op then h w op else none

theorem Handler.Allowed.checked {h : Handler S X W} (hh : h.Allowed env) {test : W → S.Op → Bool} :
    (h.checked test).Allowed fun w op r w' => env w op r w' ∧ test w op = true := by
  intro w op r w' hr
  unfold Handler.checked at hr
  split at hr
  · exact ⟨hh _ _ _ _ hr, by assumption⟩
  · cases hr

/-- A handler that also keeps the chronicle. -/
def Handler.chronicle (h : Handler S X W) : Handler S X (W × Chronicle S X W) := fun w op =>
  (h w.1 op).map fun (r, w') => (r, w', w.2 ++ [(w.1, ⟨op, r⟩)])

theorem Handler.Allowed.chronicle {h : Handler S X W} (hh : h.Allowed env) : h.chronicle.Allowed (chronicling env) := by
  intro w op r w' hr
  obtain ⟨⟨r', w₁⟩, hx, heq⟩ := Option.map_eq_some_iff.1 hr
  cases heq
  exact ⟨hh _ _ _ _ hx, rfl⟩

end Effects
