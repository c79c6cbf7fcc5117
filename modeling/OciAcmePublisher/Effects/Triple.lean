import OciAcmePublisher.Effects.Program

/-!
# Reasoning about programs that may be cut

A crash triple says what holds when a run returns, when it raises and when it is cut: the third condition must hold in every
world the run passes through. The footprint of a program is the set of operations it may perform; what no operation of the
footprint changes, the program does not change.
-/

namespace Effects

variable {S : Signature} {X α β ι W : Type} {env : Env S X W}

/-- What holds at the end of a run: `Q` of a result, `E` of an exception, `C` after a crash. -/
def Outcome.Post (Q : α → W → Prop) (E : X → W → Prop) (C : W → Prop) : Outcome X α → W → Prop
  | .returned a, w => Q a w
  | .raised x, w => E x w
  | .crashed, w => C w

/-- Every run of `p` from a world with `P` ends as `Q`, `E` and `C` say. -/
def Triple (env : Env S X W) (P : W → Prop) (p : Program S X α) (Q : α → W → Prop) (E : X → W → Prop)
    (C : W → Prop) : Prop :=
  ∀ w, P w → ∀ o w', Exec env p w o w' → o.Post Q E C w'

namespace Triple

variable {P P' C C' : W → Prop} {Q Q' : α → W → Prop} {E E' : X → W → Prop}

theorem returned {p : Program S X α} (h : Triple env P p Q E C) {w w' : W} {a : α} (hw : P w)
    (hx : Exec env p w (.returned a) w') : Q a w' :=
  h w hw _ w' hx

/-- A run may be cut before its first operation. -/
theorem crash_pre {p : Program S X α} (h : Triple env P p Q E C) {w : W} (hw : P w) : C w :=
  h w hw .crashed w (.crash p w)

theorem conseq {p : Program S X α} (h : Triple env P p Q E C) (hP : ∀ w, P' w → P w) (hQ : ∀ a w, Q a w → Q' a w)
    (hE : ∀ x w, E x w → E' x w) (hC : ∀ w, C w → C' w) : Triple env P' p Q' E' C' := by
  intro w hw o w' hx
  have hpost := h w (hP w hw) o w' hx
  cases o with
  | returned a => exact hQ a w' hpost
  | raised x => exact hE x w' hpost
  | crashed => exact hC w' hpost

theorem pre {p : Program S X α} (h : Triple env P p Q E C) (hP : ∀ w, P' w → P w) : Triple env P' p Q E C :=
  h.conseq hP (fun _ _ => id) (fun _ _ => id) (fun _ => id)

theorem post {p : Program S X α} (h : Triple env P p Q E C) (hQ : ∀ a w, Q a w → Q' a w) : Triple env P p Q' E C :=
  h.conseq (fun _ => id) hQ (fun _ _ => id) (fun _ => id)

/-- A pure precondition moves out of the triple. -/
theorem assume {φ : Prop} {p : Program S X α} (h : φ → Triple env P p Q E C) :
    Triple env (fun w => P w ∧ φ) p Q E C :=
  fun w hw => h hw.2 w hw.1

/-- A precondition that names a witness is proved for every witness. -/
theorem of_exists {P : ι → W → Prop} {p : Program S X α} (h : ∀ i, Triple env (P i) p Q E C) :
    Triple env (fun w => ∃ i, P i w) p Q E C :=
  fun w ⟨i, hw⟩ => h i w hw

/-- A precondition by cases is proved case by case. -/
theorem or {P₁ P₂ : W → Prop} {p : Program S X α} (h₁ : Triple env P₁ p Q E C) (h₂ : Triple env P₂ p Q E C) :
    Triple env (fun w => P₁ w ∨ P₂ w) p Q E C := by
  rintro w (hw | hw)
  · exact h₁ w hw
  · exact h₂ w hw

theorem ret {a : α} (hQ : ∀ w, P w → Q a w) (hC : ∀ w, P w → C w) :
    Triple env P (.ret a : Program S X α) Q E C := by
  intro w hw o w' hx
  obtain ⟨rfl, rfl | rfl⟩ := exec_ret_iff.1 hx
  · exact hQ _ hw
  · exact hC _ hw

theorem raise {x : X} (hE : ∀ w, P w → E x w) (hC : ∀ w, P w → C w) :
    Triple env P (.raise x : Program S X α) Q E C := by
  intro w hw o w' hx
  obtain ⟨rfl, rfl | rfl⟩ := exec_raise_iff.1 hx
  · exact hE _ hw
  · exact hC _ hw

theorem diverge (hC : ∀ w, P w → C w) : Triple env P (.diverge : Program S X α) Q E C := by
  intro w hw o w' hx
  obtain ⟨rfl, rfl⟩ := exec_diverge_iff.1 hx
  exact hC _ hw

theorem perform {op : S.Op} {Q : S.Reply op → W → Prop} (hC : ∀ w, P w → C w)
    (hok : ∀ w a w', P w → env w op (.ok a) w' → Q a w' ∧ C w')
    (herr : ∀ w x w', P w → env w op (.error x) w' → E x w' ∧ C w') :
    Triple env P (Program.perform op) Q E C := by
  intro w hw o w' hx
  rcases exec_perform_iff.1 hx with ⟨rfl, rfl⟩ | ⟨r, he, ho⟩
  · exact hC _ hw
  · cases r with
    | ok a =>
      rcases ho with rfl | rfl
      · exact (hok w a w' hw he).1
      · exact (hok w a w' hw he).2
    | error x =>
      rcases ho with rfl | rfl
      · exact (herr w x w' hw he).1
      · exact (herr w x w' hw he).2

theorem bind {R : α → W → Prop} {Q : β → W → Prop} {p : Program S X α} {f : α → Program S X β}
    (hp : Triple env P p R E C) (hf : ∀ a, Triple env (R a) (f a) Q E C) : Triple env P (p.bind f) Q E C := by
  intro w hw o w' hx
  rcases exec_bind_iff.1 hx with ⟨a, w₁, hp', hf'⟩ | ⟨x, rfl, hp'⟩ | ⟨rfl, hp'⟩
  · exact hf a w₁ (hp.returned hw hp') o w' hf'
  · exact hp w hw _ w' hp'
  · exact hp w hw _ w' hp'

theorem handle {R : X → W → Prop} {p : Program S X α} {h : X → Program S X α} (hp : Triple env P p Q R C)
    (hh : ∀ x, Triple env (R x) (h x) Q E C) : Triple env P (p.handle h) Q E C := by
  intro w hw o w' hx
  rcases exec_handle_iff.1 hx with ⟨x, w₁, hp', hh'⟩ | ⟨a, rfl, hp'⟩ | ⟨rfl, hp'⟩
  · exact hh x w₁ (hp w hw _ w₁ hp') o w' hh'
  · exact hp w hw _ w' hp'
  · exact hp w hw _ w' hp'

/-- Nothing is claimed. -/
theorem unconstrained (p : Program S X α) : Triple env P p (fun _ _ => True) (fun _ _ => True) fun _ => True := by
  intro w _ o w' _
  cases o <;> trivial

/-- Nothing is claimed of the runs before the last part of a sequence. -/
theorem last {Q : β → W → Prop} (p : Program S X α) {f : α → Program S X β}
    (hf : ∀ a, Triple env (fun _ => True) (f a) Q (fun _ _ => True) fun _ => True) :
    Triple env P (p.bind f) Q (fun _ _ => True) fun _ => True :=
  bind (unconstrained p) hf

/-- `attempt` turns both ends of a run into results. -/
theorem attempt {p : Program S X α} (h : Triple env P p Q E C) (hC : ∀ a w, Q a w → C w) (hC' : ∀ x w, E x w → C w) :
    Triple env P p.attempt (fun r w => match r with | .ok a => Q a w | .error x => E x w) E' C := by
  have hok : Triple env P (p.bind fun a => (.ret (.ok a) : Program S X (Except X α)))
      (fun r w => match r with | .ok a => Q a w | .error x => E x w) E C :=
    bind h fun a => ret (fun _ hw => hw) (hC a)
  exact handle hok fun x => ret (fun _ hw => hw) (hC' x)

/-- One operation whose answer is taken as it is. -/
theorem attempt_perform {op : S.Op} {Q : Except X (S.Reply op) → W → Prop} (hC : ∀ w, P w → C w)
    (h : ∀ w r w', P w → env w op r w' → Q r w' ∧ C w') : Triple env P (Program.perform op).attempt Q E C := by
  have hperform : Triple env P (Program.perform op) (fun a w => Q (.ok a) w ∧ C w) (fun x w => Q (.error x) w ∧ C w) C :=
    perform hC (fun w a w' hw he => ⟨h w _ w' hw he, (h w _ w' hw he).2⟩)
      fun w x w' hw he => ⟨h w _ w' hw he, (h w _ w' hw he).2⟩
  refine (attempt hperform (fun _ _ hw => hw.2) fun _ _ hw => hw.2).post fun r w hw => ?_
  cases r with
  | ok a => exact hw.1
  | error x => exact hw.1

/-- `try p finally q`: `q` does its part after every end of `p`. -/
theorem ensure {p : Program S X α} {q : Program S X Unit} (hp : Triple env P p Q E C)
    (hq : ∀ a, Triple env (Q a) q (fun _ => Q' a) E' C) (hx : ∀ x, Triple env (E x) q (fun _ => E' x) E' C)
    (hQ : ∀ a w, Q' a w → C w) (hE : ∀ x w, E' x w → C w) : Triple env P (p.ensure q) Q' E' C := by
  rw [Program.ensure_eq]
  have hends : Triple env P p.attempt (fun r w => match r with | .ok a => Q a w | .error x => E x w) E' C :=
    attempt hp (fun a _ hw => (hq a).crash_pre hw) fun x _ hw => (hx x).crash_pre hw
  refine bind hends fun r => ?_
  cases r with
  | ok a => exact bind (hq a) fun _ => ret (fun _ hw => hw) (hQ a)
  | error x => exact bind (hx x) fun _ => raise (fun _ hw => hw) (hE x)

/-- Two triples of one program hold together. -/
theorem and {P₂ C₂ : W → Prop} {Q₂ : α → W → Prop} {E₂ : X → W → Prop} {p : Program S X α}
    (h : Triple env P p Q E C) (h₂ : Triple env P₂ p Q₂ E₂ C₂) :
    Triple env (fun w => P w ∧ P₂ w) p (fun a w => Q a w ∧ Q₂ a w) (fun x w => E x w ∧ E₂ x w)
      (fun w => C w ∧ C₂ w) := by
  intro w hw o w' hx
  have h1 := h w hw.1 o w' hx
  have h2 := h₂ w hw.2 o w' hx
  cases o <;> exact ⟨h1, h2⟩

end Triple

/-! ## Environments given by steps -/

/-- The environment of the steps `step`: an operation takes effect, or raises and changes nothing, by a fault or because it cannot
take effect; `refused` says what it raises then. -/
def stepping (step : W → (op : S.Op) → S.Reply op → W → Prop) (refused : X → Prop) (faults : S.Op → X → Prop) :
    Env S X W := fun w op answer w' =>
  match answer with
  | .ok reply => step w op reply w'
  | .error x => w' = w ∧ (faults op x ∨ (refused x ∧ ∀ reply w₁, ¬step w op reply w₁))

/-- Every operation gets an answer. -/
theorem stepping_answers {step : W → (op : S.Op) → S.Reply op → W → Prop} {refused : X → Prop}
    {faults : S.Op → X → Prop} {x : X} (hx : refused x) (w : W) (op : S.Op) :
    ∃ r w', stepping step refused faults w op r w' := by
  by_cases h : ∃ reply w', step w op reply w'
  · obtain ⟨reply, w', hs⟩ := h
    exact ⟨.ok reply, w', hs⟩
  · exact ⟨.error x, w, rfl, Or.inr ⟨hx, fun reply w' hs => h ⟨reply, w', hs⟩⟩⟩

/-! ## Footprints -/

namespace Program

/-- Every operation the program may perform is one of `A`. -/
def Uses (A : S.Op → Prop) : Program S X α → Prop
  | .ret _ => True
  | .raise _ => True
  | .diverge => True
  | .call op k => A op ∧ ∀ r, (k r).Uses A

variable {A B : S.Op → Prop}

@[simp] theorem uses_ret (a : α) : (ret a : Program S X α).Uses A := trivial

@[simp] theorem uses_raise (x : X) : (raise x : Program S X α).Uses A := trivial

@[simp] theorem uses_diverge : (diverge : Program S X α).Uses A := trivial

@[simp] theorem uses_perform {op : S.Op} : (perform op : Program S X _).Uses A ↔ A op := by
  refine ⟨fun h => h.1, fun h => ⟨h, ?_⟩⟩
  intro r
  cases r <;> trivial

theorem uses_bind {p : Program S X α} {f : α → Program S X β} (hp : p.Uses A) (hf : ∀ a, (f a).Uses A) :
    (p.bind f).Uses A := by
  induction p with
  | ret a => exact hf a
  | raise x => trivial
  | diverge => trivial
  | call op k ih => exact ⟨hp.1, fun r => ih r (hp.2 r)⟩

theorem uses_handle {p : Program S X α} {h : X → Program S X α} (hp : p.Uses A) (hh : ∀ x, (h x).Uses A) :
    (p.handle h).Uses A := by
  induction p with
  | ret a => trivial
  | raise x => exact hh x
  | diverge => trivial
  | call op k ih => exact ⟨hp.1, fun r => ih r (hp.2 r)⟩

theorem uses_ensure {p : Program S X α} {q : Program S X Unit} (hp : p.Uses A) (hq : q.Uses A) :
    (p.ensure q).Uses A := by
  induction p with
  | ret a => exact uses_bind hq fun _ => trivial
  | raise x => exact uses_bind hq fun _ => trivial
  | diverge => trivial
  | call op k ih => exact ⟨hp.1, fun r => ih r (hp.2 r)⟩

theorem uses_attempt {p : Program S X α} (hp : p.Uses A) : p.attempt.Uses A :=
  uses_handle (uses_bind hp fun _ => trivial) fun _ => trivial

theorem Uses.mono {p : Program S X α} (hp : p.Uses A) (h : ∀ op, A op → B op) : p.Uses B := by
  induction p with
  | ret a => trivial
  | raise x => trivial
  | diverge => trivial
  | call op k ih => exact ⟨h op hp.1, fun r => ih r (hp.2 r)⟩

end Program

/-- What every operation of the footprint keeps, the run keeps, however it ends. -/
theorem Exec.keeps {A : S.Op → Prop} {I : W → Prop} (hI : ∀ w op r w', A op → I w → env w op r w' → I w')
    {p : Program S X α} {w w' : W} {o : Outcome X α} (hx : Exec env p w o w') (hp : p.Uses A) (hw : I w) : I w' := by
  induction hx with
  | ret | raise | crash => exact hw
  | call he _ ih => exact ih (hp.2 _) (hI _ _ _ _ hp.1 hw he)

/-- The frame rule: a program whose footprint keeps `I` keeps `I`. -/
theorem Triple.frame {A : S.Op → Prop} {I : W → Prop} {p : Program S X α} (hp : p.Uses A)
    (hI : ∀ w op r w', A op → I w → env w op r w' → I w') :
    Triple env I p (fun _ => I) (fun _ => I) I := by
  intro w hw o w' hx
  have h := hx.keeps hI hp hw
  cases o <;> exact h

/-! ## Results -/

namespace Program

/-- Every result the program may return satisfies `φ`, whatever is answered. -/
def Yields (φ : α → Prop) : Program S X α → Prop
  | .ret a => φ a
  | .raise _ => True
  | .diverge => True
  | .call _ k => ∀ r, (k r).Yields φ

theorem yields_bind {φ : α → Prop} {ψ : β → Prop} {p : Program S X α} {f : α → Program S X β} (hp : p.Yields φ)
    (hf : ∀ a, φ a → (f a).Yields ψ) : (p.bind f).Yields ψ := by
  induction p with
  | ret a => exact hf a hp
  | raise x => trivial
  | diverge => trivial
  | call op k ih => exact fun r => ih r (hp r)

theorem yields_true (p : Program S X α) : p.Yields fun _ => True := by
  induction p with
  | ret | raise | diverge => trivial
  | call op k ih => exact ih

/-- Only the last part of a sequence returns. -/
theorem yields_last {ψ : β → Prop} (p : Program S X α) {f : α → Program S X β} (hf : ∀ a, (f a).Yields ψ) :
    (p.bind f).Yields ψ :=
  yields_bind p.yields_true fun a _ => hf a

theorem yields_handle {φ : α → Prop} {p : Program S X α} {h : X → Program S X α} (hp : p.Yields φ)
    (hh : ∀ x, (h x).Yields φ) : (p.handle h).Yields φ := by
  induction p with
  | ret a => exact hp
  | raise x => exact hh x
  | diverge => trivial
  | call op k ih => exact fun r => ih r (hp r)

end Program

theorem Exec.yields {φ : α → Prop} {p : Program S X α} (hp : p.Yields φ) {w w' : W} {o : Outcome X α}
    (h : Exec env p w o w') {a : α} (ho : o = .returned a) : φ a := by
  induction h with
  | ret b w =>
    cases ho
    exact hp
  | raise | crash => cases ho
  | call _ _ ih => exact ih (hp _) ho

/-! ## Exceptions -/

namespace Program

/-- Every exception the program may raise satisfies `φ`, where those it is answered with do. -/
def Raises (φ : X → Prop) : Program S X α → Prop
  | .ret _ => True
  | .raise x => φ x
  | .diverge => True
  | .call _ k => (∀ a, (k (.ok a)).Raises φ) ∧ ∀ x, φ x → (k (.error x)).Raises φ

variable {φ : X → Prop}

theorem raises_perform (op : S.Op) : (perform op : Program S X _).Raises φ :=
  ⟨fun _ => trivial, fun _ hx => hx⟩

theorem raises_bind {p : Program S X α} {f : α → Program S X β} (hp : p.Raises φ) (hf : ∀ a, (f a).Raises φ) :
    (p.bind f).Raises φ := by
  induction p with
  | ret a => exact hf a
  | raise x => exact hp
  | diverge => trivial
  | call op k ih => exact ⟨fun a => ih _ (hp.1 a), fun x hx => ih _ (hp.2 x hx)⟩

theorem raises_handle {p : Program S X α} {h : X → Program S X α} (hp : p.Raises φ)
    (hh : ∀ x, φ x → (h x).Raises φ) : (p.handle h).Raises φ := by
  induction p with
  | ret a => trivial
  | raise x => exact hh x hp
  | diverge => trivial
  | call op k ih => exact ⟨fun a => ih _ (hp.1 a), fun x hx => ih _ (hp.2 x hx)⟩

/-- An attempt raises nothing; the exception it gives satisfies `φ`. -/
theorem raises_attempt_bind {p : Program S X α} {f : Except X α → Program S X β} (hp : p.Raises φ)
    (hok : ∀ a, (f (.ok a)).Raises φ) (herr : ∀ x, φ x → (f (.error x)).Raises φ) : (p.attempt.bind f).Raises φ := by
  induction p with
  | ret a => exact hok a
  | raise x => exact herr x hp
  | diverge => trivial
  | call op k ih => exact ⟨fun a => ih _ (hp.1 a), fun x hx => ih _ (hp.2 x hx)⟩

end Program

/-- Where the operations a program uses raise what satisfies `φ`, so does the program. -/
theorem Triple.raises_of_uses {A : S.Op → Prop} {φ : X → Prop} (henv : ∀ w op x w', A op → env w op (.error x) w' → φ x)
    {p : Program S X α} (hp : p.Uses A) (hr : p.Raises φ) :
    Triple env (fun _ => True) p (fun _ _ => True) (fun x _ => φ x) fun _ => True := by
  intro w _ o w' hx
  induction hx with
  | ret | crash => trivial
  | raise x w => exact hr
  | @call op k w w₁ w₂ r o he _ ih =>
    cases r with
    | ok a => exact ih (hp.2 _) (hr.1 a)
    | error x => exact ih (hp.2 _) (hr.2 x (henv _ _ _ _ hp.1 he))

/-- Where the environment raises what satisfies `φ`, so does the program. -/
theorem Triple.raises {φ : X → Prop} (henv : ∀ w op x w', env w op (.error x) w' → φ x) {p : Program S X α}
    (hp : p.Raises φ) : Triple env (fun _ => True) p (fun _ _ => True) (fun x _ => φ x) fun _ => True := by
  intro w _ o w' hx
  induction hx with
  | ret | crash => trivial
  | raise x w => exact hp
  | @call op k w w₁ w₂ r o he _ ih =>
    cases r with
    | ok a => exact ih (hp.1 a)
    | error x => exact ih (hp.2 x (henv _ _ _ _ he))

/-! ## One answer -/

/-- Where what the program may perform has one answer, seen through `π`, a finished run computes what `eval` does. -/
theorem Exec.eval {V : Type} {A : S.Op → Prop} {π : W → V} {h : V → (op : S.Op) → Except X (S.Reply op) × V}
    (henv : ∀ w op r w', A op → env w op r w' → h (π w) op = (r, π w')) {p : Program S X α} {w w' : W}
    {o : Outcome X α} (hx : Exec env p w o w') (hp : p.Uses A) (ho : o ≠ .crashed) :
    p.eval h (π w) = (o, π w') := by
  induction hx with
  | ret | raise => rfl
  | crash => exact absurd rfl ho
  | call he _ ih =>
    unfold Program.eval
    rw [henv _ _ _ _ hp.1 he]
    exact ih (hp.2 _) ho

/-! ## Histories -/

/-- A history of runs: the runs of the programs `calls i`, one after the other, each with the way it ended. -/
inductive History (env : Env S X W) (calls : ι → Program S X α) : W → List (ι × Outcome X α) → W → Prop where
  | nil (w : W) : History env calls w [] w
  | snoc {w w₁ w₂ : W} {l : List (ι × Outcome X α)} {i : ι} {o : Outcome X α} :
      History env calls w l w₁ → Exec env (calls i) w₁ o w₂ → History env calls w (l ++ [(i, o)]) w₂

/-- What every run keeps, a history keeps. -/
theorem History.keeps {calls : ι → Program S X α} {I : W → Prop}
    (hI : ∀ i w o w', I w → Exec env (calls i) w o w' → I w') {w w' : W} {l : List (ι × Outcome X α)}
    (h : History env calls w l w') (hw : I w) : I w' := by
  induction h with
  | nil => exact hw
  | snoc _ hx ih => exact hI _ _ _ _ ih hx

theorem History.eq_of_nil {calls : ι → Program S X α} {w w' : W} (h : History env calls w [] w') : w' = w := by
  generalize hl : ([] : List (ι × Outcome X α)) = l at h
  cases h with
  | nil => rfl
  | snoc => simp at hl

/-- A history without its last run is a history, and the last run leads to its last world. -/
theorem History.split {calls : ι → Program S X α} {w w' : W} {l : List (ι × Outcome X α)} {i : ι} {o : Outcome X α}
    (h : History env calls w (l ++ [(i, o)]) w') : ∃ w₁, History env calls w l w₁ ∧ Exec env (calls i) w₁ o w' := by
  generalize hl : l ++ [(i, o)] = runs at h
  cases h with
  | nil => simp at hl
  | snoc hpast hx =>
    obtain ⟨rfl, hlast⟩ := List.append_inj' hl rfl
    cases hlast
    exact ⟨_, hpast, hx⟩

/-- The last run of a history leads to its last world. -/
theorem History.last {calls : ι → Program S X α} {w w' : W} {l l' : List (ι × Outcome X α)} {i : ι} {o : Outcome X α}
    (h : History env calls w l w') (hl : l = l' ++ [(i, o)]) : ∃ w₁, Exec env (calls i) w₁ o w' := by
  subst hl
  obtain ⟨w₁, -, hx⟩ := h.split
  exact ⟨w₁, hx⟩

/-- A timeline of runs: before each of them something else may happen, as `between` allows; every run is kept with the world it
started from. -/
inductive Timeline (env : Env S X W) (between : W → W → Prop) (calls : ι → Program S X α) :
    W → List (ι × W) → W → Prop where
  | nil (w : W) : Timeline env between calls w [] w
  | snoc {w w₁ w₂ w₃ : W} {l : List (ι × W)} {i : ι} {o : Outcome X α} :
      Timeline env between calls w l w₁ → between w₁ w₂ → Exec env (calls i) w₂ o w₃ →
        Timeline env between calls w (l ++ [(i, w₂)]) w₃

/-- What happens between the runs and every run that starts as `A` says keep, the timeline keeps. -/
theorem Timeline.keeps {between : W → W → Prop} {calls : ι → Program S X α} {I : W → Prop} {A : ι → W → Prop}
    (hbetween : ∀ w w', I w → between w w' → I w')
    (hrun : ∀ i w o w', I w → A i w → Exec env (calls i) w o w' → I w') {w w' : W} {l : List (ι × W)}
    (h : Timeline env between calls w l w') (hok : ∀ x ∈ l, A x.1 x.2) (hw : I w) : I w' := by
  induction h with
  | nil => exact hw
  | snoc _ hb hx ih =>
    have hlast := hok _ (List.mem_append_right _ (List.mem_singleton_self _))
    exact hrun _ _ _ _ (hbetween _ _ (ih fun x hx => hok x (List.mem_append_left _ hx)) hb) hlast hx

/-- An environment in which every step also keeps to a relation of the worlds. -/
def restricting (env : Env S X W) (R : W → W → Prop) : Env S X W := fun w op r w' => env w op r w' ∧ R w w'

theorem Exec.unrestrict {R : W → W → Prop} {p : Program S X α} {w w' : W} {o : Outcome X α}
    (h : Exec (restricting env R) p w o w') : Exec env p w o w' := by
  induction h with
  | ret a w => exact .ret a w
  | raise x w => exact .raise x w
  | crash p w => exact .crash p w
  | call he _ ih => exact .call he.1 ih

/-! ## Environments that record the answers -/

/-- An operation that was performed, with the answer it got. -/
structure Event (S : Signature) (X : Type) where
  op : S.Op
  answer : Except X (S.Reply op)

/-- The environment that allows every answer and keeps the list of what was performed. -/
def anyAnswer : Env S X (List (Event S X)) := fun t op r t' => t' = t ++ [⟨op, r⟩]

/-- An environment that also keeps the list of what was performed. -/
def recording (env : Env S X W) : Env S X (W × List (Event S X)) :=
  fun w op r w' => env w.1 op r w'.1 ∧ w'.2 = w.2 ++ [⟨op, r⟩]

/-- Any run can be recorded. -/
theorem Exec.record {p : Program S X α} {w w' : W} {o : Outcome X α} (h : Exec env p w o w')
    (t : List (Event S X)) : ∃ t', Exec (recording env) p (w, t) o (w', t') := by
  induction h generalizing t with
  | ret a w => exact ⟨t, .ret a (w, t)⟩
  | raise x w => exact ⟨t, .raise x (w, t)⟩
  | crash p w => exact ⟨t, .crash p (w, t)⟩
  | @call op k w w₁ w₂ r o he _ ih =>
    obtain ⟨t', ht'⟩ := ih (t ++ [⟨op, r⟩])
    have hstep : recording env (w, t) op r (w₁, t ++ [⟨op, r⟩]) := ⟨he, rfl⟩
    exact ⟨t', .call hstep ht'⟩

/-- A recorded run is a run. -/
theorem Exec.unrecord {p : Program S X α} {w w' : W × List (Event S X)} {o : Outcome X α}
    (h : Exec (recording env) p w o w') : Exec env p w.1 o w'.1 := by
  induction h with
  | ret a w => exact .ret a w.1
  | raise x w => exact .raise x w.1
  | crash p w => exact .crash p w.1
  | call he _ ih => exact .call he.1 ih

/-- A recorded run is a run under the answers it got. -/
theorem Exec.anyAnswer {p : Program S X α} {w w' : W × List (Event S X)} {o : Outcome X α}
    (h : Exec (recording env) p w o w') : Exec anyAnswer p w.2 o w'.2 := by
  induction h with
  | ret a w => exact .ret a w.2
  | raise x w => exact .raise x w.2
  | crash p w => exact .crash p w.2
  | call he _ ih => exact .call he.2 ih

/-- What is known of the world and what is known of the operations performed, together. -/
theorem Triple.recorded {P C : W → Prop} {P₂ C₂ : List (Event S X) → Prop} {Q : α → W → Prop} {E : X → W → Prop}
    {Q₂ : α → List (Event S X) → Prop} {E₂ : X → List (Event S X) → Prop} {p : Program S X α} (h : Triple env P p Q E C)
    (h₂ : Triple Effects.anyAnswer P₂ p Q₂ E₂ C₂) :
    Triple (recording env) (fun w => P w.1 ∧ P₂ w.2) p (fun a w => Q a w.1 ∧ Q₂ a w.2) (fun x w => E x w.1 ∧ E₂ x w.2)
      fun w => C w.1 ∧ C₂ w.2 := by
  intro w hw o w' hx
  have h1 := h w.1 hw.1 o w'.1 hx.unrecord
  have h2 := h₂ w.2 hw.2 o w'.2 hx.anyAnswer
  cases o <;> exact ⟨h1, h2⟩

/-- A handler that also keeps the list of what was performed. -/
def Handler.record (h : Handler S X W) : Handler S X (W × List (Event S X)) := fun w op =>
  (h w.1 op).map fun (r, w') => (r, w', w.2 ++ [⟨op, r⟩])

theorem Handler.Allowed.record {h : Handler S X W} (hh : h.Allowed env) : h.record.Allowed (recording env) := by
  intro w op r w' hr
  obtain ⟨⟨r', w₁⟩, hx, heq⟩ := Option.map_eq_some_iff.1 hr
  cases heq
  exact ⟨hh _ _ _ _ hx, rfl⟩

end Effects
