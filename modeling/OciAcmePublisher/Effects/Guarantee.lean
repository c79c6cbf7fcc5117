import OciAcmePublisher.Effects.Triple

/-!
# What every step of a run keeps to

A guarantee is a relation between the worlds before and after one operation. A program keeps to it where every operation of every
run does; what the program knows on its way decides whether the next operation does, so the judgement also says how the run may
end. A run that is cut has kept to the guarantee so far.
-/

namespace Effects

variable {S : Signature} {X α β ι W : Type} {env : Env S X W} {G : W → W → Prop}

/-- Every operation of every run of the program from the world keeps to `G`; a result satisfies `Q`, an exception `E`. -/
def Program.Guarantees (env : Env S X W) (G : W → W → Prop) (Q : α → W → Prop) (E : X → W → Prop) :
    Program S X α → W → Prop
  | .ret a, w => Q a w
  | .raise x, w => E x w
  | .diverge, _ => True
  | .call op k, w => ∀ r w', env w op r w' → G w w' ∧ (k r).Guarantees env G Q E w'

/-- From every world with `P` the program keeps to `G`. -/
def Guarded (env : Env S X W) (G : W → W → Prop) (P : W → Prop) (p : Program S X α) (Q : α → W → Prop)
    (E : X → W → Prop) : Prop :=
  ∀ w, P w → p.Guarantees env G Q E w

namespace Guarded

variable {P P' : W → Prop} {Q Q' : α → W → Prop} {E E' : X → W → Prop}

theorem conseq {p : Program S X α} (h : Guarded env G P p Q E) (hP : ∀ w, P' w → P w) (hQ : ∀ a w, Q a w → Q' a w)
    (hE : ∀ x w, E x w → E' x w) : Guarded env G P' p Q' E' := by
  intro w hw
  replace h := h w (hP w hw)
  clear hw
  induction p generalizing w with
  | ret a => exact hQ a w h
  | raise x => exact hE x w h
  | diverge => trivial
  | call op k ih => exact fun r w' hr => ⟨(h r w' hr).1, ih r w' (h r w' hr).2⟩

theorem assume {φ : Prop} {p : Program S X α} (h : φ → Guarded env G P p Q E) : Guarded env G (fun w => P w ∧ φ) p Q E :=
  fun w hw => h hw.2 w hw.1

theorem ret {a : α} (h : ∀ w, P w → Q a w) : Guarded env G P (.ret a) Q E := h

theorem raise {x : X} (h : ∀ w, P w → E x w) : Guarded env G P (.raise x) Q E := h

theorem perform {op : S.Op} {Q : S.Reply op → W → Prop} (hG : ∀ w r w', P w → env w op r w' → G w w')
    (hok : ∀ w a w', P w → env w op (.ok a) w' → Q a w') (herr : ∀ w x w', P w → env w op (.error x) w' → E x w') :
    Guarded env G P (Program.perform op) Q E := by
  intro w hw r w' hr
  refine ⟨hG w r w' hw hr, ?_⟩
  cases r with
  | ok a => exact hok w a w' hw hr
  | error x => exact herr w x w' hw hr

theorem bind {R : α → W → Prop} {Q : β → W → Prop} {p : Program S X α} {f : α → Program S X β}
    (hp : Guarded env G P p R E) (hf : ∀ a, Guarded env G (R a) (f a) Q E) : Guarded env G P (p.bind f) Q E := by
  intro w hw
  replace hp := hp w hw
  clear hw
  induction p generalizing w with
  | ret a => exact hf a w hp
  | raise x => exact hp
  | diverge => trivial
  | call op k ih => exact fun r w' hr => ⟨(hp r w' hr).1, ih r w' (hp r w' hr).2⟩

theorem handle {R : X → W → Prop} {p : Program S X α} {h : X → Program S X α} (hp : Guarded env G P p Q R)
    (hh : ∀ x, Guarded env G (R x) (h x) Q E) : Guarded env G P (p.handle h) Q E := by
  intro w hw
  replace hp := hp w hw
  clear hw
  induction p generalizing w with
  | ret a => exact hp
  | raise x => exact hh x w hp
  | diverge => trivial
  | call op k ih => exact fun r w' hr => ⟨(hp r w' hr).1, ih r w' (hp r w' hr).2⟩

/-- `attempt` turns both ends of a run into results. -/
theorem attempt {p : Program S X α} (hp : Guarded env G P p Q E) :
    Guarded env G P p.attempt (fun r w => match r with | .ok a => Q a w | .error x => E x w) E' :=
  handle (bind hp fun _ => ret fun _ hw => hw) fun _ => ret fun _ hw => hw

/-- What every operation of the footprint keeps, while it keeps to the guarantee, the program keeps. -/
theorem frame {A : S.Op → Prop} {I : W → Prop} {p : Program S X α} (hp : p.Uses A)
    (h : ∀ w op r w', A op → I w → env w op r w' → G w w' ∧ I w') :
    Guarded env G I p (fun _ => I) fun _ => I := by
  intro w hw
  induction p generalizing w with
  | ret a => exact hw
  | raise x => exact hw
  | diverge => trivial
  | call op k ih =>
    intro r w' hr
    obtain ⟨hG, hw'⟩ := h w op r w' hp.1 hw hr
    exact ⟨hG, ih r (hp.2 r) w' hw'⟩

/-- What a triple says of the runs of a program that keeps to a guarantee. -/
theorem of_triple {I P C : W → Prop} {p : Program S X α} (hp : Guarded env G I p (fun _ => I) fun _ => I)
    (ht : Triple env P p Q E C) :
    Guarded env G (fun w => I w ∧ P w) p (fun a w => I w ∧ Q a w) fun x w => I w ∧ E x w := by
  rintro w ⟨hI, hP⟩
  have hguard := hp w hI
  have hruns : ∀ o w', Exec env p w o w' → o.Post Q E C w' := fun o w' => ht w hP o w'
  clear hp ht hI hP
  induction p generalizing w with
  | ret a => exact ⟨hguard, hruns _ _ (.ret a w)⟩
  | raise x => exact ⟨hguard, hruns _ _ (.raise x w)⟩
  | diverge => trivial
  | call op k ih =>
    intro r w' hr
    exact ⟨(hguard r w' hr).1, ih r w' (hguard r w' hr).2 fun o w₂ h => hruns o w₂ (.call hr h)⟩

/-- An invariant of the environment may be taken for granted at every step of a program, if it holds at first. -/
theorem of_restricting {I : W → Prop} (hI : ∀ w op r w', I w → env w op r w' → I w') {p : Program S X α}
    (h : Guarded (restricting env fun w _ => I w) G P p Q E) :
    Guarded env (fun w w' => G w w' ∧ I w') (fun w => I w ∧ P w) p (fun a w => I w ∧ Q a w) fun x w => I w ∧ E x w := by
  rintro w ⟨hw, hP⟩
  replace h := h w hP
  clear hP
  induction p generalizing w with
  | ret a => exact ⟨hw, h⟩
  | raise x => exact ⟨hw, h⟩
  | diverge => trivial
  | call op k ih =>
    intro r w' hr
    obtain ⟨hG, hk⟩ := h r w' ⟨hr, hw⟩
    have hw' := hI w op r w' hw hr
    exact ⟨⟨hG, hw'⟩, ih r w' hw' hk⟩

end Guarded

/-- Fewer steps keep to what more steps keep to. -/
theorem Program.Guarantees.mono {env' : Env S X W} (henv : ∀ w op r w', env' w op r w' → env w op r w') {p : Program S X α}
    {Q : α → W → Prop} {E : X → W → Prop} {w : W} (h : p.Guarantees env G Q E w) : p.Guarantees env' G Q E w := by
  induction p generalizing w with
  | ret a => exact h
  | raise x => exact h
  | diverge => trivial
  | call op k ih => exact fun r w' hr => ⟨(h r w' (henv _ _ _ _ hr)).1, ih r (h r w' (henv _ _ _ _ hr)).2⟩

/-! ## What follows for runs -/

/-- Every step of the run keeps to the guarantee, and the run ends as the judgement says. -/
theorem Exec.guaranteed {p : Program S X α} {Q : α → W → Prop} {E : X → W → Prop} {w w' : W} {o : Outcome X α}
    (h : Exec env p w o w') (hp : p.Guarantees env G Q E w) :
    Exec (restricting env G) p w o w' ∧ o.Post Q E (fun _ => True) w' := by
  induction h with
  | ret a w => exact ⟨.ret a w, hp⟩
  | raise x w => exact ⟨.raise x w, hp⟩
  | crash p w => exact ⟨.crash p w, trivial⟩
  | call he _ ih =>
    obtain ⟨hG, hk⟩ := hp _ _ he
    obtain ⟨hx, hpost⟩ := ih hk
    exact ⟨.call ⟨he, hG⟩ hx, hpost⟩

/-- What every step of an environment keeps, its runs keep. -/
theorem Exec.invariant {I : W → Prop} (hI : ∀ w op r w', I w → env w op r w' → I w') {p : Program S X α} {w w' : W}
    {o : Outcome X α} (h : Exec env p w o w') (hw : I w) : I w' := by
  induction h with
  | ret | raise | crash => exact hw
  | call he _ ih => exact ih (hI _ _ _ _ hw he)

/-- An environment that also keeps the worlds a run has passed through. -/
def witnessing (env : Env S X W) : Env S X (W × List W) :=
  fun w op r w' => env w.1 op r w'.1 ∧ w'.2 = w.2 ++ [w.1]

/-- Any run can be witnessed. -/
theorem Exec.witness {p : Program S X α} {w w' : W} {o : Outcome X α} (h : Exec env p w o w') (past : List W) :
    ∃ past', Exec (witnessing env) p (w, past) o (w', past') := by
  induction h generalizing past with
  | ret a w => exact ⟨past, .ret a (w, past)⟩
  | raise x w => exact ⟨past, .raise x (w, past)⟩
  | crash p w => exact ⟨past, .crash p (w, past)⟩
  | @call op k w w₁ w₂ r o he _ ih =>
    obtain ⟨past', h'⟩ := ih (past ++ [w])
    have hstep : witnessing env (w, past) op r (w₁, past ++ [w]) := ⟨he, rfl⟩
    exact ⟨past', .call hstep h'⟩

/-- Where `R` is reflexive and transitive and every step keeps to it, any two worlds a run passes through are related by it, the
earlier one first. -/
theorem Exec.related {R : W → W → Prop} (htrans : ∀ a b c, R a b → R b c → R a c) (hG : ∀ a b, G a b → R a b)
    {p : Program S X α} {Q : α → W → Prop} {E : X → W → Prop} {w w' : W × List W} {o : Outcome X α}
    (h : Exec (witnessing env) p w o w') (hp : p.Guarantees env G Q E w.1)
    (hw : (w.2 ++ [w.1]).Pairwise R) : (w'.2 ++ [w'.1]).Pairwise R := by
  induction h with
  | ret | raise | crash => exact hw
  | @call op k w w₁ w₂ r o he _ ih =>
    obtain ⟨hstep, hk⟩ := hp _ _ he.1
    refine ih hk ?_
    rw [he.2, List.pairwise_append]
    refine ⟨hw, List.pairwise_singleton _ _, fun a ha b hb => ?_⟩
    rw [List.mem_singleton] at hb
    subst hb
    rcases List.mem_append.1 ha with hpast | hlast
    · have hlast : R a w.1 := (List.pairwise_append.1 hw).2.2 a hpast w.1 (List.mem_singleton_self _)
      exact htrans _ _ _ hlast (hG _ _ hstep)
    · rw [List.mem_singleton.1 hlast]
      exact hG _ _ hstep

/-- What every step keeps holds of all the worlds a run passes through. -/
theorem Exec.passed {I : W → Prop} (hG : ∀ a b, G a b → I a → I b) {p : Program S X α} {Q : α → W → Prop}
    {E : X → W → Prop} {w w' : W × List W} {o : Outcome X α} (h : Exec (witnessing env) p w o w')
    (hp : p.Guarantees env G Q E w.1) (hw : ∀ a ∈ w.2 ++ [w.1], I a) : ∀ a ∈ w'.2 ++ [w'.1], I a := by
  induction h with
  | ret | raise | crash => exact hw
  | @call op k w w₁ w₂ r o he _ ih =>
    obtain ⟨hstep, hk⟩ := hp _ _ he.1
    refine ih hk fun a ha => ?_
    rw [he.2] at ha
    rcases List.mem_append.1 ha with hpast | hlast
    · exact hw a hpast
    · rw [List.mem_singleton.1 hlast]
      exact hG _ _ hstep (hw _ (List.mem_append_right _ (List.mem_singleton_self _)))

end Effects
