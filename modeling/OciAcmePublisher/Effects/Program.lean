import Mathlib.Logic.Basic
import Mathlib.Tactic.Common

/-!
# Programs over a signature of operations

A program performs the operations of a signature one after the other, may raise an exception and may catch one. What an
operation does is not part of the program: an environment says which replies it may give and how the world changes with it.
A run may be cut at any point (a crash): the world is then the one the last performed operation left. Programs are finite
trees; the leaf `diverge` stands where the modelled code goes on past the number of rounds its loop was unrolled for, so that a
run that gets there can only be cut.
-/

namespace Effects

/-- The operations a program may perform, each with the type of its replies. -/
structure Signature where
  Op : Type
  Reply : Op → Type

/-- A program over the signature `S` with exceptions in `X` and results in `α`. Every operation answers with a reply or with
an exception, and the program goes on from the answer. -/
inductive Program (S : Signature) (X α : Type) : Type where
  | ret (a : α)
  | raise (x : X)
  | diverge
  | call (op : S.Op) (k : Except X (S.Reply op) → Program S X α)

variable {S : Signature} {X Y α β W : Type}

namespace Program

/-- Sequencing: an exception of the first program skips the second. -/
def bind (p : Program S X α) (f : α → Program S X β) : Program S X β :=
  match p with
  | .ret a => f a
  | .raise x => .raise x
  | .diverge => .diverge
  | .call op k => .call op fun r => (k r).bind f

/-- `try p except h`: the handler runs on the exception of `p`. -/
def handle (p : Program S X α) (h : X → Program S X α) : Program S X α :=
  match p with
  | .ret a => .ret a
  | .raise x => h x
  | .diverge => .diverge
  | .call op k => .call op fun r => (k r).handle h

instance : Monad (Program S X) where
  pure := .ret
  bind := bind

/-- Perform one operation; its exception is raised. -/
def perform (op : S.Op) : Program S X (S.Reply op) :=
  .call op fun
    | .ok a => .ret a
    | .error x => .raise x

/-- The program that raises an exception of `p` as a value. -/
def attempt (p : Program S X α) : Program S X (Except X α) :=
  (p.bind fun a => .ret (.ok a)).handle fun x => .ret (.error x)

/-- `try p finally q`: `q` runs on the way out of `p`, and an exception of `q` replaces the outcome of `p`. -/
def ensure (p : Program S X α) (q : Program S X Unit) : Program S X α :=
  match p with
  | .ret a => q.bind fun _ => .ret a
  | .raise x => q.bind fun _ => .raise x
  | .diverge => .diverge
  | .call op k => .call op fun r => (k r).ensure q

/-- `ensure`, as a case distinction on how `p` ended. -/
theorem ensure_eq (p : Program S X α) (q : Program S X Unit) :
    p.ensure q = p.attempt.bind fun
      | .ok a => q.bind fun _ => .ret a
      | .error x => q.bind fun _ => .raise x := by
  induction p with
  | ret a => rfl
  | raise x => rfl
  | diverge => rfl
  | call op k ih =>
    simp only [ensure, attempt, bind, handle]
    congr 1
    funext r
    exact ih r

@[simp] theorem pure_eq (a : α) : (pure a : Program S X α) = .ret a := rfl

@[simp] theorem bind_eq (p : Program S X α) (f : α → Program S X β) : (p >>= f) = p.bind f := rfl

@[simp] theorem ret_bind (a : α) (f : α → Program S X β) : (ret a : Program S X α).bind f = f a := rfl

@[simp] theorem raise_bind (x : X) (f : α → Program S X β) : (raise x : Program S X α).bind f = .raise x := rfl

@[simp] theorem diverge_bind (f : α → Program S X β) : (diverge : Program S X α).bind f = .diverge := rfl

end Program

/-- How a run ends: with a result, with an exception, or cut by a crash. -/
inductive Outcome (X α : Type) : Type where
  | returned (a : α)
  | raised (x : X)
  | crashed
  deriving DecidableEq, Repr

/-- The answer an operation gives its caller, as the outcome of the run that computed it. -/
def Outcome.ofExcept : Except X α → Outcome X α
  | .ok a => .returned a
  | .error x => .raised x

/-- An environment over worlds `W`: which answers an operation may get in a world, and which world it leaves. -/
abbrev Env (S : Signature) (X W : Type) := W → (op : S.Op) → Except X (S.Reply op) → W → Prop

/-- The runs of a program in an environment, from a world to an outcome and a world. -/
inductive Exec (env : Env S X W) : Program S X α → W → Outcome X α → W → Prop where
  | ret (a : α) (w : W) : Exec env (.ret a) w (.returned a) w
  | raise (x : X) (w : W) : Exec env (.raise x) w (.raised x) w
  | crash (p : Program S X α) (w : W) : Exec env p w .crashed w
  | call {op : S.Op} {k : Except X (S.Reply op) → Program S X α} {w w₁ w₂ : W} {r : Except X (S.Reply op)}
      {o : Outcome X α} : env w op r w₁ → Exec env (k r) w₁ o w₂ → Exec env (.call op k) w o w₂

variable {env : Env S X W}

theorem exec_ret_iff {a : α} {w w' : W} {o : Outcome X α} :
    Exec env (.ret a) w o w' ↔ w' = w ∧ (o = .returned a ∨ o = .crashed) := by
  constructor
  · intro h
    cases h
    · exact ⟨rfl, Or.inl rfl⟩
    · exact ⟨rfl, Or.inr rfl⟩
  · rintro ⟨rfl, rfl | rfl⟩
    · exact .ret a w'
    · exact .crash _ w'

theorem exec_raise_iff {x : X} {w w' : W} {o : Outcome X α} :
    Exec env (.raise x : Program S X α) w o w' ↔ w' = w ∧ (o = .raised x ∨ o = .crashed) := by
  constructor
  · intro h
    cases h
    · exact ⟨rfl, Or.inl rfl⟩
    · exact ⟨rfl, Or.inr rfl⟩
  · rintro ⟨rfl, rfl | rfl⟩
    · exact .raise x w'
    · exact .crash _ w'

theorem exec_diverge_iff {w w' : W} {o : Outcome X α} :
    Exec env (.diverge : Program S X α) w o w' ↔ w' = w ∧ o = .crashed := by
  constructor
  · intro h
    cases h
    exact ⟨rfl, rfl⟩
  · rintro ⟨rfl, rfl⟩
    exact .crash _ w'

theorem exec_call_iff {op : S.Op} {k : Except X (S.Reply op) → Program S X α} {w w' : W} {o : Outcome X α} :
    Exec env (.call op k) w o w' ↔
      (o = .crashed ∧ w' = w) ∨ ∃ r w₁, env w op r w₁ ∧ Exec env (k r) w₁ o w' := by
  constructor
  · intro h
    cases h with
    | crash => exact Or.inl ⟨rfl, rfl⟩
    | call he hk => exact Or.inr ⟨_, _, he, hk⟩
  · rintro (⟨rfl, rfl⟩ | ⟨r, w₁, he, hk⟩)
    · exact .crash _ w'
    · exact .call he hk

/-- One operation: it is cut before, or it answers. -/
theorem exec_perform_iff {op : S.Op} {w w' : W} {o : Outcome X (S.Reply op)} :
    Exec env (Program.perform op) w o w' ↔
      (o = .crashed ∧ w' = w) ∨ ∃ r, env w op r w' ∧ (o = Outcome.ofExcept r ∨ o = .crashed) := by
  rw [Program.perform, exec_call_iff]
  constructor
  · rintro (h | ⟨r, w₁, he, hk⟩)
    · exact Or.inl h
    · cases r with
      | ok a =>
        obtain ⟨rfl, ho⟩ := exec_ret_iff.1 hk
        exact Or.inr ⟨_, he, ho⟩
      | error x =>
        obtain ⟨rfl, ho⟩ := exec_raise_iff.1 hk
        exact Or.inr ⟨_, he, ho⟩
  · rintro (h | ⟨r, he, ho⟩)
    · exact Or.inl h
    · refine Or.inr ⟨r, w', he, ?_⟩
      cases r with
      | ok a => exact exec_ret_iff.2 ⟨rfl, ho⟩
      | error x => exact exec_raise_iff.2 ⟨rfl, ho⟩

/-- A run of a sequence is a run of the first program that returns, followed by a run of the second, or a run of the first
that does not return. -/
theorem exec_bind_iff {p : Program S X α} {f : α → Program S X β} {w w' : W} {o : Outcome X β} :
    Exec env (p.bind f) w o w' ↔
      (∃ a w₁, Exec env p w (.returned a) w₁ ∧ Exec env (f a) w₁ o w') ∨
        (∃ x, o = .raised x ∧ Exec env p w (.raised x) w') ∨ (o = .crashed ∧ Exec env p w .crashed w') := by
  induction p generalizing w with
  | ret a =>
    constructor
    · intro h
      exact Or.inl ⟨a, w, .ret a w, h⟩
    · rintro (⟨b, w₁, hp, hf⟩ | ⟨x, rfl, hp⟩ | ⟨rfl, hp⟩)
      · obtain ⟨rfl, hb | hb⟩ := exec_ret_iff.1 hp
        · cases hb
          exact hf
        · cases hb
      · obtain ⟨-, h | h⟩ := exec_ret_iff.1 hp <;> cases h
      · obtain ⟨rfl, -⟩ := exec_ret_iff.1 hp
        exact .crash _ _
  | raise y =>
    simp only [Program.raise_bind]
    constructor
    · intro h
      obtain ⟨rfl, rfl | rfl⟩ := exec_raise_iff.1 h
      · exact Or.inr (Or.inl ⟨y, rfl, .raise y _⟩)
      · exact Or.inr (Or.inr ⟨rfl, .crash _ _⟩)
    · rintro (⟨b, w₁, hp, hf⟩ | ⟨x, rfl, hp⟩ | ⟨rfl, hp⟩)
      · obtain ⟨-, h | h⟩ := exec_raise_iff.1 hp <;> cases h
      · obtain ⟨rfl, h | h⟩ := exec_raise_iff.1 hp
        · cases h
          exact .raise y _
        · cases h
      · obtain ⟨rfl, -⟩ := exec_raise_iff.1 hp
        exact .crash _ _
  | diverge =>
    simp only [Program.diverge_bind]
    constructor
    · intro h
      obtain ⟨rfl, rfl⟩ := exec_diverge_iff.1 h
      exact Or.inr (Or.inr ⟨rfl, .crash _ _⟩)
    · rintro (⟨b, w₁, hp, hf⟩ | ⟨x, rfl, hp⟩ | ⟨rfl, hp⟩)
      · cases (exec_diverge_iff.1 hp).2
      · cases (exec_diverge_iff.1 hp).2
      · obtain ⟨rfl, -⟩ := exec_diverge_iff.1 hp
        exact .crash _ _
  | call op k ih =>
    simp only [Program.bind, exec_call_iff]
    constructor
    · rintro (⟨rfl, rfl⟩ | ⟨r, w₁, he, hk⟩)
      · exact Or.inr (Or.inr ⟨rfl, Or.inl ⟨trivial, rfl⟩⟩)
      · rcases (ih r).1 hk with ⟨a, w₂, hp, hf⟩ | ⟨x, rfl, hp⟩ | ⟨rfl, hp⟩
        · exact Or.inl ⟨a, w₂, Or.inr ⟨r, w₁, he, hp⟩, hf⟩
        · exact Or.inr (Or.inl ⟨x, rfl, Or.inr ⟨r, w₁, he, hp⟩⟩)
        · exact Or.inr (Or.inr ⟨rfl, Or.inr ⟨r, w₁, he, hp⟩⟩)
    · rintro (⟨a, w₂, (⟨h, -⟩ | ⟨r, w₁, he, hp⟩), hf⟩ | ⟨x, rfl, (⟨h, -⟩ | ⟨r, w₁, he, hp⟩)⟩ |
        ⟨rfl, (⟨-, rfl⟩ | ⟨r, w₁, he, hp⟩)⟩)
      · cases h
      · exact Or.inr ⟨r, w₁, he, (ih r).2 (Or.inl ⟨a, w₂, hp, hf⟩)⟩
      · cases h
      · exact Or.inr ⟨r, w₁, he, (ih r).2 (Or.inr (Or.inl ⟨x, rfl, hp⟩))⟩
      · exact Or.inl ⟨rfl, rfl⟩
      · exact Or.inr ⟨r, w₁, he, (ih r).2 (Or.inr (Or.inr ⟨rfl, hp⟩))⟩

/-- A run of `try p except h` is a run of `p` that raises, followed by a run of the handler, or a run of `p` that does not
raise. -/
theorem exec_handle_iff {p : Program S X α} {h : X → Program S X α} {w w' : W} {o : Outcome X α} :
    Exec env (p.handle h) w o w' ↔
      (∃ x w₁, Exec env p w (.raised x) w₁ ∧ Exec env (h x) w₁ o w') ∨
        (∃ a, o = .returned a ∧ Exec env p w (.returned a) w') ∨ (o = .crashed ∧ Exec env p w .crashed w') := by
  induction p generalizing w with
  | ret a =>
    simp only [Program.handle]
    constructor
    · intro hr
      obtain ⟨rfl, rfl | rfl⟩ := exec_ret_iff.1 hr
      · exact Or.inr (Or.inl ⟨a, rfl, .ret a _⟩)
      · exact Or.inr (Or.inr ⟨rfl, .crash _ _⟩)
    · rintro (⟨x, w₁, hp, -⟩ | ⟨b, rfl, hp⟩ | ⟨rfl, hp⟩)
      · obtain ⟨-, h | h⟩ := exec_ret_iff.1 hp <;> cases h
      · exact hp
      · exact hp
  | raise y =>
    simp only [Program.handle]
    constructor
    · intro hr
      exact Or.inl ⟨y, w, .raise y w, hr⟩
    · rintro (⟨x, w₁, hp, hx⟩ | ⟨b, rfl, hp⟩ | ⟨rfl, hp⟩)
      · obtain ⟨rfl, hy | hy⟩ := exec_raise_iff.1 hp
        · cases hy
          exact hx
        · cases hy
      · obtain ⟨-, h | h⟩ := exec_raise_iff.1 hp <;> cases h
      · obtain ⟨rfl, -⟩ := exec_raise_iff.1 hp
        exact .crash _ _
  | diverge =>
    simp only [Program.handle]
    constructor
    · intro hr
      obtain ⟨rfl, rfl⟩ := exec_diverge_iff.1 hr
      exact Or.inr (Or.inr ⟨rfl, .crash _ _⟩)
    · rintro (⟨x, w₁, hp, -⟩ | ⟨b, rfl, hp⟩ | ⟨rfl, hp⟩)
      · cases (exec_diverge_iff.1 hp).2
      · cases (exec_diverge_iff.1 hp).2
      · exact hp
  | call op k ih =>
    simp only [Program.handle, exec_call_iff]
    constructor
    · rintro (⟨rfl, rfl⟩ | ⟨r, w₁, he, hk⟩)
      · exact Or.inr (Or.inr ⟨rfl, Or.inl ⟨trivial, rfl⟩⟩)
      · rcases (ih r).1 hk with ⟨x, w₂, hp, hx⟩ | ⟨a, rfl, hp⟩ | ⟨rfl, hp⟩
        · exact Or.inl ⟨x, w₂, Or.inr ⟨r, w₁, he, hp⟩, hx⟩
        · exact Or.inr (Or.inl ⟨a, rfl, Or.inr ⟨r, w₁, he, hp⟩⟩)
        · exact Or.inr (Or.inr ⟨rfl, Or.inr ⟨r, w₁, he, hp⟩⟩)
    · rintro (⟨x, w₂, (⟨h, -⟩ | ⟨r, w₁, he, hp⟩), hx⟩ | ⟨a, rfl, (⟨h, -⟩ | ⟨r, w₁, he, hp⟩)⟩ |
        ⟨rfl, (⟨-, rfl⟩ | ⟨r, w₁, he, hp⟩)⟩)
      · cases h
      · exact Or.inr ⟨r, w₁, he, (ih r).2 (Or.inl ⟨x, w₂, hp, hx⟩)⟩
      · cases h
      · exact Or.inr ⟨r, w₁, he, (ih r).2 (Or.inr (Or.inl ⟨a, rfl, hp⟩))⟩
      · exact Or.inl ⟨rfl, rfl⟩
      · exact Or.inr ⟨r, w₁, he, (ih r).2 (Or.inr (Or.inr ⟨rfl, hp⟩))⟩

/-! ## Computed runs -/

/-- A handler answers operations and updates the world: a deterministic environment. It may leave an operation without an
answer. -/
abbrev Handler (S : Signature) (X W : Type) := W → (op : S.Op) → Option (Except X (S.Reply op) × W)

/-- The run of a program under a handler, cut where an operation gets no answer, and before operation number `n`. -/
def Program.runFor (h : Handler S X W) : Nat → Program S X α → W → Outcome X α × W
  | _, .ret a, w => (.returned a, w)
  | _, .raise x, w => (.raised x, w)
  | _, .diverge, w => (.crashed, w)
  | 0, .call _ _, w => (.crashed, w)
  | n + 1, .call op k, w =>
    match h w op with
    | none => (.crashed, w)
    | some (r, w') => (k r).runFor h n w'

/-- The run of a program where every operation has one answer, to its end. -/
def Program.eval (h : W → (op : S.Op) → Except X (S.Reply op) × W) : Program S X α → W → Outcome X α × W
  | .ret a, w => (.returned a, w)
  | .raise x, w => (.raised x, w)
  | .diverge, w => (.crashed, w)
  | .call op k, w => (k (h w op).1).eval h (h w op).2

/-- No branch of the program diverges. -/
def Program.Halts : Program S X α → Prop
  | .ret _ => True
  | .raise _ => True
  | .diverge => False
  | .call _ k => ∀ r, (k r).Halts

theorem Program.halts_handle {p : Program S X α} {h : X → Program S X α} (hp : p.Halts) (hh : ∀ x, (h x).Halts) :
    (p.handle h).Halts := by
  induction p with
  | ret a => trivial
  | raise x => exact hh x
  | diverge => exact hp.elim
  | call op k ih => exact fun r => ih r (hp r)

theorem Program.halts_bind {p : Program S X α} {f : α → Program S X β} (hp : p.Halts) (hf : ∀ a, (f a).Halts) :
    (p.bind f).Halts := by
  induction p with
  | ret a => exact hf a
  | raise x => trivial
  | diverge => exact hp.elim
  | call op k ih => exact fun r => ih r (hp r)

@[simp] theorem Program.halts_perform {op : S.Op} : (perform op : Program S X _).Halts := by
  intro r
  cases r <;> trivial

theorem Program.halts_attempt {p : Program S X α} (hp : p.Halts) : p.attempt.Halts :=
  halts_handle (halts_bind hp fun _ => trivial) fun _ => trivial

theorem Program.halts_ensure {p : Program S X α} {q : Program S X Unit} (hp : p.Halts) (hq : q.Halts) :
    (p.ensure q).Halts := by
  rw [ensure_eq]
  refine halts_bind (halts_attempt hp) fun r => ?_
  cases r <;> exact halts_bind hq fun _ => trivial

/-- Where every operation gets an answer, a program that halts has a run to its end. -/
theorem exists_finished (henv : ∀ w op, ∃ r w', env w op r w') {p : Program S X α} (hp : p.Halts) (w : W) :
    ∃ o w', Exec env p w o w' ∧ o ≠ .crashed := by
  induction p generalizing w with
  | ret a => exact ⟨_, _, .ret a w, by simp⟩
  | raise x => exact ⟨_, _, .raise x w, by simp⟩
  | diverge => exact hp.elim
  | call op k ih =>
    obtain ⟨r, w₁, hr⟩ := henv w op
    obtain ⟨o, w', hx, ho⟩ := ih r (hp r) w₁
    exact ⟨o, w', .call hr hx, ho⟩

/-- The handler's answers are allowed by the environment. -/
def Handler.Allowed (h : Handler S X W) (env : Env S X W) : Prop :=
  ∀ w op r w', h w op = some (r, w') → env w op r w'

/-- A computed run is a run, in every environment that allows the handler's answers. -/
theorem exec_runFor {h : Handler S X W} (hh : h.Allowed env) :
    ∀ (n : Nat) (p : Program S X α) (w : W), Exec env p w (p.runFor h n w).1 (p.runFor h n w).2
  | n, .ret a, w => by cases n <;> exact .ret a w
  | n, .raise x, w => by cases n <;> exact .raise x w
  | n, .diverge, w => by cases n <;> exact .crash _ w
  | 0, .call op k, w => .crash _ w
  | n + 1, .call op k, w => by
    unfold Program.runFor
    split
    · exact .crash _ w
    · rename_i r w' hr
      exact .call (hh w op r w' hr) (exec_runFor hh n (k r) w')

theorem exec_of_runFor {h : Handler S X W} (hh : h.Allowed env) {n : Nat} {p : Program S X α} {w : W}
    {o : Outcome X α} (ho : (p.runFor h n w).1 = o) : Exec env p w o (p.runFor h n w).2 := by
  rw [← ho]
  exact exec_runFor hh n p w

end Effects
