import Mathlib.Logic.Function.Basic
import Mathlib.Logic.Relation
import OciAcmePublisher.Effects.Guarantee

/-!
# Processes that share a world

Any number of processes, each with the program that is left of it. In every step one of them starts, performs one operation, or
ends; a process may be killed at any point. Who performs an operation matters to the environment, and the end of a process may
change the world (what it had open is closed).
-/

namespace Effects

variable {S : Signature} {X α W ι : Type}

/-- Where a process is. -/
inductive Status (S : Signature) (X α : Type) where
  | idle
  | running (left : Program S X α)
  | ended (o : Outcome X α)

/-- How a process ends where it is: what is left of it has ended, or it is killed. -/
inductive Program.Stops : Program S X α → Outcome X α → Prop where
  | ret (a : α) : Stops (.ret a) (.returned a)
  | raise (x : X) : Stops (.raise x) (.raised x)
  | kill (p : Program S X α) : Stops p .crashed

/-- Processes, and the world they share. -/
structure Pool (ι : Type) (S : Signature) (X α W : Type) where
  world : W
  status : ι → Status S X α

namespace Pool

variable [DecidableEq ι]

/-- The process `i` moves on, and the world with it. -/
def move (s : Pool ι S X α W) (i : ι) (w : W) (status : Status S X α) : Pool ι S X α W where
  world := w
  status := Function.update s.status i status

@[simp] theorem move_world (s : Pool ι S X α W) (i : ι) (w : W) (status : Status S X α) : (s.move i w status).world = w := rfl

@[simp] theorem move_same (s : Pool ι S X α W) (i : ι) (w : W) (status : Status S X α) :
    (s.move i w status).status i = status := Function.update_self ..

theorem move_other {s : Pool ι S X α W} {i j : ι} (h : j ≠ i) (w : W) (status : Status S X α) :
    (s.move i w status).status j = s.status j := Function.update_of_ne h ..

/-- What a step of a pool depends on: the answers each process may get, what the end of one does to the world, what may happen
outside of all of them, and the programs. -/
structure Setting (ι : Type) (S : Signature) (X α W : Type) where
  env : ι → Env S X W
  leaves : ι → W → W
  outside : W → W → Prop
  programs : ι → Program S X α

/-- A step of one process, or outside of all of them. -/
inductive Step (σ : Setting ι S X α W) : Pool ι S X α W → Pool ι S X α W → Prop where
  | start {s : Pool ι S X α W} (i : ι) : s.status i = .idle → Step σ s (s.move i s.world (.running (σ.programs i)))
  | perform {s : Pool ι S X α W} (i : ι) {op : S.Op} {k : Except X (S.Reply op) → Program S X α}
      {r : Except X (S.Reply op)} {w : W} : s.status i = .running (.call op k) → σ.env i s.world op r w →
        Step σ s (s.move i w (.running (k r)))
  | stop {s : Pool ι S X α W} (i : ι) {p : Program S X α} {o : Outcome X α} : s.status i = .running p → p.Stops o →
      Step σ s (s.move i (σ.leaves i s.world) (.ended o))
  | outside {s : Pool ι S X α W} {w : W} : σ.outside s.world w → Step σ s { s with world := w }

/-- The pool that an interleaving leads to. -/
abbrev Reaches (σ : Setting ι S X α W) : Pool ι S X α W → Pool ι S X α W → Prop := Relation.ReflTransGen (Step σ)

/-- The pool that an interleaving leads to, every pool on the way being as `φ` says. -/
abbrev ReachesWithin (σ : Setting ι S X α W) (φ : Pool ι S X α W → Prop) : Pool ι S X α W → Pool ι S X α W → Prop :=
  Relation.ReflTransGen fun s s' => Step σ s s' ∧ φ s'

theorem Reaches.within {σ : Setting ι S X α W} {φ : Pool ι S X α W → Prop} (hφ : ∀ s, φ s) {s s' : Pool ι S X α W}
    (h : Reaches σ s s') : ReachesWithin σ φ s s' := by
  induction h with
  | refl => exact .refl
  | tail _ hstep ih => exact ih.tail ⟨hstep, hφ _⟩

/-- The pool before any process has started. -/
def idle (w : W) : Pool ι S X α W where
  world := w
  status _ := .idle

/-- What every step keeps holds in every pool that is reached. -/
theorem Reaches.keeps {σ : Setting ι S X α W} {I : Pool ι S X α W → Prop} (hI : ∀ s s', I s → Step σ s s' → I s')
    {s s' : Pool ι S X α W} (h : Reaches σ s s') (hs : I s) : I s' := by
  induction h with
  | refl => exact hs
  | tail _ hstep ih => exact hI _ _ ih hstep

/-! ## Computed interleavings -/

/-- The moves of a schedule. -/
inductive Move (ι : Type) where
  | start (i : ι)
  | perform (i : ι)
  | stop (i : ι)
  | kill (i : ι)

/-- One move of a schedule, under handlers; none where it is not possible. -/
def play (h : ι → Handler S X W) (σ : Setting ι S X α W) (s : Pool ι S X α W) : Move ι → Option (Pool ι S X α W)
  | .start i =>
    match s.status i with
    | .idle => some (s.move i s.world (.running (σ.programs i)))
    | _ => none
  | .perform i =>
    match s.status i with
    | .running (.call op k) => (h i s.world op).map fun answer => s.move i answer.2 (.running (k answer.1))
    | _ => none
  | .stop i =>
    match s.status i with
    | .running (.ret a) => some (s.move i (σ.leaves i s.world) (.ended (.returned a)))
    | .running (.raise x) => some (s.move i (σ.leaves i s.world) (.ended (.raised x)))
    | _ => none
  | .kill i =>
    match s.status i with
    | .running _ => some (s.move i (σ.leaves i s.world) (.ended .crashed))
    | _ => none

/-- A whole schedule. -/
def playAll (h : ι → Handler S X W) (σ : Setting ι S X α W) : List (Move ι) → Pool ι S X α W → Option (Pool ι S X α W)
  | [], s => some s
  | m :: rest, s => (play h σ s m).bind (playAll h σ rest)

variable {h : ι → Handler S X W} {σ : Setting ι S X α W}

theorem play_step (hh : ∀ i, (h i).Allowed (σ.env i)) {s s' : Pool ι S X α W} {m : Move ι} (hm : play h σ s m = some s') :
    Step σ s s' := by
  cases m with
  | start i =>
    simp only [play] at hm
    split at hm
    · rename_i hidle
      cases hm
      exact .start i hidle
    · cases hm
  | perform i =>
    simp only [play] at hm
    split at hm
    · rename_i op k hrunning
      obtain ⟨⟨r, w⟩, hanswer, heq⟩ := Option.map_eq_some_iff.1 hm
      cases heq
      exact .perform i hrunning (hh i _ _ _ _ hanswer)
    · cases hm
  | stop i =>
    simp only [play] at hm
    split at hm
    · rename_i a hrunning
      cases hm
      exact .stop i hrunning (.ret a)
    · rename_i x hrunning
      cases hm
      exact .stop i hrunning (.raise x)
    · cases hm
  | kill i =>
    simp only [play] at hm
    split at hm
    · rename_i p hrunning
      cases hm
      exact .stop i hrunning (.kill p)
    · cases hm

/-- A schedule that can be played is an interleaving. -/
theorem playAll_reaches (hh : ∀ i, (h i).Allowed (σ.env i)) {l : List (Move ι)} {s s' : Pool ι S X α W}
    (hl : playAll h σ l s = some s') : Reaches σ s s' := by
  induction l generalizing s with
  | nil =>
    cases hl
    exact .refl
  | cons m rest ih =>
    obtain ⟨s₁, hm, hrest⟩ := Option.bind_eq_some_iff.1 hl
    exact .head (play_step hh hm) (ih hrest)

end Pool

/-! ## What is left of a program -/

variable {env : Env S X W}

/-- The program `q` is what is left in `w` of `p`, that was started in `w₁`. -/
inductive Left (env : Env S X W) (p : Program S X α) (w₁ : W) : Program S X α → W → Prop where
  | whole : Left env p w₁ p w₁
  | call {op : S.Op} {k : Except X (S.Reply op) → Program S X α} {r : Except X (S.Reply op)} {w w' : W} :
      Left env p w₁ (.call op k) w → env w op r w' → Left env p w₁ (k r) w'

/-- What is left goes on as the program would. -/
theorem Left.exec {p q : Program S X α} {w₁ w w' : W} {o : Outcome X α} (h : Left env p w₁ q w) (hx : Exec env q w o w') :
    Exec env p w₁ o w' := by
  induction h with
  | whole => exact hx
  | call _ hop ih => exact ih (.call hop hx)

/-- The program, cut where it is now. -/
theorem Left.cut {p q : Program S X α} {w₁ w : W} (h : Left env p w₁ q w) : Exec env p w₁ .crashed w := h.exec (.crash q w)

theorem Left.stopped {p q : Program S X α} {w₁ w : W} {o : Outcome X α} (h : Left env p w₁ q w) (hq : q.Stops o) :
    Exec env p w₁ o w := by
  cases hq with
  | ret a => exact h.exec (.ret a w)
  | raise x => exact h.exec (.raise x w)
  | kill => exact h.cut

/-- What a program guarantees, what is left of it guarantees. -/
theorem Left.guarantees {p q : Program S X α} {w₁ w : W} {G : W → W → Prop} {Q : α → W → Prop} {E : X → W → Prop}
    (h : Left env p w₁ q w) (hp : p.Guarantees env G Q E w₁) : q.Guarantees env G Q E w := by
  induction h with
  | whole => exact hp
  | call _ hop ih => exact (ih _ _ hop).2

/-! ## What a program may return -/

/-- Under some answers the program returns `b`. -/
def Program.MayReturn : Program S X α → α → Prop
  | .ret a, b => b = a
  | .raise _, _ => False
  | .diverge, _ => False
  | .call _ k, b => ∃ r, (k r).MayReturn b

theorem Program.yields_mayReturn (p : Program S X α) : p.Yields p.MayReturn := by
  have hsome : ∀ φ : α → Prop, (∀ b, p.MayReturn b → φ b) → p.Yields φ := by
    intro φ hφ
    induction p with
    | ret a => exact hφ a rfl
    | raise | diverge => trivial
    | call op k ih => exact fun r => ih r fun b hb => hφ b ⟨r, hb⟩
  exact hsome _ fun _ h => h

theorem Program.Yields.mono {φ ψ : α → Prop} {p : Program S X α} (hp : p.Yields φ) (h : ∀ a, φ a → ψ a) : p.Yields ψ := by
  induction p with
  | ret a => exact h a hp
  | raise | diverge => trivial
  | call op k ih => exact fun r => ih r (hp r)

end Effects
