import OciAcmePublisher.Locking

/-!
# The lock file

What every system call keeps of the lock file, and what it leaves of the other processes' descriptors and locks.
-/

namespace OciAcmePublisher

open Effects

namespace LockFile

variable {ι : Type} [DecidableEq ι] {f f' : LockFile ι} {i j : ι} {d e n : Nat} {faults : LockOp → Exc → Prop}

omit [DecidableEq ι] in
theorem sound_unopened (inode : Option Nat) : (unopened inode : LockFile ι).Sound := ⟨nofun, nofun⟩

theorem opening_opened_ne (h : e ≠ d) : (f.opening i d n).opened i e = f.opened i e := by
  simp [opening, h]

/-- A process that has ended has nothing open. -/
theorem leaving_opened (f : LockFile ι) (i : ι) (d : Nat) : (f.leaving i).opened i d = none := by
  simp [leaving]

/-- What the descriptors of the process become is no matter of the others. -/
theorem opened_other {g : Nat → Option Nat} (h : j ≠ i) : Function.update f.opened i g j = f.opened j :=
  Function.update_of_ne h ..

theorem update_opened_eq_some {g : Nat → Option Nat} (h : Function.update f.opened i g j e = some n) :
    (j = i ∧ g e = some n) ∨ (j ≠ i ∧ f.opened j e = some n) := by
  by_cases hj : j = i
  · subst hj
    rw [Function.update_self] at h
    exact Or.inl ⟨rfl, h⟩
  · rw [opened_other hj] at h
    exact Or.inr ⟨hj, h⟩

theorem Sound.opening (hf : f.Sound) (hd : f.opened i d = none) (hn : f.Names n) : (f.opening i d n).Sound := by
  refine ⟨fun j e m h => ?_, fun m j e h => ?_⟩
  · have hold : ∀ j e, f.opened j e = some m → some n = some m := by
      intro j e hopened
      rcases hn with hinode | ⟨hinode, -⟩
      · rw [← hinode]
        exact hf.named j e m hopened
      · have := hf.named j e m hopened
        rw [hinode] at this
        cases this
    rcases update_opened_eq_some h with ⟨rfl, h⟩ | ⟨-, h⟩
    · by_cases he : e = d
      · subst he
        rw [Function.update_self] at h
        exact h
      · rw [Function.update_of_ne he] at h
        exact hold _ _ h
    · exact hold _ _ h
  · have hold : f.opened j e = some m := hf.held m j e h
    show Function.update f.opened i (Function.update (f.opened i) d (some n)) j e = some m
    by_cases hj : j = i
    · subst hj
      have he : e ≠ d := by
        rintro rfl
        rw [hd] at hold
        cases hold
      rw [Function.update_self, Function.update_of_ne he]
      exact hold
    · rw [opened_other hj]
      exact hold

omit [DecidableEq ι] in
theorem Sound.granting (hf : f.Sound) (hd : f.opened i d = some n) : (f.granting i d n).Sound := by
  refine ⟨hf.named, fun m j e h => ?_⟩
  have h' : Function.update f.holder n (some (i, d)) m = some (j, e) := h
  by_cases hm : m = n
  · subst hm
    rw [Function.update_self] at h'
    cases h'
    exact hd
  · rw [Function.update_of_ne hm] at h'
    exact hf.held m j e h'

theorem releasing_holder_eq_some (h : (f.releasing i d).holder n = some (j, e)) :
    f.holder n = some (j, e) ∧ (j, e) ≠ (i, d) := by
  have h' : (if f.holder n = some (i, d) then none else f.holder n) = some (j, e) := h
  split at h'
  · cases h'
  · rename_i hne
    refine ⟨h', ?_⟩
    intro heq
    rw [heq] at h'
    exact hne h'

theorem Sound.releasing (hf : f.Sound) : (f.releasing i d).Sound :=
  ⟨hf.named, fun m j e h => hf.held m j e (releasing_holder_eq_some h).1⟩

theorem Sound.closing (hf : f.Sound) : (f.closing i d).Sound := by
  refine ⟨fun j e m h => ?_, fun m j e h => ?_⟩
  · rcases update_opened_eq_some h with ⟨rfl, h⟩ | ⟨-, h⟩
    · by_cases he : e = d
      · subst he
        rw [Function.update_self] at h
        cases h
      · rw [Function.update_of_ne he] at h
        exact hf.named _ _ _ h
    · exact hf.named _ _ _ h
  · obtain ⟨hold, hne⟩ := releasing_holder_eq_some h
    have hopened := hf.held m j e hold
    show Function.update f.opened i (Function.update (f.opened i) d none) j e = some m
    by_cases hj : j = i
    · subst hj
      have he : e ≠ d := by
        rintro rfl
        exact hne rfl
      rw [Function.update_self, Function.update_of_ne he]
      exact hopened
    · rw [opened_other hj]
      exact hopened

theorem leaving_holder_eq_some (h : (f.leaving i).holder n = some (j, e)) : f.holder n = some (j, e) ∧ j ≠ i := by
  have h' : (if (f.holder n).any (·.1 = i) then none else f.holder n) = some (j, e) := h
  split at h'
  · cases h'
  · rename_i hne
    refine ⟨h', ?_⟩
    rintro rfl
    rw [h'] at hne
    simp at hne

theorem Sound.leaving (hf : f.Sound) : (f.leaving i).Sound := by
  refine ⟨fun j e m h => ?_, fun m j e h => ?_⟩
  · rcases update_opened_eq_some h with ⟨-, h⟩ | ⟨-, h⟩
    · cases h
    · exact hf.named _ _ _ h
  · obtain ⟨hold, hj⟩ := leaving_holder_eq_some h
    show Function.update f.opened i (fun _ => none) j e = some m
    rw [opened_other hj]
    exact hf.held m j e hold

omit [DecidableEq ι] in
/-- Nobody has the file open while it is removed. -/
theorem Sound.removed (hf : f.Sound) (h : f.Removed f') : f'.Sound := by
  obtain ⟨hclosed, rfl⟩ := h
  have hnone : ∀ j e m, f.opened j e ≠ some m := by
    intro j e m hopened
    rw [hclosed] at hopened
    cases hopened
  exact ⟨fun j e m hopened => absurd hopened (hnone j e m), fun m j e hheld => absurd (hf.held m j e hheld) (hnone j e m)⟩

/-- A call keeps the file sound. -/
theorem Sound.step (hf : f.Sound) {op : LockOp} {answer : Except Exc op.Reply} (h : Step faults i f op answer f') : f'.Sound := by
  cases op with
  | makeParents =>
    cases answer with
    | ok _ => rwa [show f' = f from h]
    | error x => rwa [h.2]
  | openFile =>
    cases answer with
    | ok d =>
      obtain ⟨hd, n, hn, rfl⟩ := h
      exact hf.opening hd hn
    | error x => rwa [h.2]
  | flock d =>
    cases answer with
    | ok granted =>
      obtain ⟨n, hd, h⟩ := h
      split at h
      · rw [h.2]
        exact hf.granting hd
      · rwa [h.2]
    | error x => rwa [h.2]
  | unlock d =>
    cases answer with
    | ok _ =>
      rw [show f' = _ from h]
      exact hf.releasing
    | error x => rwa [h.2]
  | close d =>
    cases answer with
    | ok _ =>
      rw [show f' = _ from h]
      exact hf.closing
    | error x =>
      rw [h.2]
      exact hf.closing

/-- What another process has open, and the lock it holds, are out of reach. -/
theorem Step.other {op : LockOp} {answer : Except Exc op.Reply} (h : Step faults i f op answer f') (hj : j ≠ i) :
    f'.opened j = f.opened j ∧ ∀ n, f.holder n = some (j, d) → f'.holder n = some (j, d) := by
  have hne : ∀ e, (j, d) ≠ (i, e) := fun e heq => hj (congrArg Prod.fst heq)
  have hreleasing : ∀ e n, f.holder n = some (j, d) → (f.releasing i e).holder n = some (j, d) := by
    intro e n hn
    show (if f.holder n = some (i, e) then none else f.holder n) = some (j, d)
    rw [if_neg (by rw [hn]; exact fun heq => hne e (Option.some.inj heq)), hn]
  cases op with
  | makeParents =>
    cases answer with
    | ok _ => exact ⟨by rw [show f' = f from h], fun n hn => by rw [show f' = f from h]; exact hn⟩
    | error x => exact ⟨by rw [h.2], fun n hn => by rw [h.2]; exact hn⟩
  | openFile =>
    cases answer with
    | ok d =>
      obtain ⟨-, n, -, rfl⟩ := h
      exact ⟨opened_other hj, fun _ hn => hn⟩
    | error x => exact ⟨by rw [h.2], fun n hn => by rw [h.2]; exact hn⟩
  | flock e =>
    cases answer with
    | ok granted =>
      obtain ⟨m, -, h⟩ := h
      split at h
      · obtain ⟨hfree, rfl⟩ := h
        refine ⟨rfl, fun n hn => ?_⟩
        show Function.update f.holder m (some (i, e)) n = some (j, d)
        by_cases hm : n = m
        · subst hm
          exact absurd (hfree _ hn) (hne e)
        · rw [Function.update_of_ne hm]
          exact hn
      · rw [h.2]
        exact ⟨rfl, fun _ hn => hn⟩
    | error x => exact ⟨by rw [h.2], fun n hn => by rw [h.2]; exact hn⟩
  | unlock e =>
    cases answer with
    | ok _ =>
      rw [show f' = _ from h]
      exact ⟨rfl, hreleasing e⟩
    | error x => exact ⟨by rw [h.2], fun n hn => by rw [h.2]; exact hn⟩
  | close e =>
    cases answer with
    | ok _ =>
      rw [show f' = _ from h]
      exact ⟨opened_other hj, hreleasing e⟩
    | error x =>
      rw [h.2]
      exact ⟨opened_other hj, hreleasing e⟩

theorem Holds.step {op : LockOp} {answer : Except Exc op.Reply} (hd : f.Holds j d) (h : Step faults i f op answer f')
    (hj : j ≠ i) : f'.Holds j d := by
  obtain ⟨n, hopened, hheld⟩ := hd
  obtain ⟨hsame, hkeep⟩ := h.other (d := d) hj
  exact ⟨n, by rw [hsame]; exact hopened, hkeep n hheld⟩

theorem Holds.leaving (hd : f.Holds j d) (hj : j ≠ i) : (f.leaving i).Holds j d := by
  obtain ⟨n, hopened, hheld⟩ := hd
  refine ⟨n, ?_, ?_⟩
  · show Function.update f.opened i (fun _ => none) j d = some n
    rw [opened_other hj]
    exact hopened
  · show (if (f.holder n).any (·.1 = i) then none else f.holder n) = some (j, d)
    rw [hheld, if_neg (by simpa using hj)]

omit [DecidableEq ι] in
/-- Two processes do not hold the lock at once. -/
theorem Holds.unique (hf : f.Sound) (hi : f.Holds i d) (hj : f.Holds j e) : i = j := by
  obtain ⟨n, hn, hheld⟩ := hi
  obtain ⟨m, hm, hheld'⟩ := hj
  have hinode := (hf.named i d n hn).symm.trans (hf.named j e m hm)
  cases hinode
  rw [hheld] at hheld'
  cases hheld'
  rfl

end LockFile

end OciAcmePublisher
