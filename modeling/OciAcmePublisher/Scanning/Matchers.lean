import Mathlib.Data.List.Infix
import Mathlib.Data.List.TakeWhile

/-!
# Matchers and substitutions

Patterns without alternatives, as functions from a text to what a match at its start leaves, and the substitution of all matches from
left to right. Two texts that differ behind a common beginning are followed side by side, up to a match that goes over the border.
-/

namespace Scanning

variable {α : Type}

/-- What a match at the start of the text leaves, none where there is no match. -/
abbrev Matcher (α : Type) := List α → Option (List α)

/-- One element after the other. -/
def each : List (α → Bool) → Matcher α
  | [], l => some l
  | _ :: _, [] => none
  | f :: fs, c :: l => if f c then each fs l else none

/-- As many elements of the class as there are. -/
def many (C : α → Bool) : Matcher α := fun l => some (l.dropWhile C)

/-- The same, at least one. -/
def many1 (C : α → Bool) : Matcher α
  | [] => none
  | c :: l => if C c then some (l.dropWhile C) else none

/-- One matcher after the other. -/
def andThen (m m' : Matcher α) : Matcher α := fun l => (m l).bind m'

/-- The first match that begins here or later. -/
def search (m : Matcher α) : Matcher α
  | [] => m []
  | c :: l =>
    match m (c :: l) with
    | some rest => some rest
    | none => search m l

/-- What replaces a match and what the match leaves; the flag tells whether a line starts at the text. -/
abbrev Rule (α : Type) := Bool → List α → Option (List α × List α)

/-- Every match is replaced by one text. -/
def always (m : Matcher α) (text : List α) : Rule α := fun _ l => (m l).map fun rest => (text, rest)

/-- The substitution of every match, leftmost first. The number counts what is left of the last match; no match ends with a line. -/
def sub (newline : α → Bool) (ρ : Rule α) : Nat → Bool → List α → List α
  | _, _, [] => []
  | skip + 1, _, _ :: l => sub newline ρ skip false l
  | 0, start, c :: l =>
    match ρ start (c :: l) with
    | some (text, rest) => text ++ sub newline ρ (l.length - rest.length) false l
    | none => c :: sub newline ρ 0 (newline c) l

variable {newline : α → Bool} {ρ : Rule α}

@[simp] theorem sub_nil (skip : Nat) (start : Bool) : sub newline ρ skip start [] = [] := by
  cases skip <;> rfl

theorem sub_none {start : Bool} {c : α} {l : List α} (h : ρ start (c :: l) = none) :
    sub newline ρ 0 start (c :: l) = c :: sub newline ρ 0 (newline c) l := by
  rw [sub, h]

theorem sub_skip (skip : Nat) (l : List α) : sub newline ρ skip false l = sub newline ρ 0 false (l.drop skip) := by
  induction skip generalizing l with
  | zero => rfl
  | succ skip ih =>
    cases l with
    | nil => simp
    | cons c l =>
      rw [sub, List.drop_succ_cons]
      exact ih l

/-- A match is replaced, and the substitution goes on with what it leaves. -/
theorem sub_some {start : Bool} {c : α} {l text rest : List α} (h : ρ start (c :: l) = some (text, rest)) (hrest : rest <:+ l) :
    sub newline ρ 0 start (c :: l) = text ++ sub newline ρ 0 false rest := by
  rw [sub, h]
  simp only
  rw [sub_skip, ← List.suffix_iff_eq_drop.1 hrest]

/-- Elements that no match begins with stay. -/
theorem sub_pass (newline : α → Bool) {w : List α} (hw : ∀ c ∈ w, ∀ start l, ρ start (c :: l) = none) (start : Bool) (q : List α) :
    ∃ start', sub newline ρ 0 start (w ++ q) = w ++ sub newline ρ 0 start' q := by
  induction w generalizing start with
  | nil => exact ⟨start, rfl⟩
  | cons c w ih =>
    obtain ⟨start', hrest⟩ := ih (fun d hd => hw d (List.mem_cons_of_mem _ hd)) (newline c)
    exact ⟨start', by rw [List.cons_append, sub_none (hw c List.mem_cons_self start _), hrest, List.cons_append]⟩

/-- A beginning where nothing matches is kept. -/
theorem sub_keep (newline : α → Bool) {w q : List α} (hnone : ∀ c v, c :: v <:+ w → ∀ start, ρ start (c :: v ++ q) = none) (start : Bool) :
    ∃ start', sub newline ρ 0 start (w ++ q) = w ++ sub newline ρ 0 start' q := by
  induction w generalizing start with
  | nil => exact ⟨start, rfl⟩
  | cons c w ih =>
    obtain ⟨start', hrest⟩ := ih (fun d v hv => hnone d v (hv.trans (List.suffix_cons _ _))) (newline c)
    have hfirst : ρ start (c :: (w ++ q)) = none := hnone c w (List.suffix_refl _) start
    exact ⟨start', by rw [List.cons_append, sub_none hfirst, hrest, List.cons_append]⟩

/-- A rule that matches nowhere but where a line starts leaves the rest of a line as it is. -/
theorem sub_line (newline : α → Bool) (ρ : Rule α) (hρ : ∀ l, ρ false l = none) {w : List α} (hw : ∀ c ∈ w, newline c = false)
    (q : List α) :
    sub newline ρ 0 false (w ++ q) = w ++ sub newline ρ 0 false q := by
  induction w with
  | nil => rfl
  | cons c w ih =>
    rw [List.cons_append, sub_none (hρ _), hw c List.mem_cons_self, ih fun d hd => hw d (List.mem_cons_of_mem _ hd), List.cons_append]

theorem search_pass {m : Matcher α} {w : List α} (hw : ∀ c ∈ w, ∀ l, m (c :: l) = none) (q : List α) :
    search m (w ++ q) = search m q := by
  induction w with
  | nil => rfl
  | cons c w ih =>
    rw [List.cons_append, search, hw c List.mem_cons_self]
    exact ih fun d hd => hw d (List.mem_cons_of_mem _ hd)

theorem search_found {m : Matcher α} {l rest : List α} (h : m l = some rest) : search m l = some rest := by
  cases l with
  | nil => exact h
  | cons c l => rw [search, h]

/-! ## Sequences -/

theorem each_first {f : α → Bool} {c : α} (h : f c = false) (fs : List (α → Bool)) (l : List α) : each (f :: fs) (c :: l) = none := by
  simp [each, h]

/-- Some element of the sequence does not fit. -/
def clash (fs : List (α → Bool)) (x : List α) : Bool := (fs.zip x).any fun y => !y.1 y.2

theorem each_of_clash {fs : List (α → Bool)} {x : List α} (h : clash fs x = true) (z : List α) : each fs (x ++ z) = none := by
  induction fs generalizing x with
  | nil => cases h
  | cons f fs ih =>
    cases x with
    | nil => cases h
    | cons c x =>
      simp only [List.cons_append, each]
      split
      · rename_i hc
        exact ih (by simpa [clash, hc] using h)
      · rfl

/-- No part at the end of the sequence fits. -/
def clashes (fs : List (α → Bool)) (x : List α) : Bool := fs.tails.all fun v => v.isEmpty || clash v x

theorem each_of_clashes {fs v : List (α → Bool)} {x : List α} (h : clashes fs x = true) (hv : v <:+ fs) (hne : v ≠ []) (z : List α) :
    each v (x ++ z) = none := by
  have hclash := List.all_eq_true.1 h v ((List.mem_tails _ _).2 hv)
  rw [List.isEmpty_eq_false_iff.2 hne, Bool.false_or] at hclash
  exact each_of_clash hclash z

theorem each_append {fs : List (α → Bool)} {l : List α} (h : fs.length ≤ l.length) (z : List α) :
    each fs (l ++ z) = (each fs l).map (· ++ z) := by
  induction fs generalizing l with
  | nil => rfl
  | cons f fs ih =>
    cases l with
    | nil => cases h
    | cons c l =>
      simp only [List.cons_append, each]
      split
      · exact ih (Nat.le_of_succ_le_succ h)
      · rfl

/-- A text that nothing in the sequence fits is not reached. -/
theorem each_stops {fs : List (α → Bool)} {q : List α} (hq : ∀ c l, q = c :: l → ∀ f ∈ fs, f c = false) (v : List α) :
    each fs (v ++ q) = (each fs v).map (· ++ q) := by
  induction fs generalizing v with
  | nil => rfl
  | cons f fs ih =>
    cases v with
    | nil =>
      cases q with
      | nil => rfl
      | cons c q => simp [each, hq c q rfl f List.mem_cons_self]
    | cons c v =>
      simp only [List.cons_append, each]
      split
      · exact ih (fun d l hd g hg => hq d l hd g (List.mem_cons_of_mem _ hg)) v
      · rfl

/-- An element that the sequence needs is missing. -/
theorem each_of_missing {fs : List (α → Bool)} {f : α → Bool} (hf : f ∈ fs) {v : List α} (hv : ∀ c ∈ v, f c = false) :
    each fs v = none := by
  induction fs generalizing v with
  | nil => cases hf
  | cons g gs ih =>
    cases v with
    | nil => rfl
    | cons c v =>
      simp only [each]
      split
      · rename_i hc
        rcases List.mem_cons.1 hf with rfl | hf
        · rw [hv _ List.mem_cons_self] at hc
          cases hc
        · exact ih hf fun d hd => hv d (List.mem_cons_of_mem _ hd)
      · rfl

/-! ## What is left is an end of the text -/

def Leaves (m : Matcher α) : Prop := ∀ l rest, m l = some rest → rest <:+ l

/-- A match takes an element at least. -/
def Consumes (m : Matcher α) : Prop := ∀ l rest, m l = some rest → ∃ c l', l = c :: l' ∧ rest <:+ l'

theorem Consumes.leaves {m : Matcher α} (h : Consumes m) : Leaves m := by
  intro l rest hrest
  obtain ⟨c, l', rfl, hsuffix⟩ := h l rest hrest
  exact hsuffix.trans (List.suffix_cons _ _)

theorem Consumes.suffix {m : Matcher α} (h : Consumes m) {c : α} {l rest : List α} (hrest : m (c :: l) = some rest) : rest <:+ l := by
  obtain ⟨_, _, heq, hsuffix⟩ := h _ _ hrest
  cases heq
  exact hsuffix

theorem leaves_each (fs : List (α → Bool)) : Leaves (each fs) := by
  induction fs with
  | nil =>
    intro l rest h
    cases h
    exact List.suffix_refl _
  | cons f fs ih =>
    intro l rest h
    cases l with
    | nil => cases h
    | cons c l =>
      unfold each at h
      split at h
      · exact (ih l rest h).trans (List.suffix_cons _ _)
      · cases h

theorem consumes_each (f : α → Bool) (fs : List (α → Bool)) : Consumes (each (f :: fs)) := by
  intro l rest h
  cases l with
  | nil => cases h
  | cons c l =>
    unfold each at h
    split at h
    · exact ⟨c, l, rfl, leaves_each fs l rest h⟩
    · cases h

theorem leaves_many (C : α → Bool) : Leaves (many C) := by
  intro l rest h
  cases h
  exact List.dropWhile_suffix _

theorem leaves_many1 (C : α → Bool) : Leaves (many1 C) := by
  intro l rest h
  cases l with
  | nil => cases h
  | cons c l =>
    simp only [many1] at h
    split at h
    · cases h
      exact (List.dropWhile_suffix _).trans (List.suffix_cons _ _)
    · cases h

theorem Leaves.bind {m m' : Matcher α} (h : Leaves m) (h' : Leaves m') : Leaves (andThen m m') := by
  intro l rest hrest
  obtain ⟨mid, hmid, hrest⟩ := Option.bind_eq_some_iff.1 hrest
  exact (h' mid rest hrest).trans (h l mid hmid)

theorem Consumes.bind {m m' : Matcher α} (h : Consumes m) (h' : Leaves m') : Consumes (andThen m m') := by
  intro l rest hrest
  obtain ⟨mid, hmid, hrest⟩ := Option.bind_eq_some_iff.1 hrest
  obtain ⟨c, l', hl, hsuffix⟩ := h l mid hmid
  exact ⟨c, l', hl, (h' mid rest hrest).trans hsuffix⟩

theorem leaves_search {m : Matcher α} (h : Leaves m) : Leaves (search m) := by
  intro l rest hrest
  induction l with
  | nil => exact h _ _ hrest
  | cons c l ih =>
    unfold search at hrest
    split at hrest
    · rename_i found hfound
      cases hrest
      exact h _ _ hfound
    · exact (ih hrest).trans (List.suffix_cons _ _)

/-! ## Longer texts -/

/-- A match stays a match when the text goes on. -/
def Grows (m : Matcher α) : Prop := ∀ w z, m (w ++ z) = none → m w = none

/-- It stays the same match. -/
def Extends (m : Matcher α) : Prop := ∀ w rest z, m w = some rest → m (w ++ z) = some (rest ++ z)

/-- It stays the same match unless it has gone to the end. -/
def Halts (m : Matcher α) : Prop := ∀ w rest z, m w = some rest → rest ≠ [] → m (w ++ z) = some (rest ++ z)

theorem Extends.grows {m : Matcher α} (h : Extends m) : Grows m := by
  intro w z hnone
  cases hrest : m w with
  | none => rfl
  | some rest =>
    rw [h w rest z hrest] at hnone
    cases hnone

theorem extends_each (fs : List (α → Bool)) : Extends (each fs) := by
  induction fs with
  | nil =>
    intro w rest z h
    cases h
    rfl
  | cons f fs ih =>
    intro w rest z h
    cases w with
    | nil => cases h
    | cons c w =>
      simp only [each, List.cons_append] at h ⊢
      split at h
      · rename_i hc
        rw [if_pos hc]
        exact ih w rest z h
      · cases h

theorem dropWhile_halts {C : α → Bool} {w rest : List α} (h : w.dropWhile C = rest) (hne : rest ≠ []) (z : List α) :
    (w ++ z).dropWhile C = rest ++ z := by
  rw [List.dropWhile_append, h]
  simp [hne]

theorem halts_many (C : α → Bool) : Halts (many C) := by
  intro w rest z h hne
  exact congrArg some (dropWhile_halts (Option.some.inj h) hne z)

theorem grows_many (C : α → Bool) : Grows (many C) := fun _ _ h => nomatch h

theorem halts_many1 (C : α → Bool) : Halts (many1 C) := by
  intro w rest z h hne
  cases w with
  | nil => cases h
  | cons c w =>
    simp only [many1, List.cons_append] at h ⊢
    split at h
    · rename_i hc
      rw [if_pos hc]
      exact congrArg some (dropWhile_halts (Option.some.inj h) hne z)
    · cases h

theorem Grows.bind_many {m : Matcher α} (h : Grows m) (C : α → Bool) : Grows (andThen m (many C)) := by
  intro w z hnone
  cases hw : m w with
  | none => simp [andThen, hw]
  | some rest =>
    cases hwz : m (w ++ z) with
    | none =>
      rw [h w z hwz] at hw
      cases hw
    | some rest' => simp [andThen, hwz, many] at hnone

theorem grows_many1 (C : α → Bool) : Grows (many1 C) := by
  intro w z h
  cases w with
  | nil => rfl
  | cons c w =>
    simp only [many1, List.cons_append] at h ⊢
    split at h
    · cases h
    · rename_i hc
      rw [if_neg hc]

theorem Halts.bind_extends {m m' : Matcher α} (h : Halts m) (hnil : m' [] = none) (h' : Extends m') : Extends (andThen m m') := by
  intro w rest z hrest
  obtain ⟨mid, hmid, hrest⟩ := Option.bind_eq_some_iff.1 hrest
  have hne : mid ≠ [] := by
    rintro rfl
    rw [hnil] at hrest
    cases hrest
  exact Option.bind_eq_some_iff.2 ⟨_, h w mid z hmid hne, h' mid rest z hrest⟩

theorem Halts.bind_grows {m m' : Matcher α} (h : Halts m) (hnil : m' [] = none) (h' : Grows m') : Grows (andThen m m') := by
  intro w z hnone
  cases hrest : andThen m m' w with
  | none => rfl
  | some rest =>
    obtain ⟨mid, hmid, hrest⟩ := Option.bind_eq_some_iff.1 hrest
    have hne : mid ≠ [] := by
      rintro rfl
      rw [hnil] at hrest
      cases hrest
    unfold andThen at hnone
    rw [h w mid z hmid hne] at hnone
    rw [h' mid z hnone] at hrest
    cases hrest

theorem Extends.bind {m m' : Matcher α} (h : Extends m) (h' : Extends m') : Extends (andThen m m') := by
  intro w rest z hrest
  obtain ⟨mid, hmid, hrest⟩ := Option.bind_eq_some_iff.1 hrest
  exact Option.bind_eq_some_iff.2 ⟨_, h w mid z hmid, h' mid rest z hrest⟩

theorem Extends.bind_grows {m m' : Matcher α} (h : Extends m) (h' : Grows m') : Grows (andThen m m') := by
  intro w z hnone
  cases hmid : m w with
  | none => simp [andThen, hmid]
  | some mid =>
    simp only [andThen, h w mid z hmid, hmid, Option.bind_some] at hnone ⊢
    exact h' mid z hnone

theorem grows_search {m : Matcher α} (h : Grows m) : Grows (search m) := by
  intro w z hnone
  induction w with
  | nil =>
    cases z with
    | nil => exact hnone
    | cons c z =>
      cases hfirst : m (c :: z) with
      | none => exact h [] (c :: z) hfirst
      | some rest => simp [search, hfirst] at hnone
  | cons c w ih =>
    simp only [search, List.cons_append] at hnone ⊢
    split at hnone
    · cases hnone
    · rename_i hfirst
      have hshort : m (c :: w) = none := h (c :: w) z hfirst
      rw [hshort]
      exact ih hnone

/-! ## Two texts side by side -/

section Alike

variable {a b : List α}

/-- Where the texts go on with `a` or `b`: there is no match, or one that ends before, and that the beginning alone has too. -/
def InnerAt (a b : List α) (m : Matcher α) (p : List α) : Prop :=
  (m (p ++ a) = none ∧ m (p ++ b) = none) ∨ ∃ p', m p = some p' ∧ m (p ++ a) = some (p' ++ a) ∧ m (p ++ b) = some (p' ++ b)

/-- Or there is one that ends behind, and leaves the same of both. -/
def AlikeAt (a b : List α) (m : Matcher α) (p : List α) : Prop :=
  InnerAt a b m p ∨ ∃ rest, rest.length < a.length ∧ m (p ++ a) = some rest ∧ m (p ++ b) = some rest

theorem InnerAt.alikeAt {m : Matcher α} {p : List α} (h : InnerAt a b m p) : AlikeAt a b m p := Or.inl h

theorem InnerAt.bind {m m' : Matcher α} {p : List α} (h : InnerAt a b m p) (h' : ∀ p', InnerAt a b m' p') :
    InnerAt a b (andThen m m') p := by
  unfold InnerAt andThen
  rcases h with ⟨ha, hb⟩ | ⟨p', hp, ha, hb⟩
  · rw [ha, hb]
    exact Or.inl ⟨rfl, rfl⟩
  · rw [hp, ha, hb]
    exact h' p'

theorem InnerAt.bind_alike {m m' : Matcher α} {p : List α} (h : InnerAt a b m p) (h' : ∀ p', AlikeAt a b m' p') :
    AlikeAt a b (andThen m m') p := by
  unfold AlikeAt InnerAt andThen
  rcases h with ⟨ha, hb⟩ | ⟨p', hp, ha, hb⟩
  · rw [ha, hb]
    exact Or.inl (Or.inl ⟨rfl, rfl⟩)
  · rw [hp, ha, hb]
    exact h' p'

theorem AlikeAt.bind {m m' : Matcher α} {p : List α} (h : AlikeAt a b m p) (h' : ∀ p', AlikeAt a b m' p') (hm' : Leaves m') :
    AlikeAt a b (andThen m m') p := by
  rcases h with h | ⟨rest, hshort, ha, hb⟩
  · exact h.bind_alike h'
  · unfold AlikeAt InnerAt andThen
    rw [ha, hb]
    cases hrest : m' rest with
    | none => exact Or.inl (Or.inl ⟨hrest, hrest⟩)
    | some rest' => exact Or.inr ⟨rest', (hm' _ _ hrest).length_le.trans_lt hshort, hrest, hrest⟩

/-- Or in front of `a` there is one that ends behind. -/
def SplitAt (a b : List α) (m : Matcher α) (p : List α) : Prop :=
  InnerAt a b m p ∨ ∃ rest, rest.length < a.length ∧ m (p ++ a) = some rest

theorem AlikeAt.splitAt {m : Matcher α} {p : List α} (h : AlikeAt a b m p) : SplitAt a b m p :=
  h.imp_right fun ⟨rest, hshort, ha, _⟩ => ⟨rest, hshort, ha⟩

/-- A sequence of elements no part of which is found where the texts differ. -/
theorem innerAt_each {fs : List (α → Bool)} (h : ∀ v, v <:+ fs → v ≠ [] → each v a = none ∧ each v b = none) (p : List α) :
    InnerAt a b (each fs) p := by
  induction fs generalizing p with
  | nil => exact Or.inr ⟨p, rfl, rfl, rfl⟩
  | cons f fs ih =>
    cases p with
    | nil => exact Or.inl (h _ (List.suffix_refl _) (by simp))
    | cons c p =>
      unfold InnerAt
      simp only [List.cons_append, each]
      split
      · exact ih (fun v hv => h v (hv.trans (List.suffix_cons _ _))) p
      · exact Or.inl ⟨rfl, rfl⟩

/-- The same where a first element comes before. -/
theorem innerAt_each_cons {f : α → Bool} {fs : List (α → Bool)} (h : ∀ v, v <:+ fs → v ≠ [] → each v a = none ∧ each v b = none)
    (c : α) (p : List α) : InnerAt a b (each (f :: fs)) (c :: p) := by
  unfold InnerAt
  simp only [List.cons_append, each]
  split
  · exact innerAt_each h p
  · exact Or.inl ⟨rfl, rfl⟩

theorem innerAt_of_clashes {fs : List (α → Bool)} {x : List α} (h : clashes fs x = true) (z z' : List α) (p : List α) :
    InnerAt (x ++ z) (x ++ z') (each fs) p :=
  innerAt_each (fun _ hv hne => ⟨each_of_clashes h hv hne z, each_of_clashes h hv hne z'⟩) p

theorem innerAt_cons_of_clashes (f : α → Bool) (fs : List (α → Bool)) {x : List α} (h : clashes fs x = true) (z z' : List α) (c : α)
    (p : List α) : InnerAt (x ++ z) (x ++ z') (each (f :: fs)) (c :: p) :=
  innerAt_each_cons (fun _ hv hne => ⟨each_of_clashes h hv hne z, each_of_clashes h hv hne z'⟩) c p

/-- A class that the texts do not go on with. -/
theorem innerAt_many {C : α → Bool} (ha : a.dropWhile C = a) (hb : b.dropWhile C = b) (p : List α) : InnerAt a b (many C) p := by
  refine Or.inr ⟨p.dropWhile C, rfl, ?_, ?_⟩
  · unfold many
    rw [List.dropWhile_append]
    split
    · rename_i hp
      rw [ha, List.isEmpty_iff.1 hp, List.nil_append]
    · rfl
  · unfold many
    rw [List.dropWhile_append]
    split
    · rename_i hp
      rw [hb, List.isEmpty_iff.1 hp, List.nil_append]
    · rfl

theorem innerAt_many1 {C : α → Bool} (ha : many1 C a = none) (hb : many1 C b = none) (ha' : a.dropWhile C = a) (hb' : b.dropWhile C = b)
    (p : List α) : InnerAt a b (many1 C) p := by
  cases p with
  | nil => exact Or.inl ⟨ha, hb⟩
  | cons c p =>
    unfold InnerAt
    simp only [List.cons_append, many1]
    split
    · exact innerAt_many ha' hb' p
    · exact Or.inl ⟨rfl, rfl⟩

/-- A run of the class that may go over the border, after which there is no match. -/
theorem innerAt_many1_andThen {C : α → Bool} {m : Matcher α} (h : ∀ p, InnerAt a b m p) (ha : m (a.dropWhile C) = none)
    (hb : m (b.dropWhile C) = none) (p : List α) : InnerAt a b (andThen (many1 C) m) p := by
  cases p with
  | nil =>
    have hnone : ∀ l, m (l.dropWhile C) = none → andThen (many1 C) m l = none := by
      intro l hl
      cases l with
      | nil => rfl
      | cons c l =>
        by_cases hc : C c = true
        · rw [List.dropWhile_cons_of_pos hc] at hl
          simpa [andThen, many1, hc] using hl
        · simp [andThen, many1, hc]
    exact Or.inl ⟨hnone a ha, hnone b hb⟩
  | cons c p =>
    unfold InnerAt andThen
    simp only [List.cons_append, many1]
    split
    · simp only [Option.bind_some, List.dropWhile_append]
      split
      · exact Or.inl ⟨ha, hb⟩
      · exact h (p.dropWhile C)
    · exact Or.inl ⟨rfl, rfl⟩

/-- A class that swallows what the texts differ in. -/
theorem alikeAt_many {D : α → Bool} {c : α} {x y : List α} (ha : a = c :: x) (hb : b = c :: y) (hD : D c = true)
    (h : x.dropWhile D = y.dropWhile D) (p : List α) : AlikeAt a b (many D) p := by
  unfold AlikeAt InnerAt many
  simp only [List.dropWhile_append]
  split
  · refine Or.inr ⟨x.dropWhile D, ?_, ?_, ?_⟩
    · rw [ha]
      exact Nat.lt_succ_of_le (List.dropWhile_suffix _).length_le
    · rw [ha, List.dropWhile_cons_of_pos hD]
    · rw [hb, List.dropWhile_cons_of_pos hD, h]
  · exact Or.inl (Or.inr ⟨_, rfl, rfl, rfl⟩)

theorem alikeAt_many1 {C : α → Bool} {c : α} {x y : List α} (ha : a = c :: x) (hb : b = c :: y) (hC : C c = true)
    (h : x.dropWhile C = y.dropWhile C) (p : List α) : AlikeAt a b (many1 C) p := by
  cases p with
  | nil =>
    refine Or.inr ⟨x.dropWhile C, ?_, ?_, ?_⟩
    · rw [ha]
      exact Nat.lt_succ_of_le (List.dropWhile_suffix _).length_le
    · simp [ha, many1, hC]
    · simp [hb, many1, hC, h]
  | cons d p =>
    have hmany := alikeAt_many ha hb hC h p
    unfold AlikeAt InnerAt many at hmany
    unfold AlikeAt InnerAt
    simp only [List.cons_append, many1]
    split
    · exact hmany
    · exact Or.inl (Or.inl ⟨rfl, rfl⟩)

/-- A search that finds the same, or nothing, where the texts differ. -/
theorem alikeAt_search {m : Matcher α} (hgrows : Grows m) (hm : ∀ p, AlikeAt a b m p) (h : search m a = search m b)
    (hshort : ∀ rest, search m a = some rest → rest.length < a.length) (p : List α) : AlikeAt a b (search m) p := by
  induction p with
  | nil =>
    cases hfound : search m a with
    | none => exact Or.inl (Or.inl ⟨hfound, h ▸ hfound⟩)
    | some rest => exact Or.inr ⟨rest, hshort rest hfound, hfound, h ▸ hfound⟩
  | cons c p ih =>
    unfold AlikeAt InnerAt
    rcases hm (c :: p) with (⟨ha, hb⟩ | ⟨p', hp, ha, hb⟩) | ⟨rest, hlength, ha, hb⟩
    · have hp : m (c :: p) = none := hgrows (c :: p) a ha
      simp only [List.cons_append] at ha hb
      simp only [List.cons_append, search, ha, hb, hp]
      exact ih
    · simp only [List.cons_append] at ha hb
      simp only [List.cons_append, search, ha, hb, hp]
      exact Or.inl (Or.inr ⟨p', rfl, rfl, rfl⟩)
    · simp only [List.cons_append] at ha hb
      simp only [List.cons_append, search, ha, hb]
      exact Or.inr ⟨rest, hlength, rfl, rfl⟩

/-! ## Matches over the border -/

/-- A match that begins in the text takes a part of `t` behind it. -/
inductive Crosses (newline : α → Bool) (ρ : Rule α) (t : List α) : Bool → List α → Prop
  | here {start c p text rest} : ρ start (c :: p ++ t) = some (text, rest) → rest.length < t.length → Crosses newline ρ t start (c :: p)
  | keep {start c p} : ρ start (c :: p ++ t) = none → Crosses newline ρ t (newline c) p → Crosses newline ρ t start (c :: p)
  | past {start c p text p'} : ρ start (c :: p ++ t) = some (text, p' ++ t) → Crosses newline ρ t false p' →
      Crosses newline ρ t start (c :: p)

/-- What a rule does in front of `a` and of `b` is the same unless a match goes over the border. -/
def Splits (a b : List α) (ρ : Rule α) : Prop :=
  ∀ start c p, (ρ start (c :: p) = none ∧ ρ start (c :: p ++ a) = none ∧ ρ start (c :: p ++ b) = none) ∨
    (∃ text p', p' <:+ p ∧ ρ start (c :: p) = some (text, p') ∧ ρ start (c :: p ++ a) = some (text, p' ++ a) ∧
      ρ start (c :: p ++ b) = some (text, p' ++ b)) ∨
    ∃ text rest, ρ start (c :: p ++ a) = some (text, rest) ∧ rest.length < a.length

/-- A match over the border leaves the same of both. -/
def Merges (a b : List α) (ρ : Rule α) : Prop :=
  ∀ start c p text rest, ρ start (c :: p ++ a) = some (text, rest) → rest.length < a.length →
    ρ start (c :: p ++ b) = some (text, rest) ∧ rest <:+ p ++ a ∧ rest <:+ p ++ b

theorem suffix_append {p' p : List α} (h : p' <:+ p) (l : List α) : p' ++ l <:+ p ++ l := by
  obtain ⟨front, rfl⟩ := h
  exact ⟨front, (List.append_assoc _ _ _).symm⟩

/-- Both texts become the same where a match goes over the border. -/
theorem sub_of_crosses (hsplits : Splits a b ρ) (hmerges : Merges a b ρ) {start : Bool} {p : List α}
    (h : Crosses newline ρ a start p) : sub newline ρ 0 start (p ++ a) = sub newline ρ 0 start (p ++ b) := by
  induction h with
  | @here start c p text rest hrest hshort =>
    obtain ⟨hb, hra, hrb⟩ := hmerges start c p text rest hrest hshort
    exact (sub_some hrest hra).trans (sub_some hb hrb).symm
  | @keep start c p hnone _ ih =>
    rcases hsplits start c p with ⟨-, ha, hb⟩ | ⟨text, p', -, -, ha, -⟩ | ⟨text, rest, ha, -⟩
    · refine (sub_none ha).trans (Eq.trans ?_ (sub_none hb).symm)
      exact congrArg _ ih
    · rw [hnone] at ha
      cases ha
    · rw [hnone] at ha
      cases ha
  | @past start c p text p' hsome _ ih =>
    rcases hsplits start c p with ⟨-, ha, -⟩ | ⟨text', p'', hp', -, ha, hb⟩ | ⟨text', rest, ha, hshort⟩
    · rw [hsome] at ha
      cases ha
    · rw [hsome, Option.some.injEq, Prod.mk.injEq, List.append_left_inj] at ha
      obtain ⟨rfl, rfl⟩ := ha
      refine (sub_some hsome (suffix_append hp' a)).trans (Eq.trans ?_ (sub_some hb (suffix_append hp' b)).symm)
      exact congrArg _ ih
    · rw [hsome, Option.some.injEq, Prod.mk.injEq] at ha
      rw [← ha.2, List.length_append] at hshort
      omega

/-- Where none does, what is before the border is substituted on its own. -/
theorem sub_of_not_crosses (hsplits : Splits a b ρ) {start : Bool} {p : List α} (h : ¬Crosses newline ρ a start p) :
    ∃ start', sub newline ρ 0 start (p ++ b) = sub newline ρ 0 start p ++ sub newline ρ 0 start' b := by
  induction hn : p.length using Nat.strong_induction_on generalizing p start with
  | _ n ih =>
    subst hn
    cases p with
    | nil => exact ⟨start, by rw [sub_nil, List.nil_append, List.nil_append]⟩
    | cons c p =>
      rcases hsplits start c p with ⟨hp, ha, hb⟩ | ⟨text, p', hp', hp, ha, hb⟩ | ⟨text, rest, ha, hshort⟩
      · obtain ⟨start', heq⟩ := ih p.length (by simp) (fun hcross => h (Crosses.keep ha hcross)) rfl
        refine ⟨start', (sub_none hb).trans ?_⟩
        rw [sub_none hp, List.cons_append]
        exact congrArg _ heq
      · have hlength : p'.length < (c :: p).length := Nat.lt_succ_of_le hp'.length_le
        obtain ⟨start', heq⟩ := ih p'.length hlength (fun hcross => h (Crosses.past ha hcross)) rfl
        refine ⟨start', (sub_some hb (suffix_append hp' b)).trans ?_⟩
        rw [sub_some hp hp', List.append_assoc]
        exact congrArg _ heq
      · exact absurd (Crosses.here ha hshort) h

/-- A rule with one text that is alike in front of both. -/
theorem splits_always {m : Matcher α} {text : List α} (hgrows : Grows m) (hconsumes : Consumes m)
    (h : ∀ c p, SplitAt a b m (c :: p)) : Splits a b (always m text) := by
  intro start c p
  unfold always
  rcases h c p with (⟨ha, hb⟩ | ⟨p', hp, ha, hb⟩) | ⟨rest, hshort, ha⟩
  · have hp : m (c :: p) = none := hgrows (c :: p) a ha
    rw [hp, ha, hb]
    exact Or.inl ⟨rfl, rfl, rfl⟩
  · refine Or.inr (Or.inl ⟨text, p', hconsumes.suffix hp, ?_⟩)
    rw [hp, ha, hb]
    exact ⟨rfl, rfl, rfl⟩
  · refine Or.inr (Or.inr ⟨text, rest, ?_, hshort⟩)
    rw [ha]
    rfl

theorem merges_always {m : Matcher α} {text : List α} (hconsumes : Consumes m) (h : ∀ c p, AlikeAt a b m (c :: p)) :
    Merges a b (always m text) := by
  intro start c p text' rest hrest hshort
  unfold always at hrest ⊢
  rcases h c p with (⟨ha, hb⟩ | ⟨p', hp, ha, hb⟩) | ⟨rest', -, ha, hb⟩
  · rw [ha] at hrest
    cases hrest
  · rw [ha, Option.map_some, Option.some.injEq, Prod.mk.injEq] at hrest
    rw [← hrest.2, List.length_append] at hshort
    omega
  · rw [ha, Option.map_some, Option.some.injEq, Prod.mk.injEq] at hrest
    obtain ⟨rfl, rfl⟩ := hrest
    rw [hb]
    exact ⟨rfl, hconsumes.suffix ha, hconsumes.suffix hb⟩

/-- Where every match ends before the border none goes over it. -/
theorem not_crosses {m : Matcher α} {text : List α} (h : ∀ c p, InnerAt a b m (c :: p)) {start : Bool} {p : List α} :
    ¬Crosses newline (always m text) a start p := by
  intro hcross
  induction hcross with
  | @here start c p text' rest hrest hshort =>
    unfold always at hrest
    rcases h c p with ⟨ha, -⟩ | ⟨p', -, ha, -⟩
    · rw [ha] at hrest
      cases hrest
    · rw [ha, Option.map_some, Option.some.injEq, Prod.mk.injEq] at hrest
      rw [← hrest.2, List.length_append] at hshort
      omega
  | keep _ _ ih => exact ih
  | past _ _ ih => exact ih

end Alike

end Scanning
