import Mathlib.Data.List.DropRight
import Mathlib.Data.List.Infix
import Mathlib.Tactic.Common

/-!
# Lexical normalisation of paths

A rooted path is a list of signs; a separator splits it into segments. Normalised, an empty segment and a single dot name the
directory they are in, two dots the one above, and the root is above itself. The normal segments of a path say where it leads by its
spelling alone.
-/

namespace Paths

variable {α : Type} [DecidableEq α] {sep dot : α}

/-- One segment further from the directory whose segments, the last first, are on the stack. -/
def step (dot : α) (stack : List (List α)) (segment : List α) : List (List α) :=
  if segment = [] ∨ segment = [dot] then stack
  else if segment = [dot, dot] then stack.tail
  else segment :: stack

def walk (sep dot : α) (stack : List (List α)) (path : List α) : List (List α) := (path.splitOn sep).foldl (step dot) stack

/-- The segments of the normalised path. -/
def normal (sep dot : α) (path : List α) : List (List α) := (walk sep dot [] path).reverse

/-- The path of the segments, below the root. -/
def spell (sep : α) (segments : List (List α)) : List α := segments.flatMap (sep :: ·)

/-- The segment is a name. -/
structure Plain (sep dot : α) (segment : List α) : Prop where
  ne_nil : segment ≠ []
  ne_dot : segment ≠ [dot]
  ne_dots : segment ≠ [dot, dot]
  no_sep : sep ∉ segment

/-! ## The segments of a normalised path -/

theorem sep_not_mem_splitOn (path : List α) : ∀ segment ∈ path.splitOn sep, sep ∉ segment := by
  induction path with
  | nil => simp
  | cons c path ih =>
    intro segment hin
    rw [List.splitOn_cons_eq_if_modifyHead] at hin
    split_ifs at hin with hc
    · rcases List.mem_cons.1 hin with rfl | hin
      · exact List.not_mem_nil
      · exact ih segment hin
    · obtain ⟨first, rest, heq⟩ := List.exists_cons_of_ne_nil (List.splitOn_ne_nil sep path)
      rw [heq, List.modifyHead_cons, List.mem_cons] at hin
      rcases hin with rfl | hin
      · have hne : c ≠ sep := fun h => hc (beq_iff_eq.2 h)
        have hfirst := ih first (heq ▸ List.mem_cons_self)
        exact fun hmem => (List.mem_cons.1 hmem).elim (fun h => hne h.symm) hfirst
      · exact ih segment (heq ▸ List.mem_cons_of_mem _ hin)

theorem plain_step {stack : List (List α)} {segment : List α} (hstack : ∀ s ∈ stack, Plain sep dot s) (hsep : sep ∉ segment) :
    ∀ s ∈ step dot stack segment, Plain sep dot s := by
  unfold step
  split_ifs with hsame hup
  · exact hstack
  · exact fun s hs => hstack s (List.mem_of_mem_tail hs)
  · rw [not_or] at hsame
    exact List.forall_mem_cons.2 ⟨⟨hsame.1, hsame.2, hup, hsep⟩, hstack⟩

/-- The segments of a normalised path are names. -/
theorem normal_plain (sep dot : α) (path : List α) : ∀ s ∈ normal sep dot path, Plain sep dot s := by
  have hfold : ∀ (segments stack : List (List α)), (∀ s ∈ segments, sep ∉ s) → (∀ s ∈ stack, Plain sep dot s) →
      ∀ s ∈ segments.foldl (step dot) stack, Plain sep dot s := by
    intro segments
    induction segments with
    | nil => exact fun _ _ h => h
    | cons segment rest ih =>
      intro stack hsegments hstack
      exact ih _ (fun s hs => hsegments s (List.mem_cons_of_mem _ hs)) (plain_step hstack (hsegments segment List.mem_cons_self))
  intro s hs
  exact hfold _ [] (sep_not_mem_splitOn path) (fun _ h => by cases h) s (List.mem_reverse.1 hs)

/-! ## Normal spellings -/

theorem walk_sep (stack : List (List α)) (path : List α) : walk sep dot stack (sep :: path) = walk sep dot stack path := by
  have hsplit : (sep :: path).splitOn sep = [] :: path.splitOn sep := List.splitOn_append_cons_self_of_not_mem List.not_mem_nil path
  rw [walk, hsplit, List.foldl_cons, step, if_pos (Or.inl rfl), walk]

/-- A name, then the end of the path or the rest of it. -/
theorem walk_segment {stack : List (List α)} {segment rest : List α} (h : Plain sep dot segment)
    (hrest : rest = [] ∨ ∃ more, rest = sep :: more) :
    walk sep dot stack (segment ++ rest) = walk sep dot (segment :: stack) rest := by
  have hstep : step dot stack segment = segment :: stack := by
    rw [step, if_neg (not_or.2 ⟨h.ne_nil, h.ne_dot⟩), if_neg h.ne_dots]
  rcases hrest with rfl | ⟨more, rfl⟩
  · rw [walk, List.append_nil, List.splitOn_eq_singleton h.no_sep, List.foldl_cons, hstep]
    rfl
  · rw [walk_sep, walk, List.splitOn_append_cons_self_of_not_mem h.no_sep, List.foldl_cons, hstep, walk]

omit [DecidableEq α] in
theorem spell_cons (segment : List α) (rest : List (List α)) : spell sep (segment :: rest) = sep :: (segment ++ spell sep rest) := rfl

omit [DecidableEq α] in
/-- A spelling with separators after it is empty or begins with a separator. -/
theorem spell_rooted (segments : List (List α)) (n : Nat) :
    spell sep segments ++ List.replicate n sep = [] ∨ ∃ more, spell sep segments ++ List.replicate n sep = sep :: more := by
  cases segments with
  | cons segment rest => exact Or.inr ⟨_, rfl⟩
  | nil =>
    cases n with
    | zero => exact Or.inl rfl
    | succ n => exact Or.inr ⟨_, rfl⟩

theorem walk_replicate (stack : List (List α)) (n : Nat) : walk sep dot stack (List.replicate n sep) = stack := by
  induction n with
  | zero => rfl
  | succ n ih => rw [List.replicate_succ, walk_sep, ih]

/-- A path spelled with names, and separators after it, is normal. -/
theorem normal_spell {segments : List (List α)} (h : ∀ s ∈ segments, Plain sep dot s) (n : Nat) :
    normal sep dot (spell sep segments ++ List.replicate n sep) = segments := by
  have hwalk : ∀ stack : List (List α),
      walk sep dot stack (spell sep segments ++ List.replicate n sep) = segments.reverse ++ stack := by
    induction segments with
    | nil => exact fun stack => walk_replicate stack n
    | cons segment rest ih =>
      intro stack
      obtain ⟨hsegment, hrest⟩ := List.forall_mem_cons.1 h
      rw [spell_cons, List.cons_append, walk_sep, List.append_assoc, walk_segment hsegment (spell_rooted rest n), ih hrest]
      simp
  rw [normal, hwalk, List.append_nil, List.reverse_reverse]

/-- Separators after a path change nothing. -/
theorem normal_rdropWhile (path : List α) : normal sep dot (path.rdropWhile (· == sep)) = normal sep dot path := by
  induction path using List.reverseRecOn with
  | nil => rfl
  | append_singleton path c ih =>
    rw [List.rdropWhile_concat]
    split_ifs with hc
    · obtain rfl : c = sep := beq_iff_eq.1 hc
      have hsplit : (path ++ [c]).splitOn c = path.splitOn c ++ [[]] := List.splitOn_append_cons_self path []
      rw [ih, normal, normal, walk, walk, hsplit, List.foldl_append]
      simp [step]
    · rfl

/-! ## One path below another -/

omit [DecidableEq α] in
/-- What ends at a separator tells the segments apart. -/
theorem segment_prefix_iff {s t x y : List α} (hs : sep ∉ s) (ht : sep ∉ t) (hy : y = [] ∨ ∃ more, y = sep :: more) :
    s ++ sep :: x <+: t ++ y ↔ s = t ∧ sep :: x <+: y := by
  induction s generalizing t with
  | nil =>
    cases t with
    | nil => simp
    | cons d t =>
      have hne : sep ≠ d := fun h => ht (h ▸ List.mem_cons_self)
      simp [hne]
  | cons c s ih =>
    obtain ⟨hc, hs⟩ := List.ne_and_not_mem_of_not_mem_cons hs
    cases t with
    | nil =>
      rcases hy with rfl | ⟨more, rfl⟩
      · simp
      · have hne : c ≠ sep := fun h => hc h.symm
        simp [hne]
    | cons d t =>
      have ht := List.not_mem_of_not_mem_cons ht
      rw [List.cons_append, List.cons_append, List.cons_prefix_cons, ih hs ht, List.cons.injEq, and_assoc]

omit [DecidableEq α] in
/-- A path with a separator after it begins another exactly if the other leads to it or below, and has that separator too where they
are the same. -/
theorem spell_prefix_iff {a b : List (List α)} (ha : ∀ s ∈ a, Plain sep dot s) (hb : ∀ s ∈ b, Plain sep dot s) (n : Nat) :
    spell sep a ++ [sep] <+: spell sep b ++ List.replicate n sep ↔ a <+: b ∧ (a = b → 0 < n) := by
  induction a generalizing b with
  | nil =>
    cases b with
    | cons t b => simp [spell]
    | nil => cases n <;> simp [spell, List.replicate_succ]
  | cons s a ih =>
    obtain ⟨hs, ha⟩ := List.forall_mem_cons.1 ha
    cases b with
    | nil =>
      have hnot : ¬spell sep (s :: a) ++ [sep] <+: spell sep [] ++ List.replicate n sep := by
        intro hbegins
        obtain ⟨c, hc⟩ := List.exists_mem_of_ne_nil s hs.ne_nil
        have hin : c ∈ spell sep (s :: a) ++ [sep] :=
          List.mem_append_left _ (List.mem_cons_of_mem _ (List.mem_append_left _ hc))
        have hsep : c = sep := List.eq_of_mem_replicate (hbegins.subset hin)
        exact hs.no_sep (hsep ▸ hc)
      simp [hnot]
    | cons t b =>
      obtain ⟨ht, hb⟩ := List.forall_mem_cons.1 hb
      obtain ⟨more, hmore⟩ : ∃ more, spell sep a ++ [sep] = sep :: more := by
        cases a with
        | nil => exact ⟨[], rfl⟩
        | cons => exact ⟨_, rfl⟩
      rw [spell_cons, spell_cons, List.cons_append, List.cons_append, List.cons_prefix_cons, List.append_assoc, List.append_assoc,
        hmore, segment_prefix_iff hs.no_sep ht.no_sep (spell_rooted b n), ← hmore, ih ha hb, List.cons_prefix_cons, List.cons.injEq]
      constructor
      · rintro ⟨-, rfl, hbegins, hn⟩
        exact ⟨⟨rfl, hbegins⟩, fun heq => hn heq.2⟩
      · rintro ⟨⟨rfl, hbegins⟩, hn⟩
        exact ⟨rfl, rfl, hbegins, fun heq => hn ⟨rfl, heq⟩⟩

/-- Without the separators after it, a spelling is as it was. -/
theorem rdropWhile_spell {segments : List (List α)} (h : ∀ s ∈ segments, Plain sep dot s) (n : Nat) :
    (spell sep segments ++ List.replicate n sep).rdropWhile (· == sep) = spell sep segments := by
  induction n with
  | succ n ih =>
    rw [List.replicate_succ', ← List.append_assoc]
    exact (List.rdropWhile_concat_pos (· == sep) _ _ (beq_self_eq_true sep)).trans ih
  | zero =>
    rw [List.replicate_zero, List.append_nil]
    rcases List.eq_nil_or_concat' segments with rfl | ⟨before, last, rfl⟩
    · rfl
    · obtain ⟨names, c, rfl⟩ : ∃ names c, last = names ++ [c] := by
        have hlast := h last (by simp)
        exact (List.eq_nil_or_concat' last).resolve_left hlast.ne_nil
      have hc : c ≠ sep := fun heq => (h (names ++ [c]) (by simp)).no_sep (by simp [heq])
      have hspell : spell sep (before ++ [names ++ [c]]) = (spell sep before ++ sep :: names) ++ [c] := by
        simp [spell]
      rw [hspell]
      exact List.rdropWhile_concat_neg _ _ _ (by simpa using hc)

end Paths
