import Mathlib.Tactic.IntervalCases
import OciAcmePublisher.Scanning.JsonRoundTrip

/-!
# JSON that is cut short

The text of a dictionary, without its end, is no JSON: whatever of it a writer had written when it was stopped is refused.
-/

namespace Scanning

variable {σ : Type}

/-- The text is the other without its end. -/
def Cut (t l : List σ) : Prop := ∃ c rest, l = t ++ c :: rest

theorem not_cut_nil {t : List σ} : ¬Cut t [] := by
  rintro ⟨c, rest, h⟩
  exact absurd h.symm (List.append_ne_nil_of_right_ne_nil t (List.cons_ne_nil c rest))

theorem cut_cons_iff {t l : List σ} {c : σ} : Cut t (c :: l) ↔ t = [] ∨ ∃ t', t = c :: t' ∧ Cut t' l := by
  constructor
  · rintro ⟨d, rest, h⟩
    cases t with
    | nil => exact Or.inl rfl
    | cons e t =>
      obtain ⟨rfl, hl⟩ := List.cons.inj h
      exact Or.inr ⟨t, rfl, d, rest, hl⟩
  · rintro (rfl | ⟨t', rfl, d, rest, rfl⟩)
    · exact ⟨c, l, rfl⟩
    · exact ⟨d, rest, rfl⟩

/-- A text of two parts is cut in the first or in the second. -/
theorem cut_append_iff {t a b : List σ} : Cut t (a ++ b) ↔ Cut t a ∨ ∃ t', t = a ++ t' ∧ Cut t' b := by
  induction a generalizing t with
  | nil => simp [not_cut_nil]
  | cons c a ih =>
    rw [List.cons_append, cut_cons_iff, cut_cons_iff]
    constructor
    · rintro (rfl | ⟨t', rfl, hcut⟩)
      · exact Or.inl (Or.inl rfl)
      · rcases ih.1 hcut with hfirst | ⟨t'', rfl, hsecond⟩
        · exact Or.inl (Or.inr ⟨t', rfl, hfirst⟩)
        · exact Or.inr ⟨t'', rfl, hsecond⟩
    · rintro ((rfl | ⟨t', rfl, hcut⟩) | ⟨t', rfl, hcut⟩)
      · exact Or.inl rfl
      · exact Or.inr ⟨t', rfl, ih.2 (Or.inl hcut)⟩
      · exact Or.inr ⟨a ++ t', rfl, ih.2 (Or.inr ⟨t', rfl, hcut⟩)⟩

theorem Cut.mem {t l : List σ} (h : Cut t l) {c : σ} (hc : c ∈ t) : c ∈ l := by
  obtain ⟨d, rest, rfl⟩ := h
  exact List.mem_append_left _ hc

theorem Cut.stops {C : σ → Bool} {t l : List σ} (h : Cut t l) (hl : Stops C l) : Stops C t := by
  obtain ⟨d, rest, rfl⟩ := h
  cases t with
  | nil => exact fun _ hc => absurd hc (by simp)
  | cons c t => exact stops_cons (hl c rfl)

namespace Json

/-- What is cut behind blanks is, without them, cut there. -/
theorem skip_cut {s l t : List Char} {c : Char} (hs : ∀ c ∈ s, blank c = true) (hc : blank c = false) (h : Cut t (s ++ c :: l)) :
    Cut (t.dropWhile blank) (c :: l) := by
  rcases cut_append_iff.1 h with hcut | ⟨t', rfl, hcut⟩
  · have hnone : t.dropWhile blank = [] := List.dropWhile_eq_nil_iff.2 fun c hmem => hs c (hcut.mem hmem)
    rw [hnone]
    exact cut_cons_iff.2 (Or.inl rfl)
  · rw [List.dropWhile_append_of_pos hs]
    rcases cut_cons_iff.1 hcut with rfl | ⟨t'', rfl, -⟩
    · exact hcut
    · rw [skip_none hc]
      exact hcut

/-! ## Texts -/

theorem points_unit_cut {n : Nat} {t : List Char} (h : Cut t (unitText n)) : points t = none := by
  unfold unitText at h
  rcases cut_cons_iff.1 h with rfl | ⟨t₁, rfl, h₁⟩
  · rfl
  rcases cut_cons_iff.1 h₁ with rfl | ⟨t₂, rfl, h₂⟩
  · rfl
  rcases cut_cons_iff.1 h₂ with rfl | ⟨t₃, rfl, h₃⟩
  · rfl
  rcases cut_cons_iff.1 h₃ with rfl | ⟨t₄, rfl, h₄⟩
  · rfl
  rcases cut_cons_iff.1 h₄ with rfl | ⟨t₅, rfl, h₅⟩
  · rfl
  rcases cut_cons_iff.1 h₅ with rfl | ⟨t₆, rfl, h₆⟩
  · rfl
  exact absurd h₆ not_cut_nil

theorem points_escape_cut {c : Char} {t : List Char} (h : Cut t (escape c)) : points t = none := by
  have hlt := toNat_lt c
  unfold escape at h
  split at h
  · rcases cut_cons_iff.1 h with rfl | ⟨t₁, rfl, h₁⟩
    · rfl
    rcases cut_cons_iff.1 h₁ with rfl | ⟨t₂, rfl, h₂⟩
    · rfl
    exact absurd h₂ not_cut_nil
  · split at h
    · rcases cut_cons_iff.1 h with rfl | ⟨t₁, rfl, h₁⟩
      · rfl
      exact absurd h₁ not_cut_nil
    · split at h
      · exact points_unit_cut h
      · rcases cut_append_iff.1 h with h₁ | ⟨t₁, rfl, h₁⟩
        · exact points_unit_cut h₁
        · rw [points_unit (by omega), points_unit_cut h₁]
          rfl

theorem points_quoted_cut {text t : List Char} (h : Cut t (text.flatMap escape ++ ['"'])) : points t = none := by
  induction text generalizing t with
  | nil =>
    rcases cut_cons_iff.1 h with rfl | ⟨t₁, rfl, h₁⟩
    · rfl
    · exact absurd h₁ not_cut_nil
  | cons c text ih =>
    rw [List.flatMap_cons, List.append_assoc] at h
    rcases cut_append_iff.1 h with h₁ | ⟨t₁, rfl, h₁⟩
    · exact points_escape_cut h₁
    · rw [points_escape, ih h₁]
      rfl

theorem readText_cut {text : String} {t : List Char} (h : Cut t (text.toList.flatMap escape ++ ['"'])) : readText t = none := by
  unfold readText
  rw [points_quoted_cut h]
  rfl

/-! ## Numbers -/

theorem readUnsigned_cut (negative : Bool) {n : Nat} {t : List Char} (h : Cut t (Nat.toDigits 10 n)) :
    readUnsigned negative t = none ∨ ∃ u, readUnsigned negative t = some (u, []) := by
  have hdigit : ∀ c ∈ t, c.isDigit = true := fun c hc => Nat.isDigit_of_mem_toDigits (by decide) (by decide) (h.mem hc)
  cases t with
  | nil => exact Or.inl rfl
  | cons d t =>
    rcases Nat.eq_zero_or_pos n with rfl | hpos
    · rcases cut_cons_iff.1 h with hnil | ⟨t', -, hcut⟩
      · cases hnil
      · exact absurd hcut not_cut_nil
    · obtain ⟨d', rest, hdigits, hd'⟩ := digits_head hpos
      rw [hdigits] at h
      obtain hnil | ⟨t', heq, -⟩ := cut_cons_iff.1 h
      · cases hnil
      · obtain ⟨rfl, rfl⟩ := List.cons.inj heq
        obtain ⟨m, hread⟩ : ∃ m, readNatural (d :: t) = some (m, []) := by
          refine ⟨Nat.ofDigitChars 10 (d :: t.takeWhile Char.isDigit) 0, ?_⟩
          rw [readNatural]
          · rw [if_pos (hdigit d List.mem_cons_self),
              List.dropWhile_eq_nil_iff.2 fun c hc => hdigit c (List.mem_cons_of_mem d hc)]
          · exact hd'
        refine Or.inr ⟨.int (if negative then -(m : Int) else m), ?_⟩
        unfold readUnsigned
        rw [hread]
        rfl

theorem readScalar_integer_cut {n : Int} {t : List Char} (h : Cut t (integerText n)) :
    readScalar t = none ∨ ∃ u, readScalar t = some (u, []) := by
  cases n with
  | ofNat n =>
    have h : Cut t (Nat.toDigits 10 n) := h
    cases t with
    | nil => exact Or.inl rfl
    | cons d t =>
      rw [readScalar_digit (Nat.isDigit_of_mem_toDigits (by decide) (by decide) (h.mem List.mem_cons_self))]
      exact readUnsigned_cut false h
  | negSucc n =>
    have h : Cut t ('-' :: Nat.toDigits 10 (n + 1)) := h
    rcases cut_cons_iff.1 h with rfl | ⟨t₁, rfl, h₁⟩
    · exact Or.inl rfl
    · cases t₁ with
      | nil => exact Or.inl rfl
      | cons d t₁ =>
        rw [readScalar_minus (Nat.isDigit_of_mem_toDigits (by decide) (by decide) (h₁.mem List.mem_cons_self))]
        exact readUnsigned_cut true h₁

/-! ## Steps -/

/-- What is read with some steps is read with one more. -/
theorem readValue_succ (steps : Nat) :
    (∀ l read, readValue steps l = some read → readValue (steps + 1) l = some read) ∧
      (∀ l read, readItems steps l = some read → readItems (steps + 1) l = some read) ∧
        ∀ l read, readMembers steps l = some read → readMembers (steps + 1) l = some read := by
  induction steps with
  | zero => exact ⟨nofun, nofun, nofun⟩
  | succ steps ih =>
    obtain ⟨hvalue, hitems, hmembers⟩ := ih
    refine ⟨fun l read h => ?_, fun l read h => ?_, fun l read h => ?_⟩
    · cases l with
      | nil => exact h
      | cons c l =>
        by_cases hquote : c = '"'
        · subst hquote
          exact h
        by_cases hlist : c = '['
        · subst hlist
          rw [readValue] at h ⊢
          split at h
          · exact h
          · rename_i hend
            obtain ⟨found, hfound, rfl⟩ := Option.map_eq_some_iff.1 h
            rw [hitems _ _ hfound]
            split
            rfl
        by_cases hdictionary : c = '\x7b'
        · subst hdictionary
          rw [readValue] at h ⊢
          split at h
          · exact h
          · rename_i hend
            obtain ⟨found, hfound, rfl⟩ := Option.map_eq_some_iff.1 h
            rw [hmembers _ _ hfound]
            split
            rfl
        rw [readValue_scalar hquote hlist hdictionary] at h ⊢
        exact h
    · cases hread : readValue steps l with
      | none =>
        rw [readItems, hread] at h
        cases h
      | some found =>
        obtain ⟨item, rest⟩ := found
        rw [readItems_of hread] at h
        rw [readItems_of (hvalue _ _ hread)]
        unfold itemsBehind at h ⊢
        split at h
        · obtain ⟨found, hfound, rfl⟩ := Option.map_eq_some_iff.1 h
          rw [hitems _ _ hfound]
          rfl
        · exact h
        · cases h
    · cases hkey : readKey l with
      | none =>
        rw [readMembers, hkey] at h
        cases h
      | some found =>
        obtain ⟨key, l₁⟩ := found
        cases hread : readValue steps l₁ with
        | none =>
          rw [readMembers, hkey] at h
          simp only at h
          rw [hread] at h
          cases h
        | some found =>
          obtain ⟨value, rest⟩ := found
          rw [readMembers_of hkey hread] at h
          rw [readMembers_of hkey (hvalue _ _ hread)]
          unfold membersBehind at h ⊢
          split at h
          · obtain ⟨found, hfound, rfl⟩ := Option.map_eq_some_iff.1 h
            rw [hmembers _ _ hfound]
            rfl
          · exact h
          · cases h

theorem readValue_mono {steps steps' : Nat} (h : steps ≤ steps') {l : List Char} {read : Value × List Char}
    (hread : readValue steps l = some read) : readValue steps' l = some read := by
  induction h with
  | refl => exact hread
  | step _ ih => exact (readValue_succ _).1 l read ih

/-- Whatever the steps, nothing else is read off the text of a value. -/
theorem readValue_only (indent : Option Nat) {value : Value} (h : Written value) (level steps : Nat) {rest : List Char}
    (hrest : Stops numeric rest) {read : Value × List Char}
    (hread : readValue steps (render indent level value ++ rest) = some read) :
    read = (value, rest) := by
  have hmore := readValue_mono (Nat.le_max_left steps (render indent level value).length) hread
  rw [readValue_render indent value h level _ rest (Nat.le_max_right _ _) hrest] at hmore
  exact (Option.some.inj hmore).symm

/-! ## Values -/

/-- Of a text that is cut nothing is read; of a number, another number up to the end. -/
def Torn (value : Value) (read : Option (Value × List Char)) : Prop :=
  read = none ∨ (∃ n, value = .int n) ∧ ∃ found, read = some (found, [])

theorem readItems_cut {indent : Option Nat} {level : Nat} {item : Value} {items : List Value} (hitem : Written item)
    (hvalue : ∀ steps t, Cut t (render indent (level + 1) item) → Torn item (readValue steps t))
    (hbehind : ∀ steps t, Cut t (renderItems indent level items) → itemsBehind steps item t = none) (steps : Nat) {t : List Char}
    (h : Cut t (render indent (level + 1) item ++ renderItems indent level items)) : readItems steps t = none := by
  cases steps with
  | zero => rfl
  | succ steps =>
    cases hread : readValue steps t with
    | none =>
      rw [readItems, hread]
    | some read =>
      rw [readItems_of hread]
      rcases cut_append_iff.1 h with hcut | ⟨t', rfl, hcut⟩
      · rcases hvalue steps t hcut with hnone | ⟨-, found, hfound⟩
        · rw [hnone] at hread
          cases hread
        · rw [hfound] at hread
          cases hread
          rfl
      · have hstops : Stops numeric t' := hcut.stops (by simpa using stops_items indent level items [])
        cases readValue_only indent hitem (level + 1) steps hstops hread
        exact hbehind steps t' hcut

theorem readKey_cut {key : String} {c : Char} {l t : List Char} (hc : blank c = false)
    (h : Cut t (quotedText key ++ (':' :: ' ' :: c :: l))) :
    readKey t = none ∨ ∃ t', readKey t = some (some key, t') ∧ Cut t' (c :: l) := by
  rcases cut_append_iff.1 h with hcut | ⟨t₁, rfl, hcut⟩
  · rcases cut_cons_iff.1 hcut with rfl | ⟨t₁, rfl, hcut₁⟩
    · exact Or.inl rfl
    · rw [readKey, readText_cut hcut₁]
      exact Or.inl rfl
  · unfold quotedText
    rw [List.cons_append, List.append_assoc, List.singleton_append, readKey, readText_quoted]
    rcases cut_cons_iff.1 hcut with rfl | ⟨t₂, rfl, hcut₂⟩
    · exact Or.inl rfl
    · refine Or.inr ⟨t₂.dropWhile blank, ?_, skip_cut space_blank hc hcut₂⟩
      simp only
      rw [skip_none rfl]
      rfl

theorem readMembers_cut {indent : Option Nat} {level : Nat} {key : String} {value : Value} {members : List (String × Value)}
    (hwritten : Written value) (hvalue : ∀ steps t, Cut t (render indent (level + 1) value) → Torn value (readValue steps t))
    (hbehind : ∀ steps t, Cut t (renderMembers indent level members) → membersBehind steps (some key) value t = none)
    (steps : Nat) {t : List Char}
    (h : Cut t (quotedText key ++ (':' :: ' ' :: (render indent (level + 1) value ++ renderMembers indent level members)))) :
    readMembers steps t = none := by
  obtain ⟨c, l, hrender, hblank, -⟩ := render_head indent (level + 1) hwritten
  cases steps with
  | zero => rfl
  | succ steps =>
    rw [hrender, List.cons_append] at h
    rcases readKey_cut hblank h with hkey | ⟨t', hkey, hcut⟩
    · rw [readMembers, hkey]
    · rw [← List.cons_append, ← hrender] at hcut
      cases hread : readValue steps t' with
      | none =>
        rw [readMembers, hkey]
        simp only
        rw [hread]
      | some read =>
        rw [readMembers_of hkey hread]
        rcases cut_append_iff.1 hcut with hcut' | ⟨t'', rfl, hcut'⟩
        · rcases hvalue steps t' hcut' with hnone | ⟨-, found, hfound⟩
          · rw [hnone] at hread
            cases hread
          · rw [hfound] at hread
            cases hread
            rfl
        · have hstops : Stops numeric t'' := hcut'.stops (by simpa using stops_members indent level members [])
          cases readValue_only indent hwritten (level + 1) steps hstops hread
          exact hbehind steps t'' hcut'

theorem readValue_nil (steps : Nat) : readValue steps [] = none := by
  cases steps <;> rfl

theorem readItems_nil (steps : Nat) : readItems steps [] = none := by
  cases steps with
  | zero => rfl
  | succ steps => rw [readItems, readValue_nil]

theorem readMembers_nil (steps : Nat) : readMembers steps [] = none := by
  cases steps <;> rfl

/-- A word that is cut is none. -/
theorem readValue_word_cut {word : List Char} (hword : word ∈
    [['n', 'u', 'l', 'l'], ['t', 'r', 'u', 'e'], ['f', 'a', 'l', 's', 'e']])
    {t : List Char} (h : Cut t word) (steps : Nat) : readValue (steps + 1) t = none := by
  obtain ⟨k, hk, rfl⟩ : ∃ k < word.length, t = word.take k := by
    obtain ⟨c, rest, rfl⟩ := h
    exact ⟨t.length, by simp, by simp⟩
  simp only [List.mem_cons, List.not_mem_nil, or_false] at hword
  rcases hword with rfl | rfl | rfl <;> (simp only [List.length_cons, List.length_nil] at hk; interval_cases k <;> rfl)

mutual

theorem readValue_cut (indent : Option Nat) : ∀ (value : Value), Written value → ∀ (level steps : Nat) (t : List Char),
    Cut t (render indent level value) → Torn value (readValue steps t)
  | _, _, _, 0, _, _ => Or.inl rfl
  | .null, _, _, steps + 1, _, h => Or.inl (readValue_word_cut (by simp [render]) h steps)
  | .bool true, _, _, steps + 1, _, h => Or.inl (readValue_word_cut (by simp [render]) h steps)
  | .bool false, _, _, steps + 1, _, h => Or.inl (readValue_word_cut (by simp [render]) h steps)
  | .int n, _, _, steps + 1, t, h => by
    have hscalar : readValue (steps + 1) t = readScalar t := by
      obtain ⟨c, l, hdigits, hquote, hlist, hdictionary⟩ := integer_head n
      rw [render, hdigits] at h
      rcases cut_cons_iff.1 h with rfl | ⟨t', rfl, -⟩
      · rfl
      · exact readValue_scalar hquote hlist hdictionary steps t'
    rw [hscalar]
    exact (readScalar_integer_cut h).imp (fun hnone => hnone) fun hread => ⟨⟨n, rfl⟩, hread⟩
  | .text text, _, _, steps + 1, t, h => by
    refine Or.inl ?_
    rcases cut_cons_iff.1 h with rfl | ⟨t', rfl, hcut⟩
    · rfl
    · rw [readValue, readText_cut hcut]
      rfl
  | .array [], _, _, steps + 1, t, h => by
    refine Or.inl ?_
    rcases cut_cons_iff.1 h with rfl | ⟨t', rfl, hcut⟩
    · rfl
    · rcases cut_cons_iff.1 hcut with rfl | ⟨t'', rfl, hcut'⟩
      · rw [readValue]
        exact congrArg (Option.map _) (readItems_nil steps)
      · exact absurd hcut' not_cut_nil
  | .array (item :: items), hwritten, level, steps + 1, t, h => by
    obtain ⟨hitem, hitems⟩ := hwritten
    obtain ⟨c, l, hrender, hblank, hend, -⟩ := render_head indent (level + 1) hitem
    refine Or.inl ?_
    rw [render] at h
    rcases cut_cons_iff.1 h with rfl | ⟨t', rfl, hcut⟩
    · rfl
    · rw [hrender, List.cons_append] at hcut
      have hskipped := skip_cut (gap_blank indent _) hblank hcut
      rw [readValue]
      split
      · rename_i heq
        rw [heq] at hskipped
        rcases cut_cons_iff.1 hskipped with hnil | ⟨t'', hcons, -⟩
        · cases hnil
        · exact absurd (List.cons.inj hcons).1.symm hend
      · rw [← List.cons_append, ← hrender] at hskipped
        rw [readItems_cut hitem (readValue_cut indent item hitem (level + 1))
          (itemsBehind_cut indent items hitems item level) steps hskipped]
        rfl
  | .object [], _, _, steps + 1, t, h => by
    refine Or.inl ?_
    rcases cut_cons_iff.1 h with rfl | ⟨t', rfl, hcut⟩
    · rfl
    · rcases cut_cons_iff.1 hcut with rfl | ⟨t'', rfl, hcut'⟩
      · rw [readValue]
        exact congrArg (Option.map _) (readMembers_nil steps)
      · exact absurd hcut' not_cut_nil
  | .object ((key, value) :: members), hwritten, level, steps + 1, t, h => by
    obtain ⟨-, hvalue, hmembers⟩ := hwritten
    refine Or.inl ?_
    rw [render] at h
    rcases cut_cons_iff.1 h with rfl | ⟨t', rfl, hcut⟩
    · rfl
    · have hskipped : Cut (t'.dropWhile blank) (quotedText key ++ (':' :: ' ' :: (render indent (level + 1) value ++
          renderMembers indent level members))) := skip_cut (gap_blank indent _) (by decide) hcut
      rw [readValue]
      split
      · rename_i heq
        rw [heq] at hskipped
        rcases cut_cons_iff.1 hskipped with hnil | ⟨t'', hcons, -⟩
        · cases hnil
        · exact absurd (List.cons.inj hcons).1 (by decide)
      · rw [readMembers_cut hvalue (readValue_cut indent value hvalue (level + 1))
          (membersBehind_cut indent members hmembers key value level) steps hskipped]
        rfl
  | .other, hwritten, _, _ + 1, _, _ => absurd hwritten id

theorem itemsBehind_cut (indent : Option Nat) : ∀ (items : List Value), AllWritten items → ∀ (item : Value) (level steps : Nat)
    (t : List Char), Cut t (renderItems indent level items) → itemsBehind steps item t = none
  | [], _, item, level, steps, t, h => by
    rw [renderItems] at h
    have hskipped := skip_cut (gap_blank indent level) (by decide : blank ']' = false) h
    unfold itemsBehind
    rcases cut_cons_iff.1 hskipped with hnil | ⟨t', -, hcut⟩
    · rw [hnil]
    · exact absurd hcut not_cut_nil
  | next :: items, hwritten, item, level, steps, t, h => by
    obtain ⟨hnext, hitems⟩ := hwritten
    obtain ⟨c, l, hrender, hblank, -⟩ := render_head indent (level + 1) hnext
    rw [renderItems] at h
    unfold itemsBehind
    rcases cut_cons_iff.1 h with rfl | ⟨t', rfl, hcut⟩
    · rfl
    · rw [hrender, List.cons_append] at hcut
      have hskipped := skip_cut (between_blank indent _) hblank hcut
      rw [← List.cons_append, ← hrender] at hskipped
      rw [skip_none rfl]
      simp only
      rw [readItems_cut hnext (readValue_cut indent next hnext (level + 1)) (itemsBehind_cut indent items hitems next level) steps
        hskipped]
      rfl

theorem membersBehind_cut (indent : Option Nat) : ∀ (members : List (String × Value)), MembersWritten members →
    ∀ (key : String) (value : Value) (level steps : Nat) (t : List Char), Cut t (renderMembers indent level members) →
      membersBehind steps (some key) value t = none
  | [], _, key, value, level, steps, t, h => by
    rw [renderMembers] at h
    have hskipped := skip_cut (gap_blank indent level) (by decide : blank '\x7d' = false) h
    unfold membersBehind
    rcases cut_cons_iff.1 hskipped with hnil | ⟨t', -, hcut⟩
    · rw [hnil]
    · exact absurd hcut not_cut_nil
  | (next, nextValue) :: members, hwritten, key, value, level, steps, t, h => by
    obtain ⟨hnext, hmembers⟩ := hwritten
    rw [renderMembers] at h
    unfold membersBehind
    rcases cut_cons_iff.1 h with rfl | ⟨t', rfl, hcut⟩
    · rfl
    · have hskipped : Cut (t'.dropWhile blank) (quotedText next ++ (':' :: ' ' :: (render indent (level + 1) nextValue ++
          renderMembers indent level members))) := skip_cut (between_blank indent _) (by decide) hcut
      rw [skip_none rfl]
      simp only
      rw [readMembers_cut hnext (readValue_cut indent nextValue hnext (level + 1))
        (membersBehind_cut indent members hmembers next nextValue level) steps hskipped]
      rfl

end

/-- The text of a dictionary, without its end, is no JSON. -/
theorem loads_cut (indent : Option Nat) {members : List (String × Value)} (h : Written (.object members)) {t : List Char}
    (hcut : Cut t (dumps indent (.object members))) : loads t = none := by
  have hwritten := sorted_written h
  have hread := readValue_cut indent (sorted (.object members)) hwritten 0 t.length t hcut
  have hnone : readValue t.length t = none := by
    refine hread.resolve_right ?_
    rintro ⟨⟨n, hn⟩, -⟩
    cases hn
  have hskip : t.dropWhile blank = t := by
    obtain ⟨c, l, hrender, hblank, -⟩ := render_head indent 0 hwritten
    unfold dumps at hcut
    rw [hrender] at hcut
    rcases cut_cons_iff.1 hcut with rfl | ⟨t', rfl, -⟩
    · rfl
    · exact skip_none hblank t'
  unfold loads
  rw [hskip, hnone]

end Json

end Scanning
