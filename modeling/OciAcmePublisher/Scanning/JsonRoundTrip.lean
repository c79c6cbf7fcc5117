import OciAcmePublisher.Scanning.Json

/-!
# What is written as JSON is read back

A value of which every dictionary has each key once is read back from its text, whatever its indentation, with its keys in order.
-/

namespace Scanning.Json

/-! ## Texts -/

theorem hexValue_digitChar : ∀ d < 16, hexValue d.digitChar = some d := by decide

/-- The four digits of a code unit are read back as the unit. -/
theorem unitOf_digits {n : Nat} (h : n < 0x10000) :
    unitOf (n / 4096).digitChar (n / 256 % 16).digitChar (n / 16 % 16).digitChar (n % 16).digitChar = some n := by
  unfold unitOf
  rw [hexValue_digitChar _ (by omega), hexValue_digitChar _ (by omega), hexValue_digitChar _ (by omega),
    hexValue_digitChar _ (by omega)]
  show some _ = some n
  congr 1
  omega

/-- The points of a character as it is written: one, or those of a pair of surrogates. -/
def pointsOf (c : Char) : List Nat :=
  if c.toNat < 0x10000 then [c.toNat] else [0xd800 + (c.toNat - 0x10000) / 1024, 0xdc00 + (c.toNat - 0x10000) % 1024]

/-- What is found in two steps is found in one. -/
theorem put_put (found found' : List Nat) (read : Option (List Nat × List Char)) : put found (put found' read) =
    put (found ++ found') read := by
  cases read with
  | none => rfl
  | some read => simp [put]

/-- A unit that is escaped is read as one point. -/
theorem points_unit {n : Nat} (h : n < 0x10000) (l : List Char) : points (unitText n ++ l) = put [n] (points l) := by
  unfold unitText
  rw [List.cons_append, List.cons_append, List.cons_append, List.cons_append, List.cons_append, List.cons_append,
    List.nil_append, points,
    unitOf_digits h, Option.bind_some]

/-- A printed character other than a quote and a backslash stands for itself. -/
theorem points_bare {c : Char} (hquote : c ≠ '"') (hescape : c ≠ '\\') (hprinted : 32 ≤ c.toNat) (l : List Char) :
    points (c :: l) = put [c.toNat] (points l) := by
  rw [points]
  · exact if_neg (Nat.not_lt.2 hprinted)
  · exact hquote
  · exact fun _ _ _ _ _ h => absurd h hescape
  · exact fun _ _ h => absurd h hescape

/-- A character with a letter of its own is read back behind the backslash. -/
theorem points_letter {c letter : Char} (h : letterOf c = some letter) (l : List Char) :
    points ('\\' :: letter :: l) = put [c.toNat] (points l) := by
  unfold letterOf at h
  split at h <;> cases h <;> simp [points, characterOf]

theorem toNat_lt (c : Char) : c.toNat < 0x110000 := by
  rcases c.valid with h | h
  · exact Nat.lt_trans h (by decide)
  · exact h.2

/-- A character is read back as its points, however it is written. -/
theorem points_escape (c : Char) (l : List Char) :
    points (escape c ++ l) = put (pointsOf c) (points l) := by
  have hlt := toNat_lt c
  unfold escape pointsOf
  split
  · rename_i letter hletter
    have hsmall : c.toNat < 0x10000 := by
      unfold letterOf at hletter
      split at hletter <;> first | decide | cases hletter
    rw [if_pos hsmall]
    exact points_letter hletter l
  · rename_i hletter
    split
    · rename_i hprinted
      have hsmall : c.toNat < 0x10000 := Nat.lt_of_le_of_lt hprinted.2 (by decide)
      rw [if_pos hsmall]
      refine points_bare ?_ ?_ hprinted.1 l
      · rintro rfl
        cases hletter
      · rintro rfl
        cases hletter
    · split
      · rename_i hsmall
        exact points_unit hsmall l
      · rename_i hlarge
        rw [List.append_assoc, points_unit (by omega), points_unit (by omega), put_put]
        rfl

/-- A quoted text is read back as its points, up to the quote that closes it. -/
theorem points_quoted (text : List Char) (l : List Char) :
    points (text.flatMap escape ++ '"' :: l) = some (text.flatMap pointsOf, l) := by
  induction text with
  | nil => rfl
  | cons c text ih =>
    rw [List.flatMap_cons, List.append_assoc, points_escape, ih]
    rfl

/-- The points of a character are put together to that character, a pair of surrogates included. -/
theorem charactersOf_put (c : Char) (found : List Nat) : charactersOf (pointsOf c ++ found) =
    (charactersOf found).map (c :: ·) := by
  have hlt := toNat_lt c
  unfold pointsOf
  split
  · have hvalid : c.toNat < 0xd800 ∨ 0xdfff < c.toNat ∧ c.toNat < 0x110000 := c.valid
    have hhigh : isHigh c.toNat = false := by
      simp only [isHigh, Bool.and_eq_false_iff, decide_eq_false_iff_not]
      omega
    have hlow : isLow c.toNat = false := by
      simp only [isLow, Bool.and_eq_false_iff, decide_eq_false_iff_not]
      omega
    rw [List.singleton_append, charactersOf.eq_def]
    simp only [hhigh, hlow, Bool.false_eq_true, if_false, Char.ofNat_toNat]
  · have hhigh : isHigh (0xd800 + (c.toNat - 0x10000) / 1024) = true := by
      simp only [isHigh, Bool.and_eq_true, decide_eq_true_eq]
      omega
    have hlow : isLow (0xdc00 + (c.toNat - 0x10000) % 1024) = true := by
      simp only [isLow, Bool.and_eq_true, decide_eq_true_eq]
      omega
    have hsum : 0x10000 + (0xd800 + (c.toNat - 0x10000) / 1024 - 0xd800) * 1024 + (0xdc00 + (c.toNat - 0x10000) % 1024 - 0xdc00) =
        c.toNat := by
      omega
    rw [List.cons_append, List.singleton_append, charactersOf.eq_def]
    simp only [hhigh, hlow, if_true, hsum, Char.ofNat_toNat]

/-- The points of a text are put together to the text. -/
theorem charactersOf_points (text : List Char) : charactersOf (text.flatMap pointsOf) = some text := by
  induction text with
  | nil => rfl
  | cons c text ih => rw [List.flatMap_cons, charactersOf_put, ih, Option.map_some]

/-- A text is read back. -/
theorem readText_quoted (text : String) (l : List Char) :
    readText (text.toList.flatMap escape ++ '"' :: l) = some (some text, l) := by
  unfold readText
  rw [points_quoted, Option.map_some]
  simp only
  rw [charactersOf_points, Option.map_some, String.ofList_toList]

/-! ## Numbers -/

/-- A character that a number goes on with. -/
def numeric (c : Char) : Bool := c.isDigit || c = '.' || c = 'e' || c = 'E'

/-- There is no fraction where the number is over. -/
theorem fraction_stops {l : List Char} (h : Stops numeric l) : fraction l = l := by
  unfold fraction
  split
  · have hdot := h '.' rfl
    cases hdot
  · rfl

/-- There is no exponent where the number is over. -/
theorem exponent_stops {l : List Char} (h : Stops numeric l) : exponent l = l := by
  unfold exponent
  split
  · rename_i e s l
    refine if_neg ?_
    rintro (rfl | rfl)
    · have he := h 'e' rfl
      cases he
    · have he := h 'E' rfl
      cases he
  · rfl

/-- Where a number is over, so are its digits. -/
theorem stops_digits {l : List Char} (h : Stops numeric l) : Stops Char.isDigit l := by
  intro c hc
  have hnumeric := h c hc
  unfold numeric at hnumeric
  simp only [Bool.or_eq_false_iff] at hnumeric
  exact hnumeric.1.1.1

/-- A positive number is written without a leading zero. -/
theorem digits_head {n : Nat} (h : 0 < n) : ∃ d l, Nat.toDigits 10 n = d :: l ∧ d ≠ '0' := by
  induction n using Nat.strongRecOn with
  | _ n ih =>
    by_cases hsmall : n < 10
    · refine ⟨n.digitChar, [], Nat.toDigits_of_lt_base hsmall, ?_⟩
      have hzero : ∀ m < 10, 0 < m → m.digitChar ≠ '0' := by decide
      exact hzero n hsmall h
    · obtain ⟨d, l, hdigits, hd⟩ := ih (n / 10) (by omega) (by omega)
      refine ⟨d, l ++ [(n % 10).digitChar], ?_, hd⟩
      rw [Nat.toDigits_of_base_le (by decide) (by omega), hdigits, List.cons_append]

/-- A natural number is read back. -/
theorem readNatural_digits (n : Nat) {l : List Char} (h : Stops Char.isDigit l) :
    readNatural (Nat.toDigits 10 n ++ l) = some (n, l) := by
  rcases Nat.eq_zero_or_pos n with rfl | hpos
  · rfl
  · obtain ⟨d, rest, hdigits, hd⟩ := digits_head hpos
    have hall : ∀ c ∈ d :: rest, c.isDigit = true := by
      intro c hc
      rw [← hdigits] at hc
      exact Nat.isDigit_of_mem_toDigits (by decide) (by decide) hc
    have hrest : ∀ c ∈ rest, c.isDigit = true := fun c hc => hall c (List.mem_cons_of_mem d hc)
    have hword : (if d.isDigit then some (d :: (rest ++ l).takeWhile Char.isDigit, (rest ++ l).dropWhile Char.isDigit) else
      none) =
        some (d :: rest, l) := Reads.word (hall d List.mem_cons_self) (fun c hc => hall c (List.mem_cons_of_mem d hc)) l h
    rw [if_pos (hall d List.mem_cons_self)] at hword
    obtain ⟨htaken, hleft⟩ := Prod.mk.inj (Option.some.inj hword)
    rw [hdigits, List.cons_append, readNatural]
    · rw [if_pos (hall d List.mem_cons_self), htaken, hleft, ← hdigits, Nat.ofDigitChars_ten_toDigits]
    · exact hd

/-- The digits behind a sign are read back with the sign. -/
theorem readUnsigned_digits (negative : Bool) (n : Nat) {l : List Char} (h : Stops numeric l) :
    readUnsigned negative (Nat.toDigits 10 n ++ l) = some (.int (if negative then -n else n), l) := by
  unfold readUnsigned
  rw [readNatural_digits n (stops_digits h)]
  show some (if (exponent (fraction l)).length = l.length then _ else _, exponent (fraction l)) = _
  rw [fraction_stops h, exponent_stops h, if_pos rfl]

/-- A digit begins a number. -/
theorem readScalar_digit {d : Char} (hd : d.isDigit = true) (l : List Char) : readScalar (d :: l) =
    readUnsigned false (d :: l) := by
  rw [readScalar.eq_def]
  split <;> first | rfl | (rename_i heq; cases heq; cases hd)

/-- A minus sign begins a number. -/
theorem readScalar_minus {d : Char} (hd : d.isDigit = true) (l : List Char) :
    readScalar ('-' :: d :: l) = readUnsigned true (d :: l) := by
  rw [readScalar]
  rintro l h
  obtain ⟨rfl, -⟩ := List.cons.inj h
  cases hd

/-- A number is written with a digit at least. -/
theorem digits_ne_nil (n : Nat) : ∃ d l, Nat.toDigits 10 n = d :: l ∧ d.isDigit = true := by
  cases h : Nat.toDigits 10 n with
  | nil => exact absurd h Nat.toDigits_ne_nil
  | cons d l => exact ⟨d, l, rfl, Nat.isDigit_of_mem_toDigits (by decide) (by decide) (h ▸ List.mem_cons_self)⟩

/-- An integer is read back. -/
theorem readScalar_integer (n : Int) {l : List Char} (h : Stops numeric l) : readScalar (integerText n ++ l) =
    some (.int n, l) := by
  cases n with
  | ofNat n =>
    obtain ⟨d, digits, hdigits, hd⟩ := digits_ne_nil n
    have hread := readUnsigned_digits false n h
    show readScalar (Nat.toDigits 10 n ++ l) = _
    rw [hdigits, List.cons_append] at hread ⊢
    exact (readScalar_digit hd _).trans hread
  | negSucc n =>
    obtain ⟨d, digits, hdigits, hd⟩ := digits_ne_nil (n + 1)
    have hread := readUnsigned_digits true (n + 1) h
    show readScalar ('-' :: Nat.toDigits 10 (n + 1) ++ l) = _
    rw [hdigits, List.cons_append] at hread
    rw [hdigits, List.cons_append, List.cons_append, readScalar_minus hd]
    exact hread

/-! ## Values -/

mutual

/-- The value is one that is written: every dictionary has each key once. -/
def Written : Value → Prop
  | .array items => AllWritten items
  | .object members => (members.map Prod.fst).Nodup ∧ MembersWritten members
  | .other => False
  | _ => True

def AllWritten : List Value → Prop
  | [] => True
  | item :: items => Written item ∧ AllWritten items

def MembersWritten : List (String × Value) → Prop
  | [] => True
  | member :: members => Written member.2 ∧ MembersWritten members

end

/-- An integer begins like no text, list or dictionary. -/
theorem integer_head (n : Int) : ∃ c l, integerText n = c :: l ∧ c ≠ '"' ∧ c ≠ '[' ∧ c ≠ '\x7b' := by
  cases n with
  | ofNat n =>
    obtain ⟨d, l, hdigits, hd⟩ := digits_ne_nil n
    refine ⟨d, l, hdigits, ?_, ?_, ?_⟩ <;> (rintro rfl; cases hd)
  | negSucc n => exact ⟨_, _, rfl, by decide⟩

/-- What begins like no text, list or dictionary is read as a constant or a number. -/
theorem readValue_scalar {c : Char}
    (hquote : c ≠ '"') (hlist : c ≠ '[') (hdictionary : c ≠ '\x7b') (steps : Nat) (l : List Char) :
    readValue (steps + 1) (c :: l) = readScalar (c :: l) := by
  rw [readValue]
  · exact fun _ h => hquote (List.cons.inj h).1
  · exact fun _ h => hlist (List.cons.inj h).1
  · exact fun _ h => hdictionary (List.cons.inj h).1

/-- The text of a value begins with something that is neither blank nor the end of a list or a dictionary. -/
theorem render_head (indent : Option Nat) (level : Nat) {value : Value} (h : Written value) :
    ∃ c l, render indent level value = c :: l ∧ blank c = false ∧ c ≠ ']' ∧ c ≠ '\x7d' := by
  have hdigit : ∀ {d : Char}, d.isDigit = true → blank d = false ∧ d ≠ ']' ∧ d ≠ '\x7d' := by
    intro d hd
    refine ⟨?_, ?_, ?_⟩
    · unfold blank
      simp only [Bool.or_eq_false_iff, decide_eq_false_iff_not]
      refine ⟨⟨⟨?_, ?_⟩, ?_⟩, ?_⟩ <;> (rintro rfl; cases hd)
    · rintro rfl
      cases hd
    · rintro rfl
      cases hd
  cases value with
  | null => exact ⟨_, _, rfl, by decide⟩
  | bool value => cases value <;> exact ⟨_, _, rfl, by decide⟩
  | int n =>
    cases n with
    | ofNat n =>
      obtain ⟨d, digits, hdigits, hd⟩ := digits_ne_nil n
      exact ⟨d, digits, hdigits, hdigit hd⟩
    | negSucc n => exact ⟨_, _, rfl, by decide⟩
  | text text => exact ⟨_, _, rfl, by decide⟩
  | array items => cases items <;> exact ⟨_, _, rfl, by decide⟩
  | object members =>
    cases members with
    | nil => exact ⟨_, _, rfl, by decide⟩
    | cons member members => exact ⟨_, _, rfl, by decide⟩
  | other => exact absurd h id

/-- A gap is blank. -/
theorem gap_blank (indent : Option Nat) (level : Nat) : ∀ c ∈ gap indent level, blank c = true := by
  intro c hc
  cases indent with
  | none => cases hc
  | some width =>
    rcases List.mem_cons.1 hc with rfl | hc
    · rfl
    · rw [List.eq_of_mem_replicate hc]
      rfl

theorem space_blank : ∀ c ∈ [' '], blank c = true := by
  intro c hc
  rw [List.mem_singleton.1 hc]
  rfl

/-- What separates two items is blank behind its comma. -/
theorem between_blank (indent : Option Nat) (level : Nat) : ∀ c ∈ between indent level, blank c = true := by
  unfold between
  split
  · exact space_blank
  · exact gap_blank indent level

/-- Blanks are passed over. -/
theorem skip_blank {s : List Char} (hs : ∀ c ∈ s, blank c = true) {c : Char} (hc : blank c = false) (l : List Char) :
    (s ++ c :: l).dropWhile blank = c :: l := by
  rw [List.dropWhile_append_of_pos hs, List.dropWhile_cons_of_neg (by simp [hc])]

/-- Nothing is passed over where there is no blank. -/
theorem skip_none {c : Char} (hc : blank c = false) (l : List Char) : (c :: l).dropWhile blank = c :: l :=
  skip_blank (s := []) (fun _ h => absurd h List.not_mem_nil) hc l

/-- Neither a comma, nor a gap, nor an end goes on with a number. -/
theorem stops_gap (indent : Option Nat) (level : Nat) {c : Char} (hc : numeric c = false) (l : List Char) :
    Stops numeric (gap indent level ++ c :: l) := by
  cases indent with
  | none => exact stops_cons hc
  | some width => exact stops_cons rfl

/-- The rest of a list goes on with no number. -/
theorem stops_items (indent : Option Nat) (level : Nat) (items : List Value) (rest : List Char) :
    Stops numeric (renderItems indent level items ++ rest) := by
  cases items with
  | nil =>
    rw [renderItems, List.append_assoc]
    exact stops_gap indent level rfl _
  | cons item items => exact stops_cons rfl

/-- The rest of a dictionary goes on with no number. -/
theorem stops_members (indent : Option Nat) (level : Nat) (members : List (String × Value)) (rest : List Char) :
    Stops numeric (renderMembers indent level members ++ rest) := by
  cases members with
  | nil =>
    rw [renderMembers, List.append_assoc]
    exact stops_gap indent level rfl _
  | cons member members => exact stops_cons rfl

theorem length_items_pos (indent : Option Nat) (level : Nat)
    (items : List Value) : 0 < (renderItems indent level items).length := by
  cases items <;> simp [renderItems]

theorem length_members_pos (indent : Option Nat) (level : Nat) (members : List (String × Value)) :
    0 < (renderMembers indent level members).length := by
  cases members <;> simp [renderMembers]

/-! ### Dictionaries -/

/-- Members whose keys are all different are set one behind another. -/
theorem foldl_setMember {members : List (String × Value)} (kept : List (String × Value))
    (h : ((kept ++ members).map Prod.fst).Nodup) : members.foldl setMember kept = kept ++ members := by
  induction members generalizing kept with
  | nil => rw [List.foldl_nil, List.append_nil]
  | cons member members ih =>
    have hnew : kept.any (·.1 == member.1) = false := by
      rw [List.any_eq_false]
      intro other hother heq
      rw [List.map_append, List.map_cons, List.nodup_append] at h
      exact h.2.2 _ (List.mem_map_of_mem hother) _ List.mem_cons_self (by simpa using heq)
    rw [List.foldl_cons]
    unfold setMember
    rw [hnew]
    have hsplit : kept ++ member :: members = (kept ++ [member]) ++ members := by simp
    rw [hsplit] at h ⊢
    exact ih _ h

/-- The members as they are read. -/
def pairsOf (members : List (String × Value)) : List (Option String × Value) := members.map fun member =>
    (some member.1, member.2)

/-- The members that are read make the dictionary, where its keys are all different. -/
theorem dictionary_pairs {members : List (String × Value)} (h : (members.map Prod.fst).Nodup) :
    dictionary (pairsOf members) = .object members := by
  have hkeys : (pairsOf members).mapM (fun pair => pair.1.map fun key => (key, pair.2)) = some members := by
    clear h
    induction members with
    | nil => rfl
    | cons member members ih =>
      rw [pairsOf, List.map_cons, List.mapM_cons, show members.map (fun member => (some member.1, member.2)) =
        pairsOf members from rfl, ih]
      rfl
  unfold dictionary
  rw [hkeys]
  show Value.object (members.foldl setMember []) = .object members
  rw [foldl_setMember [] h, List.nil_append]

/-! ### Reading back -/

/-- What `readItems` does behind an item. -/
def itemsBehind (steps : Nat) (item : Value) (l : List Char) : Option (List Value × List Char) :=
  match l.dropWhile blank with
  | ',' :: l => (readItems steps (l.dropWhile blank)).map fun (items, rest) => (item :: items, rest)
  | ']' :: rest => some ([item], rest)
  | _ => none

/-- Items are read one by one. -/
theorem readItems_of {steps : Nat} {l l' : List Char} {item : Value} (h : readValue steps l = some (item, l')) :
    readItems (steps + 1) l = itemsBehind steps item l' := by
  rw [readItems, h]
  rfl

/-- What `readMembers` does behind a value. -/
def membersBehind (steps : Nat) (key : Option String) (value : Value) (l : List Char) :
    Option (List (Option String × Value) × List Char) :=
  match l.dropWhile blank with
  | ',' :: l => (readMembers steps (l.dropWhile blank)).map fun (pairs, rest) => ((key, value) :: pairs, rest)
  | '\x7d' :: rest => some ([(key, value)], rest)
  | _ => none

/-- Members are read one by one. -/
theorem readMembers_of {steps : Nat} {l l₁ l₂ : List Char} {key : Option String} {value : Value}
    (hkey : readKey l = some (key, l₁))
    (hvalue : readValue steps l₁ = some (value, l₂)) : readMembers (steps + 1) l = membersBehind steps key value l₂ := by
  rw [readMembers, hkey]
  simp only
  rw [hvalue]
  rfl

/-- A key is read back, with the colon behind it. -/
theorem readKey_quoted (key : String) {c : Char} (hc : blank c = false) (l : List Char) :
    readKey (quotedText key ++ (':' :: ' ' :: c :: l)) = some (some key, c :: l) := by
  unfold quotedText
  rw [List.cons_append, List.append_assoc, List.singleton_append, readKey, readText_quoted]
  simp only
  rw [skip_none rfl]
  show some (some key, ([' '] ++ c :: l).dropWhile blank) = _
  rw [skip_blank space_blank hc]

/-- A value is written with a character at least. -/
theorem length_render_pos (indent : Option Nat) (level : Nat) {value : Value} (h : Written value) :
    0 < (render indent level value).length := by
  obtain ⟨c, l, hrender, -⟩ := render_head indent level h
  rw [hrender]
  exact Nat.succ_pos _

mutual

/-- A value is read back where it is followed by what goes on no number. -/
theorem readValue_render (indent : Option Nat) : ∀ (value : Value), Written value → ∀ (level steps : Nat) (rest : List Char),
    (render indent level value).length ≤ steps → Stops numeric rest → readValue steps (render indent level value ++ rest) =
    some (value, rest)
  | _, hwritten, level, 0, _, hlength, _ => absurd hlength (Nat.not_le.2 (length_render_pos indent level hwritten))
  | .null, _, level, steps + 1, rest, _, _ => rfl
  | .bool true, _, level, steps + 1, rest, _, _ => rfl
  | .bool false, _, level, steps + 1, rest, _, _ => rfl
  | .int n, _, level, steps + 1, rest, _, hrest => by
    obtain ⟨c, l, hrender, hquote, hlist, hdictionary⟩ := integer_head n
    have hread := readScalar_integer n hrest
    rw [hrender, List.cons_append] at hread
    rw [render, hrender, List.cons_append, readValue_scalar hquote hlist hdictionary]
    exact hread
  | .text text, _, level, steps + 1, rest, _, _ => by
    rw [render]
    unfold quotedText
    rw [List.cons_append, List.append_assoc, List.singleton_append, readValue, readText_quoted]
    rfl
  | .array [], _, level, steps + 1, rest, _, _ => rfl
  | .array (item :: items), hwritten, level, steps + 1, rest, hlength, _ => by
    obtain ⟨hitem, hitems⟩ := hwritten
    have hpos := length_items_pos indent level items
    rw [render] at hlength ⊢
    simp only [List.length_cons, List.length_append] at hlength
    obtain ⟨c, l, hrender, hblank, hend, -⟩ := render_head indent (level + 1) hitem
    obtain ⟨steps, rfl⟩ : ∃ n, steps = n + 1 := ⟨steps - 1, by omega⟩
    have hfirst := readValue_render indent item hitem (level + 1) steps (renderItems indent level items ++ rest) (by omega)
      (stops_items indent level items rest)
    have hread := (readItems_of hfirst).trans (itemsBehind_render indent items hitems item level steps rest (by omega))
    rw [hrender, List.cons_append] at hread
    simp only [List.cons_append, List.append_assoc, hrender]
    rw [readValue, skip_blank (gap_blank indent _) hblank]
    split
    · rename_i heq
      exact absurd (List.cons.inj heq).1 hend
    · rw [hread]
      rfl
  | .object [], _, level, steps + 1, rest, _, _ => rfl
  | .object ((key, value) :: members), hwritten, level, steps + 1, rest, hlength, _ => by
    obtain ⟨hdistinct, hvalue, hmembers⟩ := hwritten
    have hpos := length_members_pos indent level members
    rw [render] at hlength ⊢
    simp only [List.length_cons, List.length_append] at hlength
    obtain ⟨c, l, hrender, hblank, -⟩ := render_head indent (level + 1) hvalue
    obtain ⟨steps, rfl⟩ : ∃ n, steps = n + 1 := ⟨steps - 1, by omega⟩
    have hfirst := readValue_render indent value hvalue (level + 1) steps (renderMembers indent level members ++ rest) (by omega)
      (stops_members indent level members rest)
    rw [hrender, List.cons_append] at hfirst
    have hread := (readMembers_of (readKey_quoted key hblank _) hfirst).trans
      (membersBehind_render indent members hmembers key value level steps rest (by omega))
    unfold quotedText at hread ⊢
    simp only [List.cons_append, List.append_assoc, List.nil_append, hrender] at hread ⊢
    rw [readValue, skip_blank (gap_blank indent _) (by decide)]
    split
    · rename_i heq
      exact absurd (List.cons.inj heq).1 (by decide)
    · rw [hread, Option.map_some]
      simp only
      rw [dictionary_pairs hdistinct]
  | .other, hwritten, _, _ + 1, _, _, _ => absurd hwritten id

/-- The items behind one are read back up to the end of the list. -/
theorem itemsBehind_render (indent : Option Nat) : ∀ (items : List Value), AllWritten items → ∀ (item : Value) (level steps : Nat)
    (rest : List Char), (renderItems indent level items).length ≤ steps + 1 →
      itemsBehind steps item (renderItems indent level items ++ rest) = some (item :: items, rest)
  | [], _, item, level, steps, rest, _ => by
    rw [renderItems, List.append_assoc, List.singleton_append]
    unfold itemsBehind
    rw [skip_blank (gap_blank indent level) rfl]
    rfl
  | next :: items, hwritten, item, level, steps, rest, hlength => by
    obtain ⟨hnext, hitems⟩ := hwritten
    have hpos := length_items_pos indent level items
    have hnextpos := length_render_pos indent (level + 1) hnext
    rw [renderItems] at hlength ⊢
    simp only [List.length_cons, List.length_append] at hlength
    obtain ⟨c, l, hrender, hblank, -⟩ := render_head indent (level + 1) hnext
    obtain ⟨steps, rfl⟩ : ∃ n, steps = n + 1 := ⟨steps - 1, by omega⟩
    have hfirst := readValue_render indent next hnext (level + 1) steps (renderItems indent level items ++ rest) (by omega)
      (stops_items indent level items rest)
    have hread := (readItems_of hfirst).trans (itemsBehind_render indent items hitems next level steps rest (by omega))
    rw [hrender, List.cons_append] at hread
    unfold itemsBehind
    simp only [List.cons_append, List.append_assoc, hrender]
    rw [skip_none rfl]
    simp only
    rw [skip_blank (between_blank indent _) hblank, hread]
    rfl

/-- The members behind one are read back up to the end of the dictionary. -/
theorem membersBehind_render (indent : Option Nat) : ∀ (members : List (String × Value)), MembersWritten members →
    ∀ (key : String) (value : Value) (level steps : Nat) (rest : List Char),
    (renderMembers indent level members).length ≤ steps + 1 →
      membersBehind steps (some key) value (renderMembers indent level members ++ rest) =
      some (pairsOf ((key, value) :: members), rest)
  | [], _, key, value, level, steps, rest, _ => by
    rw [renderMembers, List.append_assoc, List.singleton_append]
    unfold membersBehind
    rw [skip_blank (gap_blank indent level) rfl]
    rfl
  | (next, nextValue) :: members, hwritten, key, value, level, steps, rest, hlength => by
    obtain ⟨hnext, hmembers⟩ := hwritten
    have hpos := length_members_pos indent level members
    have hnextpos := length_render_pos indent (level + 1) hnext
    rw [renderMembers] at hlength ⊢
    simp only [List.length_cons, List.length_append] at hlength
    obtain ⟨c, l, hrender, hblank, -⟩ := render_head indent (level + 1) hnext
    obtain ⟨steps, rfl⟩ : ∃ n, steps = n + 1 := ⟨steps - 1, by omega⟩
    have hfirst := readValue_render indent nextValue hnext (level + 1) steps (renderMembers indent level members ++ rest)
      (by omega)
      (stops_members indent level members rest)
    rw [hrender, List.cons_append] at hfirst
    have hread := (readMembers_of (readKey_quoted next hblank _) hfirst).trans
      (membersBehind_render indent members hmembers next nextValue level steps rest (by omega))
    unfold quotedText at hread ⊢
    unfold membersBehind
    simp only [List.cons_append, List.append_assoc, List.nil_append, hrender] at hread ⊢
    rw [skip_none rfl]
    simp only
    rw [skip_blank (between_blank indent _) (by decide), hread]
    rfl

end

/-! ### Sorting -/

/-- Sorting inside the members keeps their keys. -/
theorem keys_sorted (members : List (String × Value)) : (sortedMembers members).map Prod.fst = members.map Prod.fst := by
  induction members with
  | nil => rfl
  | cons member members ih => rw [sortedMembers, List.map_cons, List.map_cons, ih]

theorem membersWritten_iff {members : List (String × Value)} : MembersWritten members ↔ ∀ member ∈ members, Written member.2 := by
  induction members with
  | nil => simp [MembersWritten]
  | cons member members ih => simp [MembersWritten, ih]

mutual

/-- A value that is written can be written in order. -/
theorem sorted_written : ∀ {value : Value}, Written value → Written (sorted value)
  | .null, _ | .bool _, _ | .int _, _ | .text _, _ => trivial
  | .array _, h => sortedItems_written h
  | .object members, h => by
    have hperm := List.perm_insertionSort before (sortedMembers members)
    refine ⟨(hperm.map Prod.fst).nodup_iff.2 ?_, ?_⟩
    · rw [keys_sorted]
      exact h.1
    · refine membersWritten_iff.2 fun member hmember => ?_
      exact membersWritten_iff.1 (sortedMembers_written h.2) member (hperm.mem_iff.1 hmember)
  | .other, h => absurd h id

theorem sortedItems_written : ∀ {items : List Value}, AllWritten items → AllWritten (sortedItems items)
  | [], _ => trivial
  | _ :: _, h => ⟨sorted_written h.1, sortedItems_written h.2⟩

theorem sortedMembers_written : ∀ {members : List (String × Value)}, MembersWritten members →
    MembersWritten (sortedMembers members)
  | [], _ => trivial
  | _ :: _, h => ⟨sorted_written h.1, sortedMembers_written h.2⟩

end

/-- The members of a dictionary are supported one by one. -/
theorem membersSupported_iff {depth : Nat} {members : List (String × Value)} :
    MembersSupported depth members = true ↔ ∀ member ∈ members, Supported depth member.2 = true := by
  induction members with
  | nil => simp [MembersSupported]
  | cons member members ih => simp [MembersSupported, ih]

mutual

/-- A value is as deep in order as out of order. -/
theorem supported_sorted : ∀ (value : Value) (depth : Nat), Supported depth value = true → Supported depth (sorted value) = true
  | .null | .bool _ | .int _ | .text _ | .other => fun depth h => by simpa only [sorted] using h
  | .array items => fun depth h => by
    cases depth with
    | zero => exact h
    | succ depth => exact sortedItems_supported items depth h
  | .object members => fun depth h => by
    cases depth with
    | zero => exact h
    | succ depth =>
      have hperm := List.perm_insertionSort before (sortedMembers members)
      refine membersSupported_iff.2 fun member hmember => ?_
      exact membersSupported_iff.1 (sortedMembers_supported members depth h) member (hperm.mem_iff.1 hmember)

theorem sortedItems_supported : ∀ (items : List Value) (depth : Nat), AllSupported depth items = true →
    AllSupported depth (sortedItems items) = true
  | [] => fun _ h => h
  | item :: items => fun depth h => by
    obtain ⟨hitem, hitems⟩ := Bool.and_eq_true_iff.1 h
    exact Bool.and_eq_true_iff.2 ⟨supported_sorted item depth hitem, sortedItems_supported items depth hitems⟩

theorem sortedMembers_supported : ∀ (members : List (String × Value)) (depth : Nat), MembersSupported depth members = true →
    MembersSupported depth (sortedMembers members) = true
  | [] => fun _ h => h
  | (_, value) :: members => fun depth h => by
    obtain ⟨hvalue, hmembers⟩ := Bool.and_eq_true_iff.1 h
    exact Bool.and_eq_true_iff.2 ⟨supported_sorted value depth hvalue, sortedMembers_supported members depth hmembers⟩

end

/-- The value under a key is sorted with the others. -/
theorem lookup_sortedMembers (members : List (String × Value)) (key : String) :
    (sortedMembers members).lookup key = (members.lookup key).map sorted := by
  induction members with
  | nil => rfl
  | cons member members ih =>
    obtain ⟨other, value⟩ := member
    rw [sortedMembers, List.lookup_cons, List.lookup_cons, ih]
    split <;> rfl

/-- A dictionary has the same value under a key, whatever the order of its members. -/
theorem lookup_perm {members members' : List (String × Value)} (hperm : members.Perm members') (h : (members.map Prod.fst).Nodup)
    (key : String) : members.lookup key = members'.lookup key := by
  induction hperm with
  | nil => rfl
  | cons member _ ih =>
    rw [List.lookup_cons, List.lookup_cons, ih (List.nodup_cons.1 h).2]
  | swap member other members =>
    have hne : member.1 ≠ other.1 := by
      rw [List.map_cons, List.map_cons, List.nodup_cons] at h
      exact fun heq => h.1 (heq ▸ List.mem_cons_self)
    rw [List.lookup_cons, List.lookup_cons, List.lookup_cons, List.lookup_cons]
    cases hfirst : key == member.1 with
    | false => rfl
    | true =>
      cases hsecond : key == other.1 with
      | false => rfl
      | true => exact absurd ((beq_iff_eq.1 hfirst).symm.trans (beq_iff_eq.1 hsecond)) hne
  | trans hfirst _ ih ih' => exact (ih h).trans (ih' ((hfirst.map Prod.fst).nodup_iff.1 h))

/-- Sorting the keys changes no value that is looked up. -/
theorem lookup_sorted {members : List (String × Value)} (h : (members.map Prod.fst).Nodup) (key : String) :
    ((sortedMembers members).insertionSort before).lookup key = (members.lookup key).map sorted := by
  rw [← lookup_sortedMembers]
  refine (lookup_perm (List.perm_insertionSort before _).symm ?_ key).symm
  rw [keys_sorted]
  exact h

/-- What `json.dumps` writes is read back, with its keys in order, and so it is with blanks around it. -/
theorem loads_dumps (indent : Option Nat) {value : Value} (h : Written value) {after : List Char}
    (hafter : ∀ c ∈ after, blank c = true) :
    loads (dumps indent value ++ after) = some (sorted value) := by
  have hwritten := sorted_written h
  obtain ⟨c, l, hrender, hblank, -⟩ := render_head indent 0 hwritten
  have hstops : Stops numeric after := by
    cases after with
    | nil => exact fun _ hc => absurd hc (by simp)
    | cons c after =>
      have hc := hafter c List.mem_cons_self
      refine stops_cons ?_
      unfold blank at hc
      simp only [Bool.or_eq_true, decide_eq_true_eq] at hc
      rcases hc with ((rfl | rfl) | rfl) | rfl <;> rfl
  have hread := readValue_render indent (sorted value) hwritten 0 (dumps indent value ++ after).length after (by simp [dumps])
    hstops
  unfold loads
  have hskip : (dumps indent value ++ after).dropWhile blank = dumps indent value ++ after := by
    unfold dumps
    rw [hrender, List.cons_append, skip_none hblank]
  rw [hskip]
  unfold dumps at hread ⊢
  rw [hread]
  exact if_pos (List.all_eq_true.2 hafter)

/-! ### What the text is made of -/

/-- The character is printed as it is, or a new line of an indentation. -/
def Printed (indent : Option Nat) (c : Char) : Prop := (' ' ≤ c ∧ c ≤ '~') ∨ (c = '\n' ∧ indent ≠ none)

instance (indent : Option Nat) (c : Char) : Decidable (Printed indent c) := inferInstanceAs (Decidable (_ ∨ _))

variable {indent : Option Nat}

theorem printed_nil : ∀ c ∈ ([] : List Char), Printed indent c := fun _ h => absurd h List.not_mem_nil

theorem printed_cons {d : Char} {l : List Char} (hd : Printed indent d) (hl : ∀ c ∈ l, Printed indent c) :
    ∀ c ∈ d :: l, Printed indent c := by
  intro c hc
  rcases List.mem_cons.1 hc with rfl | hc
  · exact hd
  · exact hl c hc

theorem printed_append {s l : List Char} (hs : ∀ c ∈ s, Printed indent c) (hl : ∀ c ∈ l, Printed indent c) :
    ∀ c ∈ s ++ l, Printed indent c := fun c hc => (List.mem_append.1 hc).elim (hs c) (hl c)

/-- A word of printed characters is printed. -/
theorem printed_word {word : List Char} (h : word.all (fun c => ' ' ≤ c && c ≤ '~') = true) : ∀ c ∈ word, Printed indent c := by
  intro c hc
  have hprinted := List.all_eq_true.1 h c hc
  simp only [Bool.and_eq_true, decide_eq_true_eq] at hprinted
  exact Or.inl hprinted

theorem printed_hex {d : Nat} (h : d < 16) : Printed indent d.digitChar := by
  have hall : ∀ d < 16, ' ' ≤ d.digitChar ∧ d.digitChar ≤ '~' := by decide
  exact Or.inl (hall d h)

/-- An escaped unit is printed. -/
theorem printed_unit {n : Nat} (h : n < 0x10000) : ∀ c ∈ unitText n, Printed indent c :=
  printed_cons (Or.inl (by decide)) (printed_cons (Or.inl (by decide)) (printed_cons (printed_hex (by omega))
    (printed_cons (printed_hex (by omega)) (printed_cons (printed_hex (by omega))
      (printed_cons (printed_hex (by omega)) printed_nil)))))

/-- Whatever the character, what is written for it is printed. -/
theorem printed_escape (c : Char) : ∀ d ∈ escape c, Printed indent d := by
  have hlt := toNat_lt c
  unfold escape
  split
  · rename_i letter hletter
    have hprinted : ' ' ≤ letter ∧ letter ≤ '~' := by
      unfold letterOf at hletter
      split at hletter <;> cases hletter <;> decide
    exact printed_cons (Or.inl (by decide)) (printed_cons (Or.inl hprinted) printed_nil)
  · split
    · rename_i hprinted
      exact printed_cons (Or.inl hprinted) printed_nil
    · split
      · rename_i hsmall
        exact printed_unit hsmall
      · exact printed_append (printed_unit (by omega)) (printed_unit (by omega))

/-- A quoted text is printed. -/
theorem printed_quoted (text : String) : ∀ c ∈ quotedText text, Printed indent c := by
  refine printed_cons (Or.inl (by decide)) (printed_append (fun d hd => ?_) (printed_cons (Or.inl (by decide)) printed_nil))
  obtain ⟨c, -, hd⟩ := List.mem_flatMap.1 hd
  exact printed_escape c d hd

/-- A number is printed. -/
theorem printed_digits (n : Nat) : ∀ c ∈ Nat.toDigits 10 n, Printed indent c := by
  intro c hc
  have hdigit : c.isDigit = true := Nat.isDigit_of_mem_toDigits (by decide) (by decide) hc
  simp only [Char.isDigit, Bool.and_eq_true, decide_eq_true_eq] at hdigit
  exact Or.inl ⟨Nat.le_trans (by decide) hdigit.1, Nat.le_trans hdigit.2 (by decide)⟩

/-- A gap is printed, where an indentation allows its new line. -/
theorem printed_gap (level : Nat) : ∀ c ∈ gap indent level, Printed indent c := by
  cases indent with
  | none => exact printed_nil
  | some width =>
    refine printed_cons (Or.inr ⟨rfl, nofun⟩) fun c hc => ?_
    rw [List.eq_of_mem_replicate hc]
    exact Or.inl (by decide)

/-- What separates two items is printed. -/
theorem printed_between (level : Nat) : ∀ c ∈ between indent level, Printed indent c := by
  unfold between
  split
  · exact printed_cons (Or.inl (by decide)) printed_nil
  · exact printed_gap level

mutual

/-- The text of a value is in ASCII, and of one line where there is no indentation. -/
theorem printed_render : ∀ (value : Value) (level : Nat), ∀ c ∈ render indent level value, Printed indent c
  | .null, _ | .bool true, _ | .bool false, _ | .array [], _ | .object [], _ => printed_word rfl
  | .int (.ofNat n), _ => printed_digits n
  | .int (.negSucc n), _ => printed_cons (Or.inl (by decide)) (printed_digits (n + 1))
  | .text text, _ => printed_quoted text
  | .array (item :: items), level =>
    printed_cons (Or.inl (by decide)) (printed_append (printed_gap _)
      (printed_append (printed_render item _) (printed_items items level)))
  | .object ((key, value) :: members), level =>
    printed_cons (Or.inl (by decide)) (printed_append (printed_gap _) (printed_append (printed_quoted key)
      (printed_cons (Or.inl (by decide)) (printed_cons (Or.inl (by decide)) (printed_append (printed_render value _)
        (printed_members members level))))))
  | .other, _ => printed_nil

/-- The rest of a list is printed. -/
theorem printed_items : ∀ (items : List Value) (level : Nat), ∀ c ∈ renderItems indent level items, Printed indent c
  | [], level => printed_append (printed_gap level) (printed_cons (Or.inl (by decide)) printed_nil)
  | item :: items, level =>
    printed_cons (Or.inl (by decide)) (printed_append (printed_between _)
      (printed_append (printed_render item _) (printed_items items level)))

/-- The rest of a dictionary is printed. -/
theorem printed_members : ∀ (members : List (String × Value)) (level : Nat), ∀ c ∈ renderMembers indent level members,
    Printed indent c
  | [], level => printed_append (printed_gap level) (printed_cons (Or.inl (by decide)) printed_nil)
  | (key, value) :: members, level =>
    printed_cons (Or.inl (by decide)) (printed_append (printed_between _) (printed_append (printed_quoted key)
      (printed_cons (Or.inl (by decide)) (printed_cons (Or.inl (by decide)) (printed_append (printed_render value _)
        (printed_members members level))))))

end

end Scanning.Json
