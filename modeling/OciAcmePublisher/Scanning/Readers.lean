import Mathlib.Data.List.Basic
import Mathlib.Data.List.TakeWhile

/-!
# Readers

A reader takes a value off the start of a text. A text is read back where the reader leaves exactly what follows it, whatever of a kind
follows; texts that are read back are put together as their readers are.
-/

namespace Scanning

variable {σ α β : Type}

/-- What takes a value off the start of a text, or fails. -/
abbrev Reader (σ : Type) := StateT (List σ) Option

namespace Reader

/-- As many symbols of the class as there are. -/
def skip (C : σ → Bool) : Reader σ Unit := fun l => some ((), l.dropWhile C)

/-- A symbol of the class `first` and as many of the class `rest` as there are. -/
def word (first rest : σ → Bool) : Reader σ (List σ) := fun
  | [] => none
  | c :: l => if first c then some (c :: l.takeWhile rest, l.dropWhile rest) else none

/-- The result `a` where the symbol comes next and is taken, or what the reader reads. -/
def closedBy [DecidableEq σ] (c : σ) (a : α) (p : Reader σ α) : Reader σ α := fun
  | [] => none
  | d :: l => if d = c then some (a, l) else p.run (d :: l)

/-- What the reader reads behind the symbol, or the result `a` where the symbol does not come next. -/
def openedBy [DecidableEq σ] (c : σ) (p : Reader σ α) (a : α) : Reader σ α := fun
  | [] => some (a, [])
  | d :: l => if d = c then p.run l else some (a, d :: l)

/-- One given symbol. -/
def symbol [DecidableEq σ] (c : σ) : Reader σ Unit := closedBy c () failure

/-- A text up to its closing quote: bare symbols, and escaped ones by their codes. -/
def quoted [DecidableEq σ] (quote escape : σ) (bare : σ → Bool) (code : σ → Option σ) : Reader σ (List σ)
  | [] => none
  | [c] => if c = quote then some ([], []) else none
  | c :: d :: l =>
    if c = quote then some ([], d :: l)
    else if c = escape then do
      let e ← code d
      let (text, rest) ← quoted quote escape bare code l
      return (e :: text, rest)
    else if bare c then do
      let (text, rest) ← quoted quote escape bare code (d :: l)
      return (c :: text, rest)
    else none

/-- Fewer than `n` items with separators between them, up to the closing symbol; a separator may also stand behind the last. -/
def itemsBelow [DecidableEq σ] (item : Reader σ α) (gap : Reader σ Unit) (separator close : σ) : Nat → Reader σ (List α)
  | 0 => failure
  | n + 1 => closedBy close [] do
    let a ← item
    closedBy close [a] do
      symbol separator
      gap
      let rest ← itemsBelow item gap separator close n
      return a :: rest

/-- All the items up to the closing symbol. -/
def items [DecidableEq σ] (item : Reader σ α) (gap : Reader σ Unit) (separator close : σ) : Reader σ (List α) := fun l =>
  (itemsBelow item gap separator close (l.length + 1)).run l

end Reader

/-- The text is read as `a`, and what follows it is left, whatever of the kind `after` follows. -/
def Reads (p : Reader σ α) (after : List σ → Prop) (text : List σ) (a : α) : Prop :=
  ∀ rest, after rest → p.run (text ++ rest) = some (a, rest)

/-- The text does not begin with a symbol of the class. -/
def Stops (C : σ → Bool) (l : List σ) : Prop := ∀ c ∈ l.head?, C c = false

theorem stops_of_head {C : σ → Bool} {c : σ} {l : List σ} (hl : l.head? = some c) (h : C c = false) : Stops C l := by
  intro d hd
  rw [hl] at hd
  cases hd
  exact h

theorem stops_cons {C : σ → Bool} {c : σ} {l : List σ} (h : C c = false) : Stops C (c :: l) := stops_of_head rfl h

/-- Where no text is empty, as much lies between the separators as there are texts. -/
theorem length_le_intercalate (separator : σ) {texts : List (List σ)} (h : ∀ l ∈ texts, l ≠ []) :
    texts.length ≤ ([separator].intercalate texts).length := by
  induction texts with
  | nil => exact Nat.zero_le _
  | cons l texts ih =>
    have hl : 0 < l.length := List.length_pos_of_ne_nil (h l List.mem_cons_self)
    have hrest := ih fun m hm => h m (List.mem_cons_of_mem l hm)
    cases texts with
    | nil =>
      rw [List.intercalate_singleton]
      exact hl
    | cons m texts =>
      rw [List.intercalate_cons_cons, List.length_append, List.length_append, List.length_cons]
      omega

namespace Reads

variable {p : Reader σ α} {before after : List σ → Prop} {s t : List σ} {a : α} {b : β}

theorem mono (h : Reads p before s a) (hkind : ∀ rest, after rest → before rest) : Reads p after s a :=
  fun rest hrest => h rest (hkind rest hrest)

theorem pure (a : α) : Reads (pure a : Reader σ α) after [] a := fun _ _ => rfl

theorem bind {f : α → Reader σ β} (hp : Reads p before s a) (hf : Reads (f a) after t b)
    (hbefore : ∀ rest, after rest → before (t ++ rest)) : Reads (p >>= f) after (s ++ t) b := by
  intro rest hrest
  rw [List.append_assoc, StateT.run_bind, hp _ (hbefore rest hrest)]
  exact hf rest hrest

/-- After a reader that leaves anything comes another. -/
theorem followed {f : α → Reader σ β} (hp : Reads p (fun _ => True) s a) (hf : Reads (f a) after t b) :
    Reads (p >>= f) after (s ++ t) b :=
  hp.bind hf fun _ _ => trivial

/-- What reads nothing comes before a reader. -/
theorem skipped {f : Unit → Reader σ β} {q : Reader σ Unit} (hq : ∀ rest, after rest → q.run (t ++ rest) = some ((), t ++ rest))
    (hf : Reads (f ()) after t b) : Reads (q >>= f) after t b := by
  intro rest hrest
  rw [StateT.run_bind, hq rest hrest]
  exact hf rest hrest

theorem map (f : α → β) (hp : Reads p after s a) : Reads (f <$> p) after s (f a) := by
  intro rest hrest
  rw [StateT.run_map, hp rest hrest]
  rfl

/-- A text is read in one way. -/
theorem unique {a' : α} (hs : Reads p after s a) (ht : Reads p after t a') {r r' : List σ} (h : s ++ r = t ++ r') (hr : after r)
    (hr' : after r') : a = a' ∧ r = r' := by
  have hsame : some (a, r) = some (a', r') := by
    rw [← hs r hr, h]
    exact ht r' hr'
  injection hsame with hpair
  exact Prod.mk.inj hpair

theorem skip {C : σ → Bool} (hs : ∀ c ∈ s, C c = true) : Reads (Reader.skip C) (Stops C) s () := by
  intro rest hrest
  show some ((), (s ++ rest).dropWhile C) = _
  rw [List.dropWhile_append_of_pos hs]
  cases rest with
  | nil => rfl
  | cons c rest =>
    have hstop : C c = false := hrest c rfl
    rw [List.dropWhile_cons_of_neg (by simp [hstop])]

/-- Where nothing is to be passed over, nothing is. -/
theorem stand (C : σ → Bool) : Reads (Reader.skip C) (Stops C) [] () := skip fun _ hc => absurd hc List.not_mem_nil

theorem word {first rest : σ → Bool} {c : σ} {l : List σ} (hfirst : first c = true) (hrest : ∀ d ∈ l, rest d = true) :
    Reads (Reader.word first rest) (Stops rest) (c :: l) (c :: l) := by
  intro following hstops
  have hkept : following.takeWhile rest = [] ∧ following.dropWhile rest = following := by
    cases following with
    | nil => exact ⟨rfl, rfl⟩
    | cons d following => simp [hstops d rfl]
  show (if first c then some (c :: (l ++ following).takeWhile rest, (l ++ following).dropWhile rest) else none) = _
  rw [if_pos hfirst, List.takeWhile_append_of_pos hrest, List.dropWhile_append_of_pos hrest, hkept.1, hkept.2, List.append_nil]

section Symbols

variable [DecidableEq σ] {c : σ}

theorem closed (p : Reader σ α) : Reads (Reader.closedBy c a p) after [c] a := fun _ _ => if_pos rfl

theorem unclosed {d : σ} (hd : d ≠ c) (hp : Reads p after (d :: s) a) (a' : α) : Reads (Reader.closedBy c a' p) after (d :: s) a :=
  fun rest hrest => (if_neg hd).trans (hp rest hrest)

theorem opened (hp : Reads p after s a) (a' : α) : Reads (Reader.openedBy c p a') after (c :: s) a :=
  fun rest hrest => (if_pos rfl).trans (hp rest hrest)

theorem unopened (p : Reader σ α) (hstops : ∀ rest, after rest → Stops (· = c) rest) : Reads (Reader.openedBy c p a) after [] a := by
  intro rest hrest
  cases rest with
  | nil => rfl
  | cons d rest => exact if_neg (of_decide_eq_false (hstops _ hrest d rfl))

theorem symbol (c : σ) : Reads (Reader.symbol c) after [c] () := closed _

/-- A text is read back behind its opening quote where every symbol is written bare or by its code. -/
theorem quoted {quote escape : σ} {bare : σ → Bool} {code : σ → Option σ} {encode : σ → List σ} (hne : escape ≠ quote)
    (hencode : ∀ c, (encode c = [c] ∧ c ≠ quote ∧ c ≠ escape ∧ bare c = true) ∨ ∃ d, encode c = [escape, d] ∧ code d = some c)
    (text : List σ) : Reads (Reader.quoted quote escape bare code) after (text.flatMap encode ++ [quote]) text := by
  intro rest hrest
  induction text with
  | nil =>
    cases rest with
    | nil => exact if_pos rfl
    | cons d rest => exact if_pos rfl
  | cons c text ih =>
    have ih' : Reader.quoted quote escape bare code (text.flatMap encode ++ [quote] ++ rest) = some (text, rest) := ih
    show Reader.quoted quote escape bare code _ = _
    rw [List.flatMap_cons, List.append_assoc, List.append_assoc, ← List.append_assoc (text.flatMap encode)]
    rcases hencode c with ⟨hc, hquote, hescape, hbare⟩ | ⟨d, hc, hcode⟩
    · rw [hc, List.singleton_append]
      generalize text.flatMap encode ++ [quote] ++ rest = following at ih' ⊢
      cases following with
      | nil => cases ih'
      | cons d following =>
        rw [Reader.quoted, if_neg hquote, if_neg hescape, if_pos hbare, ih']
        rfl
    · rw [hc, List.cons_append, List.singleton_append, Reader.quoted, if_neg hne, if_pos rfl, hcode, ih']
      rfl

/-- Items with separators between them are read back up to the closing symbol. By induction on their number: behind an item comes the
closing symbol, or the separator and the items that are left. -/
theorem itemsBelow {item : Reader σ α} {gap : Reader σ Unit} {separator close : σ} (hne : separator ≠ close)
    {texts : List (List σ × α)}
    (hitem : ∀ x ∈ texts, Reads item (fun rest => rest.head? = some separator ∨ rest.head? = some close) x.1 x.2)
    (hfirst : ∀ x ∈ texts, ∃ c s, x.1 = c :: s ∧ c ≠ close ∧ ∀ rest, gap.run (c :: rest) = some ((), c :: rest)) {n : Nat}
    (hn : texts.length < n) :
    Reads (Reader.itemsBelow item gap separator close n) after ([separator].intercalate (texts.map Prod.fst) ++ [close])
      (texts.map Prod.snd) := by
  induction texts generalizing n with
  | nil =>
    obtain ⟨n, rfl⟩ := Nat.exists_eq_add_of_lt hn
    exact closed _
  | cons x texts ih =>
    obtain ⟨n, rfl⟩ := Nat.exists_eq_add_of_le' (Nat.zero_lt_of_lt hn)
    have hx := hitem x List.mem_cons_self
    obtain ⟨c, s, htext, hclose, -⟩ := hfirst x List.mem_cons_self
    have hitem' := fun y hy => hitem y (List.mem_cons_of_mem x hy)
    have hfirst' := fun y hy => hfirst y (List.mem_cons_of_mem x hy)
    have hlength : texts.length < n := Nat.lt_of_succ_lt_succ hn
    cases texts with
    | nil =>
      have hlast : Reads (Reader.itemsBelow item gap separator close (n + 1)) after (c :: (s ++ [close])) [x.2] := by
        refine unclosed hclose ?_ []
        rw [← List.cons_append, ← htext]
        exact hx.bind (closed _) fun rest _ => Or.inr rfl
      rw [List.map_cons, List.map_nil, List.intercalate_singleton, htext]
      exact hlast
    | cons y texts =>
      obtain ⟨d, s', htext', -, hgap⟩ := hfirst' y List.mem_cons_self
      have hrest := ih hitem' hfirst' hlength
      have hmore : Reads (Reader.itemsBelow item gap separator close (n + 1)) after
          (c :: (s ++ separator :: ([separator].intercalate ((y :: texts).map Prod.fst) ++ [close])))
          (x.2 :: (y :: texts).map Prod.snd) := by
        refine unclosed hclose ?_ []
        rw [← List.cons_append, ← htext]
        refine hx.bind (unclosed hne ?_ _) fun rest _ => Or.inl rfl
        refine (symbol separator).followed (skipped ?_ (hrest.map (x.2 :: ·)))
        intro rest _
        obtain ⟨u, hu⟩ : ∃ u, [separator].intercalate ((y :: texts).map Prod.fst) = d :: u :=
          ⟨_, by rw [List.map_cons, htext', List.intercalate_cons_cons_left]⟩
        rw [hu]
        exact hgap _
      rw [List.map_cons, List.map_cons, List.intercalate_cons_cons, htext]
      simpa using hmore

theorem items {item : Reader σ α} {gap : Reader σ Unit} {separator close : σ} (hne : separator ≠ close) {texts : List (List σ × α)}
    (hitem : ∀ x ∈ texts, Reads item (fun rest => rest.head? = some separator ∨ rest.head? = some close) x.1 x.2)
    (hfirst : ∀ x ∈ texts, ∃ c s, x.1 = c :: s ∧ c ≠ close ∧ ∀ rest, gap.run (c :: rest) = some ((), c :: rest)) :
    Reads (Reader.items item gap separator close) after ([separator].intercalate (texts.map Prod.fst) ++ [close])
      (texts.map Prod.snd) := by
  intro rest hrest
  refine itemsBelow hne hitem hfirst ?_ rest hrest
  have hnonempty : ∀ l ∈ texts.map Prod.fst, l ≠ [] := by
    intro l hl
    obtain ⟨x, hx, rfl⟩ := List.mem_map.1 hl
    obtain ⟨c, s, htext, -⟩ := hfirst x hx
    rw [htext]
    exact List.cons_ne_nil c s
  have hlength := length_le_intercalate separator hnonempty
  rw [List.length_map] at hlength
  rw [List.append_assoc, List.length_append]
  omega

end Symbols

end Reads

end Scanning
