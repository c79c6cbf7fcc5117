import OciAcmePublisher.Redaction

/-!
# The patterns of redaction

How each pattern matches in front of a PEM block and in front of a URL, and what the five substitutions leave of a URL that no match
takes.
-/

namespace OciAcmePublisher

open Scanning

namespace Redaction

/-- Five dashes. -/
def dashes : List Char := "-----".toList

/-- A PEM block with a label and a body. -/
def pemText (label body : List Char) : List Char :=
  "-----BEGIN ".toList ++ (label ++ (dashes ++ (body ++ ("-----END ".toList ++ (label ++ dashes)))))

/-- What the `https://` patterns begin with. -/
def scheme : List Char := "https://".toList

/-- Letters, digits, `/`, `.` and `_`. Outside ASCII, whatever is no whitespace. -/
def restChar (c : Char) : Bool := letterOrDigit c || c == '/' || c == '.' || c == '_' || 128 ≤ c.toNat && !isSpace c

/-- What follows `https://`. -/
def Remainder (u : List Char) : Prop := u ≠ [] ∧ ∀ c ∈ u, restChar c = true

/-- Whitespace or the end of the text. -/
def Delimited (after : List Char) : Prop := ∀ c l, after = c :: l → isSpace c = true

/-- Behind the whitespace there is a character that a bearer token may begin with. -/
def tokenAfter (after : List Char) : Bool :=
  match after.dropWhile isSpace with
  | [] => false
  | c :: _ => tokenChar c

/-- A match that begins in the text takes a part of what comes behind. -/
def TakenBy (ρ : Rule Char) (before after : List Char) : Prop := Crosses (· == '\n') ρ after true before

end Redaction

namespace RedactionAux

open Redaction

/-! ## PEM blocks -/

/-- A header or a footer that matches matches too when the text goes on. -/
theorem extends_pemLine (word : String) : Extends (pemLine word) :=
  (extends_each _).bind ((halts_many1 _).bind_extends rfl (extends_each _))

/-- A header or a footer leaves an end of the text. -/
theorem leaves_pemLine (word : String) : Leaves (pemLine word) :=
  (leaves_each _).bind ((leaves_many1 _).bind (leaves_each _))

/-- A label does not go beyond the dashes behind it. -/
theorem label_dashes (p z : List Char) : andThen (many1 notDash) (each (literal "-----")) (p ++ (dashes ++ z)) =
    (andThen (many1 notDash) (each (literal "-----")) (p ++ dashes)).map (· ++ z) := by
  cases p with
  | nil => rfl
  | cons c p =>
    unfold andThen
    simp only [List.cons_append, many1]
    split
    · simp only [Option.bind_some, List.dropWhile_append]
      split
      · rfl
      · rw [← List.append_assoc]
        exact each_append (by simp [dashes, literal]) z
    · rfl

/-- The words that a header and a footer begin with. -/
def Framing (word : String) : Prop := word = "-----BEGIN " ∨ word = "-----END "

/-- No header and no footer that begins before five dashes goes beyond them. -/
theorem pemLine_dashes {word : String} (hword : Framing word) (c : Char) (p z : List Char) :
    pemLine word (c :: p ++ (dashes ++ z)) = (pemLine word (c :: p ++ dashes)).map (· ++ z) := by
  have hinner : InnerAt (dashes ++ z) (dashes ++ []) (each (literal word)) (c :: p) := by
    rcases hword with rfl | rfl
    · exact innerAt_cons_of_clashes (· == '-') (literal "----BEGIN ") (by decide) z [] c p
    · exact innerAt_cons_of_clashes (· == '-') (literal "----END ") (by decide) z [] c p
  rw [List.append_nil] at hinner
  unfold pemLine andThen
  rcases hinner with ⟨ha, hb⟩ | ⟨p', -, ha, hb⟩
  · rw [ha, hb]
    rfl
  · rw [ha, hb]
    exact label_dashes p' z

/-- A footer that is found before the dashes is found too when the text goes on behind them. -/
theorem search_dashes {p rest : List Char} (z : List Char) (h : search pemFooter (p ++ dashes) = some rest) :
    search pemFooter (p ++ (dashes ++ z)) = some (rest ++ z) := by
  induction p with
  | nil =>
    have hnone : search pemFooter dashes = none := by decide
    rw [List.nil_append, hnone] at h
    cases h
  | cons c p ih =>
    have hfirst : pemFooter (c :: p ++ (dashes ++ z)) = (pemFooter (c :: p ++ dashes)).map (· ++ z) :=
      pemLine_dashes (Or.inr rfl) c p z
    simp only [List.cons_append] at h hfirst ⊢
    unfold search at h ⊢
    rw [hfirst]
    cases hfound : pemFooter (c :: (p ++ dashes)) with
    | none =>
      rw [hfound] at h
      exact ih h
    | some rest' =>
      rw [hfound] at h
      cases h
      rfl

/-- A block that begins before the dashes and ends with them is found too when the text goes on. -/
theorem pemBlock_dashes {c : Char} {p rest : List Char} (z : List Char) (h : pemBlock (c :: p ++ dashes) = some (rest ++ dashes)) :
    pemBlock (c :: p ++ (dashes ++ z)) = some (rest ++ (dashes ++ z)) := by
  obtain ⟨body, hheader, hfooter⟩ := Option.bind_eq_some_iff.1 h
  obtain ⟨front, hfront⟩ := leaves_search (leaves_pemLine "-----END ") _ _ hfooter
  rw [← List.append_assoc] at hfront
  subst hfront
  have hheader' : pemHeader (c :: p ++ (dashes ++ z)) = some (front ++ rest ++ (dashes ++ z)) := by
    unfold pemHeader at hheader ⊢
    rw [pemLine_dashes (Or.inl rfl)]
    rw [hheader]
    simp
  rw [← List.append_assoc rest]
  exact Option.bind_eq_some_iff.2 ⟨_, hheader', search_dashes z hfooter⟩

/-- Where no header ends with the dashes, no block begins before them when the text goes on. -/
theorem pemBlock_none {c : Char} {p : List Char} (z : List Char) (h : pemHeader (c :: p ++ dashes) = none) :
    pemBlock (c :: p ++ (dashes ++ z)) = none := by
  have hheader : pemHeader (c :: p ++ (dashes ++ z)) = none := by
    unfold pemHeader at h ⊢
    rw [pemLine_dashes (Or.inl rfl), h]
    rfl
  unfold pemBlock andThen
  rw [hheader]
  rfl

theorem consumes_pemBlock : Consumes pemBlock :=
  ((consumes_each _ _).bind ((leaves_many1 _).bind (leaves_each _))).bind (leaves_search (leaves_pemLine "-----END "))

/-- A word matches itself. -/
theorem literal_self (w : List Char) (z : List Char) : each (w.map fun c d => d == c) (w ++ z) = some z := by
  induction w with
  | nil => rfl
  | cons c w ih => simpa [each] using ih

/-- A label matches up to its dashes. -/
theorem label_self {label : List Char} (hne : label ≠ []) (hlabel : '-' ∉ label) (z : List Char) :
    andThen (many1 notDash) (each (literal "-----")) (label ++ (dashes ++ z)) = some z := by
  have hall : ∀ c ∈ label, notDash c = true := fun c hc => by
    simpa [notDash] using fun heq : c = '-' => hlabel (heq ▸ hc)
  cases label with
  | nil => exact absurd rfl hne
  | cons c label =>
    have hdrop : (label ++ (dashes ++ z)).dropWhile notDash = dashes ++ z :=
      List.dropWhile_append_of_pos fun d hd => hall d (List.mem_cons_of_mem _ hd)
    simp only [andThen, many1, List.cons_append, hall c List.mem_cons_self, if_true, hdrop, Option.bind_some]
    exact literal_self dashes z

/-- A header or a footer matches its own text. -/
theorem pemLine_self (word : String) {label : List Char} (hne : label ≠ []) (hlabel : '-' ∉ label) (z : List Char) :
    pemLine word (word.toList ++ (label ++ (dashes ++ z))) = some z := by
  have hword : each (literal word) (word.toList ++ (label ++ (dashes ++ z))) = some (label ++ (dashes ++ z)) :=
    literal_self word.toList _
  unfold pemLine andThen
  rw [hword]
  exact label_self hne hlabel z

/-- The text of a block, from its header to what comes behind. -/
theorem pemText_append (label body after : List Char) : pemText label body ++ after =
    "-----BEGIN ".toList ++ (label ++ (dashes ++ (body ++ ("-----END ".toList ++ (label ++ (dashes ++ after)))))) := by
  have h : ∀ x y d : List Char, x ++ (label ++ (d ++ (body ++ (y ++ (label ++ d))))) ++ after =
      x ++ (label ++ (d ++ (body ++ (y ++ (label ++ (d ++ after)))))) := by
    intro x y d
    simp only [List.append_assoc]
  exact h _ _ _

/-- A block matches as a whole. -/
theorem pemBlock_self {label body : List Char} (hne : label ≠ []) (hlabel : '-' ∉ label) (hbody : '-' ∉ body) (after : List Char) :
    pemBlock (pemText label body ++ after) = some after := by
  have hheader := pemLine_self "-----BEGIN " hne hlabel (body ++ ("-----END ".toList ++ (label ++ (dashes ++ after))))
  have hpass : ∀ c ∈ body, ∀ l, pemFooter (c :: l) = none := by
    intro c hc l
    have hdash : (c == '-') = false := beq_false_of_ne fun heq => hbody (heq ▸ hc)
    simp [pemFooter, pemLine, andThen, literal, each, hdash]
  have hfooter := pemLine_self "-----END " hne hlabel after
  rw [pemText_append]
  refine Option.bind_eq_some_iff.2 ⟨_, hheader, ?_⟩
  rw [search_pass hpass]
  exact search_found hfooter

/-! ## URLs -/

section Url

variable {u after : List Char}

/-- A character of the URL is no whitespace, no dash, no colon and no new line. -/
theorem restChar_clean {c : Char} (h : restChar c = true) : isSpace c = false ∧ c ≠ '-' ∧ c ≠ ':' ∧ c ≠ '\n' := by
  refine ⟨?_, ?_, ?_, ?_⟩
  · simp only [restChar, letterOrDigit, Bool.or_eq_true, Bool.and_eq_true, decide_eq_true_eq, beq_iff_eq, Bool.not_eq_true'] at h
    rcases h with (((h | rfl) | rfl) | rfl) | h
    · simp only [isSpace, Bool.or_eq_false_iff, Bool.and_eq_false_iff, decide_eq_false_iff_not, beq_eq_false_iff_ne]
      omega
    · decide
    · decide
    · decide
    · exact h.2
  · rintro rfl
    exact absurd h (by decide)
  · rintro rfl
    exact absurd h (by decide)
  · rintro rfl
    exact absurd h (by decide)

/-- What the texts have in common behind `h`, for a class that takes the URL. -/
theorem run_eq {C : Char → Bool} (hscheme : "ttps://".toList.all C = true) (hu : ∀ c ∈ u, C c = true) (z : List Char) :
    ("ttps://".toList ++ z).dropWhile C = ("ttps://".toList ++ (u ++ z)).dropWhile C := by
  rw [List.dropWhile_append_of_pos (List.all_eq_true.1 hscheme), List.dropWhile_append_of_pos (List.all_eq_true.1 hscheme),
    List.dropWhile_append_of_pos hu]

/-- A class that takes the URL leaves the same with it as without. -/
theorem alikeAt_class {C : Char → Bool} (hscheme : scheme.all C = true) (hu : ∀ c ∈ u, C c = true) (z p : List Char) :
    AlikeAt (scheme ++ z) (scheme ++ (u ++ z)) (many1 C) p :=
  alikeAt_many1 (c := 'h') (x := "ttps://".toList ++ z) (y := "ttps://".toList ++ (u ++ z)) rfl rfl
    (List.all_eq_true.1 hscheme 'h' (by decide))
    (run_eq (List.all_eq_true.2 fun c hc => List.all_eq_true.1 hscheme c (List.mem_cons_of_mem _ hc)) hu z) p

theorem grows_pemLine (word : String) : Grows (pemLine word) := (extends_pemLine word).grows

/-- A header that begins before the URL matches with it where it matches without. -/
theorem alikeAt_pemLine {word : String} (hword : Framing word) (hu : ∀ c ∈ u, notDash c = true) (z p : List Char) :
    AlikeAt (scheme ++ z) (scheme ++ (u ++ z)) (pemLine word) p := by
  have hliteral : InnerAt (scheme ++ z) (scheme ++ (u ++ z)) (each (literal word)) p := by
    rcases hword with rfl | rfl
    · exact innerAt_of_clashes (by decide) z (u ++ z) p
    · exact innerAt_of_clashes (by decide) z (u ++ z) p
  refine hliteral.bind_alike fun p' => ?_
  refine (alikeAt_class (by decide) hu z p').bind (fun p'' => ?_) (leaves_each _)
  exact (innerAt_of_clashes (by decide) z (u ++ z) p'').alikeAt

/-- A block that begins before the URL matches with it where it matches without. -/
theorem alikeAt_pemBlock (hu : ∀ c ∈ u, notDash c = true) (z p : List Char) :
    AlikeAt (scheme ++ z) (scheme ++ (u ++ z)) pemBlock p := by
  have hpass : ∀ c, notDash c = true → ∀ l, pemFooter (c :: l) = none := by
    intro c hc l
    have hdash : (c == '-') = false := by simpa [notDash] using hc
    simp [pemFooter, pemLine, andThen, literal, each, hdash]
  have hskip : ∀ l, search pemFooter (scheme ++ l) = search pemFooter l :=
    search_pass fun c hc => hpass c (List.all_eq_true.1 (by decide : scheme.all notDash = true) c hc)
  refine (alikeAt_pemLine (Or.inl rfl) hu z p).bind (fun p' => ?_) (leaves_search (leaves_pemLine "-----END "))
  refine alikeAt_search (m := pemFooter) (grows_pemLine "-----END ") (alikeAt_pemLine (Or.inr rfl) hu z) ?_ (fun rest hrest => ?_) p'
  · rw [hskip, hskip, search_pass fun c hc => hpass c (hu c hc)]
  · rw [hskip] at hrest
    have hlength := (leaves_search (leaves_pemLine "-----END ") _ _ hrest).length_le
    have hscheme : 0 < scheme.length := by decide
    rw [List.length_append]
    omega

/-- The name of the header ends before `https://`. -/
theorem innerAt_authorizationName (z z' p : List Char) : InnerAt (scheme ++ z) (scheme ++ z') authorizationName p := by
  have hspace : ∀ l, (scheme ++ l).dropWhile isSpace = scheme ++ l := fun l => rfl
  refine (innerAt_of_clashes (by decide) z z' p).bind fun p' => ?_
  refine (innerAt_many (hspace z) (hspace z') p').bind fun p' => ?_
  refine (innerAt_of_clashes (by decide) z z' p').bind fun p' => ?_
  exact innerAt_many (hspace z) (hspace z') p'

/-- The value of the header takes the URL as a whole. -/
theorem alikeAt_authorizationValue (hu : ∀ c ∈ u, notSpace c = true) (z p : List Char) :
    AlikeAt (scheme ++ z) (scheme ++ (u ++ z)) authorizationValue p := by
  have hline : ∀ c ∈ u, inLine c = true := by
    intro c hc
    have hc := hu c hc
    simp only [inLine, bne_iff_ne, ne_eq]
    rintro rfl
    exact absurd hc (by decide)
  refine (alikeAt_class (by decide) hu z p).bind (fun p' => ?_) (leaves_many _)
  exact alikeAt_many (c := 'h') (x := "ttps://".toList ++ z) (y := "ttps://".toList ++ (u ++ z)) rfl rfl (by decide)
    (run_eq (by decide) hline z) p'

theorem consumes_authorizationName : Consumes authorizationName :=
  (consumes_each _ _).bind ((leaves_many _).bind ((leaves_each _).bind (leaves_many _)))

theorem leaves_authorizationValue : Leaves authorizationValue := (leaves_many1 _).bind (leaves_many _)

theorem grows_authorizationName : Grows authorizationName :=
  (extends_each _).bind_grows ((halts_many _).bind_grows rfl ((extends_each _).bind_grows (grows_many _)))

theorem grows_authorizationValue : Grows authorizationValue := (grows_many1 _).bind_many _

/-- What the group takes is the same when the text goes on. -/
theorem take_group {l value : List Char} (h : value <:+ l) (z : List Char) :
    (l ++ z).take ((l ++ z).length - (value ++ z).length) = l.take (l.length - value.length) := by
  obtain ⟨front, rfl⟩ := h
  simp [List.append_assoc]

/-- Without the name there is no match. -/
theorem authorization_none {l : List Char} (h : authorizationName l = none) (start : Bool) : authorization start l = none := by
  unfold authorization
  rw [h]
  split <;> rfl

/-- Behind the name, at the start of a line, the value is replaced. -/
theorem authorization_some {l value : List Char} (h : authorizationName l = some value) :
    authorization true l =
      (authorizationValue value).map fun rest => (l.take (l.length - value.length) ++ "[REDACTED]".toList, rest) := by
  unfold authorization
  rw [h]
  rfl

/-- A header that begins before the URL ends before it, as it does alone, or goes over its border. -/
theorem splits_authorization (hu : ∀ c ∈ u, notSpace c = true) (z : List Char) :
    Splits (scheme ++ z) (scheme ++ (u ++ z)) authorization := by
  intro start c p
  cases start with
  | false => exact Or.inl ⟨rfl, rfl, rfl⟩
  | true =>
    rcases innerAt_authorizationName z (u ++ z) (c :: p) with ⟨ha, hb⟩ | ⟨value, hp, ha, hb⟩
    · have hp := grows_authorizationName _ _ ha
      exact Or.inl ⟨authorization_none hp _, authorization_none ha _, authorization_none hb _⟩
    · have hgroup := take_group (consumes_authorizationName.leaves _ _ hp)
      rw [authorization_some hp, authorization_some ha, authorization_some hb, hgroup, hgroup]
      rcases alikeAt_authorizationValue hu z value with (⟨ha', hb'⟩ | ⟨rest, hp', ha', hb'⟩) | ⟨rest, hshort, ha', hb'⟩
      · have hp' := grows_authorizationValue _ _ ha'
        rw [hp', ha', hb']
        exact Or.inl ⟨rfl, rfl, rfl⟩
      · rw [hp', ha', hb']
        exact Or.inr (Or.inl ⟨_, rest, (leaves_authorizationValue _ _ hp').trans (consumes_authorizationName.suffix hp), rfl, rfl, rfl⟩)
      · rw [ha']
        exact Or.inr (Or.inr ⟨_, rest, rfl, hshort⟩)

/-- A header that goes over the border is replaced by the same with the URL as without, and leaves the same. -/
theorem merges_authorization (hu : ∀ c ∈ u, notSpace c = true) (z : List Char) :
    Merges (scheme ++ z) (scheme ++ (u ++ z)) authorization := by
  intro start c p text rest hrest hshort
  cases start with
  | false => cases hrest
  | true =>
    rcases innerAt_authorizationName z (u ++ z) (c :: p) with ⟨ha, -⟩ | ⟨value, hp, ha, hb⟩
    · rw [authorization_none ha] at hrest
      cases hrest
    · have hgroup := take_group (consumes_authorizationName.leaves _ _ hp)
      rw [authorization_some ha, hgroup] at hrest
      rw [authorization_some hb, hgroup]
      rcases alikeAt_authorizationValue hu z value with (⟨ha', -⟩ | ⟨rest', -, ha', -⟩) | ⟨rest', -, ha', hb'⟩
      · rw [ha'] at hrest
        cases hrest
      · rw [ha', Option.map_some, Option.some.injEq, Prod.mk.injEq] at hrest
        rw [← hrest.2, List.length_append] at hshort
        omega
      · rw [ha', Option.map_some, Option.some.injEq, Prod.mk.injEq] at hrest
        obtain ⟨rfl, rfl⟩ := hrest
        rw [hb']
        refine ⟨rfl, ?_, ?_⟩
        · exact (leaves_authorizationValue _ _ ha').trans (consumes_authorizationName.suffix ha)
        · exact (leaves_authorizationValue _ _ hb').trans (consumes_authorizationName.suffix hb)

/-- A credential that begins before `https://` ends before it. -/
theorem innerAt_urlCredential (z z' : List Char) (c : Char) (p : List Char) :
    InnerAt (scheme ++ z) (scheme ++ z') urlCredential (c :: p) := by
  have hscheme : ∀ q, InnerAt (scheme ++ z) (scheme ++ z') (andThen (many1 passwordChar) (each (literal "@"))) q :=
    innerAt_many1_andThen (innerAt_of_clashes (by decide) z z') rfl rfl
  refine InnerAt.bind (innerAt_cons_of_clashes (· == 'h') (literal "ttps://") (by decide) z z' c p) fun p' => ?_
  refine innerAt_many1_andThen (fun q => ?_) rfl rfl p'
  exact (innerAt_of_clashes (by decide) z z' q).bind hscheme

/-- In front of `https://`, a bearer token ends before or takes the letters. -/
theorem token_border (z p : List Char) : InnerAt scheme (scheme ++ z) (andThen (many1 tokenChar) (many (· == '='))) p ∨
    andThen (many1 tokenChar) (many (· == '=')) (p ++ scheme) = some "://".toList ∧
      andThen (many1 tokenChar) (many (· == '=')) (p ++ (scheme ++ z)) = some ("://".toList ++ z) := by
  cases p with
  | nil => exact Or.inr ⟨by decide, rfl⟩
  | cons c p =>
    unfold InnerAt andThen
    simp only [List.cons_append, many1]
    split
    · simp only [Option.bind_some, List.dropWhile_append]
      split
      · exact Or.inr ⟨by decide, rfl⟩
      · exact Or.inl (innerAt_many (a := scheme) (b := scheme ++ z) rfl rfl (p.dropWhile tokenChar))
    · exact Or.inl (Or.inl ⟨rfl, rfl⟩)

/-- In front of `https://`, a bearer token ends before the letters or takes them and no more. -/
theorem bearerToken_border (z p : List Char) : InnerAt scheme (scheme ++ z) bearerToken p ∨
    bearerToken (p ++ scheme) = some "://".toList ∧ bearerToken (p ++ (scheme ++ z)) = some ("://".toList ++ z) := by
  have hliteral : InnerAt (scheme ++ []) (scheme ++ z) (each (caseless "bearer")) p := innerAt_of_clashes (by decide) [] z p
  rw [List.append_nil] at hliteral
  have hword : ∀ p, InnerAt scheme (scheme ++ z) (many1 isSpace) p := innerAt_many1 rfl rfl rfl rfl
  rcases hliteral with ⟨ha, hb⟩ | ⟨p', hp, ha, hb⟩
  · refine Or.inl (Or.inl ⟨?_, ?_⟩)
    · simp [bearerToken, andThen, ha]
    · simp [bearerToken, andThen, hb]
  · rcases hword p' with ⟨ha', hb'⟩ | ⟨p'', hp', ha', hb'⟩
    · refine Or.inl (Or.inl ⟨?_, ?_⟩)
      · simp [bearerToken, andThen, ha, ha']
      · simp [bearerToken, andThen, hb, hb']
    · have htoken := token_border z p''
      unfold InnerAt bearerToken
      simp only [andThen, hp, ha, hb, hp', ha', hb', Option.bind_some]
      exact htoken

/-- A bearer token ends before the colon of `https://`. -/
theorem splitAt_bearerToken (z p : List Char) : SplitAt scheme (scheme ++ z) bearerToken p :=
  (bearerToken_border z p).imp_right fun h => ⟨_, by decide, h.1⟩

theorem grows_pemBlock : Grows pemBlock := (extends_pemLine _).bind_grows (grows_search (grows_pemLine "-----END "))

theorem grows_urlCredential : Grows urlCredential :=
  (extends_each _).bind_grows ((halts_many1 _).bind_grows rfl
    ((extends_each _).bind_grows ((halts_many1 _).bind_grows rfl (extends_each _).grows)))

theorem consumes_urlCredential : Consumes urlCredential :=
  (consumes_each _ _).bind ((leaves_many1 _).bind ((leaves_each _).bind ((leaves_many1 _).bind (leaves_each _))))

theorem grows_bearerToken : Grows bearerToken :=
  (extends_each _).bind_grows ((halts_many1 _).bind_grows rfl ((grows_many1 _).bind_many _))

theorem consumes_bearerToken : Consumes bearerToken :=
  (consumes_each _ _).bind ((leaves_many1 _).bind ((leaves_many1 _).bind (leaves_many _)))

theorem grows_httpsUrl : Grows httpsUrl := (extends_each _).bind_grows (grows_many1 _)

theorem consumes_httpsUrl : Consumes httpsUrl := (consumes_each _ _).bind (leaves_many1 _)

/-- Every match begins with a character of a bearer token. -/
def Wordy (ρ : Rule Char) : Prop := ∀ start c l, tokenChar c = false → ρ start (c :: l) = none

/-- A pattern whose first character is of a bearer token begins with one. -/
theorem wordy_always (f : Char → Bool) (fs : List (Char → Bool)) {m : Matcher Char} {text : List Char}
    (h : ∀ c, tokenChar c = false → f c = false) : Wordy (always (andThen (each (f :: fs)) m) text) := by
  intro start c l hc
  simp [always, andThen, each, h c hc]

theorem not_tokenChar {c d : Char} (hd : tokenChar d = true) (h : tokenChar c = false) : (c == d) = false := by
  refine beq_false_of_ne ?_
  rintro rfl
  rw [hd] at h
  cases h

/-- Whitespace is in no bearer token. -/
theorem tokenChar_of_isSpace {c : Char} (h : isSpace c = true) : tokenChar c = false := by
  have hne : ∀ d : Char, isSpace d = false → c ≠ d := by
    rintro d hd rfl
    rw [h] at hd
    cases hd
  simp only [tokenChar, Bool.or_eq_false_iff, decide_eq_false_iff_not, List.mem_cons, List.not_mem_nil, or_false]
  constructor
  · simp only [isSpace, Bool.or_eq_true, Bool.and_eq_true, decide_eq_true_eq, beq_iff_eq] at h
    simp only [letterOrDigit, Bool.or_eq_false_iff, Bool.and_eq_false_iff, decide_eq_false_iff_not]
    omega
  · rintro (rfl | rfl | rfl | rfl | rfl | rfl | rfl | rfl | rfl | rfl)
    all_goals exact absurd h (by decide)

theorem not_caselessChar {c d : Char} (hd : tokenChar d = true ∧ tokenChar d.toUpper = true ∧ d ≠ 'i') (h : tokenChar c = false) :
    caselessChar d c = false := by
  unfold caselessChar
  rw [not_tokenChar hd.1 h, not_tokenChar hd.2.1 h, beq_false_of_ne hd.2.2]
  rfl

/-- A header begins with a letter. -/
theorem wordy_authorization : Wordy authorization := by
  intro start c l hc
  refine authorization_none ?_ start
  have hword : each (caseless "authorization") (c :: l) = none :=
    each_first (f := caselessChar 'a') (not_caselessChar (by decide) hc) (caseless "uthorization") l
  unfold authorizationName andThen
  rw [hword]
  rfl

theorem wordy_bearerToken (text : List Char) : Wordy (always bearerToken text) :=
  wordy_always (caselessChar 'b') (caseless "earer") fun _ hc => not_caselessChar (by decide) hc

theorem wordy_pemBlock (text : List Char) : Wordy (always pemBlock text) := by
  intro start c l hc
  have hword : each (literal "-----BEGIN ") (c :: l) = none := each_first (not_tokenChar (by decide) hc) (literal "----BEGIN ") l
  unfold always pemBlock pemHeader pemLine andThen
  rw [hword]
  rfl

theorem wordy_urlCredential (text : List Char) : Wordy (always urlCredential text) :=
  wordy_always (· == 'h') (literal "ttps://") fun _ hc => not_tokenChar (by decide) hc

variable {ρ : Rule Char}

/-- Where whitespace comes first it does not matter whether a line starts. -/
theorem sub_delimited (hρ : Wordy ρ) (hq : Delimited after) (start : Bool) : sub (· == '\n') ρ 0 start after = substitute ρ after := by
  unfold substitute
  cases after with
  | nil => rw [sub_nil, sub_nil]
  | cons c l =>
    have hc := tokenChar_of_isSpace (hq c l rfl)
    rw [sub_none (hρ start c l hc), sub_none (hρ true c l hc)]

/-- What is delimited stays so when a rule is substituted in it. -/
theorem delimited_substitute (hρ : Wordy ρ) (hq : Delimited after) : Delimited (substitute ρ after) := by
  intro c l h
  cases after with
  | nil =>
    unfold substitute at h
    rw [sub_nil] at h
    cases h
  | cons d q =>
    unfold substitute at h
    rw [sub_none (hρ true d q (tokenChar_of_isSpace (hq d q rfl)))] at h
    cases h
    exact hq _ _ rfl

/-- No match of the rule begins in the URL. -/
def Spares (u after : List Char) (ρ : Rule Char) : Prop :=
  ∀ start, sub (· == '\n') ρ 0 start (scheme ++ (u ++ after)) = scheme ++ (u ++ substitute ρ after)

/-- No block begins in the URL, which has no dash. -/
theorem spares_pemBlock (hu : ∀ c ∈ u, restChar c = true) (hq : Delimited after) (text : List Char) :
    Spares u after (always pemBlock text) := by
  intro start
  have hpass : ∀ c ∈ scheme ++ u, ∀ start l, always pemBlock text start (c :: l) = none := by
    intro c hc start l
    have hdash : (c == '-') = false := by
      rcases List.mem_append.1 hc with hc | hc
      · have h := List.all_eq_true.1 (by decide : scheme.all notDash = true) c hc
        simpa [notDash] using h
      · exact beq_false_of_ne (restChar_clean (hu c hc)).2.1
    have hword : each (literal "-----BEGIN ") (c :: l) = none := each_first hdash (literal "----BEGIN ") l
    unfold always pemBlock pemHeader pemLine andThen
    rw [hword]
    rfl
  obtain ⟨start', hsub⟩ := sub_pass (· == '\n') hpass start after
  rw [List.append_assoc, List.append_assoc, sub_delimited (wordy_pemBlock text) hq] at hsub
  exact hsub

/-- No header begins in the URL, which starts no line. -/
theorem spares_authorization (hu : ∀ c ∈ u, restChar c = true) (hq : Delimited after) : Spares u after authorization := by
  intro start
  have hline : ∀ c ∈ "ttps://".toList ++ u, (c == '\n') = false := by
    intro c hc
    rcases List.mem_append.1 hc with hc | hc
    · have h := List.all_eq_true.1 (by decide : "ttps://".toList.all inLine = true) c hc
      simpa [inLine] using h
    · exact beq_false_of_ne (restChar_clean (hu c hc)).2.2.2
  have hfirst : authorization start ('h' :: ("ttps://".toList ++ (u ++ after))) = none := authorization_none rfl start
  have hrest := sub_line (· == '\n') authorization (fun _ => rfl) hline after
  rw [List.append_assoc, List.append_assoc, sub_delimited wordy_authorization hq] at hrest
  exact (sub_none hfirst).trans (congrArg _ hrest)

/-- Whitespace stops a class without whitespace. -/
theorem many1_delimited {C : Char → Bool} (hC : ∀ c, isSpace c = true → C c = false) (hq : Delimited after) (v : List Char) :
    many1 C (v ++ after) = (many1 C v).map (· ++ after) := by
  have hstop : after.dropWhile C = after := by
    cases after with
    | nil => rfl
    | cons c l => exact List.dropWhile_cons_of_neg (by simp [hC c (hq c l rfl)])
  cases v with
  | nil =>
    cases after with
    | nil => rfl
    | cons c l => simp [many1, hC c (hq c l rfl)]
  | cons c v =>
    simp only [List.cons_append, many1]
    split
    · rw [List.dropWhile_append, hstop]
      split
      · rename_i hnil
        rw [List.isEmpty_iff.1 hnil]
        rfl
      · rfl
    · rfl

/-- The letter `h` is in `https://` once. -/
theorem suffix_of_urls {v : List Char} (h : 'h' :: v <:+ scheme) : 'h' :: v = scheme := by
  have hall : ∀ x ∈ scheme.tails, x.head? = some 'h' → x = scheme := by decide
  exact hall _ ((List.mem_tails _ _).2 h) rfl

/-- A credential begins with the letter `h`. -/
theorem urlCredential_first {c : Char} (h : (c == 'h') = false) (l : List Char) : urlCredential (c :: l) = none := by
  have hword : each (literal "https://") (c :: l) = none := each_first h (literal "ttps://") l
  unfold urlCredential andThen
  rw [hword]
  rfl

/-- What has a colon does not match in the URL. -/
theorem colon_none (hu : ∀ c ∈ u, restChar c = true) (hq : Delimited after) {v : List Char} (hv : v <:+ u) {fs : List (Char → Bool)}
    (hmem : (fun c => c == ':') ∈ fs) (hfs : ∀ c, isSpace c = true → ∀ f ∈ fs, f c = false) : each fs (v ++ after) = none := by
  rw [each_stops (fun c l h f hf => hfs c (hq c l h) f hf) v, each_of_missing hmem fun c hc => ?_]
  · rfl
  · exact beq_false_of_ne (restChar_clean (hu c (hv.subset hc))).2.2.1

theorem not_space_of_eq {c d : Char} (hd : isSpace d = false) (h : isSpace c = true) : (c == d) = false := by
  refine beq_false_of_ne ?_
  rintro rfl
  rw [h] at hd
  cases hd

/-- Whitespace is in no literal word. -/
theorem literal_space {word : String} (hword : word.toList.all (fun c => !isSpace c) = true) {c : Char} (hc : isSpace c = true) :
    ∀ f ∈ literal word, f c = false := by
  intro f hf
  obtain ⟨d, hd, rfl⟩ := List.mem_map.1 hf
  have hclean := List.all_eq_true.1 hword d hd
  exact not_space_of_eq (by simpa using hclean) hc

/-- No credential begins in the URL, which has no colon. -/
theorem spares_urlCredential (hu : ∀ c ∈ u, restChar c = true) (hq : Delimited after) (text : List Char) :
    Spares u after (always urlCredential text) := by
  intro start
  have hscheme : ∀ c v, c :: v <:+ scheme → ∀ start, always urlCredential text start (c :: v ++ (u ++ after)) = none := by
    intro c v hv start
    by_cases hc : c = 'h'
    · subst hc
      rw [suffix_of_urls hv]
      have hword : each (literal "https://") (scheme ++ (u ++ after)) = some (u ++ after) := literal_self scheme _
      have hcolon : andThen (many1 userChar) (andThen (each (literal ":")) (andThen (many1 passwordChar) (each (literal "@"))))
          (u ++ after) = none := by
        unfold andThen
        rw [many1_delimited (fun d hd => by simp [userChar, hd]) hq]
        cases hmany1 : many1 userChar u with
        | none => rfl
        | some v =>
          have hmissing : each (literal ":") (v ++ after) = none :=
            colon_none hu hq (leaves_many1 _ _ _ hmany1) (List.mem_map_of_mem (by decide)) fun d hd => literal_space (by decide) hd
          simp only [Option.map_some, Option.bind_some, hmissing, Option.bind_none]
      unfold always urlCredential andThen
      rw [hword]
      exact congrArg (Option.map _) hcolon
    · unfold always
      rw [List.cons_append, urlCredential_first (beq_false_of_ne hc)]
      rfl
  have hrest : ∀ c v, c :: v <:+ u → ∀ start, always urlCredential text start (c :: v ++ after) = none := by
    intro c v hv start
    have hword : each (literal "https://") (c :: v ++ after) = none :=
      colon_none hu hq hv (List.mem_map_of_mem (by decide : ':' ∈ "https://".toList)) fun d hd => literal_space (by decide) hd
    unfold always urlCredential andThen
    rw [hword]
    rfl
  obtain ⟨start', hsub⟩ := sub_keep (· == '\n') hscheme start
  obtain ⟨start'', hsub'⟩ := sub_keep (· == '\n') hrest start'
  rw [hsub, hsub', sub_delimited (wordy_urlCredential text) hq]

/-- In the URL no bearer token begins, and none at its end. -/
theorem bearerToken_url (hu : ∀ c ∈ u, restChar c = true) (hq : Delimited after) (hafter : tokenAfter after = false) {v : List Char}
    (hv : v <:+ u) : bearerToken (v ++ after) = none := by
  have hword : each (caseless "bearer") (v ++ after) = (each (caseless "bearer") v).map (· ++ after) := by
    refine each_stops (fun c l h f hf => ?_) v
    obtain ⟨d, hd, rfl⟩ := List.mem_map.1 hf
    have hall : "bearer".toList.all (fun d => tokenChar d && tokenChar d.toUpper && d != 'i') = true := by decide
    have hd := List.all_eq_true.1 hall d hd
    simp only [Bool.and_eq_true, bne_iff_ne, and_assoc] at hd
    exact not_caselessChar hd (tokenChar_of_isSpace (hq c l h))
  unfold bearerToken andThen
  rw [hword]
  cases hletters : each (caseless "bearer") v with
  | none => rfl
  | some x =>
    cases x with
    | cons c x =>
      have hc : isSpace c = false := (restChar_clean (hu c (hv.subset ((leaves_each _ _ _ hletters).subset List.mem_cons_self)))).1
      simp [many1, hc]
    | nil =>
      cases after with
      | nil => rfl
      | cons c l =>
        have hspace := hq c l rfl
        unfold tokenAfter at hafter
        rw [List.dropWhile_cons_of_pos hspace] at hafter
        simp only [Option.map_some, Option.bind_some, List.nil_append, many1, hspace, if_true]
        cases hdrop : l.dropWhile isSpace with
        | nil => rfl
        | cons d l' =>
          rw [hdrop] at hafter
          simp only at hafter
          simp [hafter]

/-- No bearer token begins in the URL. -/
theorem spares_bearerToken (hu : ∀ c ∈ u, restChar c = true) (hq : Delimited after) (hafter : tokenAfter after = false)
    (text : List Char) : Spares u after (always bearerToken text) := by
  intro start
  have hscheme : ∀ c ∈ scheme, ∀ start l, always bearerToken text start (c :: l) = none := by
    intro c hc start l
    have hfirst := List.all_eq_true.1 (by decide : scheme.all (fun c => !caselessChar 'b' c) = true) c hc
    have hword : each (caseless "bearer") (c :: l) = none := each_first (f := caselessChar 'b') (by simpa using hfirst) (caseless "earer") l
    unfold always bearerToken andThen
    rw [hword]
    rfl
  have hrest : ∀ c v, c :: v <:+ u → ∀ start, always bearerToken text start (c :: v ++ after) = none := by
    intro c v hv start
    unfold always
    rw [bearerToken_url hu hq hafter hv]
    rfl
  obtain ⟨start', hsub⟩ := sub_pass (· == '\n') hscheme start (u ++ after)
  obtain ⟨start'', hsub'⟩ := sub_keep (· == '\n') hrest start'
  rw [hsub, hsub', sub_delimited (wordy_bearerToken text) hq]

end Url

end RedactionAux

end OciAcmePublisher
