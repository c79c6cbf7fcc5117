import OciAcmePublisher.Lemmas.Redaction

/-!
# PEM blocks under redaction

A block is replaced as a whole where no header in front of it is left open, and only there: an open header takes the block's own for its
contents, and a body can then end it before the block does.
-/

namespace OciAcmePublisher

open Scanning

namespace Redaction

/-- Going through a text as `_PEM_BLOCK` does, every header that the text or five dashes behind it complete begins a block that is
complete in the text. -/
inductive Sealed : List Char → Prop
  | nil : Sealed []
  | keep {c w} : pemHeader (c :: w ++ dashes) = none → Sealed w → Sealed (c :: w)
  | block {c w rest} : pemBlock (c :: w ++ dashes) = some (rest ++ dashes) → Sealed rest → Sealed (c :: w)

/-- Behind the text, what is redacted does not depend on the body of a PEM block. -/
def HidesBody (before : List Char) : Prop := ∀ label body body' after, label ≠ [] → '-' ∉ label → '-' ∉ body → '-' ∉ body' →
  redact (before ++ (pemText label body ++ after)) = redact (before ++ (pemText label body' ++ after))

end Redaction

namespace RedactionAux

open Redaction

/-! ## Behind a sealed text -/

/-- `_PEM_BLOCK.sub`. -/
def pemRule : Rule Char := always pemBlock "[REDACTED_PEM]".toList

/-- A block behind a sealed text is replaced as a whole. -/
theorem sub_block {before : List Char} (h : Sealed before) (start : Bool) :
    ∃ text, ∀ label body after, label ≠ [] → '-' ∉ label → '-' ∉ body →
      sub (· == '\n') pemRule 0 start (before ++ (pemText label body ++ after)) = text ++ sub (· == '\n') pemRule 0 false after := by
  induction h generalizing start with
  | nil =>
    refine ⟨"[REDACTED_PEM]".toList, fun label body after hne hlabel hbody => ?_⟩
    have hblock := pemBlock_self hne hlabel hbody after
    obtain ⟨c, l, hl, hsuffix⟩ := consumes_pemBlock _ _ hblock
    have hrule : pemRule start (c :: l) = some ("[REDACTED_PEM]".toList, after) := by
      rw [← hl]
      exact congrArg (Option.map _) hblock
    rw [List.nil_append, hl]
    exact sub_some hrule hsuffix
  | @keep c w hheader _ ih =>
    obtain ⟨text, htext⟩ := ih (c == '\n')
    refine ⟨c :: text, fun label body after hne hlabel hbody => ?_⟩
    obtain ⟨z, hz⟩ : ∃ z, pemText label body ++ after = dashes ++ z := ⟨_, rfl⟩
    have hrule : pemRule start (c :: (w ++ (pemText label body ++ after))) = none := by
      rw [hz]
      exact congrArg (Option.map _) (pemBlock_none z hheader)
    refine (sub_none hrule).trans ?_
    exact congrArg _ (htext label body after hne hlabel hbody)
  | @block c w rest hblock _ ih =>
    obtain ⟨text, htext⟩ := ih false
    refine ⟨"[REDACTED_PEM]".toList ++ text, fun label body after hne hlabel hbody => ?_⟩
    obtain ⟨z, hz⟩ : ∃ z, pemText label body ++ after = dashes ++ z := ⟨_, rfl⟩
    have hwhole : pemBlock (c :: (w ++ (pemText label body ++ after))) = some (rest ++ (pemText label body ++ after)) := by
      rw [hz]
      exact pemBlock_dashes z hblock
    have hrule : pemRule start (c :: (w ++ (pemText label body ++ after))) =
        some ("[REDACTED_PEM]".toList, rest ++ (pemText label body ++ after)) := congrArg (Option.map _) hwhole
    refine (sub_some hrule (consumes_pemBlock.suffix hwhole)).trans ?_
    rw [htext label body after hne hlabel hbody, List.append_assoc]

/-- Behind a sealed text, two blocks with one label are redacted alike. -/
theorem hidden_of_sealed {before : List Char} (h : Sealed before) : HidesBody before := by
  intro label body body' after hne hlabel hbody hbody'
  obtain ⟨text, htext⟩ := sub_block h true
  have hpem : withoutPem (before ++ (pemText label body ++ after)) = withoutPem (before ++ (pemText label body' ++ after)) :=
    (htext label body after hne hlabel hbody).trans (htext label body' after hne hlabel hbody').symm
  unfold redact
  rw [hpem]

/-! ## Behind an open header -/

theorem search_open {p : List Char} (z : List Char) (h : search pemFooter (p ++ dashes) = none) :
    search pemFooter (p ++ (dashes ++ z)) = search pemFooter (dashes ++ z) := by
  induction p with
  | nil => rfl
  | cons c p ih =>
    have hfirst : pemFooter (c :: p ++ (dashes ++ z)) = (pemFooter (c :: p ++ dashes)).map (· ++ z) :=
      pemLine_dashes (Or.inr rfl) c p z
    simp only [List.cons_append] at h hfirst ⊢
    unfold search at h ⊢
    rw [hfirst]
    cases hfound : pemFooter (c :: (p ++ dashes)) with
    | none =>
      rw [hfound] at h
      exact ih h
    | some rest =>
      rw [hfound] at h
      cases h

/-- The label of a block that is seen. -/
def shownLabel : List Char := "]\n".toList

/-- What follows the five dashes of a block with that label. -/
def shownText (z : List Char) : List Char := "BEGIN ]\n".toList ++ (dashes ++ z)

theorem search_header {r : List Char} (h : r <:+ dashes) (z : List Char) :
    search pemFooter (r ++ shownText z) = search pemFooter (dashes ++ z) := by
  have hmem := (List.mem_tails _ _).2 h
  have htails : dashes.tails = [dashes, "----".toList, "---".toList, "--".toList, "-".toList, []] := by decide
  rw [htails] at hmem
  simp only [List.mem_cons, List.not_mem_nil, or_false] at hmem
  rcases hmem with rfl | rfl | rfl | rfl | rfl | rfl <;> rfl

theorem search_short {r : List Char} (h : r <:+ dashes) : search pemFooter r = none := by
  have hall : ∀ r ∈ dashes.tails, search pemFooter r = none := by decide
  exact hall r ((List.mem_tails _ _).2 h)

/-- Behind a text that is not sealed, a match takes dashes of the block, or goes on to the first footer behind its header. -/
theorem sub_open {before : List Char} (h : ¬Sealed before) (start : Bool) : ∃ front,
    (∃ r, r <:+ "----".toList ∧ ∀ z, sub (· == '\n') pemRule 0 start (before ++ (dashes ++ z)) =
      front ++ ("[REDACTED_PEM]".toList ++ sub (· == '\n') pemRule 0 false (r ++ z))) ∨
    ∀ z rest, search pemFooter (dashes ++ z) = some rest →
      sub (· == '\n') pemRule 0 start (before ++ (dashes ++ shownText z)) =
        front ++ ("[REDACTED_PEM]".toList ++ sub (· == '\n') pemRule 0 false rest) := by
  induction hn : before.length using Nat.strong_induction_on generalizing before start with
  | _ n ih =>
    subst hn
    cases before with
    | nil => exact absurd Sealed.nil h
    | cons c w =>
      cases hheader : pemHeader (c :: w ++ dashes) with
      | none =>
        have hopen : ¬Sealed w := fun hw => h (Sealed.keep hheader hw)
        have hrule : ∀ z, pemRule start (c :: (w ++ (dashes ++ z))) = none := fun z => congrArg (Option.map _) (pemBlock_none z hheader)
        obtain ⟨front, ⟨r, hr, hfront⟩ | hfront⟩ := ih w.length (by simp) hopen (c == '\n') rfl
        · exact ⟨c :: front, Or.inl ⟨r, hr, fun z => (sub_none (hrule z)).trans (congrArg _ (hfront z))⟩⟩
        · exact ⟨c :: front, Or.inr fun z rest hz => (sub_none (hrule _)).trans (congrArg _ (hfront z rest hz))⟩
      | some r =>
        have hsuffix : r <:+ c :: w ++ dashes := leaves_pemLine "-----BEGIN " _ _ hheader
        have hheader' : ∀ z, pemHeader (c :: w ++ (dashes ++ z)) = some (r ++ z) := fun z => by
          unfold pemHeader at hheader ⊢
          rw [pemLine_dashes (Or.inl rfl), hheader]
          rfl
        have hblock : ∀ z rest, search pemFooter (r ++ z) = some rest →
            sub (· == '\n') pemRule 0 start (c :: w ++ (dashes ++ z)) =
              "[REDACTED_PEM]".toList ++ sub (· == '\n') pemRule 0 false rest := by
          intro z rest hz
          have hwhole : pemBlock (c :: w ++ (dashes ++ z)) = some rest := Option.bind_eq_some_iff.2 ⟨_, hheader' z, hz⟩
          have hrule : pemRule start (c :: (w ++ (dashes ++ z))) = some ("[REDACTED_PEM]".toList, rest) :=
            congrArg (Option.map _) hwhole
          exact sub_some hrule (consumes_pemBlock.suffix hwhole)
        have hdashes : dashes <:+ c :: w ++ dashes := List.suffix_append _ _
        cases hfooter : search pemFooter r with
        | none =>
          refine ⟨[], Or.inr fun z rest hz => hblock _ _ ?_⟩
          rcases List.suffix_or_suffix_of_suffix hsuffix hdashes with hr | ⟨p, rfl⟩
          · rw [search_header hr, hz]
          · rw [List.append_assoc, search_open _ hfooter, search_header (List.suffix_refl _), hz]
        | some rest =>
          rcases List.suffix_or_suffix_of_suffix hsuffix hdashes with hr | ⟨p, rfl⟩
          · rw [search_short hr] at hfooter
            cases hfooter
          · have hrest : rest <:+ c :: w ++ dashes := (leaves_search (leaves_pemLine "-----END ") _ _ hfooter).trans hsuffix
            have hwhole : pemBlock (c :: w ++ dashes) = some rest := Option.bind_eq_some_iff.2 ⟨_, hheader, hfooter⟩
            have hgoes : ∀ z, search pemFooter (p ++ dashes ++ z) = some (rest ++ z) := fun z => by
              rw [List.append_assoc]
              exact search_dashes z hfooter
            rcases List.suffix_or_suffix_of_suffix hrest hdashes with hr | ⟨rest', rfl⟩
            · rcases List.suffix_cons_iff.1 hr with rfl | hr
              · exact absurd (Sealed.block hwhole .nil) h
              · exact ⟨[], Or.inl ⟨rest, hr, fun z => hblock z _ (hgoes z)⟩⟩
            · have hopen : ¬Sealed rest' := fun hrest' => h (Sealed.block hwhole hrest')
              have hshort : rest'.length < (c :: w).length := by
                have hconsumed : rest' ++ dashes <:+ w ++ dashes := consumes_pemBlock.suffix hwhole
                have hlength := hconsumed.length_le
                rw [List.length_append, List.length_append] at hlength
                rw [List.length_cons]
                omega
              obtain ⟨front, ⟨r, hr, hfront⟩ | hfront⟩ := ih rest'.length hshort hopen false rfl
              · refine ⟨"[REDACTED_PEM]".toList ++ front, Or.inl ⟨r, hr, fun z => (hblock z _ (hgoes z)).trans ?_⟩⟩
                rw [List.append_assoc rest', hfront z, List.append_assoc]
              · refine ⟨"[REDACTED_PEM]".toList ++ front, Or.inr fun z last hz => (hblock _ _ (hgoes _)).trans ?_⟩
                rw [List.append_assoc rest', hfront z last hz, List.append_assoc]

/-! ## What the other substitutions leave -/

/-- A bracket, the end of the line, and what follows. -/
def bracket (y : List Char) : List Char := ']' :: '\n' :: y

/-- In front of a bracket a match ends before, or takes the bracket and leaves one, and does not depend on what follows the line. -/
def Guarded (ρ : Rule Char) : Prop :=
  (∀ start l, ρ start (']' :: l) = none) ∧ ∀ start c p, (∀ y, ρ start (c :: p ++ bracket y) = none) ∨
    (∃ text p', p' <:+ p ∧ ∀ y, ρ start (c :: p ++ bracket y) = some (text, p' ++ bracket y)) ∨
    ∃ text, ∀ y, ρ start (c :: p ++ bracket y) = some (text ++ [']'], '\n' :: y)

theorem sub_guarded {ρ : Rule Char} (h : Guarded ρ) (p : List Char) (start : Bool) : ∃ front, ∀ y,
    sub (· == '\n') ρ 0 start (p ++ bracket y) = front ++ ']' :: sub (· == '\n') ρ 0 false ('\n' :: y) := by
  induction hn : p.length using Nat.strong_induction_on generalizing p start with
  | _ n ih =>
    subst hn
    cases p with
    | nil => exact ⟨[], fun y => sub_none (h.1 start _)⟩
    | cons c p =>
      rcases h.2 start c p with hnone | ⟨text, p', hp', hsome⟩ | ⟨text, hsome⟩
      · obtain ⟨front, hfront⟩ := ih p.length (by simp) p (c == '\n') rfl
        exact ⟨c :: front, fun y => (sub_none (hnone y)).trans (congrArg _ (hfront y))⟩
      · obtain ⟨front, hfront⟩ := ih p'.length (Nat.lt_succ_of_le hp'.length_le) p' false rfl
        refine ⟨text ++ front, fun y => (sub_some (hsome y) (suffix_append hp' _)).trans ?_⟩
        rw [hfront y, List.append_assoc]
      · refine ⟨text, fun y => (sub_some (hsome y) ?_).trans ?_⟩
        · exact (List.suffix_cons ']' _).trans (List.suffix_append _ _)
        · rw [List.append_assoc]
          rfl

theorem inner_bracket {m : Matcher Char} {p : List Char} (h : ∀ y, InnerAt (bracket []) (bracket y) m p) :
    (∀ y, m (p ++ bracket y) = none) ∨ ∃ p', m p = some p' ∧ ∀ y, m (p ++ bracket y) = some (p' ++ bracket y) := by
  rcases h [] with ⟨hnone, -⟩ | ⟨p', hp', hsome, -⟩
  · refine Or.inl fun y => ?_
    rcases h y with ⟨-, hb⟩ | ⟨p', -, ha, -⟩
    · exact hb
    · exact absurd (hnone.symm.trans ha) (by simp)
  · refine Or.inr ⟨p', hp', fun y => ?_⟩
    rcases h y with ⟨ha, -⟩ | ⟨p'', hp'', -, hb⟩
    · exact absurd (ha.symm.trans hsome) (by simp)
    · cases hp'.symm.trans hp''
      exact hb

/-- A pattern whose matches all end before a bracket. -/
theorem guarded_of_inner {m : Matcher Char} {text : List Char} (hfirst : ∀ l, m (']' :: l) = none) (hconsumes : Consumes m)
    (h : ∀ c p y, InnerAt (bracket []) (bracket y) m (c :: p)) : Guarded (always m text) := by
  refine ⟨fun start l => congrArg (Option.map _) (hfirst l), fun start c p => ?_⟩
  rcases inner_bracket (h c p) with hnone | ⟨p', hp', hsome⟩
  · exact Or.inl fun y => congrArg (Option.map _) (hnone y)
  · exact Or.inr (Or.inl ⟨text, p', hconsumes.suffix hp', fun y => congrArg (Option.map _) (hsome y)⟩)

theorem guarded_urlCredential (text : List Char) : Guarded (always urlCredential text) := by
  refine guarded_of_inner (fun _ => rfl) consumes_urlCredential fun c p y => ?_
  have hliteral : ∀ word : String, clashes (literal word) [']'] = true → ∀ p, InnerAt (bracket []) (bracket y) (each (literal word)) p :=
    fun word hword p => innerAt_of_clashes hword ['\n'] ('\n' :: y) p
  refine (hliteral "https://" (by decide) _).bind fun p' => ?_
  refine innerAt_many1_andThen (fun q => ?_) rfl rfl p'
  refine (hliteral ":" (by decide) q).bind fun q' => ?_
  exact innerAt_many1_andThen (hliteral "@" (by decide)) rfl rfl q'

theorem guarded_bearerToken (text : List Char) : Guarded (always bearerToken text) := by
  refine guarded_of_inner (fun _ => rfl) consumes_bearerToken fun c p y => ?_
  have hword : InnerAt (bracket []) (bracket y) (each (caseless "bearer")) (c :: p) :=
    innerAt_of_clashes (x := [']']) (by decide) ['\n'] ('\n' :: y) (c :: p)
  refine hword.bind fun p' => (innerAt_many1 rfl rfl rfl rfl p').bind fun q => (innerAt_many1 rfl rfl rfl rfl q).bind fun q' => ?_
  exact innerAt_many rfl rfl q'

/-- A run up to the end of the line, in front of a bracket. -/
theorem many1_bracket (p : List Char) : (∀ y, many1 notSpace (p ++ bracket y) = none) ∨
    (∃ p', p' ≠ [] ∧ many1 notSpace p = some p' ∧ ∀ y, many1 notSpace (p ++ bracket y) = some (p' ++ bracket y)) ∨
      ∀ y, many1 notSpace (p ++ bracket y) = some ('\n' :: y) := by
  cases p with
  | nil => exact Or.inr (Or.inr fun y => rfl)
  | cons c p =>
    by_cases hc : notSpace c = true
    · by_cases hrun : p.dropWhile notSpace = []
      · refine Or.inr (Or.inr fun y => ?_)
        simp only [List.cons_append, many1, hc, if_true, List.dropWhile_append, hrun]
        rfl
      · refine Or.inr (Or.inl ⟨p.dropWhile notSpace, hrun, by simp [many1, hc], fun y => ?_⟩)
        simp only [List.cons_append, many1, hc, if_true]
        exact congrArg some (dropWhile_halts rfl hrun _)
    · refine Or.inl fun y => ?_
      simp [many1, hc]

theorem guarded_httpsUrl (text : List Char) : Guarded (always httpsUrl (text ++ [']'])) := by
  refine ⟨fun start l => rfl, fun start c p => ?_⟩
  have hliteral : ∀ y, InnerAt (bracket []) (bracket y) (each (literal "https://")) (c :: p) := fun y =>
    innerAt_of_clashes (x := [']']) (by decide) ['\n'] ('\n' :: y) (c :: p)
  have hrule : ∀ l, always httpsUrl (text ++ [']']) start l = (httpsUrl l).map fun rest => (text ++ [']'], rest) := fun _ => rfl
  rcases inner_bracket hliteral with hnone | ⟨p', hp', hsome⟩
  · refine Or.inl fun y => ?_
    rw [hrule, httpsUrl, andThen, hnone y]
    rfl
  · have hread : ∀ y, httpsUrl (c :: p ++ bracket y) = many1 notSpace (p' ++ bracket y) := fun y => by
      rw [httpsUrl, andThen, hsome y]
      rfl
    rcases many1_bracket p' with hnone | ⟨p'', -, hp'', hinner⟩ | htaken
    · exact Or.inl fun y => by rw [hrule, hread, hnone y]; rfl
    · refine Or.inr (Or.inl ⟨text ++ [']'], p'', ?_, fun y => by rw [hrule, hread, hinner y]; rfl⟩)
      exact (leaves_many1 _ _ _ hp'').trans ((consumes_each _ _).suffix hp')
    · exact Or.inr (Or.inr ⟨text, fun y => by rw [hrule, hread, htaken y]; rfl⟩)

/-- The value of an authorization line, in front of a bracket. -/
theorem value_bracket (p : List Char) : (∀ y, authorizationValue (p ++ bracket y) = none) ∨
    (∃ p', authorizationValue p = some p' ∧ ∀ y, authorizationValue (p ++ bracket y) = some (p' ++ bracket y)) ∨
      ∀ y, authorizationValue (p ++ bracket y) = some ('\n' :: y) := by
  unfold authorizationValue andThen
  rcases many1_bracket p with hnone | ⟨p', -, hp', hinner⟩ | htaken
  · exact Or.inl fun y => by rw [hnone y]; rfl
  · by_cases hrun : p'.dropWhile inLine = []
    · refine Or.inr (Or.inr fun y => ?_)
      rw [hinner y, Option.bind_some, many, List.dropWhile_append, hrun]
      rfl
    · refine Or.inr (Or.inl ⟨p'.dropWhile inLine, by rw [hp']; rfl, fun y => ?_⟩)
      rw [hinner y, Option.bind_some]
      exact congrArg some (dropWhile_halts rfl hrun _)
  · exact Or.inr (Or.inr fun y => by rw [htaken y]; rfl)

theorem guarded_authorization : Guarded authorization := by
  refine ⟨fun start l => authorization_none rfl start, fun start c p => ?_⟩
  cases start with
  | false => exact Or.inl fun _ => rfl
  | true =>
    have hspace : ∀ y, (bracket y).dropWhile isSpace = bracket y := fun y => rfl
    have hname : ∀ y, InnerAt (bracket []) (bracket y) authorizationName (c :: p) := by
      intro y
      have hword : ∀ fs : List (Char → Bool), clashes fs [']'] = true → ∀ p, InnerAt (bracket []) (bracket y) (each fs) p :=
        fun fs hfs p => innerAt_of_clashes hfs ['\n'] ('\n' :: y) p
      refine (hword _ (by decide) _).bind fun q => (innerAt_many (hspace _) (hspace _) q).bind fun q => ?_
      exact (hword _ (by decide) q).bind fun q => innerAt_many (hspace _) (hspace _) q
    rcases inner_bracket hname with hnone | ⟨value, hp, hsome⟩
    · exact Or.inl fun y => authorization_none (hnone y) true
    · have hgroup := take_group (consumes_authorizationName.leaves _ _ hp)
      have hread : ∀ y, authorization true (c :: p ++ bracket y) = (authorizationValue (value ++ bracket y)).map fun rest =>
          ((c :: p).take ((c :: p).length - value.length) ++ "[REDACTED]".toList, rest) := fun y => by
        rw [authorization_some (hsome y), hgroup]
      rcases value_bracket value with hnone | ⟨p', hp', hinner⟩ | htaken
      · exact Or.inl fun y => by rw [hread, hnone y]; rfl
      · refine Or.inr (Or.inl ⟨_, p', ?_, fun y => by rw [hread, hinner y]; rfl⟩)
        exact (leaves_authorizationValue _ _ hp').trans (consumes_authorizationName.suffix hp)
      · refine Or.inr (Or.inr ⟨(c :: p).take ((c :: p).length - value.length) ++ "[REDACTED".toList, fun y => ?_⟩)
        rw [hread, htaken y, List.append_assoc]
        rfl

/-- The substitutions behind the first. -/
def afterPem (value : List Char) : List Char := withoutUrls (withoutBearer (withoutCredentials (withoutAuth value)))

/-- The rest of a text that no substitution changes. -/
def Silent (y : List Char) : Prop :=
  sub (· == '\n') authorization 0 false ('\n' :: y) = '\n' :: y ∧
    sub (· == '\n') (always urlCredential "https://[REDACTED]@".toList) 0 false ('\n' :: y) = '\n' :: y ∧
      sub (· == '\n') (always bearerToken "Bearer [REDACTED]".toList) 0 false ('\n' :: y) = '\n' :: y ∧
        sub (· == '\n') (always httpsUrl "[REDACTED_HTTPS_URL]".toList) 0 false ('\n' :: y) = '\n' :: y

/-- A bracket at the end of a line stays, with what follows it. -/
theorem afterPem_bracket (p : List Char) : ∃ front, ∀ y, Silent y → afterPem (p ++ bracket y) = front ++ bracket y := by
  obtain ⟨p₁, h₁⟩ := sub_guarded guarded_authorization p true
  obtain ⟨p₂, h₂⟩ := sub_guarded (guarded_urlCredential "https://[REDACTED]@".toList) p₁ true
  obtain ⟨p₃, h₃⟩ := sub_guarded (guarded_bearerToken "Bearer [REDACTED]".toList) p₂ true
  obtain ⟨p₄, h₄⟩ := sub_guarded (guarded_httpsUrl "[REDACTED_HTTPS_URL".toList) p₃ true
  refine ⟨p₄, fun y hy => ?_⟩
  obtain ⟨hauth, hcredential, hbearer, hurl⟩ := hy
  have e₁ : withoutAuth (p ++ bracket y) = p₁ ++ bracket y := (h₁ y).trans (by rw [hauth]; rfl)
  have e₂ : withoutCredentials (p₁ ++ bracket y) = p₂ ++ bracket y := (h₂ y).trans (by rw [hcredential]; rfl)
  have e₃ : withoutBearer (p₂ ++ bracket y) = p₃ ++ bracket y := (h₃ y).trans (by rw [hbearer]; rfl)
  have e₄ : withoutUrls (p₃ ++ bracket y) = p₄ ++ bracket y := (h₄ y).trans (congrArg _ (congrArg _ hurl))
  unfold afterPem
  rw [e₁, e₂, e₃, e₄]

/-- What is left of a block whose header has lost dashes is kept by the first substitution. -/
theorem sub_torn {r : List Char} (hr : r <:+ "----".toList) {d : Char} (hd : d = 'a' ∨ d = 'b') :
    sub (· == '\n') pemRule 0 false (r ++ shownText (d :: "-----END ]\n-----".toList)) =
      r ++ shownText (d :: "-----END ]\n-----".toList) := by
  have hall : ("----".toList.tails.all fun r => ['a', 'b'].all fun d =>
      sub (· == '\n') pemRule 0 false (r ++ shownText (d :: "-----END ]\n-----".toList)) ==
        r ++ shownText (d :: "-----END ]\n-----".toList)) = true := by decide +kernel
  have hr := List.all_eq_true.1 hall r ((List.mem_tails _ _).2 hr)
  exact beq_iff_eq.1 (List.all_eq_true.1 hr d (by simpa using hd))

/-- Where a header is left open, some bodies are seen. -/
theorem sealed_of_hidden {before : List Char} (h : HidesBody before) : Sealed before := by
  by_contra hopen
  obtain ⟨front, ⟨r, hr, hfront⟩ | hfront⟩ := sub_open hopen true
  · have hsame := h shownLabel ['a'] ['b'] [] (by decide) (by decide) (by decide) (by decide)
    have hseen : ∀ d, d = 'a' ∨ d = 'b' → withoutPem (before ++ (pemText shownLabel [d] ++ [])) =
        (front ++ ("[REDACTED_PEM]".toList ++ (r ++ "BEGIN ".toList))) ++ bracket ("-----".toList ++ d :: "-----END ]\n-----".toList) := by
      intro d hd
      refine (hfront (shownText (d :: "-----END ]\n-----".toList))).trans ?_
      rw [sub_torn hr hd]
      simp only [List.append_assoc]
      rfl
    obtain ⟨front', hfront'⟩ := afterPem_bracket (front ++ ("[REDACTED_PEM]".toList ++ (r ++ "BEGIN ".toList)))
    have hredact : ∀ d, d = 'a' ∨ d = 'b' → redact (before ++ (pemText shownLabel [d] ++ [])) =
        front' ++ bracket ("-----".toList ++ d :: "-----END ]\n-----".toList) := by
      intro d hd
      have hsilent : Silent ("-----".toList ++ d :: "-----END ]\n-----".toList) := by
        rcases hd with rfl | rfl
        · exact ⟨rfl, rfl, rfl, rfl⟩
        · exact ⟨rfl, rfl, rfl, rfl⟩
      exact (congrArg afterPem (hseen d hd)).trans (hfront' _ hsilent)
    rw [hredact 'a' (Or.inl rfl), hredact 'b' (Or.inr rfl), List.append_right_inj] at hsame
    exact absurd hsame (by decide)
  · have hsame := h shownLabel "END q".toList ['a'] ['\n'] (by decide) (by decide) (by decide) (by decide)
    have hearly : withoutPem (before ++ (pemText shownLabel "END q".toList ++ ['\n'])) =
        (front ++ "[REDACTED_PEM]END ".toList) ++ bracket "-----\n".toList := by
      refine (hfront ("END q-----END ]\n-----\n".toList) "END ]\n-----\n".toList (by decide)).trans ?_
      rw [List.append_assoc]
      rfl
    have hwhole : withoutPem (before ++ (pemText shownLabel ['a'] ++ ['\n'])) = (front ++ "[REDACTED_PEM".toList) ++ bracket [] := by
      refine (hfront ("a-----END ]\n-----\n".toList) ['\n'] (by decide)).trans ?_
      rw [List.append_assoc]
      rfl
    obtain ⟨front₁, h₁⟩ := afterPem_bracket (front ++ "[REDACTED_PEM]END ".toList)
    obtain ⟨front₂, h₂⟩ := afterPem_bracket (front ++ "[REDACTED_PEM".toList)
    have e₁ : redact (before ++ (pemText shownLabel "END q".toList ++ ['\n'])) = front₁ ++ bracket "-----\n".toList :=
      (congrArg afterPem hearly).trans (h₁ _ ⟨rfl, rfl, rfl, rfl⟩)
    have e₂ : redact (before ++ (pemText shownLabel ['a'] ++ ['\n'])) = front₂ ++ bracket [] :=
      (congrArg afterPem hwhole).trans (h₂ _ ⟨rfl, rfl, rfl, rfl⟩)
    have hends := congrArg List.reverse (e₁.symm.trans (hsame.trans e₂))
    simp [bracket] at hends

end RedactionAux

end OciAcmePublisher
