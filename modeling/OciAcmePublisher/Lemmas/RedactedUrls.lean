import OciAcmePublisher.Lemmas.Redaction

/-!
# URLs under redaction

The remainder of a URL is hidden where a match takes the URL early, or where no bearer token takes its beginning or begins at its end, and
only there.
-/

namespace OciAcmePublisher

open Scanning

namespace Redaction

/-- The text that the fourth substitution reads. -/
def beforeBearer (value : List Char) : List Char := withoutCredentials (withoutAuth (withoutPem value))

/-- A PEM block or an authorization line that begins before the URL takes it. -/
def Swallowed (before after : List Char) : Prop :=
  TakenBy (always pemBlock "[REDACTED_PEM]".toList) before (scheme ++ after) ∨
    TakenBy authorization (withoutPem before) (scheme ++ withoutPem after)

/-- The URL is swallowed; or no bearer token in front of it takes its beginning, and none can begin at its end. -/
def Covered (before after : List Char) : Prop :=
  Swallowed before after ∨
    ¬TakenBy (always bearerToken "Bearer [REDACTED]".toList) (beforeBearer before) scheme ∧ tokenAfter (beforeBearer after) = false

/-- Between the texts, what is redacted does not depend on the remainder of a URL. -/
def HidesRemainder (before after : List Char) : Prop := ∀ u u', Remainder u → Remainder u' →
  redact (before ++ (scheme ++ (u ++ after))) = redact (before ++ (scheme ++ (u' ++ after)))

end Redaction

namespace RedactionAux

open Redaction

/-! ## The five substitutions in turn -/

section Url

variable {u after : List Char} {ρ : Rule Char}

/-- Where no match takes the URL, what is before and behind it is substituted on its own. -/
theorem substitute_url {a before : List Char} (hsplits : Splits a (scheme ++ (u ++ after)) ρ) (hspares : Spares u after ρ)
    (h : ¬TakenBy ρ before a) :
    substitute ρ (before ++ (scheme ++ (u ++ after))) = substitute ρ before ++ (scheme ++ (u ++ substitute ρ after)) := by
  obtain ⟨start, hsub⟩ := sub_of_not_crosses hsplits h
  unfold substitute at *
  rw [hsub, hspares start]
  rfl

theorem substitute_taken {a b before : List Char} (hsplits : Splits a b ρ) (hmerges : Merges a b ρ) (h : TakenBy ρ before a) :
    substitute ρ (before ++ a) = substitute ρ (before ++ b) := sub_of_crosses hsplits hmerges h

theorem remainder_of_all (h : (!u.isEmpty && u.all restChar) = true) : Remainder u := by
  rw [Bool.and_eq_true, Bool.not_eq_true', List.isEmpty_eq_false_iff] at h
  exact ⟨h.1, List.all_eq_true.1 h.2⟩

theorem remainder_dash (h : Remainder u) : ∀ c ∈ u, notDash c = true := fun c hc => by
  simp [notDash, (restChar_clean (h.2 c hc)).2.1]

theorem remainder_space (h : Remainder u) : ∀ c ∈ u, notSpace c = true := fun c hc => by
  simp [notSpace, (restChar_clean (h.2 c hc)).1]

theorem dropWhile_url (hu : Remainder u) (hq : Delimited after) : (scheme ++ (u ++ after)).dropWhile notSpace = after := by
  rw [List.dropWhile_append_of_pos (List.all_eq_true.1 (by decide : scheme.all notSpace = true)),
    List.dropWhile_append_of_pos (remainder_space hu)]
  cases after with
  | nil => rfl
  | cons c l => exact List.dropWhile_cons_of_neg (by simp [notSpace, hq c l rfl])

theorem many1_url (hu : Remainder u) (hq : Delimited after) : many1 notSpace (scheme ++ (u ++ after)) = some after :=
  congrArg some (dropWhile_url hu hq)

theorem httpsUrl_self (hu : Remainder u) (hq : Delimited after) : httpsUrl (scheme ++ (u ++ after)) = some after := by
  have hword : each (literal "https://") (scheme ++ (u ++ after)) = some (u ++ after) := literal_self scheme _
  unfold httpsUrl andThen
  rw [hword, Option.bind_some, many1_delimited (fun c hc => by simp [notSpace, hc]) hq]
  have hclean := remainder_space hu
  cases u with
  | nil => exact absurd rfl hu.1
  | cons c u =>
    have hdrop : u.dropWhile notSpace = [] := List.dropWhile_eq_nil_iff.2 fun d hd => hclean d (List.mem_cons_of_mem _ hd)
    simp [many1, hclean c List.mem_cons_self, hdrop]

/-- `_HTTPS_URL.sub`. -/
def urlRule : Rule Char := always httpsUrl "[REDACTED_HTTPS_URL]".toList

theorem wordy_urlRule : Wordy urlRule := wordy_always (· == 'h') (literal "ttps://") fun _ hc => not_tokenChar (by decide) hc

/-- In front of a URL, a match ends before or takes it. -/
theorem httpsUrl_border (c : Char) (p : List Char) : (∀ z, httpsUrl (c :: p ++ (scheme ++ z)) = none) ∨
    (∃ p', p' <:+ p ∧ ∀ z, httpsUrl (c :: p ++ (scheme ++ z)) = some (p' ++ (scheme ++ z))) ∨
      ∀ u q, Remainder u → Delimited q → httpsUrl (c :: p ++ (scheme ++ (u ++ q))) = some q := by
  cases hword : each (literal "https://") (c :: p) with
  | none =>
    refine Or.inl fun z => ?_
    rcases innerAt_cons_of_clashes (x := scheme) (· == 'h') (literal "ttps://") (by decide) z z c p with ⟨hz, -⟩ | ⟨p', hp', -⟩
    · exact congrArg (fun l => l.bind (many1 notSpace)) hz
    · exact absurd (hword.symm.trans hp') (by simp)
  | some p' =>
    have hz : ∀ z, httpsUrl (c :: p ++ z) = many1 notSpace (p' ++ z) := fun z =>
      congrArg (fun l => l.bind (many1 notSpace)) (extends_each _ _ _ z hword)
    cases p' with
    | nil => exact Or.inr (Or.inr fun u q hu hq => (hz _).trans (many1_url hu hq))
    | cons d p' =>
      by_cases hd : notSpace d = true
      · have hmany1 : ∀ z, httpsUrl (c :: p ++ z) = some ((p' ++ z).dropWhile notSpace) := fun z =>
          (hz z).trans (by simp [many1, hd])
        have hsuffix : p' <:+ p := (List.suffix_cons d p').trans ((consumes_each _ _).suffix hword)
        by_cases hrun : p'.dropWhile notSpace = []
        · refine Or.inr (Or.inr fun u q hu hq => (hmany1 _).trans (congrArg some ?_))
          rw [List.dropWhile_append, hrun]
          exact dropWhile_url hu hq
        · refine Or.inr (Or.inl ⟨p'.dropWhile notSpace, (List.dropWhile_suffix _).trans hsuffix, fun z => ?_⟩)
          refine (hmany1 _).trans (congrArg some ?_)
          exact dropWhile_halts rfl hrun _
      · refine Or.inl fun z => (hz _).trans ?_
        simp [many1, hd]

/-- The last substitution takes the URL, whatever its remainder is and whatever is behind it. -/
theorem sub_url (before : List Char) (start : Bool) : ∃ front, ∀ u q, Remainder u → Delimited q →
    sub (· == '\n') urlRule 0 start (before ++ (scheme ++ (u ++ q))) = front ++ ("[REDACTED_HTTPS_URL]".toList ++ withoutUrls q) := by
  induction hn : before.length using Nat.strong_induction_on generalizing before start with
  | _ n ih =>
    subst hn
    have hrule : ∀ l start, urlRule start l = (httpsUrl l).map fun rest => ("[REDACTED_HTTPS_URL]".toList, rest) := fun _ _ => rfl
    cases before with
    | nil =>
      refine ⟨[], fun u q hu hq => ?_⟩
      have hself := httpsUrl_self hu hq
      have hsome : urlRule start ('h' :: ("ttps://".toList ++ (u ++ q))) = some ("[REDACTED_HTTPS_URL]".toList, q) :=
        congrArg (Option.map _) hself
      refine (sub_some hsome (consumes_httpsUrl.suffix hself)).trans ?_
      rw [sub_delimited wordy_urlRule hq]
      rfl
    | cons c p =>
      rcases httpsUrl_border c p with hnone | ⟨p', hp', hsome⟩ | htaken
      · obtain ⟨front, hfront⟩ := ih p.length (by simp) p (c == '\n') rfl
        refine ⟨c :: front, fun u q hu hq => ?_⟩
        have hz : urlRule start (c :: (p ++ (scheme ++ (u ++ q)))) = none := congrArg (Option.map _) (hnone (u ++ q))
        exact (sub_none hz).trans (congrArg _ (hfront u q hu hq))
      · obtain ⟨front, hfront⟩ := ih p'.length (Nat.lt_succ_of_le hp'.length_le) p' false rfl
        refine ⟨"[REDACTED_HTTPS_URL]".toList ++ front, fun u q hu hq => ?_⟩
        have hz : urlRule start (c :: (p ++ (scheme ++ (u ++ q)))) = some ("[REDACTED_HTTPS_URL]".toList, p' ++ (scheme ++ (u ++ q))) :=
          congrArg (Option.map _) (hsome (u ++ q))
        refine (sub_some hz (suffix_append hp' _)).trans ?_
        rw [hfront u q hu hq, List.append_assoc]
      · refine ⟨[], fun u q hu hq => ?_⟩
        have hz : urlRule start (c :: (p ++ (scheme ++ (u ++ q)))) = some ("[REDACTED_HTTPS_URL]".toList, q) :=
          congrArg (Option.map _) (htaken u q hu hq)
        refine (sub_some hz (consumes_httpsUrl.suffix (htaken u q hu hq))).trans ?_
        rw [sub_delimited wordy_urlRule hq]
        rfl

/-- A URL that a block or an authorization line takes is not seen. -/
theorem redact_swallowed (hq : Delimited after) {before : List Char} (h : Swallowed before after) : ∃ text, ∀ u, Remainder u →
    redact (before ++ (scheme ++ (u ++ after))) = text := by
  have hpem : ∀ u, Remainder u → Splits (scheme ++ after) (scheme ++ (u ++ after)) (always pemBlock "[REDACTED_PEM]".toList) :=
    fun u hu => splits_always grows_pemBlock consumes_pemBlock fun c p => (alikeAt_pemBlock (remainder_dash hu) after (c :: p)).splitAt
  by_cases htaken : TakenBy (always pemBlock "[REDACTED_PEM]".toList) before (scheme ++ after)
  · refine ⟨redact (before ++ (scheme ++ after)), fun u hu => ?_⟩
    have hsame : withoutPem (before ++ (scheme ++ after)) = withoutPem (before ++ (scheme ++ (u ++ after))) :=
      substitute_taken (hpem u hu) (merges_always consumes_pemBlock fun c p => alikeAt_pemBlock (remainder_dash hu) after (c :: p)) htaken
    unfold redact
    rw [hsame]
  · have htaken' := h.resolve_left htaken
    refine ⟨withoutUrls (withoutBearer (withoutCredentials (withoutAuth (withoutPem before ++ (scheme ++ withoutPem after))))),
      fun u hu => ?_⟩
    have hpassed : withoutPem (before ++ (scheme ++ (u ++ after))) = withoutPem before ++ (scheme ++ (u ++ withoutPem after)) :=
      substitute_url (hpem u hu) (spares_pemBlock hu.2 hq _) htaken
    have hsame : withoutAuth (withoutPem before ++ (scheme ++ withoutPem after)) =
        withoutAuth (withoutPem before ++ (scheme ++ (u ++ withoutPem after))) :=
      substitute_taken (splits_authorization (remainder_space hu) _) (merges_authorization (remainder_space hu) _) htaken'
    unfold redact
    rw [hpassed, hsame]

theorem delimited_beforeBearer (hq : Delimited after) : Delimited (beforeBearer after) :=
  delimited_substitute (wordy_urlCredential _) (delimited_substitute wordy_authorization (delimited_substitute (wordy_pemBlock _) hq))

/-- A URL that none of them takes comes to the fourth substitution as it is. -/
theorem beforeBearer_url (hq : Delimited after) {before : List Char} (h : ¬Swallowed before after) (hu : Remainder u) :
    beforeBearer (before ++ (scheme ++ (u ++ after))) = beforeBearer before ++ (scheme ++ (u ++ beforeBearer after)) := by
  obtain ⟨htaken, htaken'⟩ := not_or.1 h
  have hq₁ : Delimited (withoutPem after) := delimited_substitute (wordy_pemBlock _) hq
  have hq₂ : Delimited (withoutAuth (withoutPem after)) := delimited_substitute wordy_authorization hq₁
  have hpem : withoutPem (before ++ (scheme ++ (u ++ after))) = withoutPem before ++ (scheme ++ (u ++ withoutPem after)) :=
    substitute_url (splits_always grows_pemBlock consumes_pemBlock fun c p => (alikeAt_pemBlock (remainder_dash hu) after (c :: p)).splitAt)
      (spares_pemBlock hu.2 hq _) htaken
  have hauth : withoutAuth (withoutPem before ++ (scheme ++ (u ++ withoutPem after))) =
      withoutAuth (withoutPem before) ++ (scheme ++ (u ++ withoutAuth (withoutPem after))) :=
    substitute_url (splits_authorization (remainder_space hu) _) (spares_authorization hu.2 hq₁) htaken'
  have hcredential : withoutCredentials (withoutAuth (withoutPem before) ++ (scheme ++ (u ++ withoutAuth (withoutPem after)))) =
      withoutCredentials (withoutAuth (withoutPem before)) ++ (scheme ++ (u ++ withoutCredentials (withoutAuth (withoutPem after)))) :=
    substitute_url (a := scheme ++ withoutAuth (withoutPem after))
      (splits_always grows_urlCredential consumes_urlCredential fun c p => (innerAt_urlCredential _ _ c p).alikeAt.splitAt)
      (spares_urlCredential hu.2 hq₂ _) (not_crosses fun c p => innerAt_urlCredential _ [] c p)
  unfold beforeBearer
  rw [hpem, hauth, hcredential]

theorem redact_eq (value : List Char) : redact value = withoutUrls (withoutBearer (beforeBearer value)) := rfl

/-- A covered URL is redacted alike whatever its remainder is. -/
theorem hidden_of_covered (hq : Delimited after) {before : List Char} (h : Covered before after) : HidesRemainder before after := by
  intro u u' hu hu'
  by_cases hswallowed : Swallowed before after
  · obtain ⟨text, htext⟩ := redact_swallowed hq hswallowed
    exact (htext u hu).trans (htext u' hu').symm
  · obtain ⟨hbearer, hafter⟩ := h.resolve_left hswallowed
    have hq' : Delimited (beforeBearer after) := delimited_beforeBearer hq
    obtain ⟨front, hfront⟩ := sub_url (withoutBearer (beforeBearer before)) true
    have hread : ∀ u, Remainder u → redact (before ++ (scheme ++ (u ++ after))) =
        front ++ ("[REDACTED_HTTPS_URL]".toList ++ withoutUrls (withoutBearer (beforeBearer after))) := by
      intro u hu
      have hpassed : withoutBearer (beforeBearer before ++ (scheme ++ (u ++ beforeBearer after))) =
          withoutBearer (beforeBearer before) ++ (scheme ++ (u ++ withoutBearer (beforeBearer after))) :=
        substitute_url (splits_always grows_bearerToken consumes_bearerToken fun c p => splitAt_bearerToken _ (c :: p))
          (spares_bearerToken hu.2 hq' hafter _) hbearer
      rw [redact_eq, beforeBearer_url hq hswallowed hu, hpassed]
      exact hfront u _ hu (delimited_substitute (wordy_bearerToken _) hq')
    exact (hread u hu).trans (hread u' hu').symm

/-- `_BEARER_TOKEN.sub`. -/
def bearerRule : Rule Char := always bearerToken "Bearer [REDACTED]".toList

theorem wordy_bearerRule : Wordy bearerRule := wordy_bearerToken _

theorem bearerRule_first {c : Char} (h : caselessChar 'b' c = false) (start : Bool) (l : List Char) : bearerRule start (c :: l) = none := by
  have hword : each (caseless "bearer") (c :: l) = none := each_first (f := caselessChar 'b') h (caseless "earer") l
  unfold bearerRule always bearerToken andThen
  rw [hword]
  rfl

theorem urlRule_first {c : Char} (h : (c == 'h') = false) (start : Bool) (l : List Char) : urlRule start (c :: l) = none := by
  have hword : each (literal "https://") (c :: l) = none := each_first h (literal "ttps://") l
  unfold urlRule always httpsUrl andThen
  rw [hword]
  rfl

/-- A bearer token that takes the letters of a URL leaves the rest to be read. -/
theorem sub_bearer {start : Bool} {before : List Char} (h : Crosses (· == '\n') bearerRule scheme start before) :
    ∃ front, ∀ z, sub (· == '\n') bearerRule 0 start (before ++ (scheme ++ z)) =
      front ++ ("Bearer [REDACTED]".toList ++ sub (· == '\n') bearerRule 0 false ("://".toList ++ z)) := by
  induction h with
  | @here start c p text rest hrest hshort =>
    refine ⟨[], fun z => ?_⟩
    have hz : bearerToken (c :: p ++ (scheme ++ z)) = some ("://".toList ++ z) := by
      rcases bearerToken_border z (c :: p) with (⟨ha, -⟩ | ⟨p', -, ha, -⟩) | ⟨-, hb⟩
      · unfold bearerRule always at hrest
        rw [ha] at hrest
        cases hrest
      · unfold bearerRule always at hrest
        rw [ha, Option.map_some, Option.some.injEq, Prod.mk.injEq] at hrest
        rw [← hrest.2, List.length_append] at hshort
        omega
      · exact hb
    have hrule : bearerRule start (c :: (p ++ (scheme ++ z))) = some ("Bearer [REDACTED]".toList, "://".toList ++ z) :=
      congrArg (Option.map _) hz
    exact sub_some hrule (consumes_bearerToken.suffix hz)
  | @keep start c p hnone _ ih =>
    obtain ⟨front, hfront⟩ := ih
    refine ⟨c :: front, fun z => ?_⟩
    have hz : bearerToken (c :: p ++ (scheme ++ z)) = none := by
      have hnone : bearerToken (c :: p ++ scheme) = none := Option.map_eq_none_iff.1 hnone
      rcases bearerToken_border z (c :: p) with (⟨-, hb⟩ | ⟨p', -, ha, -⟩) | ⟨ha, -⟩
      · exact hb
      · exact absurd (hnone.symm.trans ha) (by simp)
      · exact absurd (hnone.symm.trans ha) (by simp)
    have hrule : bearerRule start (c :: (p ++ (scheme ++ z))) = none := congrArg (Option.map _) hz
    exact (sub_none hrule).trans (congrArg _ (hfront z))
  | @past start c p text p' hsome _ ih =>
    obtain ⟨front, hfront⟩ := ih
    refine ⟨"Bearer [REDACTED]".toList ++ front, fun z => ?_⟩
    obtain ⟨rest, hrest, heq⟩ := Option.map_eq_some_iff.1 hsome
    rw [Prod.mk.injEq] at heq
    obtain ⟨-, rfl⟩ := heq
    have hz : bearerToken (c :: p ++ (scheme ++ z)) = some (p' ++ (scheme ++ z)) := by
      rcases bearerToken_border z (c :: p) with (⟨ha, -⟩ | ⟨p'', -, ha, hb⟩) | ⟨ha, -⟩
      · exact absurd (hrest.symm.trans ha) (by simp)
      · rw [hrest, Option.some.injEq, List.append_left_inj] at ha
        rw [ha]
        exact hb
      · have hlength := congrArg List.length (Option.some.inj (hrest.symm.trans ha))
        have hscheme : scheme.length = 8 := rfl
        have hrest : "://".toList.length = 3 := rfl
        rw [List.length_append, hscheme, hrest] at hlength
        omega
    have hrule : bearerRule start (c :: (p ++ (scheme ++ z))) = some ("Bearer [REDACTED]".toList, p' ++ (scheme ++ z)) :=
      congrArg (Option.map _) hz
    refine (sub_some hrule (consumes_bearerToken.suffix hz)).trans ?_
    rw [hfront z, List.append_assoc]

/-- No URL goes over a space. -/
theorem withoutUrls_space (p z : List Char) :
    ∃ start, withoutUrls (p ++ ' ' :: z) = withoutUrls p ++ sub (· == '\n') urlRule 0 start (' ' :: z) := by
  have hinner : ∀ c q, InnerAt ([' '] ++ []) ([' '] ++ z) httpsUrl (c :: q) := fun c q =>
    (innerAt_of_clashes (by decide) [] z (c :: q)).bind fun p' => innerAt_many1 rfl rfl rfl rfl p'
  exact sub_of_not_crosses (splits_always grows_httpsUrl consumes_httpsUrl fun c q => (hinner c q).alikeAt.splitAt) (not_crosses hinner)

/-- Then the remainder is seen. -/
theorem redact_bearer (hq : Delimited after) {before : List Char} (h : ¬Swallowed before after)
    (htaken : TakenBy bearerRule (beforeBearer before) scheme) :
    redact (before ++ (scheme ++ ("x".toList ++ after))) ≠ redact (before ++ (scheme ++ ("y".toList ++ after))) := by
  have hq' : Delimited (beforeBearer after) := delimited_beforeBearer hq
  obtain ⟨front, hfront⟩ := sub_bearer htaken
  have hseen : ∀ d, d = 'x' ∨ d = 'y' → redact (before ++ (scheme ++ ([d] ++ after))) =
      withoutUrls (front ++ "Bearer".toList) ++ (" [REDACTED]://".toList ++ (d :: withoutUrls (withoutBearer (beforeBearer after)))) := by
    intro d hd
    have hremainder : Remainder [d] := by
      rcases hd with rfl | rfl
      · exact remainder_of_all (by decide)
      · exact remainder_of_all (by decide)
    have hbearer : ∀ c ∈ "://".toList ++ [d], ∀ start l, bearerRule start (c :: l) = none := by
      intro c hc
      have hall : ("://".toList ++ [d]).all (fun c => !caselessChar 'b' c) = true := by
        rcases hd with rfl | rfl <;> decide
      exact bearerRule_first (by simpa using List.all_eq_true.1 hall c hc)
    have hurl : ∀ c ∈ " [REDACTED]://".toList ++ [d], ∀ start l, urlRule start (c :: l) = none := by
      intro c hc
      have hall : (" [REDACTED]://".toList ++ [d]).all (· != 'h') = true := by
        rcases hd with rfl | rfl <;> decide
      exact urlRule_first (by simpa using List.all_eq_true.1 hall c hc)
    obtain ⟨start, hpass⟩ := sub_pass (· == '\n') hbearer false (beforeBearer after)
    have hread : withoutBearer (beforeBearer (before ++ (scheme ++ ([d] ++ after)))) =
        (front ++ "Bearer".toList) ++ ' ' :: ("[REDACTED]://".toList ++ ([d] ++ withoutBearer (beforeBearer after))) := by
      rw [beforeBearer_url hq h hremainder]
      refine (hfront _).trans ?_
      rw [← List.append_assoc _ [d], hpass, sub_delimited wordy_bearerRule hq', List.append_assoc front, List.append_assoc]
      rfl
    obtain ⟨start', hspace⟩ := withoutUrls_space (front ++ "Bearer".toList)
      ("[REDACTED]://".toList ++ ([d] ++ withoutBearer (beforeBearer after)))
    obtain ⟨start'', hpass'⟩ := sub_pass (· == '\n') hurl start' (withoutBearer (beforeBearer after))
    have hq'' : Delimited (withoutBearer (beforeBearer after)) := delimited_substitute (wordy_bearerToken _) hq'
    rw [sub_delimited wordy_urlRule hq''] at hpass'
    rw [redact_eq, hread, hspace]
    refine congrArg _ (hpass'.trans ?_)
    rw [List.append_assoc]
    rfl
  intro heq
  have hx := hseen 'x' (Or.inl rfl)
  have hy := hseen 'y' (Or.inr rfl)
  have hsame := hx.symm.trans (Eq.trans heq hy)
  rw [List.append_right_inj, List.append_right_inj, List.cons.injEq] at hsame
  exact absurd hsame.1 (by decide)

theorem bearerToken_behind {q : List Char} (hq : Delimited q) (h : tokenAfter q = true) :
    ∃ rest, bearerToken ("bearer".toList ++ q) = some rest := by
  cases q with
  | nil => cases h
  | cons c l =>
    have hc := hq c l rfl
    unfold tokenAfter at h
    rw [List.dropWhile_cons_of_pos hc] at h
    have hword : each (caseless "bearer") ("bearer".toList ++ c :: l) = some (c :: l) := rfl
    cases hdrop : l.dropWhile isSpace with
    | nil =>
      rw [hdrop] at h
      cases h
    | cons d l' =>
      rw [hdrop] at h
      simp only at h
      refine ⟨(l'.dropWhile tokenChar).dropWhile (· == '='), ?_⟩
      unfold bearerToken andThen
      rw [hword]
      simp [many1, hc, hdrop, h, many]

/-- Behind whitespace and in front of a token, no bearer token leaves a bracket first. -/
theorem sub_bearer_first {q : List Char} (hq : Delimited q) (h : tokenAfter q = true) :
    ∃ c e l, withoutBearer q = c :: e :: l ∧ e ≠ '[' := by
  cases q with
  | nil => cases h
  | cons c l =>
    have hc := hq c l rfl
    have hfirst : withoutBearer (c :: l) = c :: sub (· == '\n') bearerRule 0 (c == '\n') l :=
      sub_none (wordy_bearerRule true c l (tokenChar_of_isSpace hc))
    unfold tokenAfter at h
    rw [List.dropWhile_cons_of_pos hc] at h
    cases l with
    | nil => cases h
    | cons d l =>
      have hd : d ≠ '[' := by
        rintro rfl
        have hstop : ('[' :: l).dropWhile isSpace = '[' :: l := rfl
        rw [hstop] at h
        exact absurd (show tokenChar '[' = true from h) (by decide)
      cases hrule : bearerRule (c == '\n') (d :: l) with
      | none =>
        rw [sub_none hrule] at hfirst
        exact ⟨c, d, _, hfirst, hd⟩
      | some match_ =>
        obtain ⟨rest, hrest, rfl⟩ := Option.map_eq_some_iff.1 hrule
        rw [sub_some hrule (consumes_bearerToken.suffix hrest)] at hfirst
        exact ⟨c, 'B', _, hfirst, by decide⟩

theorem sub_url_first {c : Char} (hc : c ≠ '[') (start : Bool) (l z : List Char) :
    sub (· == '\n') urlRule 0 start (c :: l) ≠ "[REDACTED]".toList ++ z := by
  intro heq
  cases hrule : urlRule start (c :: l) with
  | none =>
    rw [sub_none hrule] at heq
    exact hc (List.cons.inj heq).1
  | some match_ =>
    obtain ⟨rest, hrest, rfl⟩ := Option.map_eq_some_iff.1 hrule
    rw [sub_some hrule (consumes_httpsUrl.suffix hrest)] at heq
    simp at heq

/-- A remainder that ends in `bearer` takes a token behind it. -/
theorem redact_behind (hq : Delimited after) {before : List Char} (h : ¬Swallowed before after)
    (htaken : ¬TakenBy bearerRule (beforeBearer before) scheme) (hafter : tokenAfter (beforeBearer after) = true) :
    redact (before ++ (scheme ++ ("bearer".toList ++ after))) ≠ redact (before ++ (scheme ++ ("x".toList ++ after))) := by
  have hq' : Delimited (beforeBearer after) := delimited_beforeBearer hq
  have hscheme : ∀ c ∈ scheme, ∀ start l, bearerRule start (c :: l) = none := by
    intro c hc
    have hall : scheme.all (fun c => !caselessChar 'b' c) = true := by decide
    exact bearerRule_first (by simpa using List.all_eq_true.1 hall c hc)
  have hread : ∀ u, Remainder u → ∃ start, withoutBearer (beforeBearer (before ++ (scheme ++ (u ++ after)))) =
      withoutBearer (beforeBearer before) ++ (scheme ++ sub (· == '\n') bearerRule 0 start (u ++ beforeBearer after)) := by
    intro u hu
    obtain ⟨start, hsub⟩ := sub_of_not_crosses
      (splits_always grows_bearerToken consumes_bearerToken fun c p => splitAt_bearerToken (u ++ beforeBearer after) (c :: p)) htaken
    obtain ⟨start', hpass⟩ := sub_pass (· == '\n') hscheme start (u ++ beforeBearer after)
    refine ⟨start', ?_⟩
    rw [beforeBearer_url hq h hu]
    exact hsub.trans (congrArg _ hpass)
  obtain ⟨front, hfront⟩ := sub_url (withoutBearer (beforeBearer before)) true
  obtain ⟨rest, hrest⟩ := bearerToken_behind hq' hafter
  obtain ⟨R, hR⟩ : ∃ R, redact (before ++ (scheme ++ ("bearer".toList ++ after))) =
      front ++ ("[REDACTED_HTTPS_URL]".toList ++ (" [REDACTED]".toList ++ R)) := by
    obtain ⟨start, hbearer⟩ := hread "bearer".toList (remainder_of_all (by decide))
    have hrule : bearerRule start ('b' :: ("earer".toList ++ beforeBearer after)) = some ("Bearer [REDACTED]".toList, rest) :=
      congrArg (Option.map _) hrest
    have hsub : sub (· == '\n') bearerRule 0 start ("bearer".toList ++ beforeBearer after) =
        "Bearer".toList ++ (" [REDACTED]".toList ++ sub (· == '\n') bearerRule 0 false rest) :=
      sub_some hrule (consumes_bearerToken.suffix hrest)
    have hspace : Delimited (" [REDACTED]".toList ++ sub (· == '\n') bearerRule 0 false rest) := fun c l heq => by
      cases heq
      rfl
    have hurl : ∀ c ∈ " [REDACTED]".toList, ∀ start l, urlRule start (c :: l) = none := by
      intro c hc
      have hall : " [REDACTED]".toList.all (· != 'h') = true := by decide
      exact urlRule_first (by simpa using List.all_eq_true.1 hall c hc)
    obtain ⟨start', hpass⟩ := sub_pass (· == '\n') hurl true (sub (· == '\n') bearerRule 0 false rest)
    refine ⟨sub (· == '\n') urlRule 0 start' (sub (· == '\n') bearerRule 0 false rest), ?_⟩
    rw [redact_eq, hbearer, hsub, ← hpass]
    exact hfront _ _ (remainder_of_all (by decide)) hspace
  have hplain : redact (before ++ (scheme ++ ("x".toList ++ after))) =
      front ++ ("[REDACTED_HTTPS_URL]".toList ++ withoutUrls (withoutBearer (beforeBearer after))) := by
    obtain ⟨start, hbearer⟩ := hread "x".toList (remainder_of_all (by decide))
    have hsub : sub (· == '\n') bearerRule 0 start ("x".toList ++ beforeBearer after) =
        "x".toList ++ withoutBearer (beforeBearer after) := by
      refine (sub_none (bearerRule_first (by decide) start _)).trans ?_
      exact congrArg _ (sub_delimited wordy_bearerRule hq' _)
    rw [redact_eq, hbearer, hsub]
    exact hfront _ _ (remainder_of_all (by decide)) (delimited_substitute wordy_bearerRule hq')
  intro heq
  rw [hR, hplain, List.append_right_inj, List.append_right_inj] at heq
  obtain ⟨c, e, l, hread, he⟩ := sub_bearer_first hq' hafter
  have hspace : isSpace c = true := delimited_substitute wordy_bearerRule hq' c (e :: l) hread
  have hfirst : withoutUrls (c :: e :: l) = c :: sub (· == '\n') urlRule 0 (c == '\n') (e :: l) :=
    sub_none (wordy_urlRule true c (e :: l) (tokenChar_of_isSpace hspace))
  rw [hread, hfirst] at heq
  exact sub_url_first he _ _ R (List.cons.inj heq).2.symm

/-- Where the URL is not covered, some remainders are seen. -/
theorem covered_of_hidden (hq : Delimited after) {before : List Char} (h : HidesRemainder before after) : Covered before after := by
  by_cases hswallowed : Swallowed before after
  · exact Or.inl hswallowed
  · have hbearer : ¬TakenBy bearerRule (beforeBearer before) scheme := fun htaken =>
      redact_bearer hq hswallowed htaken (h _ _ (remainder_of_all (by decide)) (remainder_of_all (by decide)))
    refine Or.inr ⟨hbearer, Bool.eq_false_iff.2 fun hafter => ?_⟩
    exact redact_behind hq hswallowed hbearer hafter (h _ _ (remainder_of_all (by decide)) (remainder_of_all (by decide)))

end Url

end RedactionAux

end OciAcmePublisher
