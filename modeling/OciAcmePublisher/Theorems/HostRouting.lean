import OciAcmePublisher.Http01Responder
import OciAcmePublisher.Simulation
import Mathlib.Data.List.Nodup

/-!
# Host routing

A request is routed to a webroot exactly if its one Host header names a domain of the certificate whose webroot that is. `Names`
reads the header the way a request grammar does, without the responder's order of checks: an ASCII text free of whitespace and of
the forbidden characters, the host alone or the host and a port in range, the host normalizing to the domain. A port of more
digits than the interpreter converts is in range or not as a number, but it raises a bare `ValueError`.
-/

namespace OciAcmePublisher
namespace HostRoutingAux

/-- A port in range: ASCII digits that denote a number from 1 to 65535. -/
structure ValidPort (port : List Char) : Prop where
  digits : isAsciiDecimal port = true
  low : 1 ≤ decimalValue port
  high : decimalValue port ≤ 65535

/-- The value is the host, or the host, a colon and a port of at most `limit` digits (any number without a limit). -/
inductive WithPort (limit : Option Nat) : List Char → List Char → Prop where
  | plain (host : List Char) : host ≠ [] → ':' ∉ host → WithPort limit host host
  | port (host port : List Char) : host ≠ [] → ValidPort port → (∀ n ∈ limit, port.length ≤ n) →
      WithPort limit (host ++ ':' :: port) host

/-- The text of a Host header names the domain. -/
structure TextNames (Γ : Ctx) (limit : Option Nat) (text : List Char) (domain : String) : Prop where
  clean : ∀ c ∈ text, isSpace c = false ∧ c ∉ forbiddenHostCharacters
  host : ∃ host, WithPort limit text host ∧ normalizeDomain Γ (String.ofList host) = .ok domain

/-- The request has exactly one Host header; it is ASCII and names the domain. -/
def Names (Γ : Ctx) (limit : Option Nat) (headers : List RawHeader) (domain : String) : Prop :=
  ∃ raw text, hostValues headers = [raw] ∧ decodeAscii raw = some text ∧ TextNames Γ limit text.toList domain

/-! ## The header parser -/

theorem rpartitionColon_append (host : List Char) {port : List Char} (h : ':' ∉ port) :
    rpartitionColon (host ++ ':' :: port) = (host, port) := by
  have hall : ∀ c ∈ port.reverse, (c != ':') = true := by
    intro c hc
    have hmem := List.mem_reverse.1 hc
    simp only [bne_iff_ne, ne_eq]
    rintro rfl
    exact h hmem
  have hrev : (host ++ ':' :: port).reverse = port.reverse ++ ':' :: host.reverse := by simp
  unfold rpartitionColon
  rw [hrev, List.dropWhile_append_of_pos hall, List.takeWhile_append_of_pos hall]
  simp

/-- A text with a colon is what stands before the last colon, the colon and what stands after it. -/
theorem exists_rpartition {value : List Char} (h : ':' ∈ value) :
    ∃ host port, value = host ++ ':' :: port ∧ ':' ∉ port := by
  induction value with
  | nil => cases h
  | cons c rest ih =>
    by_cases hrest : ':' ∈ rest
    · obtain ⟨host, port, heq, hport⟩ := ih hrest
      exact ⟨c :: host, port, by rw [heq, List.cons_append], hport⟩
    · rcases List.mem_cons.1 h with hc | hc
      · exact ⟨[], rest, by rw [← hc, List.nil_append], hrest⟩
      · exact absurd hc hrest

theorem colon_not_mem {port : List Char} (h : isAsciiDecimal port = true) : ':' ∉ port := by
  intro hmem
  unfold isAsciiDecimal at h
  rw [Bool.and_eq_true, List.all_eq_true] at h
  have := h.2 ':' hmem
  revert this
  decide

theorem normalizeHost_ok {Γ : Ctx} {host : List Char} {domain : String} :
    normalizeHost Γ host = .ok domain ↔ normalizeDomain Γ (String.ofList host) = .ok domain := by
  unfold normalizeHost
  cases normalizeDomain Γ (String.ofList host) with
  | ok d => simp
  | error x =>
    by_cases hx : x.isInstance .valueError
    · simp [hx]
    · simp [hx]

/-- The two checks that refuse characters, as one condition. -/
theorem clean_iff {value : List Char} :
    (∀ c ∈ value, isSpace c = false ∧ c ∉ forbiddenHostCharacters) ↔
      ¬(value.any isSpace = true ∨ '%' ∈ value) ∧
        ¬value.any (fun c => ['/', '\\', '@', '[', ']'].contains c) = true := by
  have hforbidden : ∀ c, c ∉ forbiddenHostCharacters ↔ c ≠ '%' ∧ ['/', '\\', '@', '[', ']'].contains c = false := by
    intro c
    simp [forbiddenHostCharacters]
  constructor
  · intro h
    constructor
    · rintro (hspace | hpercent)
      · obtain ⟨c, hc, hs⟩ := List.any_eq_true.1 hspace
        rw [(h c hc).1] at hs
        cases hs
      · exact ((hforbidden '%').1 (h '%' hpercent).2).1 rfl
    · intro hbad
      obtain ⟨c, hc, hb⟩ := List.any_eq_true.1 hbad
      rw [((hforbidden c).1 (h c hc).2).2] at hb
      cases hb
  · intro ⟨hfirst, hsecond⟩ c hc
    have hspace : isSpace c = false := by
      by_contra hs
      exact hfirst (Or.inl (List.any_eq_true.2 ⟨c, hc, by simpa using hs⟩))
    have hpercent : c ≠ '%' := by
      rintro rfl
      exact hfirst (Or.inr hc)
    have hbad : ['/', '\\', '@', '[', ']'].contains c = false := by
      by_contra hb
      exact hsecond (List.any_eq_true.2 ⟨c, hc, eq_true_of_ne_false hb⟩)
    exact ⟨hspace, (hforbidden c).2 ⟨hpercent, hbad⟩⟩

theorem intOfDigits_ok {port : List Char} {number : Nat} :
    intOfDigits port = .ok number ↔ port.length ≤ intMaxStrDigits ∧ decimalValue port = number := by
  unfold intOfDigits
  by_cases hlong : intMaxStrDigits < port.length
  · have hnot : ¬port.length ≤ intMaxStrDigits := by omega
    simp [hlong, hnot]
  · have hle : port.length ≤ intMaxStrDigits := by omega
    simp [hlong, hle]

theorem withPort_plain {limit : Option Nat} {value host : List Char} (h : ':' ∉ value) :
    WithPort limit value host ↔ value ≠ [] ∧ host = value := by
  constructor
  · intro hw
    cases hw with
    | plain _ hne _ => exact ⟨hne, rfl⟩
    | port _ port _ _ _ => exact absurd (by simp) h
  · rintro ⟨hne, rfl⟩
    exact .plain host hne h

theorem withPort_port {limit : Option Nat} {before port host : List Char} (h : ':' ∉ port) :
    WithPort limit (before ++ ':' :: port) host ↔
      host = before ∧ before ≠ [] ∧ ValidPort port ∧ ∀ n ∈ limit, port.length ≤ n := by
  constructor
  · intro hw
    generalize hval : before ++ ':' :: port = value at hw
    cases hw with
    | plain _ _ hno => exact absurd (by rw [← hval]; simp) hno
    | port host port' hne hvalid hlimit =>
      have hsame := rpartitionColon_append before h
      rw [hval, rpartitionColon_append _ (colon_not_mem hvalid.digits)] at hsame
      cases hsame
      exact ⟨rfl, hne, hvalid, hlimit⟩
  · rintro ⟨rfl, hne, hvalid, hlimit⟩
    exact .port host port hne hvalid hlimit

/-- The host before a port is what stands before the last colon, if the port is in range and not too long to convert. -/
theorem hostBeforePort_ok {before port host : List Char} (hcolon : ':' ∉ port) :
    hostBeforePort (before ++ ':' :: port) = .ok host ↔ WithPort (some intMaxStrDigits) (before ++ ':' :: port) host := by
  rw [withPort_port hcolon]
  unfold hostBeforePort
  rw [rpartitionColon_append _ hcolon]
  by_cases hbad : before = [] ∨ ¬isAsciiDecimal port = true
  · simp only [hbad, if_true]
    constructor
    · intro h
      cases h
    · intro ⟨_, hne, hvalid, _⟩
      rcases hbad with h | h
      · exact absurd h hne
      · exact absurd hvalid.digits h
  · simp only [hbad, if_false]
    rw [not_or, not_not] at hbad
    cases hint : intOfDigits port with
    | error x =>
      constructor
      · intro h
        cases h
      · intro ⟨_, _, _, hlimit⟩
        rw [intOfDigits_ok.2 ⟨hlimit intMaxStrDigits rfl, rfl⟩] at hint
        cases hint
    | ok number =>
      obtain ⟨hlength, rfl⟩ := intOfDigits_ok.1 hint
      by_cases hrange : 1 ≤ decimalValue port ∧ decimalValue port ≤ 65535
      · constructor
        · intro h
          have hhost : before = host := by
            simpa [hrange, bind, Except.bind, pure, Except.pure] using h
          exact ⟨hhost.symm, hbad.1, ⟨hbad.2, hrange.1, hrange.2⟩, by simpa using hlength⟩
        · intro ⟨hhost, _⟩
          simp [hrange, hhost, bind, Except.bind, pure, Except.pure]
      · constructor
        · intro h
          simp [hrange, bind, Except.bind, throw, throwThe, MonadExceptOf.throw] at h
        · intro ⟨_, _, hvalid, _⟩
          exact absurd ⟨hvalid.low, hvalid.high⟩ hrange

/-- The header parser returns a domain exactly if the text names it, by a port of at most as many digits as the interpreter
converts. -/
theorem normalizeHostHeader_ok {Γ : Ctx} {value : List Char} {domain : String} :
    normalizeHostHeader Γ value = .ok domain ↔ TextNames Γ (some intMaxStrDigits) value domain := by
  unfold normalizeHostHeader
  by_cases hclean : ∀ c ∈ value, isSpace c = false ∧ c ∉ forbiddenHostCharacters
  · obtain ⟨hfirst, hsecond⟩ := clean_iff.1 hclean
    by_cases hnil : value = []
    · constructor
      · intro h
        rw [if_pos (Or.inl hnil)] at h
        cases h
      · intro h
        obtain ⟨host, hwith, _⟩ := h.host
        rw [hnil] at hwith
        exact absurd rfl ((withPort_plain (by simp)).1 hwith).1
    · have hone : ¬(value = [] ∨ value.any isSpace = true ∨ '%' ∈ value) := by
        rintro (h | h)
        · exact hnil h
        · exact hfirst h
      rw [if_neg hone, if_neg hsecond]
      by_cases hcolon : ':' ∈ value
      · obtain ⟨before, port, rfl, hport⟩ := exists_rpartition hcolon
        rw [if_pos hcolon]
        constructor
        · intro h
          cases hhost : hostBeforePort (before ++ ':' :: port) with
          | error x =>
            rw [hhost] at h
            cases h
          | ok host =>
            rw [hhost] at h
            exact ⟨hclean, host, (hostBeforePort_ok hport).1 hhost, normalizeHost_ok.1 h⟩
        · intro h
          obtain ⟨host, hwith, hnorm⟩ := h.host
          rw [(hostBeforePort_ok hport).2 hwith]
          exact normalizeHost_ok.2 hnorm
      · rw [if_neg hcolon]
        refine Iff.trans normalizeHost_ok ?_
        constructor
        · intro h
          exact ⟨hclean, value, (withPort_plain hcolon).2 ⟨hnil, rfl⟩, h⟩
        · intro h
          obtain ⟨host, hwith, hnorm⟩ := h.host
          obtain ⟨_, rfl⟩ := (withPort_plain hcolon).1 hwith
          exact hnorm
  · constructor
    · intro h
      by_cases hfirst : value = [] ∨ value.any isSpace = true ∨ '%' ∈ value
      · rw [if_pos hfirst] at h
        cases h
      · have hsecond : value.any (fun c => ['/', '\\', '@', '[', ']'].contains c) = true := by
          by_contra hno
          exact hclean (clean_iff.2 ⟨fun h' => hfirst (Or.inr h'), hno⟩)
        rw [if_neg hfirst, if_pos hsecond] at h
        cases h
    · intro h
      exact absurd h.clean hclean

/-- `_single_host` returns a domain exactly if the request names it. -/
theorem singleHost_ok {Γ : Ctx} {headers : List RawHeader} {domain : String} :
    singleHost Γ headers = .ok domain ↔ Names Γ (some intMaxStrDigits) headers domain := by
  unfold singleHost Names
  constructor
  · intro h
    split at h
    · rename_i raw hraw
      split at h
      · rename_i text htext
        exact ⟨raw, text, hraw, htext, normalizeHostHeader_ok.1 h⟩
      · cases h
    · cases h
  · rintro ⟨raw, text, hraw, htext, hnames⟩
    simp only [hraw, htext]
    exact normalizeHostHeader_ok.2 hnames

/-! ## The map of the configuration -/

/-- The map sends a domain to a webroot exactly if it is a domain of a certificate with that webroot. -/
theorem lookupHost_ok {config : AppConfig} (h : config.Consistent) {domain webrootId : String} :
    lookupHost (configHostWebroots config) domain = .ok webrootId ↔
      ∃ certificate ∈ config.certificates, certificate.webrootId = webrootId ∧ domain ∈ certificate.domains := by
  have hentry : ∀ root, (domain, root) ∈ configHostWebroots config ↔
      ∃ certificate ∈ config.certificates, certificate.webrootId = root ∧ domain ∈ certificate.domains := by
    intro root
    unfold configHostWebroots
    simp only [List.mem_flatMap, List.mem_map, Prod.mk.injEq]
    constructor
    · rintro ⟨certificate, hin, _, hd, rfl, rfl⟩
      exact ⟨certificate, hin, rfl, hd⟩
    · rintro ⟨certificate, hin, rfl, hd⟩
      exact ⟨certificate, hin, domain, hd, rfl, rfl⟩
  have hunique : ∀ root root', (domain, root) ∈ configHostWebroots config → (domain, root') ∈ configHostWebroots config →
      root = root' := by
    intro root root' ha hb
    obtain ⟨a, hina, hroot, hda⟩ := (hentry root).1 ha
    obtain ⟨b, hinb, hroot', hdb⟩ := (hentry root').1 hb
    rw [← hroot, ← hroot', h.owner_unique hina hinb hda hdb]
  unfold lookupHost
  constructor
  · intro hok
    cases hlook : (configHostWebroots config).reverse.lookup domain with
    | none =>
      simp only [hlook] at hok
      cases hok
    | some root =>
      simp only [hlook] at hok
      cases hok
      obtain ⟨before, after, heq, -⟩ := List.lookup_eq_some_iff.1 hlook
      apply (hentry webrootId).1
      rw [← List.mem_reverse, heq]
      simp
  · intro hex
    have hin := (hentry webrootId).2 hex
    have hsome : ((configHostWebroots config).reverse.lookup domain).isSome :=
      List.lookup_isSome_iff.2 ⟨_, List.mem_reverse.2 hin, beq_self_eq_true domain⟩
    obtain ⟨root, hroot⟩ := Option.isSome_iff_exists.1 hsome
    obtain ⟨before, after, heq, -⟩ := List.lookup_eq_some_iff.1 hroot
    have hmem : (domain, root) ∈ configHostWebroots config := by
      rw [← List.mem_reverse, heq]
      simp
    simp only [hroot, hunique root webrootId hmem hin]

theorem routeHost_ok {Γ : Ctx} {config : AppConfig} (h : config.Consistent) {headers : List RawHeader} {webrootId : String} :
    routeHost Γ config headers = .ok webrootId ↔
      ∃ certificate ∈ config.certificates, certificate.webrootId = webrootId ∧
        ∃ domain ∈ certificate.domains, Names Γ (some intMaxStrDigits) headers domain := by
  unfold routeHost
  constructor
  · intro hok
    cases hhost : singleHost Γ headers with
    | error x =>
      rw [hhost] at hok
      cases hok
    | ok host =>
      rw [hhost] at hok
      obtain ⟨certificate, hin, hroot, hd⟩ := (lookupHost_ok h).1 hok
      exact ⟨certificate, hin, hroot, host, hd, singleHost_ok.1 hhost⟩
  · rintro ⟨certificate, hin, hroot, domain, hd, hnames⟩
    rw [singleHost_ok.2 hnames]
    exact (lookupHost_ok h).2 ⟨certificate, hin, hroot, hd⟩

/-- A webroot belongs to one certificate of a validated configuration. -/
theorem webroot_unique {config : AppConfig} (h : config.Consistent) {a b : CertificateConfig}
    (ha : a ∈ config.certificates) (hb : b ∈ config.certificates) (heq : a.webrootId = b.webrootId) : a = b :=
  List.inj_on_of_nodup_map h.webroots ha hb heq

/-! ## The spellings of a domain -/

/-- A lower-case letter, a digit, a hyphen or a dot. -/
def isLdh (c : Char) : Bool :=
  (97 ≤ c.toNat && c.toNat ≤ 122) || (48 ≤ c.toNat && c.toNat ≤ 57) || c.toNat == 45 || c.toNat == 46

/-- What the two library functions of `normalize_domain` document: `str.lower` lowers the letters of an ASCII text, and
`idna.encode` returns labels of lower-case letters, digits and hyphens. -/
structure NamingLibraries (Γ : Ctx) : Prop where
  lower : ∀ text : String, (∀ c ∈ text.toList, c.toNat < 128) →
    Γ.lower text = String.ofList (text.toList.map Char.toLower)
  encode : ∀ text encoded, Γ.idnaEncode text = some encoded → ∀ c ∈ encoded.toList, isLdh c = true

/-- The letters of the domain in any case, then a dot or none. -/
inductive SpellsHost (domain : String) : List Char → Prop where
  | bare (letters : List Char) : letters.map Char.toLower = domain.toList.map Char.toLower → SpellsHost domain letters
  | dotted (letters : List Char) : letters.map Char.toLower = domain.toList.map Char.toLower →
      SpellsHost domain (letters ++ ['.'])

/-- A spelling of the domain, alone or with a port in range that the interpreter converts. -/
inductive Spells (domain : String) : List Char → Prop where
  | host {host : List Char} : SpellsHost domain host → Spells domain host
  | port (host port : List Char) : SpellsHost domain host → ValidPort port → port.length ≤ intMaxStrDigits →
      Spells domain (host ++ ':' :: port)

/-- A character that lowers to one of a domain is an ASCII letter, a digit, a hyphen or a dot. -/
theorem hostChar_of_lower {c : Char} (h : isLdh c.toLower = true) :
    isLdh c = true ∨ (65 ≤ c.toNat ∧ c.toNat ≤ 90) := by
  by_cases hupper : 65 ≤ c.toNat ∧ c.toNat ≤ 90
  · exact Or.inr hupper
  · have hval : ¬(c.val ≥ 'A'.val ∧ c.val ≤ 'Z'.val) := by
      intro ⟨hlow, hhigh⟩
      exact hupper ⟨UInt32.le_iff_toNat_le.1 hlow, UInt32.le_iff_toNat_le.1 hhigh⟩
    have hsame : c.toLower = c := by
      unfold Char.toLower
      rw [dif_neg hval]
    rw [hsame] at h
    exact Or.inl h

theorem hostChar_clean {c : Char} (h : isLdh c = true ∨ (65 ≤ c.toNat ∧ c.toNat ≤ 90)) :
    c.toNat < 128 ∧ isSpace c = false ∧ c ∉ forbiddenHostCharacters ∧ c ≠ ':' := by
  have hn : (97 ≤ c.toNat ∧ c.toNat ≤ 122) ∨ (48 ≤ c.toNat ∧ c.toNat ≤ 57) ∨ c.toNat = 45 ∨ c.toNat = 46 ∨
      (65 ≤ c.toNat ∧ c.toNat ≤ 90) := by
    simp only [isLdh, Bool.or_eq_true, Bool.and_eq_true, decide_eq_true_eq, beq_iff_eq] at h
    omega
  have hne : ∀ d : Char, (d.toNat = 37 ∨ d.toNat = 47 ∨ d.toNat = 92 ∨ d.toNat = 64 ∨ d.toNat = 91 ∨ d.toNat = 93 ∨
      d.toNat = 58) → c ≠ d := by
    rintro d hd rfl
    omega
  refine ⟨by omega, ?_, ?_, hne ':' (by decide)⟩
  · simp only [isSpace, Bool.or_eq_false_iff, Bool.and_eq_false_iff, decide_eq_false_iff_not, beq_eq_false_iff_ne]
    omega
  · intro hmem
    simp only [forbiddenHostCharacters, List.mem_cons, List.not_mem_nil, or_false] at hmem
    rcases hmem with hc | hc | hc | hc | hc | hc
    all_goals exact hne _ (by decide) hc

theorem digit_clean {c : Char} (h : c.isDigit = true) : isSpace c = false ∧ c ∉ forbiddenHostCharacters := by
  have hldh : isLdh c = true := by
    simp only [Char.isDigit, Bool.and_eq_true, decide_eq_true_eq] at h
    have hlow : 48 ≤ c.toNat := UInt32.le_iff_toNat_le.1 h.1
    have hhigh : c.toNat ≤ 57 := UInt32.le_iff_toNat_le.1 h.2
    simp [isLdh, hlow, hhigh]
  have := hostChar_clean (Or.inl hldh)
  exact ⟨this.2.1, this.2.2.1⟩

/-- What `normalize_domain` encodes. -/
def candidate (Γ : Ctx) (value : String) : String := Γ.lower (rstripDots (strip value))

theorem normalizeDomain_congr {Γ : Ctx} {a b : String} (h : candidate Γ a = candidate Γ b) :
    normalizeDomain Γ a = normalizeDomain Γ b := by
  unfold normalizeDomain
  unfold candidate at h
  rw [h]

/-- What `normalize_domain` returns. -/
theorem normalizeDomain_ok {Γ : Ctx} {value domain : String} :
    normalizeDomain Γ value = .ok domain ↔
      ¬((candidate Γ value).toList = [] ∨ '_' ∈ (candidate Γ value).toList ∨ '*' ∈ (candidate Γ value).toList) ∧
        Γ.isIpAddress (candidate Γ value) = false ∧ Γ.idnaEncode (candidate Γ value) = some domain ∧
        domain.length ≤ 253 ∧ (domain.toList.splitOn '.').forM checkLabel = .ok () := by
  unfold normalizeDomain candidate
  generalize Γ.lower (rstripDots (strip value)) = text
  by_cases hempty : text.toList = [] ∨ '_' ∈ text.toList ∨ '*' ∈ text.toList
  · simp only [hempty, if_true, not_true, false_and, iff_false]
    intro h
    cases h
  cases hip : Γ.isIpAddress text with
  | true =>
    simp only [hempty, hip, if_false, if_true, Bool.true_eq_false, false_and, and_false, iff_false]
    intro h
    cases h
  | false =>
    simp only [hempty, hip, if_false, Bool.false_eq_true, not_false_iff, true_and]
    cases hencode : Γ.idnaEncode text with
    | none =>
      constructor
      · intro h
        cases h
      · rintro ⟨h, -⟩
        cases h
    | some encoded =>
      have htail : (do
          if 253 < encoded.length then
            throw (.of .valueError "exceeds DNS maximum length")
          (encoded.toList.splitOn '.').forM checkLabel
          return encoded : Except Exc String) = .ok domain ↔
            encoded = domain ∧ encoded.length ≤ 253 ∧ (encoded.toList.splitOn '.').forM checkLabel = .ok () := by
        by_cases hlong : 253 < encoded.length
        · have hnot : ¬encoded.length ≤ 253 := by omega
          simp [hlong, hnot, bind, Except.bind, throw, throwThe, MonadExceptOf.throw]
        · have hle : encoded.length ≤ 253 := by omega
          cases hlabels : (encoded.toList.splitOn '.').forM checkLabel with
          | error x => simp [hlong, bind, Except.bind]
          | ok u => simp [hlong, hle, bind, Except.bind, pure, Except.pure]
      refine htail.trans ?_
      constructor
      · rintro ⟨rfl, hrest⟩
        exact ⟨rfl, hrest⟩
      · rintro ⟨heq, hrest⟩
        cases heq
        exact ⟨rfl, hrest⟩

theorem encode_of_normalizeDomain {Γ : Ctx} {value domain : String} (h : normalizeDomain Γ value = .ok domain) :
    Γ.idnaEncode (candidate Γ value) = some domain :=
  (normalizeDomain_ok.1 h).2.2.1

/-- A normalized domain has labels that are not empty, so it is not empty and does not end in a dot. -/
theorem normalized_end {Γ : Ctx} {value domain : String} (h : normalizeDomain Γ value = .ok domain) :
    domain.toList ≠ [] ∧ ∀ before, domain.toList ≠ before ++ ['.'] := by
  obtain ⟨-, -, -, -, hlabels⟩ := normalizeDomain_ok.1 h
  have hnone : ∀ labels : List (List Char), (labels ++ [[]]).forM checkLabel ≠ (.ok () : Except Exc Unit) := by
    intro labels
    induction labels with
    | nil =>
      intro hok
      cases hok
    | cons label rest ih =>
      intro hok
      have hstep : (checkLabel label >>= fun _ => (rest ++ [[]]).forM checkLabel) = .ok () := hok
      cases hlabel : checkLabel label with
      | error x =>
        rw [hlabel] at hstep
        cases hstep
      | ok u =>
        rw [hlabel] at hstep
        exact ih hstep
  constructor
  · intro hnil
    rw [hnil] at hlabels
    exact hnone [] hlabels
  · intro before heq
    rw [heq, List.splitOn_append_cons_self, List.splitOn_nil] at hlabels
    exact hnone _ hlabels

theorem dropWhile_none {l : List Char} {p : Char → Bool} (h : ∀ c ∈ l, p c = false) : l.dropWhile p = l := by
  cases l with
  | nil => rfl
  | cons c rest => rw [List.dropWhile_cons, h c List.mem_cons_self]; rfl

theorem strip_clean {l : List Char} (h : ∀ c ∈ l, isSpace c = false) : strip (String.ofList l) = String.ofList l := by
  unfold strip
  rw [String.toList_ofList, dropWhile_none h, dropWhile_none (fun c hc => h c (List.mem_reverse.1 hc)), List.reverse_reverse]

theorem toLower_eq_dot {c : Char} : (c.toLower == '.') = (c == '.') := by
  by_cases hupper : 65 ≤ c.toNat ∧ c.toNat ≤ 90
  · have hne : c ≠ '.' := by
      rintro rfl
      revert hupper
      decide
    have hlower : c.toLower.toNat = c.toNat + 32 := by
      have hval : c.val ≥ 'A'.val ∧ c.val ≤ 'Z'.val :=
        ⟨UInt32.le_iff_toNat_le.2 hupper.1, UInt32.le_iff_toNat_le.2 hupper.2⟩
      unfold Char.toLower
      rw [dif_pos hval]
      show (c.val + 32).toNat = c.toNat + 32
      have hlt : c.val.toNat + 32 < 4294967296 := by
        have : c.val.toNat ≤ 90 := hupper.2
        omega
      simpa [UInt32.toNat_add] using Nat.mod_eq_of_lt hlt
    have hlowerNe : c.toLower ≠ '.' := by
      intro heq
      rw [heq] at hlower
      have : '.'.toNat = 46 := rfl
      omega
    rw [beq_eq_false_iff_ne.2 hne, beq_eq_false_iff_ne.2 hlowerNe]
  · have hval : ¬(c.val ≥ 'A'.val ∧ c.val ≤ 'Z'.val) := by
      intro ⟨hlow, hhigh⟩
      exact hupper ⟨UInt32.le_iff_toNat_le.1 hlow, UInt32.le_iff_toNat_le.1 hhigh⟩
    unfold Char.toLower
    rw [dif_neg hval]

/-- The trailing dots go before or after the letters are lowered. -/
theorem rstripDots_map (l : List Char) :
    ((rstripDots (String.ofList l)).toList).map Char.toLower =
      ((l.map Char.toLower).reverse.dropWhile (· == '.')).reverse := by
  have hcomp : ((· == '.') ∘ Char.toLower : Char → Bool) = (· == '.') := funext fun c => toLower_eq_dot
  unfold rstripDots
  rw [String.toList_ofList, String.toList_ofList, ← List.map_reverse, List.dropWhile_map, hcomp, List.map_reverse]

/-- The candidate of a spelling is that of the domain. -/
theorem candidate_spelling {Γ : Ctx} (libraries : NamingLibraries Γ) {domain : String} {letters : List Char} (dots : List Char)
    (hdomain : ∀ c ∈ domain.toList, isLdh c = true) (hletters : ∀ c ∈ letters, isLdh c.toLower = true)
    (hdots : ∀ c ∈ dots, c = '.') (heq : letters.map Char.toLower = domain.toList.map Char.toLower) :
    candidate Γ (String.ofList (letters ++ dots)) = candidate Γ domain := by
  have hlower : ∀ l : List Char, (∀ c ∈ l, isLdh c = true ∨ (65 ≤ c.toNat ∧ c.toNat ≤ 90)) →
      candidate Γ (String.ofList l) = String.ofList ((l.map Char.toLower).reverse.dropWhile (· == '.')).reverse := by
    intro l hl
    unfold candidate
    rw [strip_clean fun c hc => (hostChar_clean (hl c hc)).2.1, libraries.lower, rstripDots_map]
    intro c hc
    have hmem : c ∈ l := by
      unfold rstripDots at hc
      rw [String.toList_ofList, String.toList_ofList, List.mem_reverse] at hc
      exact List.mem_reverse.1 ((List.dropWhile_suffix _).mem hc)
    exact (hostChar_clean (hl c hmem)).1
  have hspelling : ∀ c ∈ letters ++ dots, isLdh c = true ∨ (65 ≤ c.toNat ∧ c.toNat ≤ 90) := by
    intro c hc
    rcases List.mem_append.1 hc with hc | hc
    · exact hostChar_of_lower (hletters c hc)
    · rw [hdots c hc]
      exact Or.inl (by decide)
  rw [hlower _ hspelling, ← String.ofList_toList (s := domain), hlower _ fun c hc => Or.inl (hdomain c hc)]
  have hdrop : ∀ c ∈ (dots.map Char.toLower).reverse, (c == '.') = true := by
    intro c hc
    obtain ⟨d, hd, rfl⟩ := List.mem_map.1 (List.mem_reverse.1 hc)
    rw [hdots d hd]
    decide
  rw [List.map_append, List.reverse_append, List.dropWhile_append_of_pos hdrop, heq]

theorem lower_of_ldh {c : Char} (h : isLdh c = true) : c.toLower = c := by
  have hval : ¬(c.val ≥ 'A'.val ∧ c.val ≤ 'Z'.val) := by
    intro ⟨hlow, hhigh⟩
    have hl : 65 ≤ c.toNat := UInt32.le_iff_toNat_le.1 hlow
    have hu : c.toNat ≤ 90 := UInt32.le_iff_toNat_le.1 hhigh
    simp only [isLdh, Bool.or_eq_true, Bool.and_eq_true, decide_eq_true_eq, beq_iff_eq] at h
    omega
  unfold Char.toLower
  rw [dif_neg hval]

theorem letters_ldh {domain : String} {letters : List Char} (hdomain : ∀ c ∈ domain.toList, isLdh c = true)
    (heq : letters.map Char.toLower = domain.toList.map Char.toLower) : ∀ c ∈ letters, isLdh c.toLower = true := by
  intro c hc
  have hmem : c.toLower ∈ domain.toList.map Char.toLower := by
    rw [← heq]
    exact List.mem_map_of_mem hc
  obtain ⟨d, hd, hdc⟩ := List.mem_map.1 hmem
  rw [← hdc, lower_of_ldh (hdomain d hd)]
  exact hdomain d hd

/-- What a spelling of a normalized domain is made of, and what it normalizes to. -/
theorem spelling_normalizes {Γ : Ctx} (libraries : NamingLibraries Γ) {domain : String} {host : List Char}
    (hfixed : normalizeDomain Γ domain = .ok domain) (h : SpellsHost domain host) :
    (∀ c ∈ host, isSpace c = false ∧ c ∉ forbiddenHostCharacters ∧ c ≠ ':') ∧ host ≠ [] ∧
      normalizeDomain Γ (String.ofList host) = .ok domain := by
  have hencode := encode_of_normalizeDomain hfixed
  have hdomain := libraries.encode _ _ hencode
  have hnonempty := (normalized_end hfixed).1
  have hclean : ∀ letters : List Char, letters.map Char.toLower = domain.toList.map Char.toLower →
      ∀ c ∈ letters, isSpace c = false ∧ c ∉ forbiddenHostCharacters ∧ c ≠ ':' := by
    intro letters heq c hc
    exact (hostChar_clean (hostChar_of_lower (letters_ldh hdomain heq c hc))).2
  have hne : ∀ letters : List Char, letters.map Char.toLower = domain.toList.map Char.toLower → letters ≠ [] := by
    rintro letters heq rfl
    exact hnonempty (List.map_eq_nil_iff.1 heq.symm)
  cases h with
  | bare _ heq =>
    have hcandidate := candidate_spelling libraries [] hdomain (letters_ldh hdomain heq) (by simp) heq
    rw [List.append_nil] at hcandidate
    exact ⟨hclean host heq, hne host heq, (normalizeDomain_congr hcandidate).trans hfixed⟩
  | dotted letters heq =>
    have hcandidate := candidate_spelling libraries ['.'] hdomain (letters_ldh hdomain heq) (by simp) heq
    refine ⟨?_, by simp, (normalizeDomain_congr hcandidate).trans hfixed⟩
    intro c hc
    rcases List.mem_append.1 hc with hc | hc
    · exact hclean letters heq c hc
    · rw [List.mem_singleton.1 hc]
      decide

/-- A spelling of a normalized domain names it. -/
theorem textNames_of_spells {Γ : Ctx} (libraries : NamingLibraries Γ) {domain : String} {text : List Char}
    (hfixed : normalizeDomain Γ domain = .ok domain) (h : Spells domain text) :
    TextNames Γ (some intMaxStrDigits) text domain := by
  cases h with
  | host hspells =>
    obtain ⟨hclean, hne, hnormal⟩ := spelling_normalizes libraries hfixed hspells
    have hcolon : ':' ∉ text := fun hc => (hclean ':' hc).2.2 rfl
    exact ⟨fun c hc => ⟨(hclean c hc).1, (hclean c hc).2.1⟩, text, .plain text hne hcolon, hnormal⟩
  | port host port hspells hvalid hlength =>
    obtain ⟨hclean, hne, hnormal⟩ := spelling_normalizes libraries hfixed hspells
    refine ⟨?_, host, .port host port hne hvalid (by simpa using hlength), hnormal⟩
    intro c hc
    rcases List.mem_append.1 hc with hc | hc
    · exact ⟨(hclean c hc).1, (hclean c hc).2.1⟩
    · rcases List.mem_cons.1 hc with rfl | hc
      · decide
      · have hdigits := hvalid.digits
        unfold isAsciiDecimal at hdigits
        rw [Bool.and_eq_true, List.all_eq_true] at hdigits
        exact digit_clean (hdigits.2 c hc)

/-! ## A sample configuration -/

/-- Libraries that lower ASCII letters and accept domains of letters, digits, hyphens and dots. -/
def routingCtx : Ctx where
  __ := Sample.ctx
  lower text := String.ofList (text.toList.map Char.toLower)
  idnaEncode text := if text.toList.all isLdh then some text else none

def routedCertificate : CertificateConfig where
  __ := Sample.certificate
  oci := { Sample.certificate.oci with certificateOcid := some "ocid1.certificate.web" }
  audit := { endpoints := [⟨"a.example", 443⟩] }

def routedConfig : AppConfig where
  __ := Sample.config routedCertificate
  acme := { (Sample.config routedCertificate).acme with directoryUrl := "https://staging.example" }

theorem routedConfig_validates : routedConfig.Validates where
  certificates := by
    intro certificate hin
    have : certificate = routedCertificate := by simpa [routedConfig, Sample.config] using hin
    rw [this]
    decide +kernel
  crossFields := by decide +kernel

theorem routedConfig_normalized : ∀ certificate ∈ routedConfig.certificates, ∀ domain ∈ certificate.domains,
    normalizeDomain routingCtx domain = .ok domain := by
  intro certificate hin domain hd
  have : certificate = routedCertificate := by simpa [routedConfig, Sample.config] using hin
  subst this
  have : domain = "a.example" := by simpa [routedCertificate, Sample.certificate] using hd
  rw [this]
  decide +kernel

theorem routingCtx_libraries : NamingLibraries routingCtx where
  lower text _ := rfl
  encode text encoded h c hc := by
    simp only [routingCtx] at h
    split at h
    · rename_i hall
      cases h
      exact List.all_eq_true.1 hall c hc
    · cases h

theorem decodeAscii_map {text : List Char} (h : ∀ c ∈ text, c.toNat < 128) :
    decodeAscii (text.map (fun c => c.val.toUInt8)) = some (String.ofList text) := by
  have hbyte : ∀ c ∈ text, c.val.toUInt8.toNat = c.toNat := by
    intro c hc
    have hlt : c.val.toNat < 256 := by
      have : c.val.toNat < 128 := h c hc
      omega
    rw [UInt32.toNat_toUInt8]
    exact Nat.mod_eq_of_lt hlt
  have hall : (text.map (fun c => c.val.toUInt8)).all (· < 128) = true := by
    rw [List.all_eq_true]
    intro b hb
    obtain ⟨c, hc, rfl⟩ := List.mem_map.1 hb
    have hlt : c.val.toUInt8.toNat < 128 := by
      rw [hbyte c hc]
      exact h c hc
    simpa [UInt8.lt_iff_toNat_lt] using hlt
  unfold decodeAscii
  rw [if_pos hall, List.map_map]
  have hback : text.map ((fun b : UInt8 => Char.ofNat b.toNat) ∘ fun c => c.val.toUInt8) = text := by
    refine (List.map_congr_left fun c hc => ?_).trans (List.map_id text)
    show Char.ofNat c.val.toUInt8.toNat = c
    rw [hbyte c hc, Char.ofNat_toNat]
  rw [hback]

/-- The port 80 after leading zeros. -/
def paddedPort (zeros : Nat) : List Char := List.replicate zeros '0' ++ ['8', '0']

theorem paddedPort_valid (zeros : Nat) : ValidPort (paddedPort zeros) := by
  have hzeros : ∀ n, (List.replicate n '0').foldl (fun n c => 10 * n + (c.toNat - 48)) 0 = 0 := by
    intro n
    induction n with
    | zero => rfl
    | succ n ih => rw [List.replicate_succ, List.foldl_cons]; exact ih
  have hvalue : decimalValue (paddedPort zeros) = 80 := by
    unfold decimalValue paddedPort
    rw [List.foldl_append, hzeros]
    rfl
  constructor
  · simp [isAsciiDecimal, paddedPort]
  · omega
  · omega

/-- A request for the sample domain at the padded port. -/
def paddedHeaders (zeros : Nat) : List RawHeader :=
  [(hostKey, ("a.example".toList ++ ':' :: paddedPort zeros).map (fun c => c.val.toUInt8))]

theorem sampleDomain_ascii : ∀ c ∈ "a.example".toList, c.toNat < 128 := by
  have hall : ("a.example".toList.all fun c => decide (c.toNat < 128)) = true := by decide +kernel
  intro c hc
  exact of_decide_eq_true (List.all_eq_true.1 hall c hc)

theorem sampleDomain_clean : ∀ c ∈ "a.example".toList, isSpace c = false ∧ c ∉ forbiddenHostCharacters := by
  have hall : ("a.example".toList.all fun c => !isSpace c && !forbiddenHostCharacters.contains c) = true := by decide +kernel
  intro c hc
  have hclean := List.all_eq_true.1 hall c hc
  rw [Bool.and_eq_true, Bool.not_eq_true', Bool.not_eq_true'] at hclean
  refine ⟨hclean.1, fun hmem => ?_⟩
  rw [List.contains_iff_mem.2 hmem] at hclean
  cases hclean.2

theorem paddedHeaders_decode (zeros : Nat) :
    decodeAscii (("a.example".toList ++ ':' :: paddedPort zeros).map (fun c => c.val.toUInt8)) =
      some (String.ofList ("a.example".toList ++ ':' :: paddedPort zeros)) := by
  apply decodeAscii_map
  intro c hc
  rcases List.mem_append.1 hc with hc | hc
  · exact sampleDomain_ascii c hc
  · rcases List.mem_cons.1 hc with rfl | hc
    · decide
    · have hport : c = '0' ∨ c = '8' := by
        simp only [paddedPort, List.mem_append, List.mem_replicate, List.mem_cons, List.not_mem_nil, or_false] at hc
        tauto
      rcases hport with rfl | rfl
      all_goals decide

/-- Without a bound on the digits of a port, the padded request names the domain. -/
theorem paddedHeaders_names (zeros : Nat) : Names routingCtx none (paddedHeaders zeros) "a.example" := by
  refine ⟨_, _, rfl, paddedHeaders_decode zeros, ?_, "a.example".toList, ?_, by decide +kernel⟩
  · rw [String.toList_ofList]
    intro c hc
    rcases List.mem_append.1 hc with hc | hc
    · exact sampleDomain_clean c hc
    · rcases List.mem_cons.1 hc with rfl | hc
      · decide
      · have hdigits := (paddedPort_valid zeros).digits
        unfold isAsciiDecimal at hdigits
        rw [Bool.and_eq_true, List.all_eq_true] at hdigits
        exact digit_clean (hdigits.2 c hc)
  · rw [String.toList_ofList]
    exact .port _ _ (by decide) (paddedPort_valid zeros) (by simp)

/-- Past the digits the interpreter converts, the padded request is routed nowhere. -/
theorem paddedHeaders_refused {zeros : Nat} (h : intMaxStrDigits < zeros + 2) :
    ∀ webrootId, routeHost routingCtx routedConfig (paddedHeaders zeros) ≠ .ok webrootId := by
  intro webrootId hok
  have hconsistent := routedConfig.crossFieldInvariants_ok.1 routedConfig_validates.crossFields
  obtain ⟨_, -, -, domain, -, raw, text, hraw, htext, hnamed⟩ := (routeHost_ok hconsistent).1 hok
  have hvalue : hostValues (paddedHeaders zeros) =
      [("a.example".toList ++ ':' :: paddedPort zeros).map (fun c => c.val.toUInt8)] := rfl
  rw [hvalue] at hraw
  rw [← List.head_eq_of_cons_eq hraw, paddedHeaders_decode] at htext
  obtain ⟨host, hwith, -⟩ := hnamed.host
  rw [← Option.some.inj htext, String.toList_ofList, withPort_port (colon_not_mem (paddedPort_valid zeros).digits)] at hwith
  have hlength := hwith.2.2.2 intMaxStrDigits rfl
  have hzeros : (paddedPort zeros).length = zeros + 2 := by simp [paddedPort]
  omega

end HostRoutingAux

open HostRoutingAux

/-- A validated configuration of normalized domains routes a request to a webroot exactly if its one Host header names a domain
of the one certificate with that webroot, a port being written in at most as many digits as the interpreter converts. Every
spelling of a configured domain routes to its own certificate, and requests that name one host never reach two certificates. -/
theorem host_routing_exact (Γ : Ctx) (libraries : NamingLibraries Γ) (config : AppConfig) (hvalid : config.Validates)
    (hfixed : ∀ certificate ∈ config.certificates, ∀ domain ∈ certificate.domains, normalizeDomain Γ domain = .ok domain) :
    (∀ headers webrootId, routeHost Γ config headers = .ok webrootId ↔
      ∃ certificate ∈ config.certificates, certificate.webrootId = webrootId ∧
        (∀ other ∈ config.certificates, other.webrootId = webrootId → other = certificate) ∧
        ∃ domain ∈ certificate.domains, Names Γ (some intMaxStrDigits) headers domain) ∧
    (∀ certificate ∈ config.certificates, ∀ domain ∈ certificate.domains, ∀ headers raw text,
      hostValues headers = [raw] → decodeAscii raw = some text → Spells domain text.toList →
        routeHost Γ config headers = .ok certificate.webrootId) ∧
    (∀ headers headers' host, Names Γ (some intMaxStrDigits) headers host → Names Γ (some intMaxStrDigits) headers' host →
      ∀ a ∈ config.certificates, ∀ b ∈ config.certificates, routeHost Γ config headers = .ok a.webrootId →
        routeHost Γ config headers' = .ok b.webrootId → a = b) := by
  have hconsistent := config.crossFieldInvariants_ok.1 hvalid.crossFields
  refine ⟨?_, ?_, ?_⟩
  · intro headers webrootId
    rw [routeHost_ok hconsistent]
    constructor
    · rintro ⟨certificate, hin, hroot, hnames⟩
      have hone : ∀ other ∈ config.certificates, other.webrootId = webrootId → other = certificate :=
        fun other ho heq => webroot_unique hconsistent ho hin (heq.trans hroot.symm)
      exact ⟨certificate, hin, hroot, hone, hnames⟩
    · rintro ⟨certificate, hin, hroot, -, hnames⟩
      exact ⟨certificate, hin, hroot, hnames⟩
  · intro certificate hin domain hd headers raw text hraw htext hspells
    have hnames := textNames_of_spells libraries (hfixed certificate hin domain hd) hspells
    exact (routeHost_ok hconsistent).2 ⟨certificate, hin, rfl, domain, hd, raw, text, hraw, htext, hnames⟩
  · intro headers headers' host hnames hnames' a ha b hb hroute hroute'
    have hhost := singleHost_ok.2 hnames
    have hhost' := singleHost_ok.2 hnames'
    unfold routeHost at hroute hroute'
    rw [hhost] at hroute
    rw [hhost'] at hroute'
    have hsame : (Except.ok a.webrootId : Except Exc String) = .ok b.webrootId := hroute.symm.trans hroute'
    exact webroot_unique hconsistent ha hb (Except.ok.inj hsame)

/-- A request for `A.Example.:8080` reaches the webroot of the certificate for `a.example`. -/
theorem host_routing_exact_sample :
    routeHost routingCtx routedConfig [(hostKey, "A.Example.:8080".toList.map (fun c => c.val.toUInt8))] = .ok "web" := by
  have hspells : Spells "a.example" "A.Example.:8080".toList :=
    .port "A.Example.".toList "8080".toList (.dotted "A.Example".toList (by decide +kernel))
      ⟨by decide, by decide, by decide⟩ (by decide)
  have hdomain : "a.example" ∈ routedCertificate.domains := by simp [routedCertificate, Sample.certificate]
  exact (host_routing_exact routingCtx routingCtx_libraries routedConfig routedConfig_validates routedConfig_normalized).2.1
    routedCertificate (by simp [routedConfig, Sample.config]) "a.example" hdomain _ _ "A.Example.:8080" rfl
    (by decide +kernel) hspells

/-- A Host header whose port 80 is written with 4300 leading zeros names a configured domain and is routed nowhere. -/
theorem host_routing_false :
    routedConfig.Validates ∧ (∀ certificate ∈ routedConfig.certificates, ∀ domain ∈ certificate.domains,
      normalizeDomain routingCtx domain = .ok domain) ∧
    (∃ certificate ∈ routedConfig.certificates, ∃ domain ∈ certificate.domains,
      Names routingCtx none (paddedHeaders 4300) domain) ∧
    ∀ webrootId, routeHost routingCtx routedConfig (paddedHeaders 4300) ≠ .ok webrootId := by
  refine ⟨routedConfig_validates, routedConfig_normalized, ?_, ?_⟩
  · exact ⟨routedCertificate, by simp [routedConfig, Sample.config], "a.example",
      by simp [routedCertificate, Sample.certificate], paddedHeaders_names 4300⟩
  · exact paddedHeaders_refused (by decide)

end OciAcmePublisher
