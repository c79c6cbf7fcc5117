import OciAcmePublisher.Theorems.ServedChallenge

/-!
# Normalized domains

Configured domains, host headers, certificate names and audit hostnames are compared by what `normalize_domain` returns. It looks
for an address before `idna.encode` maps the text, and not after it.
-/

namespace OciAcmePublisher

open HostRoutingAux ServedChallengeAux

/-- A label of 1 to 63 characters without a hyphen at either end. -/
structure NormalLabel (label : List Char) : Prop where
  one_le : 1 ≤ label.length
  length_le : label.length ≤ 63
  head : label.head? ≠ some '-'
  last : label.getLast? ≠ some '-'

/-- A normalized domain: ASCII of fixed case, of normal labels, no address, and its own normal form. -/
structure NormalDomain (Γ : Ctx) (domain : String) : Prop where
  idempotent : normalizeDomain Γ domain = .ok domain
  not_address : Γ.isIpAddress domain = false
  ascii : ∀ c ∈ domain.toList, c.toNat < 128 ∧ c ≠ '_' ∧ c ≠ '*' ∧ c.isUpper = false
  no_trailing_dot : domain.toList.getLast? ≠ some '.'
  labels : ∀ label ∈ domain.toList.splitOn '.', NormalLabel label

/-- What is documented of `idna.encode` with the UTS-46 mapping and the STD3 rules, and of an IPv4 address: a mapped text that is
ASCII is returned as it is, a label that is not gets the prefix `xn--`, and an address without colons is digits and dots. -/
structure MappedEncoding (Γ : Ctx) (uts46Remap : String → String) : Prop where
  ascii : ∀ text encoded, Γ.idnaEncode text = some encoded → (∀ c ∈ (uts46Remap text).toList, c.toNat < 128) →
    encoded = uts46Remap text
  prefixed : ∀ text encoded, Γ.idnaEncode text = some encoded → (∃ c ∈ (uts46Remap text).toList, ¬c.toNat < 128) →
    '-' ∈ encoded.toList
  std3 : ∀ text encoded, Γ.idnaEncode text = some encoded → ∀ c ∈ (uts46Remap text).toList, c.toNat < 128 → isLdh c = true
  ipv4 : ∀ address, Γ.isIpAddress address = true → ':' ∉ address.toList → ∀ c ∈ address.toList,
    c = '.' ∨ 48 ≤ c.toNat ∧ c.toNat ≤ 57

namespace NormalDomainAux

/-- The encoding neither makes an address of a mapped text that is none nor hides one. -/
theorem isIpAddress_encode {Γ : Ctx} {uts46Remap : String → String} (libraries : NamingLibraries Γ)
    (mapping : MappedEncoding Γ uts46Remap) {text encoded : String} (h : Γ.idnaEncode text = some encoded) :
    Γ.isIpAddress encoded = Γ.isIpAddress (uts46Remap text) := by
  by_cases hascii : ∀ c ∈ (uts46Remap text).toList, c.toNat < 128
  · rw [mapping.ascii text encoded h hascii]
  · have hyphen : '-' ∈ encoded.toList := mapping.prefixed text encoded h (by simpa using hascii)
    have hencoded : Γ.isIpAddress encoded = false := by
      by_contra hip
      have hcolon : ':' ∉ encoded.toList := fun hc => nomatch libraries.encode text encoded h ':' hc
      have hdigits := mapping.ipv4 encoded ((Bool.not_eq_false _).mp hip) hcolon '-' hyphen
      simp at hdigits
    have hremapped : Γ.isIpAddress (uts46Remap text) = false := by
      by_contra hip
      have hcolon : ':' ∉ (uts46Remap text).toList := fun hc => nomatch mapping.std3 text encoded h ':' hc (by decide)
      refine hascii fun c hc => ?_
      rcases mapping.ipv4 _ ((Bool.not_eq_false _).mp hip) hcolon c hc with rfl | ⟨-, hle⟩
      · decide
      · omega
    rw [hencoded, hremapped]

theorem normalLabel_of_check {label : List Char} (h : checkLabel label = .ok ()) : NormalLabel label := by
  unfold checkLabel at h
  by_cases hlength : 1 ≤ label.length ∧ label.length ≤ 63
  · by_cases hhyphen : label.head? = some '-' ∨ label.getLast? = some '-'
    · simp only [hlength, hhyphen, if_true] at h
      cases h
    · rw [not_or] at hhyphen
      exact ⟨hlength.1, hlength.2, hhyphen.1, hhyphen.2⟩
  · simp only [hlength, not_false_iff, if_true] at h
    cases h

theorem checked_labels {labels : List (List Char)} (h : labels.forM checkLabel = (.ok () : Except Exc Unit)) :
    ∀ label ∈ labels, NormalLabel label := by
  induction labels with
  | nil => simp
  | cons label rest ih =>
    obtain ⟨_, hlabel, hrest⟩ := bind_eq_ok_iff.1 h
    exact List.forall_mem_cons.2 ⟨normalLabel_of_check hlabel, ih hrest⟩

theorem ascii_of_ldh {c : Char} (h : isLdh c = true) : c.toNat < 128 ∧ c ≠ '_' ∧ c ≠ '*' ∧ c.isUpper = false := by
  have hn : (97 ≤ c.toNat ∧ c.toNat ≤ 122) ∨ (48 ≤ c.toNat ∧ c.toNat ≤ 57) ∨ c.toNat = 45 ∨ c.toNat = 46 := by
    simp only [isLdh, Bool.or_eq_true, Bool.and_eq_true, decide_eq_true_eq, beq_iff_eq] at h
    omega
  refine ⟨by omega, ?_, ?_, ?_⟩
  · rintro rfl
    simp at hn
  · rintro rfl
    simp at hn
  · by_contra hupper
    obtain ⟨hlow, hhigh⟩ : c.val ≥ 'A'.val ∧ c.val ≤ 'Z'.val := of_decide_eq_true ((Bool.not_eq_false _).mp hupper)
    have hl : 65 ≤ c.toNat := UInt32.le_iff_toNat_le.1 hlow
    have hu : c.toNat ≤ 90 := UInt32.le_iff_toNat_le.1 hhigh
    omega

end NormalDomainAux

open NormalDomainAux in
/-- What `normalize_domain` returns is a normalized domain exactly if the value it was given is not mapped to an address. -/
theorem normalize_domain_iff (Γ : Ctx) (libraries : NamingLibraries Γ) {uts46Remap : String → String}
    (mapping : MappedEncoding Γ uts46Remap)
    (hagain : ∀ text encoded, Γ.idnaEncode text = some encoded → Γ.idnaEncode encoded = some encoded) {value domain : String}
    (h : normalizeDomain Γ value = .ok domain) :
    NormalDomain Γ domain ↔ Γ.isIpAddress (uts46Remap (Γ.lower (rstripDots (strip value)))) = false := by
  obtain ⟨-, -, hencode, -, hlabels⟩ := normalizeDomain_ok.1 h
  have hmapped : Γ.isIpAddress domain = Γ.isIpAddress (uts46Remap (Γ.lower (rstripDots (strip value)))) :=
    isIpAddress_encode libraries mapping hencode
  rw [← hmapped]
  constructor
  · exact fun hnormal => hnormal.not_address
  · intro hip
    refine ⟨(normalize_again libraries hagain h).2 ⟨rfl, hip⟩, hip, fun c hc => ascii_of_ldh (libraries.encode _ _ hencode c hc),
      fun hdot => ?_, checked_labels hlabels⟩
    obtain ⟨before, hbefore⟩ := List.getLast?_eq_some_iff.1 hdot
    exact (normalized_end h).2 before hbefore

namespace NormalDomainSample

/-- The UTS-46 mapping of one character: full-width digits are digits, letters are lowered. -/
def mapped (c : Char) : Char :=
  if 0xFF10 ≤ c.toNat ∧ c.toNat ≤ 0xFF19 then Char.ofNat (c.toNat - 0xFF10 + 48) else c.toLower

/-- The UTS-46 mapping of a text. -/
def remap (text : String) : String := String.ofList (text.toList.map mapped)

/-- Libraries that map full-width digits. -/
def mappingCtx : Ctx where
  __ := Sample.ctx
  lower text := String.ofList (text.toList.map Char.toLower)
  idnaEncode text := if (remap text).toList.all isLdh then some (remap text) else none
  isIpAddress address := address = "127.0.0.1"

theorem mapped_of_ldh {c : Char} (h : isLdh c = true) : mapped c = c := by
  have hn : ¬(0xFF10 ≤ c.toNat ∧ c.toNat ≤ 0xFF19) := by
    have hlt := (NormalDomainAux.ascii_of_ldh h).1
    omega
  unfold mapped
  rw [if_neg hn]
  exact HostRoutingAux.lower_of_ldh h

theorem mappingCtx_encode {text encoded : String} (h : mappingCtx.idnaEncode text = some encoded) :
    encoded = remap text ∧ ∀ c ∈ (remap text).toList, isLdh c = true := by
  simp only [mappingCtx] at h
  split at h
  · rename_i hall
    cases h
    exact ⟨rfl, List.all_eq_true.1 hall⟩
  · cases h

theorem mappingCtx_libraries : NamingLibraries mappingCtx where
  lower text _ := rfl
  encode text encoded h := by
    obtain ⟨rfl, hldh⟩ := mappingCtx_encode h
    exact hldh

theorem mappingCtx_mapping : MappedEncoding mappingCtx remap where
  ascii text encoded h _ := (mappingCtx_encode h).1
  prefixed text encoded h hchar := by
    obtain ⟨c, hc, hn⟩ := hchar
    exact absurd (NormalDomainAux.ascii_of_ldh ((mappingCtx_encode h).2 c hc)).1 hn
  std3 text encoded h c hc _ := (mappingCtx_encode h).2 c hc
  ipv4 address h _ c hc := by
    obtain rfl : address = "127.0.0.1" := by simpa [mappingCtx] using h
    simp at hc
    rcases hc with rfl | rfl | rfl | rfl | rfl | rfl | rfl | rfl | rfl <;> simp

theorem mappingCtx_again : ∀ text encoded, mappingCtx.idnaEncode text = some encoded →
    mappingCtx.idnaEncode encoded = some encoded := by
  intro text encoded h
  obtain ⟨rfl, hldh⟩ := mappingCtx_encode h
  have hsame : remap (remap text) = remap text := by
    have hmap : (remap text).toList.map mapped = (remap text).toList :=
      (List.map_congr_left fun c hc => mapped_of_ldh (hldh c hc)).trans (List.map_id _)
    rw [remap, hmap, String.ofList_toList]
  simp only [mappingCtx, hsame, List.all_eq_true.2 hldh, if_true]

end NormalDomainSample

/-- It need not be one: full-width digits are no address before the mapping, and one after it. -/
theorem normalize_domain_false :
    NamingLibraries NormalDomainSample.mappingCtx ∧
      MappedEncoding NormalDomainSample.mappingCtx NormalDomainSample.remap ∧
      (∀ text encoded, NormalDomainSample.mappingCtx.idnaEncode text = some encoded →
        NormalDomainSample.mappingCtx.idnaEncode encoded = some encoded) ∧
      normalizeDomain NormalDomainSample.mappingCtx "１２７.0.0.1" = .ok "127.0.0.1" ∧
      NormalDomainSample.mappingCtx.isIpAddress "127.0.0.1" = true ∧
      normalizeDomain NormalDomainSample.mappingCtx "127.0.0.1" = .error (.of .valueError "must not be an IP address") :=
  ⟨NormalDomainSample.mappingCtx_libraries, NormalDomainSample.mappingCtx_mapping, NormalDomainSample.mappingCtx_again,
    by decide +kernel, by decide +kernel, by decide +kernel⟩

/-- A domain with capitals, full-width digits and a trailing dot. -/
theorem normalize_domain_iff_sample : NormalDomain NormalDomainSample.mappingCtx "a1.example" :=
  (normalize_domain_iff NormalDomainSample.mappingCtx NormalDomainSample.mappingCtx_libraries
    NormalDomainSample.mappingCtx_mapping NormalDomainSample.mappingCtx_again
    (show normalizeDomain NormalDomainSample.mappingCtx " A１.Example. " = .ok "a1.example" by decide +kernel)).2
    (by decide +kernel)

end OciAcmePublisher
