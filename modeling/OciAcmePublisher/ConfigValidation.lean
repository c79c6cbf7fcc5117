import OciAcmePublisher.Certificates
import Mathlib.Data.List.Infix
import Mathlib.Data.List.Pairwise

/-!
# Configuration validation

The model validators of `config.py`: what `CertificateConfig` checks of one certificate and what `AppConfig` checks across all of
them. The loop over the certificates keeps the domains and the OCIDs it has seen; an OCID is looked up in the entry written last.
-/

namespace OciAcmePublisher

/-- `needle in text`. -/
def isIn (needle text : String) : Bool := decide (needle.toList <:+: text.toList)

/-- `text.startswith(start)`. -/
def startsWith (text start : String) : Bool := start.toList.isPrefixOf text.toList

/-- `len(text.encode("utf-8"))`. -/
def utf8Length (text : String) : Nat := text.utf8ByteSize

/-- `_CN_MAX_BYTES`. -/
def cnMaxBytes : Nat := 64

/-- `certificate_invariants`. -/
def CertificateConfig.certificateInvariants (self : CertificateConfig) : Except Exc Unit := do
  if self.domains = [] then
    throw (.of .valueError "domains must not be empty")
  if ¬self.domains.Nodup then
    throw (.of .valueError "domains must be unique within a certificate")
  if self.domains.head? ≠ some self.commonName then
    throw (.of .valueError "common_name must be the first domain")
  if cnMaxBytes < utf8Length self.commonName then
    throw (.of .valueError "common_name exceeds 64 bytes")
  if self.oci.certificateOcid.any (fun ocid => !startsWith ocid "ocid1.certificate.") then
    throw (.of .valueError "certificate_ocid is not an OCI certificate OCID")
  if self.audit.mode ≠ .disabled ∧ self.audit.endpoints = [] then
    throw (.of .valueError "audit endpoints are required unless audit mode is disabled")

/-- The domains and the OCIDs of the certificates the loop has passed. -/
structure SeenCertificates where
  domains : List String := []
  ocids : List (String × CertificateConfig) := []

/-- The certificate the loop is at, added to what it has seen. -/
def SeenCertificates.update (seen : SeenCertificates) (certificate : CertificateConfig) : SeenCertificates where
  domains := certificate.domains ++ seen.domains
  ocids :=
    match certificate.oci.certificateOcid with
    | some ocid => (ocid, certificate) :: seen.ocids
    | none => seen.ocids

/-- `sorted(duplicate)[0]` of the domains seen before, none where there is no duplicate. -/
def SeenCertificates.duplicate (seen : SeenCertificates) (certificate : CertificateConfig) : Option String :=
  ((certificate.domains.filter seen.domains.contains).mergeSort (fun a b => decide (a ≤ b))).head?

/-- The certificate seen last under the OCID of this one has another Common Name. -/
def SeenCertificates.incompatible (seen : SeenCertificates) (certificate : CertificateConfig) : Bool :=
  match certificate.oci.certificateOcid with
  | none => false
  | some ocid => (seen.ocids.lookup ocid).any (fun previous => previous.commonName != certificate.commonName)

/-- The loop of `cross_field_invariants` over the certificates. -/
def checkCertificates : SeenCertificates → List CertificateConfig → Except Exc Unit
  | _, [] => .ok ()
  | seen, certificate :: rest =>
    match seen.duplicate certificate with
    | some domain => .error (.of .valueError s!"domain configured by multiple certificate sets: {domain}")
    | none =>
      if seen.incompatible certificate then
        .error (.of .valueError "certificate OCID cannot have incompatible common names")
      else checkCertificates (seen.update certificate) rest

/-- `certificates_dir.rstrip("/")`. -/
def rstripSlashes (value : String) : String :=
  String.ofList (value.toList.reverse.dropWhile (· == '/')).reverse

/-- The checks of `cross_field_invariants` that read the settings alone. -/
def AppConfig.settingsInvariants (self : AppConfig) : Except Exc Unit := do
  if self.global.environment = .production ∧ isIn "staging" self.acme.directoryUrl then
    throw (.of .valueError "production environment cannot use an ACME staging directory")
  if self.global.environment = .staging ∧ ¬isIn "staging" self.acme.directoryUrl then
    throw (.of .valueError "staging environment must use an ACME staging directory")
  if startsWith self.http01.webrootBase (rstripSlashes self.acme.certificatesDir ++ "/") then
    throw (.of .valueError "webroot_base must not be inside ACME certificates_dir")

/-- `cross_field_invariants`. -/
def AppConfig.crossFieldInvariants (self : AppConfig) : Except Exc Unit := do
  if self.certificates = [] then
    throw (.of .valueError "certificates must not be empty")
  if ¬(self.certificates.map (·.id)).Nodup then
    throw (.of .valueError "certificate ids must be globally unique")
  if ¬(self.certificates.map (·.webrootId)).Nodup then
    throw (.of .valueError "webroot_id must be globally unique")
  checkCertificates {} self.certificates
  self.settingsInvariants

/-- The configuration passes the model validators: those of its certificates, then its own. -/
structure AppConfig.Validates (config : AppConfig) : Prop where
  certificates : ∀ certificate ∈ config.certificates, certificate.certificateInvariants = .ok ()
  crossFields : config.crossFieldInvariants = .ok ()

/-! ## What the validators accept -/

/-- Two certificates that the loop accepts side by side: no common domain, and no common OCID under two Common Names. -/
structure CertificateConfig.Compatible (a b : CertificateConfig) : Prop where
  domains : a.domains.Disjoint b.domains
  ocid : a.oci.certificateOcid.isSome → a.oci.certificateOcid = b.oci.certificateOcid → a.commonName = b.commonName

theorem CertificateConfig.Compatible.symm {a b : CertificateConfig} (h : a.Compatible b) : b.Compatible a where
  domains := List.disjoint_comm.1 h.domains
  ocid hsome heq := by
    rw [heq] at hsome
    exact (h.ocid hsome heq.symm).symm

theorem SeenCertificates.duplicate_eq_none {seen : SeenCertificates} {certificate : CertificateConfig} :
    seen.duplicate certificate = none ↔ certificate.domains.Disjoint seen.domains := by
  unfold SeenCertificates.duplicate
  rw [List.head?_eq_none_iff]
  constructor
  · intro h domain hd hs
    have hnil : certificate.domains.filter seen.domains.contains = [] := by
      have hlen : ((certificate.domains.filter seen.domains.contains).mergeSort (fun a b => decide (a ≤ b))).length =
          (certificate.domains.filter seen.domains.contains).length := List.length_mergeSort _
      rw [h] at hlen
      exact List.eq_nil_of_length_eq_zero hlen.symm
    have hmem : domain ∈ certificate.domains.filter seen.domains.contains :=
      List.mem_filter.2 ⟨hd, List.contains_iff_mem.2 hs⟩
    rw [hnil] at hmem
    cases hmem
  · intro h
    have hnil : certificate.domains.filter seen.domains.contains = [] := by
      rw [List.filter_eq_nil_iff]
      intro domain hd hs
      exact h hd (List.contains_iff_mem.1 hs)
    rw [hnil, List.mergeSort_nil]

/-- What the loop has seen is what the certificates before it configure, and these are pairwise compatible. -/
structure SeenCertificates.Of (seen : SeenCertificates) (passed : List CertificateConfig) : Prop where
  domains : ∀ domain, domain ∈ seen.domains ↔ ∃ certificate ∈ passed, domain ∈ certificate.domains
  sound : ∀ ocid certificate, (ocid, certificate) ∈ seen.ocids →
    certificate ∈ passed ∧ certificate.oci.certificateOcid = some ocid
  complete : ∀ certificate ∈ passed, ∀ ocid, certificate.oci.certificateOcid = some ocid →
    (ocid, certificate) ∈ seen.ocids
  pairwise : passed.Pairwise CertificateConfig.Compatible

theorem SeenCertificates.of_nil : ({} : SeenCertificates).Of [] where
  domains := by simp
  sound := by simp
  complete := by simp
  pairwise := .nil

theorem mem_of_lookup {entries : List (String × CertificateConfig)} {ocid : String} {certificate : CertificateConfig}
    (h : entries.lookup ocid = some certificate) : (ocid, certificate) ∈ entries := by
  obtain ⟨before, after, heq, -⟩ := List.lookup_eq_some_iff.1 h
  rw [heq]
  simp

instance : Std.Symm CertificateConfig.Compatible := ⟨fun _ _ h => h.symm⟩

/-- One turn of the loop: the certificate passes exactly if it is compatible with every certificate before it. -/
theorem SeenCertificates.Of.passes {seen : SeenCertificates} {passed : List CertificateConfig} (h : seen.Of passed)
    (certificate : CertificateConfig) :
    (seen.duplicate certificate = none ∧ seen.incompatible certificate = false) ↔
      ∀ other ∈ passed, other.Compatible certificate := by
  rw [SeenCertificates.duplicate_eq_none]
  constructor
  · intro ⟨hd, hi⟩ other ho
    constructor
    · intro domain hother hcert
      exact hd hcert ((h.domains domain).2 ⟨other, ho, hother⟩)
    · intro hsome heq
      obtain ⟨ocid, hocid⟩ := Option.isSome_iff_exists.1 hsome
      have hcert : certificate.oci.certificateOcid = some ocid := by rw [← heq, hocid]
      have hin := h.complete other ho ocid hocid
      have hsomeEntry : (seen.ocids.lookup ocid).isSome := List.lookup_isSome_iff.2 ⟨_, hin, beq_self_eq_true ocid⟩
      obtain ⟨previous, hprevious⟩ := Option.isSome_iff_exists.1 hsomeEntry
      have hcn : previous.commonName = certificate.commonName := by
        unfold SeenCertificates.incompatible at hi
        rw [hcert] at hi
        simpa [hprevious] using hi
      obtain ⟨hp, hpo⟩ := h.sound ocid previous (mem_of_lookup hprevious)
      by_cases hsame : other = previous
      · rw [hsame, hcn]
      · have hcompat : other.Compatible previous := h.pairwise.forall ho hp hsame
        rw [hcompat.ocid hsome (by rw [hocid, hpo]), hcn]
  · intro hall
    constructor
    · intro domain hcert hseen
      obtain ⟨other, ho, hdomain⟩ := (h.domains domain).1 hseen
      exact (hall other ho).domains hdomain hcert
    · unfold SeenCertificates.incompatible
      cases hocid : certificate.oci.certificateOcid with
      | none => rfl
      | some ocid =>
        show (seen.ocids.lookup ocid).any (fun previous => previous.commonName != certificate.commonName) = false
        cases hprevious : seen.ocids.lookup ocid with
        | none => rfl
        | some previous =>
          obtain ⟨hp, hpo⟩ := h.sound ocid previous (mem_of_lookup hprevious)
          have hcn := (hall previous hp).ocid (by simp [hpo]) (by rw [hpo, hocid])
          simp [hcn]

/-- What the loop has seen after a certificate that passes. -/
theorem SeenCertificates.Of.update {seen : SeenCertificates} {passed : List CertificateConfig} (h : seen.Of passed)
    {certificate : CertificateConfig} (hall : ∀ other ∈ passed, other.Compatible certificate) :
    (seen.update certificate).Of (certificate :: passed) where
  domains domain := by
    simp only [SeenCertificates.update, List.mem_append, h.domains, List.mem_cons, exists_eq_or_imp]
  sound ocid other hin := by
    unfold SeenCertificates.update at hin
    cases hocid : certificate.oci.certificateOcid with
    | none =>
      simp only [hocid] at hin
      obtain ⟨hp, ho⟩ := h.sound ocid other hin
      exact ⟨List.mem_cons_of_mem _ hp, ho⟩
    | some own =>
      simp only [hocid, List.mem_cons] at hin
      rcases hin with heq | hin
      · cases heq
        exact ⟨List.mem_cons_self, hocid⟩
      · obtain ⟨hp, ho⟩ := h.sound ocid other hin
        exact ⟨List.mem_cons_of_mem _ hp, ho⟩
  complete other hother ocid ho := by
    unfold SeenCertificates.update
    rcases List.mem_cons.1 hother with rfl | hp
    · simp only [ho]
      exact List.mem_cons_self
    · have hin := h.complete other hp ocid ho
      cases hocid : certificate.oci.certificateOcid with
      | none => exact hin
      | some own => exact List.mem_cons_of_mem _ hin
  pairwise := List.pairwise_cons.2 ⟨fun other ho => (hall other ho).symm, h.pairwise⟩

/-- The loop accepts the certificates exactly if each is compatible with those before it. -/
theorem checkCertificates_ok {seen : SeenCertificates} {passed : List CertificateConfig} (h : seen.Of passed)
    (certificates : List CertificateConfig) :
    checkCertificates seen certificates = .ok () ↔
      (∀ a ∈ passed, ∀ b ∈ certificates, a.Compatible b) ∧ certificates.Pairwise CertificateConfig.Compatible := by
  induction certificates generalizing seen passed with
  | nil => simp [checkCertificates]
  | cons certificate rest ih =>
    have hpass := h.passes certificate
    by_cases hall : ∀ other ∈ passed, other.Compatible certificate
    · obtain ⟨hd, hi⟩ := hpass.2 hall
      have hstep : checkCertificates seen (certificate :: rest) = checkCertificates (seen.update certificate) rest := by
        simp [checkCertificates, hd, hi]
      rw [hstep, ih (h.update hall)]
      simp only [List.mem_cons, forall_eq_or_imp, List.pairwise_cons]
      constructor
      · intro ⟨⟨hown, hpassed⟩, hrest⟩
        exact ⟨fun a ha => ⟨hall a ha, hpassed a ha⟩, hown, hrest⟩
      · intro ⟨hpassed, hown, hrest⟩
        exact ⟨⟨hown, fun a ha => (hpassed a ha).2⟩, hrest⟩
    · have hstop : checkCertificates seen (certificate :: rest) ≠ .ok () := by
        intro hok
        apply hall
        apply hpass.1
        unfold checkCertificates at hok
        cases hd : seen.duplicate certificate with
        | some domain => simp [hd] at hok
        | none =>
          cases hi : seen.incompatible certificate with
          | true => simp [hd, hi] at hok
          | false => exact ⟨rfl, rfl⟩
      constructor
      · intro hok
        exact absurd hok hstop
      · intro ⟨hpassed, _⟩
        exact absurd (fun other ho => hpassed other ho certificate List.mem_cons_self) hall

/-- What `cross_field_invariants` promises. -/
structure AppConfig.Consistent (config : AppConfig) : Prop where
  nonempty : config.certificates ≠ []
  ids : (config.certificates.map (·.id)).Nodup
  webroots : (config.certificates.map (·.webrootId)).Nodup
  compatible : config.certificates.Pairwise CertificateConfig.Compatible
  settings : config.settingsInvariants = .ok ()

theorem AppConfig.crossFieldInvariants_ok (config : AppConfig) :
    config.crossFieldInvariants = .ok () ↔ config.Consistent := by
  have hloop := checkCertificates_ok SeenCertificates.of_nil config.certificates
  unfold AppConfig.crossFieldInvariants
  by_cases hnil : config.certificates = []
  · constructor
    · intro h
      rw [if_pos hnil] at h
      cases h
    · intro h
      exact absurd hnil h.nonempty
  by_cases hids : (config.certificates.map (·.id)).Nodup
  · by_cases hroots : (config.certificates.map (·.webrootId)).Nodup
    · rw [if_neg hnil, if_neg (not_not.2 hids), if_neg (not_not.2 hroots)]
      cases hcheck : checkCertificates {} config.certificates with
      | error x =>
        constructor
        · intro h
          cases h
        · intro h
          have hok := hloop.2 ⟨by simp, h.compatible⟩
          rw [hcheck] at hok
          cases hok
      | ok u =>
        constructor
        · intro h
          exact ⟨hnil, hids, hroots, (hloop.1 hcheck).2, h⟩
        · intro h
          exact h.settings
    · constructor
      · intro h
        rw [if_neg hnil, if_neg (not_not.2 hids), if_pos hroots] at h
        cases h
      · intro h
        exact absurd h.webroots hroots
  · constructor
    · intro h
      rw [if_neg hnil, if_pos hids] at h
      cases h
    · intro h
      exact absurd h.ids hids

/-- A domain belongs to one certificate of a validated configuration. -/
theorem AppConfig.Consistent.owner_unique {config : AppConfig} (h : config.Consistent) {a b : CertificateConfig}
    (ha : a ∈ config.certificates) (hb : b ∈ config.certificates) {domain : String} (hda : domain ∈ a.domains)
    (hdb : domain ∈ b.domains) : a = b := by
  by_contra hne
  exact (h.compatible.forall ha hb hne).domains hda hdb

end OciAcmePublisher
