import OciAcmePublisher.CertificateValidator
import OciAcmePublisher.Simulation

/-!
# Subject alternative names

Both validators compare the DNS names of a leaf with the configured domains as lists, and read no other general name. So they
answer the question whether the leaf names exactly the configured domains except in two cases: a leaf that lists the domains in
another order, or one of them twice, is rejected though it names nothing else, and a leaf that lists them in order and carries a
name of another type besides is accepted. The order itself is compared as a set where it is placed.
-/

namespace OciAcmePublisher

/-- The text of a DNS name. -/
def GeneralName.dns? : GeneralName → Option String
  | .dns value => some value
  | _ => none

/-- The general name is the DNS name `domain`, up to normalization. -/
def GeneralName.Names (Γ : Ctx) (name : GeneralName) (domain : String) : Prop :=
  ∃ value, name = .dns value ∧ normalizeDomain Γ value = .ok domain

/-- The general names of the leaf are the DNS names `domains`, as sets. -/
def NamesExactly (Γ : Ctx) (leaf : X509) (domains : List String) : Prop :=
  ∃ names, leaf.subjectAltNames = some names ∧
    (∀ name ∈ names, ∃ domain ∈ domains, name.Names Γ domain) ∧ ∀ domain ∈ domains, ∃ name ∈ names, name.Names Γ domain

/-- The leaf lists the configured domains and nothing else, but in another order or with a repetition. -/
def Rearranged (Γ : Ctx) (leaf : X509) (domains : List String) : Prop :=
  ∃ names listed, leaf.subjectAltNames = some names ∧ List.Forall₂ (GeneralName.Names Γ) names listed ∧
    (∀ domain, domain ∈ listed ↔ domain ∈ domains) ∧ listed ≠ domains

/-- The DNS names of the leaf are the configured domains in order, and it carries a name of another type besides. -/
def Surplus (Γ : Ctx) (leaf : X509) (domains : List String) : Prop :=
  ∃ names, leaf.subjectAltNames = some names ∧
    List.Forall₂ (fun value domain => normalizeDomain Γ value = .ok domain) (names.filterMap GeneralName.dns?) domains ∧
      ∃ name ∈ names, name.dns? = none

/-- The checks of `validate_certificate_material` but the one of the names. -/
def validateApartFromNames (Γ : Ctx) (material : LineageMaterial) (certificate : CertificateConfig)
    (compatibility : CompatibilityConfig) (global : GlobalConfig) (now : Instant) : Except Exc Unit := do
  let leaf := material.leaf
  let name ← commonName Γ leaf
  require (name = certificate.commonName)
    (validationError "certificate Common Name does not match configuration")
  require (leaf.publicKey.spki = material.privateKey.publicKey.spki)
    (validationError "private key does not match certificate")
  validateValidity leaf global now
  validateExtensions leaf
  validateKey leaf certificate
  validateCountry leaf compatibility
  require (¬(global.environment = .production ∧ containsText "Fake LE" leaf.issuer = true))
    (validationError "staging certificate cannot be published in production")
  require (¬(10240 < material.leafPem.length ∨ 5120 < material.privateKeyPem.length))
    (validationError "certificate or private key exceeds OCI size limit")
  require (¬51200 < material.leafPem.length + material.chainPem.length)
    (validationError "certificate bundle exceeds OCI size limit")
  verifyIssuedByFirst Γ material

/-- The checks of `validate_public_certificate` on the parsed leaf but the one of the names. -/
def validatePublicApartFromNames (Γ : Ctx) (leaf : X509) (certificate : CertificateConfig) (global : GlobalConfig)
    (now : Instant) : Except Exc Unit := do
  let name ← commonName Γ leaf
  require (name = certificate.commonName)
    (validationError "OCI public bundle Common Name does not match configuration")
  validateValidity leaf global now

namespace SubjectNamesAux

/-- Text that is normalized one by one. -/
theorem mapM_normalize_iff {Γ : Ctx} {values domains : List String} :
    values.mapM (normalizeDomain Γ) = .ok domains ↔
      List.Forall₂ (fun value domain => normalizeDomain Γ value = .ok domain) values domains := by
  induction values generalizing domains with
  | nil =>
    rw [List.mapM_nil, List.forall₂_nil_left_iff]
    constructor
    · intro h
      cases h
      rfl
    · rintro rfl
      rfl
  | cons value rest ih =>
    rw [List.mapM_cons, bind_eq_ok_iff, List.forall₂_cons_left_iff]
    constructor
    · rintro ⟨domain, hvalue, h⟩
      obtain ⟨listed, hrest, hret⟩ := bind_eq_ok_iff.1 h
      cases hret
      exact ⟨domain, listed, hvalue, ih.1 hrest, rfl⟩
    · rintro ⟨domain, listed, hvalue, hrest, rfl⟩
      exact ⟨domain, hvalue, bind_eq_ok_iff.2 ⟨listed, ih.2 hrest, rfl⟩⟩

/-- The DNS names the validator reads are the configured domains where they normalize to them in order. -/
theorem dnsSans_eq_ok_iff {Γ : Ctx} {leaf : X509} {domains : List String} :
    dnsSans Γ leaf = .ok domains ↔ ∃ names, leaf.subjectAltNames = some names ∧
      List.Forall₂ (fun value domain => normalizeDomain Γ value = .ok domain) (names.filterMap GeneralName.dns?)
        domains := by
  unfold dnsSans
  cases leaf.subjectAltNames with
  | none =>
    constructor
    · intro h
      cases h
    · rintro ⟨names, h, -⟩
      cases h
  | some names =>
    have hvalues (f : GeneralName → Option String) (hf : ∀ name, f name = name.dns?) :
        names.filterMap f = names.filterMap GeneralName.dns? := by
      rw [funext hf]
    simp only
    rw [hvalues _ fun name => by cases name <;> rfl]
    constructor
    · intro h
      cases hall : (names.filterMap GeneralName.dns?).mapM (normalizeDomain Γ) with
      | error x =>
        rw [hall] at h
        cases h
      | ok listed =>
        rw [hall] at h
        cases h
        exact ⟨names, rfl, mapM_normalize_iff.1 hall⟩
    · rintro ⟨names', hnames, hall⟩
      cases hnames
      rw [mapM_normalize_iff.2 hall]

section

variable {α β : Type} {R : α → β → Prop} {l : List α} {r : List β}

theorem related_of_mem_left (h : List.Forall₂ R l r) {a : α} (ha : a ∈ l) : ∃ b ∈ r, R a b := by
  induction h with
  | nil => cases ha
  | cons hhead _ ih =>
    rcases List.mem_cons.1 ha with rfl | ha
    · exact ⟨_, List.mem_cons_self, hhead⟩
    · obtain ⟨b, hb, hab⟩ := ih ha
      exact ⟨b, List.mem_cons_of_mem _ hb, hab⟩

theorem related_of_mem_right (h : List.Forall₂ R l r) {b : β} (hb : b ∈ r) : ∃ a ∈ l, R a b :=
  related_of_mem_left (List.Forall₂.flip (R := flip R) h) hb

/-- Where every element is related to one of `bs`, the related ones can be listed in order. -/
theorem exists_listed {bs : List β} (h : ∀ a ∈ l, ∃ b ∈ bs, R a b) : ∃ r, List.Forall₂ R l r ∧ ∀ b ∈ r, b ∈ bs := by
  induction l with
  | nil => exact ⟨[], .nil, fun b hb => by cases hb⟩
  | cons a rest ih =>
    obtain ⟨b, hb, hab⟩ := h a List.mem_cons_self
    obtain ⟨r, hr, hmem⟩ := ih fun a' ha' => h a' (List.mem_cons_of_mem a ha')
    refine ⟨b :: r, .cons hab hr, fun b' hb' => ?_⟩
    rcases List.mem_cons.1 hb' with rfl | hb'
    · exact hb
    · exact hmem b' hb'

end

variable {Γ : Ctx} {names : List GeneralName} {listed domains : List String}

theorem names_unique {name : GeneralName} {d d' : String} (h : name.Names Γ d) (h' : name.Names Γ d') : d = d' := by
  obtain ⟨value, rfl, hd⟩ := h
  obtain ⟨value', heq, hd'⟩ := h'
  cases heq
  rw [hd] at hd'
  cases hd'
  rfl

/-- The general names are DNS names that normalize to `listed` where there is no other one and the DNS names do. -/
theorem forall₂_names_iff : List.Forall₂ (GeneralName.Names Γ) names listed ↔
    (∀ name ∈ names, name.dns? ≠ none) ∧
      List.Forall₂ (fun value domain => normalizeDomain Γ value = .ok domain) (names.filterMap GeneralName.dns?) listed := by
  induction names generalizing listed with
  | nil => simp
  | cons name rest ih =>
    cases name with
    | dns value =>
      rw [List.forall₂_cons_left_iff, List.filterMap_cons_some (f := GeneralName.dns?) (a := .dns value) (b := value) rfl, List.forall₂_cons_left_iff]
      constructor
      · rintro ⟨domain, tail, ⟨value', heq, hdomain⟩, htail, rfl⟩
        cases heq
        obtain ⟨hdns, hrest⟩ := ih.1 htail
        refine ⟨fun name hname => ?_, domain, tail, hdomain, hrest, rfl⟩
        rcases List.mem_cons.1 hname with rfl | hname
        · exact fun h => by cases h
        · exact hdns name hname
      · rintro ⟨hdns, domain, tail, hdomain, hrest, rfl⟩
        have htail := ih.2 ⟨fun name hname => hdns name (List.mem_cons_of_mem _ hname), hrest⟩
        exact ⟨domain, tail, ⟨value, rfl, hdomain⟩, htail, rfl⟩
    | _ =>
      constructor
      · intro h
        obtain ⟨_, _, ⟨_, heq, _⟩, _⟩ := List.forall₂_cons_left_iff.1 h
        cases heq
      · rintro ⟨hdns, -⟩
        exact absurd rfl (hdns _ List.mem_cons_self)

/-- Names listed in order that are the domains as a set name exactly the domains. -/
theorem namesExactly_of_listed {leaf : X509} (hnames : leaf.subjectAltNames = some names)
    (hlisted : List.Forall₂ (GeneralName.Names Γ) names listed) (hsame : ∀ d, d ∈ listed ↔ d ∈ domains) :
    NamesExactly Γ leaf domains := by
  refine ⟨names, hnames, fun name hname => ?_, fun d hd => ?_⟩
  · obtain ⟨d, hd, hn⟩ := related_of_mem_left hlisted hname
    exact ⟨d, (hsame d).1 hd, hn⟩
  · exact related_of_mem_right hlisted ((hsame d).2 hd)

/-- Conversely, names that are exactly the domains can be listed in order, as the same set. -/
theorem listed_of_namesExactly {leaf : X509} (h : NamesExactly Γ leaf domains) :
    ∃ names listed, leaf.subjectAltNames = some names ∧ List.Forall₂ (GeneralName.Names Γ) names listed ∧
      ∀ d, d ∈ listed ↔ d ∈ domains := by
  obtain ⟨names, hnames, hleft, hright⟩ := h
  obtain ⟨listed, hlisted, hmem⟩ := exists_listed hleft
  refine ⟨names, listed, hnames, hlisted, fun d => ⟨hmem d, fun hd => ?_⟩⟩
  obtain ⟨name, hname, hn⟩ := hright d hd
  obtain ⟨d', hd', hn'⟩ := related_of_mem_left hlisted hname
  exact names_unique hn hn' ▸ hd'

/-- The comparison of lists answers for the sets exactly where the leaf is in neither of the two cases. -/
theorem dnsSans_exact_iff (leaf : X509) :
    (dnsSans Γ leaf = .ok domains ↔ NamesExactly Γ leaf domains) ↔ ¬Rearranged Γ leaf domains ∧ ¬Surplus Γ leaf domains := by
  rw [dnsSans_eq_ok_iff]
  constructor
  · intro hiff
    constructor
    · rintro ⟨names, listed, hnames, hlisted, hsame, hne⟩
      obtain ⟨names', hnames', horder⟩ := hiff.2 (namesExactly_of_listed hnames hlisted hsame)
      rw [hnames] at hnames'
      cases hnames'
      have hvalues := (forall₂_names_iff.1 hlisted).2
      refine hne (List.right_unique_forall₂' (fun value d d' hd hd' => ?_) hvalues horder)
      rw [hd] at hd'
      cases hd'
      rfl
    · rintro ⟨names, hnames, horder, name, hname, hother⟩
      obtain ⟨names', hnames', hleft, -⟩ := hiff.1 ⟨names, hnames, horder⟩
      rw [hnames] at hnames'
      cases hnames'
      obtain ⟨d, -, value, rfl, -⟩ := hleft name hname
      cases hother
  · rintro ⟨hordered, hplain⟩
    constructor
    · rintro ⟨names, hnames, horder⟩
      have hdns : ∀ name ∈ names, name.dns? ≠ none :=
        fun name hname hother => hplain ⟨names, hnames, horder, name, hname, hother⟩
      exact namesExactly_of_listed hnames (forall₂_names_iff.2 ⟨hdns, horder⟩) fun d => Iff.rfl
    · intro hexact
      obtain ⟨names, listed, hnames, hlisted, hsame⟩ := listed_of_namesExactly hexact
      have heq : listed = domains := by
        by_contra hne
        exact hordered ⟨names, listed, hnames, hlisted, hsame, hne⟩
      subst heq
      exact ⟨names, hnames, (forall₂_names_iff.1 hlisted).2⟩

/-- Material that passes the other checks is accepted where its DNS names are the configured list. -/
theorem material_accepted_iff {material : LineageMaterial} {certificate : CertificateConfig}
    {compatibility : CompatibilityConfig} {global : GlobalConfig} {now : Instant}
    (hrest : validateApartFromNames Γ material certificate compatibility global now = .ok ()) :
    (∃ fingerprint, validateCertificateMaterial Γ material certificate compatibility global now = .ok fingerprint) ↔
      dnsSans Γ material.leaf = .ok certificate.domains := by
  constructor
  · rintro ⟨fingerprint, h⟩
    exact (validateCertificateMaterial_ok h).1.domains
  · intro hsans
    simp only [validateApartFromNames, bind_eq_ok_iff, require_eq_ok_iff] at hrest
    obtain ⟨name, hname, _, hcn, _, hspki, _, hval, _, hext, _, hkey, _, hcountry, _, hstaging, _, hsize, _, hbundle,
      hsigned⟩ := hrest
    refine ⟨certificateSha256 material.leaf, ?_⟩
    simp only [validateCertificateMaterial, bind_eq_ok_iff, require_eq_ok_iff]
    exact ⟨name, hname, (), hcn, certificate.domains, hsans, (), rfl, (), hspki, (), hval, (), hext, (), hkey, (), hcountry,
      (), hstaging, (), hsize, (), hbundle, (), hsigned, rfl⟩

theorem public_accepted_iff {leaf : X509} {pem : String} {certificate : CertificateConfig} {global : GlobalConfig}
    {now : Instant} (hpem : (encodeAscii pem).bind Γ.loadPem = some leaf)
    (hrest : validatePublicApartFromNames Γ leaf certificate global now = .ok ()) :
    (∃ fingerprint, validatePublicCertificate Γ pem certificate global now = .ok fingerprint) ↔
      dnsSans Γ leaf = .ok certificate.domains := by
  unfold validatePublicCertificate
  rw [hpem]
  constructor
  · rintro ⟨fingerprint, h⟩
    exact (validatePublicLeaf_ok h).2.1
  · intro hsans
    simp only [validatePublicApartFromNames, bind_eq_ok_iff, require_eq_ok_iff] at hrest
    obtain ⟨name, hname, _, hcn, hval⟩ := hrest
    refine ⟨certificateSha256 leaf, ?_⟩
    simp only [validatePublicLeaf, bind_eq_ok_iff, require_eq_ok_iff]
    exact ⟨name, hname, (), hcn, certificate.domains, hsans, (), rfl, (), hval, rfl⟩

end SubjectNamesAux

/-- Neither of the two cases. -/
def PlainlyListed (Γ : Ctx) (leaf : X509) (domains : List String) : Prop :=
  ¬Rearranged Γ leaf domains ∧ ¬Surplus Γ leaf domains

/-- Both validators accept a leaf that passes their other checks if and only if its general names are the configured domains as
sets, exactly where the leaf neither rearranges the domains nor carries a name of another type beside them. -/
theorem san_exact_iff (Γ : Ctx) (certificate : CertificateConfig) (compatibility : CompatibilityConfig)
    (global : GlobalConfig) (now : Instant) :
    (∀ material, validateApartFromNames Γ material certificate compatibility global now = .ok () →
        (((∃ fingerprint, validateCertificateMaterial Γ material certificate compatibility global now = .ok fingerprint) ↔
            NamesExactly Γ material.leaf certificate.domains) ↔ PlainlyListed Γ material.leaf certificate.domains)) ∧
      ∀ pem leaf, (encodeAscii pem).bind Γ.loadPem = some leaf →
        validatePublicApartFromNames Γ leaf certificate global now = .ok () →
        (((∃ fingerprint, validatePublicCertificate Γ pem certificate global now = .ok fingerprint) ↔
            NamesExactly Γ leaf certificate.domains) ↔ PlainlyListed Γ leaf certificate.domains) := by
  constructor
  · intro material hrest
    rw [SubjectNamesAux.material_accepted_iff hrest]
    exact SubjectNamesAux.dnsSans_exact_iff material.leaf
  · intro pem leaf hpem hrest
    rw [SubjectNamesAux.public_accepted_iff hpem hrest]
    exact SubjectNamesAux.dnsSans_exact_iff leaf

/-- A leaf for two domains that the authority has sorted. -/
def sortedLeaf : X509 :=
  { Sample.leaf 2 with subjectAltNames := some [.dns "a.example", .dns "b.example"], commonNames := [some "b.example"] }

/-- The certificate that lists its Common Name first. -/
def unsortedCertificate : CertificateConfig :=
  { Sample.certificate with commonName := "b.example", domains := ["b.example", "a.example"] }

/-- A leaf that lists the same two domains with the Common Name first. -/
def listedLeaf : X509 :=
  { Sample.leaf 2 with subjectAltNames := some [.dns "b.example", .dns "a.example"], commonNames := [some "b.example"] }

/-- A context where every PEM is that of the leaf. -/
def listedCtx : Ctx := { Sample.ctx with loadPem := fun _ => some listedLeaf }

/-- The local material with that leaf is accepted, so the leaf names the two domains exactly, so its public bundle is accepted. -/
theorem san_exact_iff_sample :
    NamesExactly listedCtx listedLeaf unsortedCertificate.domains ∧
      ∃ fingerprint, validatePublicCertificate listedCtx "" unsortedCertificate
        { environment := .staging, stateDir := "/state" } (days 1) = .ok fingerprint := by
  have hlisted : List.Forall₂ (GeneralName.Names listedCtx) [.dns "b.example", .dns "a.example"] ["b.example", "a.example"] :=
    .cons ⟨"b.example", rfl, by decide +kernel⟩ (.cons ⟨"a.example", rfl, by decide +kernel⟩ .nil)
  have hplain : PlainlyListed listedCtx listedLeaf unsortedCertificate.domains := by
    constructor
    · rintro ⟨names, listed, hnames, hlisted', -, hne⟩
      cases hnames
      exact hne (List.right_unique_forall₂' (R := GeneralName.Names listedCtx)
        (fun _ _ _ h h' => SubjectNamesAux.names_unique h h') hlisted' hlisted)
    · rintro ⟨names, hnames, -, name, hname, hother⟩
      cases hnames
      rcases List.mem_pair.1 hname with rfl | rfl <;> cases hother
  obtain ⟨hmaterial, hpublic⟩ := san_exact_iff listedCtx unsortedCertificate { enforceDocumentedSubjectCountry := false }
    { environment := .staging, stateDir := "/state" } (days 1)
  have hexact : NamesExactly listedCtx listedLeaf unsortedCertificate.domains :=
    ((hmaterial { Sample.material with leaf := listedLeaf } (by decide +kernel)).2 hplain).1
      ⟨certificateSha256 listedLeaf, by decide +kernel⟩
  exact ⟨hexact, ((hpublic "" listedLeaf rfl (by decide +kernel)).2 hplain).2 hexact⟩

/-- The leaf names exactly the two configured domains, and the validator refuses their order. -/
theorem san_exact_false :
    ¬∀ material certificate, validateApartFromNames Sample.ctx material certificate
          { enforceDocumentedSubjectCountry := false } { environment := .staging, stateDir := "/state" } (days 1) = .ok () →
        ((∃ fingerprint, validateCertificateMaterial Sample.ctx material certificate
            { enforceDocumentedSubjectCountry := false } { environment := .staging, stateDir := "/state" } (days 1) =
              .ok fingerprint) ↔ NamesExactly Sample.ctx material.leaf certificate.domains) := by
  intro hall
  have hlisted : List.Forall₂ (GeneralName.Names Sample.ctx) [.dns "a.example", .dns "b.example"]
      ["a.example", "b.example"] :=
    .cons ⟨"a.example", rfl, by decide +kernel⟩ (.cons ⟨"b.example", rfl, by decide +kernel⟩ .nil)
  have hexact : NamesExactly Sample.ctx sortedLeaf unsortedCertificate.domains :=
    SubjectNamesAux.namesExactly_of_listed rfl hlisted fun d => List.Perm.mem_iff (.swap "b.example" "a.example" [])
  obtain ⟨fingerprint, h⟩ := (hall { Sample.material with leaf := sortedLeaf } unsortedCertificate
    (by decide +kernel)).2 hexact
  have hrefused : ∃ x, validateCertificateMaterial Sample.ctx { Sample.material with leaf := sortedLeaf }
      unsortedCertificate { enforceDocumentedSubjectCountry := false } { environment := .staging, stateDir := "/state" }
      (days 1) = .error x := ⟨validationError "certificate SAN does not exactly match configuration", by decide +kernel⟩
  obtain ⟨x, hx⟩ := hrefused
  rw [hx] at h
  cases h

end OciAcmePublisher
