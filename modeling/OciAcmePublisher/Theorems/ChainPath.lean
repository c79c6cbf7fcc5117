import Mathlib.Data.List.Chain
import OciAcmePublisher.ChainBuilder
import OciAcmePublisher.Simulation

/-!
# The verified path to the pinned root

What `build_oci_chain` returns is a path: every certificate is issued by the next one, which signed it, from the leaf to the pinned
root. The loop checks each step before it goes on, the checks after it the last one. The pinned root is dropped from the ACME chain
wherever it stands, so copies of it change nothing.
-/

namespace OciAcmePublisher

/-- The next certificate of a path: it bears the issuer's name, and its key verifies the signature. -/
def Issues (Γ : Ctx) (child issuer : X509) : Prop :=
  child.issuer = issuer.subject ∧ child.signatureHash.isSome = true ∧ Γ.verifies child issuer.publicKey = true ∧
    ∀ spki, issuer.publicKey ≠ .other spki

/-- The certificate is a certificate authority. -/
def X509.IsCa (certificate : X509) : Prop := certificate.basicConstraintsCa = some true

/-- A verified path from the leaf to a pinned root. -/
structure VerifiedPath (Γ : Ctx) (configuration : CertificateConfig) (leaf : X509) (chain : OciCertificateChain) : Prop where
  nonempty : chain.intermediates ≠ []
  pem : chain.certChainPem = (chain.intermediates ++ [chain.root]).flatMap Γ.toPem
  path : List.IsChain (Issues Γ) (leaf :: (chain.intermediates ++ [chain.root]))
  authorities : ∀ issuer ∈ chain.intermediates ++ [chain.root], issuer.IsCa
  leaf_absent : leaf ∉ chain.intermediates ++ [chain.root]
  allowlisted : certificateSha256 chain.root ∈ configuration.chain.allowedRootSha256
  root_last : chain.root ∉ chain.intermediates

/-- Copies of the root are inserted into a chain. -/
inductive RootInserted (root : X509) : List X509 → List X509 → Prop where
  | nil : RootInserted root [] []
  | keep (item : X509) {a b : List X509} : RootInserted root a b → RootInserted root (item :: a) (item :: b)
  | insert {a b : List X509} : RootInserted root a b → RootInserted root a (root :: b)

namespace ChainPathAux

variable {Γ : Ctx} {rootFile : Option Bytes} {configuration : CertificateConfig} {compatibility : CompatibilityConfig}
  {material : LineageMaterial} {root leaf current last : X509} {chain : List X509}

theorem issues_of_verified {child issuer : X509} (hname : child.issuer = issuer.subject)
    (h : verifyCertificateSignature Γ child issuer = .ok ()) : Issues Γ child issuer := by
  unfold verifyCertificateSignature at h
  obtain ⟨_, hhash, h⟩ := bind_eq_ok_iff.1 h
  rw [require_eq_ok_iff] at hhash
  cases hkey : issuer.publicKey with
  | other spki =>
    rw [hkey] at h
    cases h
  | rsa size spki =>
    rw [hkey] at h
    exact ⟨hname, hhash, by rw [hkey]; exact require_eq_ok_iff.1 h, by rw [hkey]; exact nofun⟩
  | ec curve spki =>
    rw [hkey] at h
    exact ⟨hname, hhash, by rw [hkey]; exact require_eq_ok_iff.1 h, by rw [hkey]; exact nofun⟩

theorem isCa_of_validateCa {certificate : X509} (h : validateCa certificate = .ok ()) : certificate.IsCa := by
  unfold validateCa at h
  unfold X509.IsCa
  cases hca : certificate.basicConstraintsCa with
  | none =>
    rw [hca] at h
    cases h
  | some ca =>
    rw [hca] at h
    rw [require_eq_ok_iff.1 h]

/-- The loop: the path so far, its authorities and its last certificate. -/
theorem verifyIssuers_ok (h : verifyIssuers Γ current chain = .ok last) :
    List.IsChain (Issues Γ) (current :: chain) ∧ (∀ issuer ∈ chain, issuer.IsCa) ∧
      (current :: chain).getLast? = some last := by
  induction chain generalizing current with
  | nil =>
    cases h
    exact ⟨.singleton _, fun _ h => (by cases h), rfl⟩
  | cons issuer rest ih =>
    unfold verifyIssuers at h
    obtain ⟨_, hname, h⟩ := bind_eq_ok_iff.1 h
    obtain ⟨_, hca, h⟩ := bind_eq_ok_iff.1 h
    obtain ⟨_, hsigned, h⟩ := bind_eq_ok_iff.1 h
    obtain ⟨hpath, hauthorities, hlast⟩ := ih h
    refine ⟨List.isChain_cons_cons.2 ⟨issues_of_verified (require_eq_ok_iff.1 hname) hsigned, hpath⟩, ?_, ?_⟩
    · intro item hitem
      rcases List.mem_cons.1 hitem with rfl | hitem
      · exact isCa_of_validateCa hca
      · exact hauthorities item hitem
    · rw [List.getLast?_cons_cons]
      exact hlast

theorem loadPinnedRoot_ok (h : loadPinnedRoot Γ rootFile configuration = .ok root) :
    rootFile.bind Γ.loadPem = some root ∧ certificateSha256 root ∈ configuration.chain.allowedRootSha256 := by
  unfold loadPinnedRoot at h
  split at h
  · cases h
  · rename_i found hfound
    obtain ⟨_, hallowed, hroot⟩ := bind_eq_ok_iff.1 h
    cases hroot
    exact ⟨hfound, require_eq_ok_iff.1 hallowed⟩

/-- The leaf of accepted material is no authority. -/
theorem leaf_not_isCa {global : GlobalConfig} {now : Instant} {fingerprint : String}
    (h : validateCertificateMaterial Γ material configuration compatibility global now = .ok fingerprint) :
    ¬material.leaf.IsCa := by
  simp only [validateCertificateMaterial, bind_eq_ok_iff, require_eq_ok_iff] at h
  obtain ⟨name, -, _, -, domains, -, _, -, _, -, _, -, _, hextensions, -⟩ := h
  unfold validateExtensions at hextensions
  intro hca
  rw [hca] at hextensions
  obtain ⟨_, hleaf, -⟩ := bind_eq_ok_iff.1 hextensions
  cases require_eq_ok_iff.1 hleaf

/-- What a build that returns has checked. -/
theorem buildOciChain_ok {result : OciCertificateChain}
    (h : buildOciChain Γ rootFile material configuration compatibility = .ok result) :
    rootFile.bind Γ.loadPem = some result.root ∧
      certificateSha256 result.root ∈ configuration.chain.allowedRootSha256 ∧
      result.intermediates = material.intermediates.filter (fun item => certificateSha256 item ≠ certificateSha256 result.root) ∧
      result.intermediates ≠ [] ∧ List.IsChain (Issues Γ) (material.leaf :: (result.intermediates ++ [result.root])) ∧
      (∀ issuer ∈ result.intermediates ++ [result.root], issuer.IsCa) ∧
      result.certChainPem = (result.intermediates ++ [result.root]).flatMap Γ.toPem := by
  unfold buildOciChain at h
  obtain ⟨root, hroot, h⟩ := bind_eq_ok_iff.1 h
  obtain ⟨hfile, hallowed⟩ := loadPinnedRoot_ok hroot
  simp only at h
  generalize hfilter : material.intermediates.filter
    (fun item => certificateSha256 item ≠ certificateSha256 root) = intermediates at h
  cases intermediates with
  | nil => cases h
  | cons first rest =>
    simp only at h
    obtain ⟨_, -, h⟩ := bind_eq_ok_iff.1 h
    obtain ⟨last, hloop, h⟩ := bind_eq_ok_iff.1 h
    obtain ⟨_, hname, h⟩ := bind_eq_ok_iff.1 h
    obtain ⟨_, hca, h⟩ := bind_eq_ok_iff.1 h
    obtain ⟨_, hsigned, h⟩ := bind_eq_ok_iff.1 h
    obtain ⟨issuerName, -, h⟩ := bind_eq_ok_iff.1 h
    obtain ⟨_, -, h⟩ := bind_eq_ok_iff.1 h
    have hresult : result = ⟨root, first :: rest, (first :: rest ++ [root]).flatMap Γ.toPem⟩ := by
      split at h
      · obtain ⟨_, -, h⟩ := bind_eq_ok_iff.1 h
        obtain ⟨_, -, h⟩ := bind_eq_ok_iff.1 h
        cases h
        rfl
      · obtain ⟨_, -, h⟩ := bind_eq_ok_iff.1 h
        cases h
        rfl
    subst hresult
    obtain ⟨hpath, hauthorities, hlast⟩ := verifyIssuers_ok hloop
    have hstep : Issues Γ last root := issues_of_verified (require_eq_ok_iff.1 hname) hsigned
    refine ⟨hfile, hallowed, hfilter.symm, List.cons_ne_nil _ _, ?_, ?_, rfl⟩
    · rw [← List.cons_append, List.isChain_append]
      refine ⟨hpath, .singleton _, fun a ha b hb => ?_⟩
      rw [hlast] at ha
      cases ha
      cases hb
      exact hstep
    · intro issuer hissuer
      rcases List.mem_append.1 hissuer with hissuer | hissuer
      · exact hauthorities issuer hissuer
      · rw [List.mem_singleton.1 hissuer]
        exact isCa_of_validateCa hca

/-- The root is dropped wherever it is inserted. -/
theorem filter_inserted {a b : List X509} (h : RootInserted root a b) :
    b.filter (fun item => certificateSha256 item ≠ certificateSha256 root) =
      a.filter (fun item => certificateSha256 item ≠ certificateSha256 root) := by
  induction h with
  | nil => rfl
  | keep item _ ih => simp only [List.filter_cons, ih]
  | insert _ ih => simpa using ih

end ChainPathAux

open ChainPathAux

/-- A chain that is accepted is a verified path to the pinned root. For every leaf that passed the local validation, every ACME chain
and every configuration: what `build_oci_chain` returns is a path of authorities from the leaf to the allowlisted root of the root
file, which stands in it once and last; and the same is returned for every chain that differs in copies of that root. -/
theorem build_chain_verified (Γ : Ctx) (rootFile : Option Bytes) {material validated : LineageMaterial}
    (configuration : CertificateConfig) (compatibility : CompatibilityConfig) {global : GlobalConfig} {now : Instant}
    {fingerprint : String} {chain : OciCertificateChain}
    (hvalid : validateCertificateMaterial Γ validated configuration compatibility global now = .ok fingerprint)
    (hleaf : validated.leaf = material.leaf)
    (h : buildOciChain Γ rootFile material configuration compatibility = .ok chain) :
    rootFile.bind Γ.loadPem = some chain.root ∧ VerifiedPath Γ configuration material.leaf chain ∧
      ∀ bare other, RootInserted chain.root bare material.intermediates → RootInserted chain.root bare other →
        buildOciChain Γ rootFile { material with intermediates := other } configuration compatibility = .ok chain := by
  obtain ⟨hfile, hallowed, hfilter, hne, hpath, hauthorities, hpem⟩ := buildOciChain_ok h
  have hloaded : loadPinnedRoot Γ rootFile configuration = .ok chain.root := by
    unfold loadPinnedRoot
    rw [hfile]
    exact bind_eq_ok_iff.2 ⟨(), require_eq_ok_iff.2 hallowed, rfl⟩
  refine ⟨hfile, ⟨hne, hpem, hpath, hauthorities, fun hin => ?_, hallowed, fun hin => ?_⟩, fun bare other hbare hother => ?_⟩
  · have hca := hauthorities _ hin
    rw [← hleaf] at hca
    exact leaf_not_isCa hvalid hca
  · rw [hfilter] at hin
    have hdiffers := (List.mem_filter.1 hin).2
    exact absurd rfl (of_decide_eq_true hdiffers)
  · have hsame : other.filter (fun item => certificateSha256 item ≠ certificateSha256 chain.root) =
        material.intermediates.filter (fun item => certificateSha256 item ≠ certificateSha256 chain.root) :=
      (filter_inserted hother).trans (filter_inserted hbare).symm
    rw [← h]
    unfold buildOciChain
    rw [hloaded]
    simp only [Except.bind, bind, hsame]

/-- The sample chain, with the root before and after the issuer. -/
theorem build_chain_verified_sample :
    ∃ chain, buildOciChain Sample.ctx (some [82]) { Sample.material with intermediates := [Sample.issuer] } Sample.certificate
        (Sample.config Sample.certificate).compatibility = .ok chain ∧
      VerifiedPath Sample.ctx Sample.certificate Sample.material.leaf chain ∧
      buildOciChain Sample.ctx (some [82]) { Sample.material with intermediates := [Sample.root, Sample.issuer, Sample.root] }
        Sample.certificate (Sample.config Sample.certificate).compatibility = .ok chain := by
  have hvalid : ∃ fingerprint, validateCertificateMaterial Sample.ctx Sample.material Sample.certificate
      (Sample.config Sample.certificate).compatibility (Sample.config Sample.certificate).global (days 1) = .ok fingerprint :=
    ⟨certificateSha256 (Sample.leaf 2), by decide +kernel⟩
  have hbuilt : ∃ chain, buildOciChain Sample.ctx (some [82]) { Sample.material with intermediates := [Sample.issuer] }
      Sample.certificate (Sample.config Sample.certificate).compatibility = .ok chain ∧ chain.root = Sample.root :=
    ⟨⟨Sample.root, [Sample.issuer], [73, 82]⟩, by decide +kernel, rfl⟩
  obtain ⟨fingerprint, hvalid⟩ := hvalid
  obtain ⟨chain, hbuilt, hroot⟩ := hbuilt
  obtain ⟨-, hpath, hsame⟩ := build_chain_verified Sample.ctx (some [82]) Sample.certificate
    (Sample.config Sample.certificate).compatibility hvalid rfl hbuilt
  refine ⟨chain, hbuilt, hpath, hsame [Sample.issuer] _ (.keep _ .nil) ?_⟩
  rw [hroot]
  exact .insert (.keep _ (.insert .nil))

end OciAcmePublisher
