import OciAcmePublisher.ConfigDocument
import OciAcmePublisher.Simulation

/-!
# Accepted configurations

What a validated document promises of its certificate sets. The OCIDs are told apart through the domains: two sets share no domain, a
set has its Common Name among its domains, so two sets have different Common Names and the loop refuses a common OCID.
-/

namespace OciAcmePublisher

/-- Identifiers, webroots, Common Names, domains and OCIDs each belong to one set. -/
structure AppConfig.Partitioned (config : AppConfig) : Prop where
  ids : (config.certificates.map (·.id)).Nodup
  webroots : (config.certificates.map (·.webrootId)).Nodup
  commonNames : (config.certificates.map (·.commonName)).Nodup
  disjoint : config.certificates.Pairwise fun a b => a.domains.Disjoint b.domains
  domains : ∀ certificate ∈ config.certificates,
    certificate.domains.Nodup ∧ certificate.domains.head? = some certificate.commonName
  ocids : config.certificates.Pairwise fun a b => a.oci.certificateOcid = b.oci.certificateOcid → a.oci.certificateOcid = none

/-- What `certificate_invariants` promises of the domains. -/
theorem CertificateConfig.certificateInvariants_domains {certificate : CertificateConfig}
    (h : certificate.certificateInvariants = .ok ()) :
    certificate.domains.Nodup ∧ certificate.domains.head? = some certificate.commonName := by
  unfold CertificateConfig.certificateInvariants at h
  by_cases hempty : certificate.domains = []
  · rw [if_pos hempty] at h
    cases h
  by_cases hnodup : certificate.domains.Nodup
  · by_cases hhead : certificate.domains.head? = some certificate.commonName
    · exact ⟨hnodup, hhead⟩
    · rw [if_neg hempty, if_neg (not_not.2 hnodup), if_pos hhead] at h
      cases h
  · rw [if_neg hempty, if_pos hnodup] at h
    cases h

/-- Two compatible sets, both with their Common Name among their domains, share neither the name nor an OCID. -/
theorem CertificateConfig.Compatible.apart {a b : CertificateConfig} (h : a.Compatible b)
    (ha : a.domains.head? = some a.commonName) (hb : b.domains.head? = some b.commonName) :
    a.commonName ≠ b.commonName ∧ (a.oci.certificateOcid = b.oci.certificateOcid → a.oci.certificateOcid = none) := by
  have hname : a.commonName ≠ b.commonName := by
    intro heq
    have hin : a.commonName ∈ b.domains := heq ▸ List.mem_of_mem_head? hb
    exact h.domains (List.mem_of_mem_head? ha) hin
  refine ⟨hname, fun heq => Option.not_isSome_iff_eq_none.1 fun hsome => hname (h.ocid hsome heq)⟩

theorem AppConfig.Validates.partitioned {config : AppConfig} (h : config.Validates) : config.Partitioned := by
  have hconsistent := (AppConfig.crossFieldInvariants_ok config).1 h.crossFields
  have hdomains : ∀ certificate ∈ config.certificates,
      certificate.domains.Nodup ∧ certificate.domains.head? = some certificate.commonName :=
    fun certificate hin => CertificateConfig.certificateInvariants_domains (h.certificates certificate hin)
  have happart : config.certificates.Pairwise fun a b => a.commonName ≠ b.commonName ∧
      (a.oci.certificateOcid = b.oci.certificateOcid → a.oci.certificateOcid = none) :=
    hconsistent.compatible.imp_of_mem fun {a b} ha hb hab => hab.apart (hdomains a ha).2 (hdomains b hb).2
  exact {
    ids := hconsistent.ids
    webroots := hconsistent.webroots
    commonNames := List.pairwise_map.2 (happart.imp And.left)
    disjoint := hconsistent.compatible.imp CertificateConfig.Compatible.domains
    domains := hdomains
    ocids := happart.imp And.right }

/-! ## Documents -/

theorem certificateConfig_invariants {Γ : Ctx} {value : Yaml} {certificate : CertificateConfig}
    (h : value.certificateConfig Γ = some certificate) : certificate.certificateInvariants = .ok () := by
  unfold Yaml.certificateConfig at h
  obtain ⟨fields, -, h⟩ := Option.bind_eq_some_iff.1 h
  obtain ⟨id, -, h⟩ := Option.bind_eq_some_iff.1 h
  obtain ⟨webrootId, -, h⟩ := Option.bind_eq_some_iff.1 h
  obtain ⟨commonName, -, h⟩ := Option.bind_eq_some_iff.1 h
  obtain ⟨domains, -, h⟩ := Option.bind_eq_some_iff.1 h
  obtain ⟨key, -, h⟩ := Option.bind_eq_some_iff.1 h
  obtain ⟨chain, -, h⟩ := Option.bind_eq_some_iff.1 h
  obtain ⟨oci, -, h⟩ := Option.bind_eq_some_iff.1 h
  obtain ⟨audit, -, h⟩ := Option.bind_eq_some_iff.1 h
  obtain ⟨retention, -, h⟩ := Option.bind_eq_some_iff.1 h
  dsimp only at h
  split at h
  · rename_i hinvariants
    cases h
    exact hinvariants
  · cases h

/-- The parts of an accepted document. -/
theorem appConfig_parts {Γ : Ctx} {document : Yaml} {config : AppConfig} (h : document.appConfig Γ = some config) :
    (∃ value, Yaml.acmeConfig value = some config.acme) ∧ (∃ value, Yaml.http01Config value = some config.http01) ∧
      (∃ value, Yaml.certificates Γ value = some config.certificates) ∧ config.crossFieldInvariants = .ok () := by
  have hrequired : ∀ {α : Type} {fields : String → Option Yaml} {name : String} {check : Yaml → Option α} {a : α},
      required fields name check = some a → ∃ value, check value = some a := by
    intro α fields name check a hfield
    unfold required at hfield
    split at hfield
    · exact ⟨_, hfield⟩
    · cases hfield
  unfold Yaml.appConfig at h
  obtain ⟨fields, -, h⟩ := Option.bind_eq_some_iff.1 h
  obtain ⟨-, -, h⟩ := Option.bind_eq_some_iff.1 h
  obtain ⟨global, -, h⟩ := Option.bind_eq_some_iff.1 h
  obtain ⟨compatibility, -, h⟩ := Option.bind_eq_some_iff.1 h
  obtain ⟨acme, hacme, h⟩ := Option.bind_eq_some_iff.1 h
  obtain ⟨http01, hhttp01, h⟩ := Option.bind_eq_some_iff.1 h
  obtain ⟨oci, -, h⟩ := Option.bind_eq_some_iff.1 h
  obtain ⟨notifications, -, h⟩ := Option.bind_eq_some_iff.1 h
  obtain ⟨monitoring, -, h⟩ := Option.bind_eq_some_iff.1 h
  obtain ⟨certificates, hcertificates, h⟩ := Option.bind_eq_some_iff.1 h
  dsimp only at h
  split at h
  · rename_i hcross
    cases h
    exact ⟨hrequired hacme, hrequired hhttp01, hrequired hcertificates, hcross⟩
  · cases h

theorem mem_mapM {α β : Type} {f : α → Option β} {l : List α} {l' : List β} (h : l.mapM f = some l') :
    ∀ b ∈ l', ∃ a ∈ l, f a = some b := by
  induction l generalizing l' with
  | nil =>
    cases h
    intro b hb
    cases hb
  | cons a rest ih =>
    rw [List.mapM_cons] at h
    obtain ⟨first, hfirst, h⟩ := Option.bind_eq_some_iff.1 h
    obtain ⟨others, hothers, h⟩ := Option.bind_eq_some_iff.1 h
    cases h
    intro b hb
    rcases List.mem_cons.1 hb with rfl | hb
    · exact ⟨a, List.mem_cons_self, hfirst⟩
    · obtain ⟨c, hc, hf⟩ := ih hothers b hb
      exact ⟨c, List.mem_cons_of_mem _ hc, hf⟩

/-- An accepted document passes the model validators. -/
theorem appConfig_validates {Γ : Ctx} {document : Yaml} {config : AppConfig} (h : document.appConfig Γ = some config) :
    config.Validates := by
  obtain ⟨-, -, ⟨value, hcertificates⟩, hcross⟩ := appConfig_parts h
  refine ⟨fun certificate hin => ?_, hcross⟩
  cases value with
  | seq items =>
    obtain ⟨item, -, hitem⟩ := mem_mapM hcertificates certificate hin
    exact certificateConfig_invariants hitem
  | _ => cases hcertificates

/-- Accepted configurations partition the world: identifiers, webroots, Common Names, domains and OCIDs each belong to one set, and
every set has its Common Name first among its domains, each of them once. -/
theorem accepted_partitioned (Γ : Ctx) (document : Yaml) (config : AppConfig) (h : document.appConfig Γ = some config) :
    config.Partitioned :=
  (appConfig_validates h).partitioned

namespace Sample

/-- The document of a certificate set with one domain. -/
def certificateYaml (id domain : String) (ocid : Yaml) : Yaml :=
  .map [("id", .str id), ("webroot_id", .str id), ("common_name", .str domain), ("domains", .seq [.str domain]),
    ("key", .map [("type", .str "ecdsa"), ("ecdsa_curve", .str "secp384r1")]),
    ("chain", .map [("root_pem_path", .str "/etc/ssl/root.pem"),
      ("allowed_root_sha256", .seq [.str (String.ofList (List.replicate 64 '0'))]), ("allowed_issuer_common_names", .seq [])]),
    ("oci", .map [("region", .str "eu-frankfurt-1"), ("compartment_ocid", .str "ocid1.compartment.oc1..example"),
      ("certificate_ocid", ocid), ("certificate_name", .str id)]),
    ("audit", .map [("mode", .str "disabled")])]

/-- A document with these paths, renewal window and certificate sets; the other settings have their defaults. -/
def document (certificatesDir webrootBase : String) (renewBeforeDays : Int) (certificates : List Yaml) : Yaml :=
  .map [("schema_version", .int 4), ("global", .map [("environment", .str "production"), ("state_dir", .str "/var/lib/state")]),
    ("compatibility", .map []),
    ("acme", .map [("email", .str "a@example"), ("agree_to_terms", .bool true), ("directory_url", .str "https://acme.example"),
      ("account_key_path", .str "/var/lib/account.pem"), ("certificates_dir", .str certificatesDir),
      ("renew_before_days", .int renewBeforeDays)]),
    ("http01", .map [("webroot_base", .str webrootBase),
      ("responder", .map [("bind_address", .str "127.0.0.1"), ("bind_port", .int 8080)]), ("self_check", .map [])]),
    ("oci", .map [("authentication", .str "instance_principal")]), ("certificates", .seq certificates)]

end Sample

/-- Two sets, one with an OCID. -/
theorem accepted_partitioned_sample : ∃ config : AppConfig, config.Partitioned ∧ config.certificates.length = 2 := by
  let document := Sample.document "/var/lib/certificates" "/var/lib/webroot" 30
    [Sample.certificateYaml "web" "a.example" .null, Sample.certificateYaml "shop" "b.example" (.str "ocid1.certificate.oc1..shop")]
  have haccepted : (document.appConfig Sample.ctx).any (·.certificates.length = 2) = true := by decide +kernel
  cases hdocument : document.appConfig Sample.ctx with
  | none =>
    rw [hdocument] at haccepted
    cases haccepted
  | some config =>
    rw [hdocument] at haccepted
    exact ⟨config, accepted_partitioned Sample.ctx document config hdocument, of_decide_eq_true haccepted⟩

end OciAcmePublisher
