import OciAcmePublisher.Operator
import OciAcmePublisher.Simulation
import Mathlib.Data.List.Perm.Basic

/-!
# Added certificates

`add_certificate` checks its arguments; the loader checks the document it wrote, in a second normalization, and checks it against
every other certificate. `Fits` collects what the loader asks beyond the command: a configuration that loads still loads with the
new document exactly if the arguments fit it.
-/

namespace OciAcmePublisher
namespace AddedCertificateAux

/-- The certificate of a file, none where the loader refuses the file by itself. -/
def fileCertificate (Γ : Ctx) (yaml : YamlLibrary) (file : String × Bytes) : Option CertificateConfig :=
  match loadCertificateFile yaml file.2 with
  | .ok document => document.certificateConfig Γ
  | .error _ => none

/-- The files in the order the loader reads them. -/
def ConfigDirectory.ordered (directory : ConfigDirectory) : List (String × Bytes) :=
  directory.files.mergeSort (fun a b => decide (a.1 ≤ b.1))

theorem mapM_option_iff {α β : Type} {f : α → Option β} {l : List α} {r : List β} :
    l.mapM f = some r ↔ List.Forall₂ (fun a b => f a = some b) l r := by
  induction l generalizing r with
  | nil =>
    constructor
    · intro h
      cases h
      exact .nil
    · intro h
      cases h
      rfl
  | cons a l ih =>
    rw [List.mapM_cons]
    constructor
    · intro h
      cases ha : f a with
      | none =>
        rw [ha] at h
        cases h
      | some b =>
        cases hl : l.mapM f with
        | none =>
          rw [ha, hl] at h
          cases h
        | some bs =>
          rw [ha, hl] at h
          cases h
          exact .cons ha (ih.1 hl)
    · intro h
      cases h with
      | cons ha hrest =>
        rw [ha, ih.2 hrest]
        rfl

/-- The two passes of the loader over the files, as one. -/
theorem passes_iff {Γ : Ctx} {yaml : YamlLibrary} {files : List (String × Bytes)} {certificates : List CertificateConfig} :
    (∃ documents, files.mapM (fun file => loadCertificateFile yaml file.2) = .ok documents ∧
      documents.mapM (Yaml.certificateConfig Γ) = some certificates) ↔
      List.Forall₂ (fun file certificate => fileCertificate Γ yaml file = some certificate) files certificates := by
  induction files generalizing certificates with
  | nil =>
    constructor
    · rintro ⟨documents, hfiles, hdocuments⟩
      cases hfiles
      cases hdocuments
      exact .nil
    · intro h
      cases h
      exact ⟨[], rfl, rfl⟩
  | cons file files ih =>
    constructor
    · rintro ⟨documents, hfiles, hdocuments⟩
      rw [List.mapM_cons] at hfiles
      cases hfile : loadCertificateFile yaml file.2 with
      | error x =>
        rw [hfile] at hfiles
        cases hfiles
      | ok document =>
        cases hrest : files.mapM (fun file => loadCertificateFile yaml file.2) with
        | error x =>
          rw [hfile, hrest] at hfiles
          cases hfiles
        | ok others =>
          rw [hfile, hrest] at hfiles
          cases hfiles
          cases mapM_option_iff.1 hdocuments with
          | @cons _ certificate _ rest hcertificate hothers =>
            have hown : fileCertificate Γ yaml file = some certificate := by
              unfold fileCertificate
              rw [hfile]
              exact hcertificate
            exact .cons hown (ih.1 ⟨others, hrest, mapM_option_iff.2 hothers⟩)
    · intro h
      cases h with
      | cons hown hrest =>
        obtain ⟨others, hfiles, hothers⟩ := ih.2 hrest
        unfold fileCertificate at hown
        cases hfile : loadCertificateFile yaml file.2 with
        | error x =>
          rw [hfile] at hown
          cases hown
        | ok document =>
          rw [hfile] at hown
          refine ⟨document :: others, ?_, mapM_option_iff.2 (.cons hown (mapM_option_iff.1 hothers))⟩
          rw [List.mapM_cons, hfile, hfiles]
          rfl

/-- What `load_config` accepts. -/
theorem loadConfig_ok {Γ : Ctx} {yaml : YamlLibrary} {directory : ConfigDirectory} {config : AppConfig} :
    loadConfig Γ yaml directory = .ok config ↔
      directory.files ≠ [] ∧
        List.Forall₂ (fun file certificate => fileCertificate Γ yaml file = some certificate)
          (ConfigDirectory.ordered directory) config.certificates ∧
        config = { directory.settings with certificates := config.certificates } ∧ config.Consistent := by
  unfold loadConfig
  by_cases hnil : directory.files = []
  · constructor
    · intro h
      rw [if_pos hnil] at h
      cases h
    · intro h
      exact absurd hnil h.1
  · rw [if_neg hnil, ← passes_iff]
    show ((ConfigDirectory.ordered directory).mapM (fun file => loadCertificateFile yaml file.2) >>= fun documents =>
      validateConfig Γ directory.settings documents) = .ok config ↔ _
    constructor
    · intro h
      cases hfiles : (ConfigDirectory.ordered directory).mapM (fun file => loadCertificateFile yaml file.2) with
      | error x =>
        rw [hfiles] at h
        cases h
      | ok documents =>
        rw [hfiles] at h
        have hvalidate : validateConfig Γ directory.settings documents = .ok config := h
        unfold validateConfig at hvalidate
        cases hdocuments : documents.mapM (Yaml.certificateConfig Γ) with
        | none =>
          rw [hdocuments] at hvalidate
          cases hvalidate
        | some certificates =>
          simp only [hdocuments] at hvalidate
          cases hcross : AppConfig.crossFieldInvariants { directory.settings with certificates := certificates } with
          | error x =>
            simp only [hcross] at hvalidate
            cases hvalidate
          | ok u =>
            simp only [hcross, Except.ok.injEq] at hvalidate
            subst hvalidate
            exact ⟨hnil, ⟨documents, rfl, hdocuments⟩, rfl, (AppConfig.crossFieldInvariants_ok _).1 hcross⟩
    · rintro ⟨-, ⟨documents, hfiles, hdocuments⟩, heq, hconsistent⟩
      rw [hfiles]
      show validateConfig Γ directory.settings documents = .ok config
      unfold validateConfig
      simp only [hdocuments]
      rw [← heq, (AppConfig.crossFieldInvariants_ok config).2 hconsistent]

/-- The checks across certificates of a configuration with one more. -/
theorem consistent_cons {settings : AppConfig} {certificate : CertificateConfig} {configured certificates : List CertificateConfig}
    (hperm : (certificate :: configured).Perm certificates)
    (h : AppConfig.Consistent { settings with certificates := configured }) :
    AppConfig.Consistent { settings with certificates := certificates } ↔
      ∀ other ∈ configured, other.id ≠ certificate.id ∧ other.webrootId ≠ certificate.webrootId ∧
        certificate.Compatible other := by
  have hids := (hperm.map (·.id)).nodup_iff
  have hwebroots := (hperm.map (·.webrootId)).nodup_iff
  have hpairs := hperm.pairwise_iff (R := CertificateConfig.Compatible) (fun hab => hab.symm)
  simp only [List.map_cons, List.nodup_cons, List.mem_map, not_exists, not_and] at hids hwebroots
  rw [List.pairwise_cons] at hpairs
  constructor
  · intro hall other ho
    exact ⟨(hids.2 hall.ids).1 other ho, (hwebroots.2 hall.webroots).1 other ho, (hpairs.2 hall.compatible).1 other ho⟩
  · intro hall
    constructor
    · intro hnil
      have hnil' : certificates = [] := hnil
      rw [hnil'] at hperm
      exact absurd hperm.eq_nil (List.cons_ne_nil _ _)
    · exact hids.1 ⟨fun other ho => (hall other ho).1, h.ids⟩
    · exact hwebroots.1 ⟨fun other ho => (hall other ho).2.1, h.webroots⟩
    · exact hpairs.1 ⟨fun other ho => (hall other ho).2.2, h.compatible⟩
    · exact h.settings

/-- A directory with one more file loads exactly if the loader accepts the file and its certificate beside the others. -/
theorem loads_with_file {Γ : Ctx} {yaml : YamlLibrary} {directory : ConfigDirectory} {config : AppConfig}
    (hload : loadConfig Γ yaml directory = .ok config) (file : String × Bytes) :
    (∃ config', loadConfig Γ yaml { directory with files := file :: directory.files } = .ok config') ↔
      ∃ certificate, fileCertificate Γ yaml file = some certificate ∧
        ∀ other ∈ config.certificates, other.id ≠ certificate.id ∧ other.webrootId ≠ certificate.webrootId ∧
          certificate.Compatible other := by
  obtain ⟨-, hfiles, heq, hconsistent⟩ := loadConfig_ok.1 hload
  have hold : AppConfig.Consistent { directory.settings with certificates := config.certificates } := heq ▸ hconsistent
  have hperm : (ConfigDirectory.ordered { directory with files := file :: directory.files }).Perm
      (file :: ConfigDirectory.ordered directory) :=
    (List.mergeSort_perm _ _).trans ((List.mergeSort_perm _ _).symm.cons file)
  constructor
  · rintro ⟨config', hload'⟩
    obtain ⟨-, hfiles', heq', hconsistent'⟩ := loadConfig_ok.1 hload'
    obtain ⟨certificates, hall, hcertificates⟩ := List.perm_comp_forall₂ hperm.symm hfiles'
    cases hall with
    | @cons _ certificate _ others hown hothers =>
      have hsame : others = config.certificates := by
        have hone := mapM_option_iff.2 hothers
        rw [mapM_option_iff.2 hfiles] at hone
        exact (Option.some.inj hone).symm
      subst hsame
      rw [heq'] at hconsistent'
      exact ⟨certificate, hown, (consistent_cons hcertificates hold).1 hconsistent'⟩
  · rintro ⟨certificate, hown, hcompatible⟩
    obtain ⟨certificates, hall, hcertificates⟩ := List.perm_comp_forall₂ hperm (.cons hown hfiles)
    refine ⟨{ directory.settings with certificates := certificates }, loadConfig_ok.2 ⟨by simp, hall, rfl, ?_⟩⟩
    exact (consistent_cons hcertificates.symm hold).2 hcompatible

/-! ## The composed document -/

/-- The chain policy of the composed document. -/
def composedChain : ChainConfig where
  rootPemPath := "/etc/oci-acme-publisher/roots/isrg-root-x1.pem"
  allowedRootSha256 := [String.ofList (List.replicate 64 '0')]
  allowedIssuerCommonNames := ["EXAMPLE ISSUER"]

/-- The certificate, if it passes its own invariants. -/
def accepted (certificate : CertificateConfig) : Option CertificateConfig :=
  match certificate.certificateInvariants with
  | .ok () => some certificate
  | .error _ => none

/-- The certificate that the loader reads from the composed document, its domains normalized once more. -/
def composed (arguments : AddCertificate) (first : String) (rest : List String) : CertificateConfig where
  id := arguments.certificateId
  webrootId := arguments.certificateId
  commonName := first
  domains := first :: rest
  key := .rsa 2048
  chain := composedChain
  oci := {
    region := arguments.region
    compartmentOcid := arguments.compartmentOcid
    certificateOcid := arguments.certificateOcid
    certificateName := arguments.certificateId }
  audit := { endpoints := [⟨first, 443⟩] }

theorem domains_again {Γ : Ctx} (names : List String) :
    (names.map Yaml.str).mapM (Yaml.domain Γ) = names.mapM (fun name => (normalizeDomain Γ name).toOption) := by
  rw [List.mapM_map]
  rfl

/-- The composed certificate passes its own invariants if its names are distinct and its Common Name is short. -/
theorem composed_invariants {arguments : AddCertificate} (first : String) (rest : List String)
    (hocid : arguments.certificateOcid.any (fun ocid => !startsWith ocid "ocid1.certificate.") = false) :
    (composed arguments first rest).certificateInvariants = .ok () ↔
      (first :: rest).Nodup ∧ utf8Length first ≤ cnMaxBytes := by
  unfold CertificateConfig.certificateInvariants
  have hdomains : (composed arguments first rest).domains = first :: rest := rfl
  have hname : (composed arguments first rest).commonName = first := rfl
  have hown : (composed arguments first rest).oci.certificateOcid = arguments.certificateOcid := rfl
  have hendpoints : (composed arguments first rest).audit.endpoints ≠ [] := List.cons_ne_nil _ _
  rw [hdomains, hname, hown, hocid]
  by_cases hnodup : (first :: rest).Nodup
  · by_cases hshort : utf8Length first ≤ cnMaxBytes
    · have hlong : ¬cnMaxBytes < utf8Length first := by omega
      simp [hnodup, hshort, hlong, hendpoints, pure, Except.pure]
    · have hlong : cnMaxBytes < utf8Length first := by omega
      simp [hnodup, hshort, hlong, bind, Except.bind, throw, throwThe, MonadExceptOf.throw]
  · simp [hnodup, bind, Except.bind, throw, throwThe, MonadExceptOf.throw]

/-- What the loader makes of the composed mapping: its domains are normalized once more and must stay distinct, and the first is
the Common Name. -/
theorem certificateConfig_mapping {Γ : Ctx} {arguments : AddCertificate} {first : String} {rest : List String}
    (hid : isIdentifier arguments.certificateId = true)
    (hocid : arguments.certificateOcid.any (fun ocid => !startsWith ocid "ocid1.certificate.") = false)
    {certificate : CertificateConfig} :
    Yaml.certificateConfig Γ (.map (certificateMapping arguments first rest)) = some certificate ↔
      ∃ first' rest', (first :: rest).mapM (fun name => (normalizeDomain Γ name).toOption) = some (first' :: rest') ∧
        (first' :: rest').Nodup ∧ utf8Length first' ≤ cnMaxBytes ∧ certificate = composed arguments first' rest' := by
  have hidentifier : Yaml.identifier (.str arguments.certificateId) = some arguments.certificateId := by
    simp [Yaml.identifier, Yaml.text, hid]
  have hkey : Yaml.keyConfig (.map [("type", .str "rsa"), ("rsa_size", .int 2048)]) = some (.rsa 2048) := rfl
  have hchain : Yaml.chainConfig (.map [
      ("root_pem_path", .str "/etc/oci-acme-publisher/roots/isrg-root-x1.pem"),
      ("allowed_root_sha256", .seq [.str (String.ofList (List.replicate 64 '0'))]),
      ("allowed_issuer_common_names", .seq [.str "EXAMPLE ISSUER"])]) = some composedChain := by
    decide +kernel
  have hoci : Yaml.certificateOciConfig (.map [
      ("region", .str arguments.region),
      ("compartment_ocid", .str arguments.compartmentOcid),
      ("certificate_ocid", Yaml.ofOption arguments.certificateOcid),
      ("certificate_name", .str arguments.certificateId)]) =
        some ⟨arguments.region, arguments.compartmentOcid, arguments.certificateOcid, arguments.certificateId⟩ := by
    cases arguments.certificateOcid with
    | none => rfl
    | some ocid => rfl
  have haudit : Yaml.auditConfig Γ (.map [
      ("mode", .str "observe"),
      ("automatic_rollback_on_failure", .bool false),
      ("endpoints", .seq [.map [("hostname", .str first), ("port", .int 443)]])]) =
        (normalizeDomain Γ first).toOption.map (fun hostname => { endpoints := [⟨hostname, 443⟩] }) := by
    have hendpoint : Yaml.auditEndpoint Γ (.map [("hostname", .str first), ("port", .int 443)]) =
        (normalizeDomain Γ first).toOption.map (fun hostname => ⟨hostname, 443⟩) := by
      show ((normalizeDomain Γ first).toOption >>= fun hostname => some (⟨hostname, 443⟩ : AuditEndpoint)) = _
      cases (normalizeDomain Γ first).toOption with
      | none => rfl
      | some hostname => rfl
    have hendpoints : Yaml.auditEndpoints Γ (.seq [.map [("hostname", .str first), ("port", .int 443)]]) =
        (normalizeDomain Γ first).toOption.map (fun hostname => [⟨hostname, 443⟩]) := by
      show [_].mapM (Yaml.auditEndpoint Γ) = _
      rw [List.mapM_cons, List.mapM_nil, hendpoint]
      cases (normalizeDomain Γ first).toOption with
      | none => rfl
      | some hostname => rfl
    show (Yaml.auditEndpoints Γ (.seq [.map [("hostname", .str first), ("port", .int 443)]]) >>= fun endpoints =>
      some ({ endpoints := endpoints } : AuditConfig)) = _
    rw [hendpoints]
    cases (normalizeDomain Γ first).toOption with
    | none => rfl
    | some hostname => rfl
  have hmapping : Yaml.certificateConfig Γ (.map (certificateMapping arguments first rest)) =
      (Yaml.identifier (.str arguments.certificateId) >>= fun id =>
        Yaml.identifier (.str arguments.certificateId) >>= fun webrootId =>
        (normalizeDomain Γ first).toOption >>= fun commonName =>
        ((first :: rest).map Yaml.str).mapM (Yaml.domain Γ) >>= fun domains =>
        Yaml.keyConfig (.map [("type", .str "rsa"), ("rsa_size", .int 2048)]) >>= fun key =>
        Yaml.chainConfig (.map [
          ("root_pem_path", .str "/etc/oci-acme-publisher/roots/isrg-root-x1.pem"),
          ("allowed_root_sha256", .seq [.str (String.ofList (List.replicate 64 '0'))]),
          ("allowed_issuer_common_names", .seq [.str "EXAMPLE ISSUER"])]) >>= fun chain =>
        Yaml.certificateOciConfig (.map [
          ("region", .str arguments.region),
          ("compartment_ocid", .str arguments.compartmentOcid),
          ("certificate_ocid", Yaml.ofOption arguments.certificateOcid),
          ("certificate_name", .str arguments.certificateId)]) >>= fun oci =>
        Yaml.auditConfig Γ (.map [
          ("mode", .str "observe"),
          ("automatic_rollback_on_failure", .bool false),
          ("endpoints", .seq [.map [("hostname", .str first), ("port", .int 443)]])]) >>= fun audit =>
        accepted { id, webrootId, commonName, domains, key, chain, oci, audit }) := rfl
  rw [hmapping, hidentifier, hkey, hchain, hoci, haudit, domains_again]
  cases hfirst : normalizeDomain Γ first with
  | error x =>
    constructor
    · intro h
      cases h
    · rintro ⟨first', rest', hnames, -⟩
      rw [List.mapM_cons, hfirst] at hnames
      cases hnames
  | ok first' =>
    rw [List.mapM_cons, hfirst]
    cases hrest : rest.mapM (fun name => (normalizeDomain Γ name).toOption) with
    | none =>
      constructor
      · intro h
        cases h
      · rintro ⟨_, rest', hnames, -⟩
        cases hnames
    | some rest' =>
      show accepted (composed arguments first' rest') = some certificate ↔ _
      have hinvariants := composed_invariants first' rest' hocid
      unfold accepted
      constructor
      · intro h
        cases hok : (composed arguments first' rest').certificateInvariants with
        | error x =>
          simp only [hok] at h
          cases h
        | ok u =>
          simp only [hok, Option.some.injEq] at h
          exact ⟨first', rest', rfl, (hinvariants.1 hok).1, (hinvariants.1 hok).2, h.symm⟩
      · rintro ⟨_, _, hnames, hnodup, hshort, heq⟩
        cases hnames
        simp only [hinvariants.2 ⟨hnodup, hshort⟩, heq]

/-- The file of the composed document: small enough, its certificate is what the loader makes of the mapping. -/
theorem fileCertificate_document {Γ : Ctx} {yaml : YamlLibrary} {arguments : AddCertificate} {first : String}
    {rest : List String} (name : String) (certificate : CertificateConfig)
    (hyaml : yaml.load (yaml.dump (certificateDocument arguments first rest)) = some (certificateDocument arguments first rest)) :
    fileCertificate Γ yaml (name, yaml.dump (certificateDocument arguments first rest)) = some certificate ↔
      (yaml.dump (certificateDocument arguments first rest)).length ≤ maxConfigBytes ∧
        Yaml.certificateConfig Γ (.map (certificateMapping arguments first rest)) = some certificate := by
  unfold fileCertificate loadCertificateFile loadYamlFile
  by_cases hlong : maxConfigBytes < (yaml.dump (certificateDocument arguments first rest)).length
  · have hnot : ¬(yaml.dump (certificateDocument arguments first rest)).length ≤ maxConfigBytes := by omega
    simp [hlong, hnot, bind, Except.bind]
  · have hle : (yaml.dump (certificateDocument arguments first rest)).length ≤ maxConfigBytes := by omega
    simp only [hlong, if_false, hyaml, hle, true_and]
    rfl

/-- What a run of `add_certificate` that writes has checked, and what it writes. -/
theorem addCertificate_ok {Γ : Ctx} {yaml : YamlLibrary} {directory : ConfigDirectory} {arguments : AddCertificate}
    {result : String × ConfigDirectory} (hadd : addCertificate Γ yaml directory arguments = .ok result)
    (hwrite : arguments.dryRun = false) :
    ∃ first rest, arguments.domains.mapM (normalizeDomain Γ) = .ok (first :: rest) ∧
      isIdentifier arguments.certificateId = true ∧
      arguments.certificateOcid.any (fun ocid => !startsWith ocid "ocid1.certificate.") = false ∧
      result.2 = { directory with
        files := (arguments.fileName, yaml.dump (certificateDocument arguments first rest)) :: directory.files } := by
  unfold addCertificate at hadd
  by_cases hpath : startsWith directory.path "/" = true
  case neg => simp [hpath, bind, Except.bind, throw, throwThe, MonadExceptOf.throw] at hadd
  by_cases hid : isIdentifier arguments.certificateId = true
  case neg => simp [hpath, hid, bind, Except.bind, throw, throwThe, MonadExceptOf.throw] at hadd
  by_cases hnil : arguments.domains = []
  · simp [hpath, hid, hnil, bind, Except.bind, throw, throwThe, MonadExceptOf.throw] at hadd
  rw [if_neg (not_not.2 hpath), if_neg (not_not.2 hid), if_neg hnil] at hadd
  cases hnames : arguments.domains.mapM (normalizeDomain Γ) with
  | error x =>
    simp only [hnames] at hadd
    by_cases hx : x.isInstance .valueError = true
    · simp [hx, throw, throwThe, MonadExceptOf.throw] at hadd
    · simp [hx, throw, throwThe, MonadExceptOf.throw] at hadd
  | ok names =>
    cases names with
    | nil => simp [hnames, throw, throwThe, MonadExceptOf.throw] at hadd
    | cons first rest =>
      refine ⟨first, rest, rfl, hid, ?_⟩
      simp only [hnames] at hadd
      by_cases hnodup : (first :: rest).Nodup
      case neg => rw [if_pos hnodup] at hadd; cases hadd
      by_cases hregion : arguments.region = "" ∨ arguments.region.toList.any isSpace = true
      · rw [if_neg (not_not.2 hnodup), if_pos hregion] at hadd
        cases hadd
      by_cases hcompartment : startsWith arguments.compartmentOcid "ocid1.compartment." = true
      case neg => rw [if_neg (not_not.2 hnodup), if_neg hregion, if_pos hcompartment] at hadd; cases hadd
      by_cases hocid : arguments.certificateOcid.any (fun ocid => !startsWith ocid "ocid1.certificate.") = true
      · rw [if_neg (not_not.2 hnodup), if_neg hregion, if_neg (not_not.2 hcompartment), if_pos hocid] at hadd
        cases hadd
      by_cases hexists : arguments.fileName ∈ directory.files.map (·.1)
      · rw [if_neg (not_not.2 hnodup), if_neg hregion, if_neg (not_not.2 hcompartment), if_neg hocid, if_pos hexists] at hadd
        cases hadd
      rw [if_neg (not_not.2 hnodup), if_neg hregion, if_neg (not_not.2 hcompartment), if_neg hocid, if_neg hexists] at hadd
      by_cases hready : directory.initialized = true
      case neg => simp [hwrite, hready, bind, Except.bind, throw, throwThe, MonadExceptOf.throw] at hadd
      refine ⟨by simpa using hocid, ?_⟩
      simp only [hwrite, hready, bind, Except.bind, pure, Except.pure] at hadd
      simp at hadd
      rw [← hadd]
      simp [hready]

/-- What the loader asks of the arguments beyond `add_certificate`: the names it normalizes once more are distinct, the first is
at most 64 bytes long, the document is not too large, and identifier, domains and OCID are free beside the other certificates. -/
structure Fits (Γ : Ctx) (yaml : YamlLibrary) (configured : List CertificateConfig) (arguments : AddCertificate)
    (first : String) (rest : List String) (renamed : List String) : Prop where
  normalized : arguments.domains.mapM (normalizeDomain Γ) = .ok (first :: rest)
  again : (first :: rest).mapM (fun name => (normalizeDomain Γ name).toOption) = some renamed
  unique : renamed.Nodup
  short : ∀ name ∈ renamed.head?, utf8Length name ≤ cnMaxBytes
  size : (yaml.dump (certificateDocument arguments first rest)).length ≤ maxConfigBytes
  id : ∀ other ∈ configured, other.id ≠ arguments.certificateId
  webroot : ∀ other ∈ configured, other.webrootId ≠ arguments.certificateId
  domains : ∀ other ∈ configured, renamed.Disjoint other.domains
  ocid : ∀ other ∈ configured, arguments.certificateOcid.isSome →
    arguments.certificateOcid = other.oci.certificateOcid → renamed.head? = some other.commonName

/-- The new document loads beside the others exactly if the arguments fit. -/
theorem added_loads_iff {Γ : Ctx} {yaml : YamlLibrary} {directory : ConfigDirectory} {config : AppConfig}
    {arguments : AddCertificate} {result : String × ConfigDirectory} (hload : loadConfig Γ yaml directory = .ok config)
    (hadd : addCertificate Γ yaml directory arguments = .ok result) (hwrite : arguments.dryRun = false)
    (hyaml : ∀ first rest, arguments.domains.mapM (normalizeDomain Γ) = .ok (first :: rest) →
      yaml.load (yaml.dump (certificateDocument arguments first rest)) = some (certificateDocument arguments first rest)) :
    (∃ config', loadConfig Γ yaml result.2 = .ok config') ↔
      ∃ first rest renamed, Fits Γ yaml config.certificates arguments first rest renamed := by
  obtain ⟨first, rest, hnames, hid, hocid, hresult⟩ := addCertificate_ok hadd hwrite
  rw [hresult, loads_with_file hload]
  have hdocument := fun certificate => fileCertificate_document (Γ := Γ) arguments.fileName certificate
    (hyaml first rest hnames)
  constructor
  · rintro ⟨certificate, hown, hothers⟩
    obtain ⟨hsize, hmapping⟩ := (hdocument certificate).1 hown
    obtain ⟨first', rest', hagain, hnodup, hshort, rfl⟩ := (certificateConfig_mapping hid hocid).1 hmapping
    refine ⟨first, rest, first' :: rest', ?_⟩
    constructor
    · exact hnames
    · exact hagain
    · exact hnodup
    · simpa using hshort
    · exact hsize
    · exact fun other ho => (hothers other ho).1
    · exact fun other ho => (hothers other ho).2.1
    · exact fun other ho => (hothers other ho).2.2.domains
    · intro other ho hsome heq
      exact congrArg some ((hothers other ho).2.2.ocid hsome heq)
  · rintro ⟨first', rest', renamed, h⟩
    have hsame := h.normalized
    rw [hnames] at hsame
    cases hsame
    cases renamed with
    | nil =>
      have hlength := (mapM_option_iff.1 h.again).length_eq
      cases hlength
    | cons name names =>
      have hshort : utf8Length name ≤ cnMaxBytes := h.short name rfl
      refine ⟨composed arguments name names, (hdocument _).2 ⟨h.size, ?_⟩, ?_⟩
      · exact (certificateConfig_mapping hid hocid).2 ⟨name, names, h.again, h.unique, hshort, rfl⟩
      · intro other ho
        refine ⟨h.id other ho, h.webroot other ho, ⟨h.domains other ho, ?_⟩⟩
        intro hsome heq
        exact Option.some.inj (h.ocid other ho hsome heq)

/-! ## A sample directory -/

/-- The lines `safe_dump` writes of the composed document of the sample arguments. -/
def writtenLines (id domain : String) : List (List Char) := [
  "certificate:".toList, "  id: ".toList ++ id.toList, "  webroot_id: ".toList ++ id.toList,
  "  common_name: ".toList ++ domain.toList, "  domains:".toList, "  - ".toList ++ domain.toList, "  key:".toList,
  "    type: rsa".toList, "    rsa_size: 2048".toList, "  chain:".toList,
  "    root_pem_path: ".toList ++ "/etc/oci-acme-publisher/roots/".toList ++ "isrg-root-x1.pem".toList,
  "    allowed_root_sha256:".toList, "    - '".toList ++ List.replicate 64 '0' ++ ['\''],
  "    allowed_issuer_common_names:".toList, "    - EXAMPLE ISSUER".toList, "  oci:".toList,
  "    region: eu-frankfurt-1".toList, "    compartment_ocid: ".toList ++ "ocid1.compartment.oc1..example".toList,
  "    certificate_ocid: null".toList, "    certificate_name: ".toList ++ id.toList, "  audit:".toList,
  "    mode: observe".toList, "    automatic_rollback_on_failure: ".toList ++ "false".toList, "    endpoints:".toList,
  "    - hostname: ".toList ++ domain.toList, "      port: 443".toList]

/-- The sample arguments: one domain and no OCID. -/
def adding (id domain : String) : AddCertificate where
  certificateId := id
  domains := [domain]
  region := "eu-frankfurt-1"
  compartmentOcid := "ocid1.compartment.oc1..example"
  certificateOcid := none

def written (id domain : String) : Bytes :=
  (writtenLines id domain).flatMap (fun line => line.map (fun c => c.val.toUInt8) ++ [10])

/-- The identifier and the Common Name of a document. -/
def named : Yaml → String × String
  | .map [("certificate", .map (("id", .str id) :: _ :: ("common_name", .str domain) :: _))] => (id, domain)
  | _ => ("", "")

/-- The library on the two documents of the samples. -/
def sampleYaml (domain : String) : YamlLibrary where
  dump document := written (named document).1 (named document).2
  load raw :=
    if raw = written "web" "a.example" then some (certificateDocument (adding "web" "a.example") "a.example" [])
    else if raw = written "shop" domain then some (certificateDocument (adding "shop" domain) domain [])
    else none

theorem sampleYaml_load (domain : String) (raw : Bytes) : (sampleYaml domain).load raw =
    if raw = written "web" "a.example" then some (certificateDocument (adding "web" "a.example") "a.example" [])
    else if raw = written "shop" domain then some (certificateDocument (adding "shop" domain) domain [])
    else none := rfl

theorem sampleYaml_dump (new id domain : String) :
    (sampleYaml new).dump (certificateDocument (adding id domain) domain []) = written id domain := rfl

/-- A directory with the certificate `web` for `a.example`. -/
def sampleDirectory : ConfigDirectory where
  path := "/etc/oci-acme-publisher"
  settings := { Sample.config Sample.certificate with
    acme := { (Sample.config Sample.certificate).acme with directoryUrl := "https://staging.example" } }
  initialized := true
  files := [("web.yaml", written "web" "a.example")]

def sampleConfig : AppConfig := { sampleDirectory.settings with certificates := [composed (adding "web" "a.example") "a.example" []] }

/-- The size of a written document. -/
theorem written_length (id domain : String) :
    (written id domain).length = 587 + 3 * id.toList.length + 3 * domain.toList.length := by
  simp only [written, writtenLines, List.flatMap_cons, List.flatMap_nil, List.length_append, List.length_map,
    String.reduceToList, List.length_cons, List.length_nil, List.length_replicate, Nat.reduceAdd]
  omega

/-- The file of the other identifier is longer. -/
theorem written_apart {a b : String} (h : a.toList.length = b.toList.length) : written "shop" a ≠ written "web" b := by
  intro heq
  have hlength := congrArg List.length heq
  have hshop : "shop".toList.length = 4 := by decide
  have hweb : "web".toList.length = 3 := by decide
  rw [written_length, written_length, hshop, hweb] at hlength
  omega

theorem sample_loads (domain : String) : loadConfig Sample.ctx (sampleYaml domain) sampleDirectory = .ok sampleConfig := by
  have hfile : fileCertificate Sample.ctx (sampleYaml domain) ("web.yaml", written "web" "a.example") =
      some (composed (adding "web" "a.example") "a.example" []) := by
    rw [← sampleYaml_dump domain]
    have hyaml : (sampleYaml domain).load
        ((sampleYaml domain).dump (certificateDocument (adding "web" "a.example") "a.example" [])) =
          some (certificateDocument (adding "web" "a.example") "a.example" []) := by
      rw [sampleYaml_dump, sampleYaml_load, if_pos rfl]
    apply (fileCertificate_document "web.yaml" _ hyaml).2
    have hdomain : "a.example".toList.length = 9 := by decide
    have hid : "web".toList.length = 3 := by decide
    constructor
    · rw [sampleYaml_dump, written_length, hdomain, hid]
      decide
    · have hagain : ["a.example"].mapM (fun name => (normalizeDomain Sample.ctx name).toOption) = some ["a.example"] := by
        decide +kernel
      exact (certificateConfig_mapping (by decide) rfl).2 ⟨"a.example", [], hagain, by decide, by decide, rfl⟩
  have hcross : sampleConfig.crossFieldInvariants = .ok () := by decide +kernel
  refine loadConfig_ok.2 ⟨by simp [sampleDirectory], ?_, rfl, sampleConfig.crossFieldInvariants_ok.1 hcross⟩
  have hordered : ConfigDirectory.ordered sampleDirectory = [("web.yaml", written "web" "a.example")] :=
    List.mergeSort_singleton _
  rw [hordered]
  exact .cons hfile .nil

/-- The directory after the sample arguments. -/
def addedTo (domain : String) : String × ConfigDirectory :=
  ("/etc/oci-acme-publisher/certificates/" ++ (adding "shop" domain).fileName,
    { sampleDirectory with files := ((adding "shop" domain).fileName,
      (sampleYaml domain).dump (certificateDocument (adding "shop" domain) domain [])) :: sampleDirectory.files })

/-- The sample document reads back. -/
theorem sample_reads {domain : String} (h : domain.toList.length = 9) :
    (sampleYaml domain).load ((sampleYaml domain).dump (certificateDocument (adding "shop" domain) domain [])) =
      some (certificateDocument (adding "shop" domain) domain []) := by
  have hlength : domain.toList.length = "a.example".toList.length := by
    rw [h]
    decide
  rw [sampleYaml_dump, sampleYaml_load, if_neg (written_apart hlength), if_pos rfl]

theorem sample_adds {domain : String} (h : [domain].mapM (normalizeDomain Sample.ctx) = .ok [domain]) :
    addCertificate Sample.ctx (sampleYaml domain) sampleDirectory (adding "shop" domain) = .ok (addedTo domain) := by
  unfold addCertificate
  have hpath : startsWith sampleDirectory.path "/" = true := by decide +kernel
  have hid : isIdentifier (adding "shop" domain).certificateId = true := by
    show isIdentifier "shop" = true
    decide +kernel
  have hnil : (adding "shop" domain).domains ≠ [] := List.cons_ne_nil _ _
  have hdomains : (adding "shop" domain).domains.mapM (normalizeDomain Sample.ctx) = .ok [domain] := h
  have hnodup : [domain].Nodup := List.nodup_singleton domain
  have hregion : ¬((adding "shop" domain).region = "" ∨ (adding "shop" domain).region.toList.any isSpace = true) := by
    show ¬("eu-frankfurt-1" = "" ∨ "eu-frankfurt-1".toList.any isSpace = true)
    decide +kernel
  have hcompartment : startsWith (adding "shop" domain).compartmentOcid "ocid1.compartment." = true := by
    show startsWith "ocid1.compartment.oc1..example" "ocid1.compartment." = true
    decide +kernel
  have hocid : ¬(adding "shop" domain).certificateOcid.any (fun ocid => !startsWith ocid "ocid1.certificate.") = true := by
    simp [adding]
  have hfresh : (adding "shop" domain).fileName ∉ sampleDirectory.files.map (·.1) := by
    show "shop" ++ ".yaml" ∉ ["web.yaml"]
    decide +kernel
  rw [if_neg (not_not.2 hpath), if_neg (not_not.2 hid), if_neg hnil]
  simp only [hdomains]
  have hresult : pathText (sampleDirectory.path ++ "/certificates/" ++ (adding "shop" domain).fileName) =
      "/etc/oci-acme-publisher/certificates/" ++ (adding "shop" domain).fileName := by
    show pathText ("/etc/oci-acme-publisher" ++ "/certificates/" ++ ("shop" ++ ".yaml")) =
      "/etc/oci-acme-publisher/certificates/" ++ ("shop" ++ ".yaml")
    decide +kernel
  rw [if_neg (not_not.2 hnodup), if_neg hregion, if_neg (not_not.2 hcompartment), if_neg hocid, if_neg hfresh, hresult]
  rfl

end AddedCertificateAux

open AddedCertificateAux

/-- A directory that loads still loads with the document `add_certificate` wrote exactly if the arguments fit it. -/
theorem add_certificate_loads_iff (Γ : Ctx) (yaml : YamlLibrary) (directory : ConfigDirectory) (config : AppConfig)
    (arguments : AddCertificate) (result : String × ConfigDirectory) (hload : loadConfig Γ yaml directory = .ok config)
    (hadd : addCertificate Γ yaml directory arguments = .ok result) (hwrite : arguments.dryRun = false)
    (hyaml : ∀ first rest, arguments.domains.mapM (normalizeDomain Γ) = .ok (first :: rest) →
      yaml.load (yaml.dump (certificateDocument arguments first rest)) = some (certificateDocument arguments first rest)) :
    (∃ config', loadConfig Γ yaml result.2 = .ok config') ↔
      ∃ first rest renamed, Fits Γ yaml config.certificates arguments first rest renamed :=
  added_loads_iff hload hadd hwrite hyaml

/-- A certificate for `b.example` under a new identifier fits. -/
theorem add_certificate_loads_iff_sample :
    ∃ config', loadConfig Sample.ctx (sampleYaml "b.example") (addedTo "b.example").2 = .ok config' := by
  have hnames : ["b.example"].mapM (normalizeDomain Sample.ctx) = .ok ["b.example"] := by decide +kernel
  have hlength : "b.example".toList.length = 9 := by decide
  have hyaml : ∀ first rest, (adding "shop" "b.example").domains.mapM (normalizeDomain Sample.ctx) = .ok (first :: rest) →
      (sampleYaml "b.example").load ((sampleYaml "b.example").dump
        (certificateDocument (adding "shop" "b.example") first rest)) =
          some (certificateDocument (adding "shop" "b.example") first rest) := by
    intro first rest h
    have hdomains : (adding "shop" "b.example").domains.mapM (normalizeDomain Sample.ctx) = .ok ["b.example"] := hnames
    rw [hdomains] at h
    cases h
    exact sample_reads hlength
  refine (add_certificate_loads_iff Sample.ctx (sampleYaml "b.example") sampleDirectory sampleConfig
    (adding "shop" "b.example") (addedTo "b.example") (sample_loads _) (sample_adds hnames) rfl hyaml).2
    ⟨"b.example", [], ["b.example"], ?_⟩
  have hone : ∀ other ∈ sampleConfig.certificates, other = composed (adding "web" "a.example") "a.example" [] :=
    fun other ho => List.mem_singleton.1 ho
  have hshop : "shop".toList.length = 4 := by decide
  constructor
  · exact hnames
  · decide +kernel
  · decide
  · decide
  · rw [sampleYaml_dump, written_length, hlength, hshop]
    decide
  · intro other ho
    rw [hone other ho]
    show "web" ≠ "shop"
    decide
  · intro other ho
    rw [hone other ho]
    show "web" ≠ "shop"
    decide
  · intro other ho
    rw [hone other ho]
    show ["b.example"].Disjoint ["a.example"]
    simp
  · intro other _ hsome
    cases hsome

/-- The domain of a configured certificate under a new identifier: the command writes the document and nothing loads any more. -/
theorem add_certificate_loads_false :
    loadConfig Sample.ctx (sampleYaml "a.example") sampleDirectory = .ok sampleConfig ∧
      addCertificate Sample.ctx (sampleYaml "a.example") sampleDirectory (adding "shop" "a.example") =
        .ok (addedTo "a.example") ∧
      (sampleYaml "a.example").load ((sampleYaml "a.example").dump
        (certificateDocument (adding "shop" "a.example") "a.example" [])) =
          some (certificateDocument (adding "shop" "a.example") "a.example" []) ∧
      ∀ config', loadConfig Sample.ctx (sampleYaml "a.example") (addedTo "a.example").2 ≠ .ok config' := by
  have hreads : (sampleYaml "a.example").load ((sampleYaml "a.example").dump
      (certificateDocument (adding "shop" "a.example") "a.example" [])) =
        some (certificateDocument (adding "shop" "a.example") "a.example" []) := sample_reads (by decide)
  have hnames : ["a.example"].mapM (normalizeDomain Sample.ctx) = .ok ["a.example"] := by decide +kernel
  refine ⟨sample_loads _, sample_adds hnames, hreads, ?_⟩
  intro config' hload
  obtain ⟨certificate, hown, hothers⟩ := (loads_with_file (sample_loads "a.example") _).1 ⟨config', hload⟩
  have hmapping := ((fileCertificate_document _ certificate hreads).1 hown).2
  have hagain : ["a.example"].mapM (fun name => (normalizeDomain Sample.ctx name).toOption) = some ["a.example"] := by
    decide +kernel
  obtain ⟨first', rest', hrenamed, -, -, rfl⟩ := (certificateConfig_mapping (by decide) rfl).1 hmapping
  rw [hagain] at hrenamed
  cases hrenamed
  have hdisjoint := (hothers _ (List.mem_singleton.2 rfl)).2.2.domains
  exact hdisjoint (List.mem_singleton.2 rfl) (List.mem_singleton.2 rfl)

end OciAcmePublisher
