import OciAcmePublisher.ConfigValidation

/-!
# Configuration documents

The YAML documents of certificates, how the loader validates one, and how `load_config` composes a directory of them with its
settings. A validator returns nothing where the model it belongs to raises a `ValidationError`. `YamlLibrary` carries the parser
and the writer; a document that is no mapping of texts to values is refused by every validator alike.
-/

namespace OciAcmePublisher

/-- A parsed YAML value; `other` stands for the values that no field accepts. -/
inductive Yaml where
  | null
  | bool (value : Bool)
  | int (value : Int)
  | str (value : String)
  | seq (items : List Yaml)
  | map (entries : List (String × Yaml))
  | other

/-- The YAML library. -/
structure YamlLibrary where
  /-- `yaml.load` with the loader that refuses duplicate keys, none where it raises `YAMLError`. -/
  load : Bytes → Option Yaml
  /-- `yaml.safe_dump(document, sort_keys=False)`, encoded. -/
  dump : Yaml → Bytes

/-! ## Fields -/

/-- The fields of a strict model: a mapping with no other field than those the model has. -/
def Yaml.fields (allowed : List String) : Yaml → Option (String → Option Yaml)
  | .map entries => if entries.all (fun entry => allowed.contains entry.1) then some (fun name => entries.lookup name) else none
  | _ => none

/-- A required field. -/
def required {α : Type} (fields : String → Option Yaml) (name : String) (check : Yaml → Option α) : Option α :=
  match fields name with
  | some value => check value
  | none => none

/-- A field with a default. -/
def defaulted {α : Type} (fields : String → Option Yaml) (name : String) (default : α) (check : Yaml → Option α) : Option α :=
  match fields name with
  | some value => check value
  | none => some default

def Yaml.text : Yaml → Option String
  | .str value => some value
  | _ => none

def Yaml.flag : Yaml → Option Bool
  | .bool value => some value
  | _ => none

/-- `Annotated[int, Field(ge=low, le=high)]`. -/
def Yaml.between (low high : Nat) : Yaml → Option Nat
  | .int value => if (low : Int) ≤ value ∧ value ≤ high then some value.toNat else none
  | _ => none

/-- The same, with the bounds it keeps. -/
def Yaml.within (low high : Nat) : Yaml → Option {n : Nat // low ≤ n ∧ n ≤ high}
  | .int value => if h : (low : Int) ≤ value ∧ value ≤ high then some ⟨value.toNat, by omega⟩ else none
  | _ => none

/-- `tuple[str, ...]` from a YAML list. -/
def Yaml.texts : Yaml → Option (List String)
  | .seq items => items.mapM Yaml.text
  | _ => none

/-- `T | None`. -/
def Yaml.nullable {α : Type} (check : Yaml → Option α) : Yaml → Option (Option α)
  | .null => some none
  | value => (check value).map some

/-- `^[a-z][a-z0-9-]{0,62}$`. -/
def isIdentifier (value : String) : Bool :=
  let lower (c : Char) : Bool := 97 ≤ c.toNat && c.toNat ≤ 122
  match value.toList with
  | [] => false
  | first :: rest => lower first && rest.length ≤ 62 && rest.all (fun c => lower c || c.isDigit || c == '-')

def Yaml.identifier (value : Yaml) : Option String :=
  match value.text with
  | some text => if isIdentifier text then some text else none
  | none => none

/-- A text that `normalize_domain` validates. -/
def Yaml.domain (Γ : Ctx) (value : Yaml) : Option String :=
  match value.text with
  | some text => (normalizeDomain Γ text).toOption
  | none => none

/-- `_absolute_path`. -/
def Yaml.absolutePath (value : Yaml) : Option String :=
  match value.text with
  | some text => if startsWith text "/" then some text else none
  | none => none

/-! ## Models -/

/-- `KeyConfig`, with `family_parameters_match`. -/
def Yaml.keyConfig (value : Yaml) : Option KeyConfig := do
  let fields ← value.fields ["type", "rsa_size", "ecdsa_curve"]
  let type ← required fields "type" Yaml.text
  let rsaSize ← defaulted fields "rsa_size" none (Yaml.nullable (Yaml.between 0 4096))
  let ecdsaCurve ← defaulted fields "ecdsa_curve" none (Yaml.nullable Yaml.text)
  match type, rsaSize, ecdsaCurve with
  | "rsa", some size, none => if size = 2048 ∨ size = 4096 then some (.rsa size) else none
  | "ecdsa", none, some curve => if curve = "secp256r1" ∨ curve = "secp384r1" then some (.ecdsa curve) else none
  | _, _, _ => none

/-- `ChainConfig`. -/
def Yaml.chainConfig (value : Yaml) : Option ChainConfig := do
  let fields ← value.fields ["root_pem_path", "allowed_root_sha256", "allowed_issuer_common_names"]
  let rootPemPath ← required fields "root_pem_path" Yaml.absolutePath
  let allowedRootSha256 ← required fields "allowed_root_sha256" Yaml.texts
  let allowedIssuerCommonNames ← required fields "allowed_issuer_common_names" Yaml.texts
  if allowedRootSha256 ≠ [] ∧ allowedRootSha256.all isSha256Hex then
    some { rootPemPath, allowedRootSha256, allowedIssuerCommonNames }
  else none

/-- `CertificateOciConfig`. -/
def Yaml.certificateOciConfig (value : Yaml) : Option CertificateOciConfig := do
  let fields ← value.fields ["region", "compartment_ocid", "certificate_ocid", "certificate_name"]
  let region ← required fields "region" Yaml.text
  let compartmentOcid ← required fields "compartment_ocid" Yaml.text
  let certificateOcid ← defaulted fields "certificate_ocid" none (Yaml.nullable Yaml.text)
  let certificateName ← required fields "certificate_name" Yaml.text
  some { region, compartmentOcid, certificateOcid, certificateName }

/-- `AuditEndpoint`. -/
def Yaml.auditEndpoint (Γ : Ctx) (value : Yaml) : Option AuditEndpoint := do
  let fields ← value.fields ["hostname", "port"]
  let hostname ← required fields "hostname" (Yaml.domain Γ)
  let port ← required fields "port" (Yaml.between 1 65535)
  some { hostname, port }

def Yaml.auditMode (value : Yaml) : Option AuditMode :=
  match value.text with
  | some "disabled" => some .disabled
  | some "observe" => some .observe
  | some "enforce" => some .enforce
  | _ => none

def Yaml.auditEndpoints (Γ : Ctx) : Yaml → Option (List AuditEndpoint)
  | .seq items => items.mapM (Yaml.auditEndpoint Γ)
  | _ => none

/-- `AuditConfig`, with `automatic_rollback_requires_enforcement`. -/
def Yaml.auditConfig (Γ : Ctx) (value : Yaml) : Option AuditConfig := do
  let fields ← value.fields ["mode", "automatic_rollback_on_failure", "propagation_timeout_seconds",
    "retry_interval_seconds", "require_all_addresses", "reject_non_global_addresses", "endpoints"]
  let mode ← defaulted fields "mode" AuditMode.observe Yaml.auditMode
  let automaticRollbackOnFailure ← defaulted fields "automatic_rollback_on_failure" false Yaml.flag
  let propagationTimeoutSeconds ← defaulted fields "propagation_timeout_seconds" 600 (Yaml.between 0 3600)
  let retryIntervalSeconds ← defaulted fields "retry_interval_seconds" 15 (Yaml.between 1 300)
  let requireAllAddresses ← defaulted fields "require_all_addresses" true Yaml.flag
  let rejectNonGlobalAddresses ← defaulted fields "reject_non_global_addresses" true Yaml.flag
  let endpoints ← defaulted fields "endpoints" [] (Yaml.auditEndpoints Γ)
  if h : automaticRollbackOnFailure = true → mode = .enforce then
    some {
      mode, automaticRollbackOnFailure, propagationTimeoutSeconds, retryIntervalSeconds, requireAllAddresses,
      rejectNonGlobalAddresses, endpoints
      rollback_enforced := h }
  else none

/-- `RetentionConfig`. -/
def Yaml.retentionConfig (value : Yaml) : Option RetentionConfig := do
  let fields ← value.fields ["enabled", "keep_deprecated_versions", "minimum_age_days", "deletion_delay_days"]
  let enabled ← defaulted fields "enabled" true Yaml.flag
  let kept ← defaulted fields "keep_deprecated_versions" ⟨2, RetentionConfig.standard.keep_bounds⟩ (Yaml.within 1 100)
  let age ← defaulted fields "minimum_age_days" ⟨30, RetentionConfig.standard.age_bounds⟩ (Yaml.within 0 3650)
  let delay ← defaulted fields "deletion_delay_days" ⟨30, RetentionConfig.standard.delay_bounds⟩ (Yaml.within 1 3650)
  some {
    enabled
    keepDeprecatedVersions := kept
    minimumAgeDays := age
    deletionDelayDays := delay
    keep_bounds := kept.2
    age_bounds := age.2
    delay_bounds := delay.2 }

/-- `domains_from_yaml_are_normalized`. -/
def Yaml.domains (Γ : Ctx) : Yaml → Option (List String)
  | .seq items => items.mapM (Yaml.domain Γ)
  | _ => none

/-- `CertificateConfig`, with `certificate_invariants`. -/
def Yaml.certificateConfig (Γ : Ctx) (value : Yaml) : Option CertificateConfig := do
  let fields ← value.fields ["id", "webroot_id", "common_name", "domains", "key", "chain", "oci", "audit", "retention"]
  let id ← required fields "id" Yaml.identifier
  let webrootId ← required fields "webroot_id" Yaml.identifier
  let commonName ← required fields "common_name" (Yaml.domain Γ)
  let domains ← required fields "domains" (Yaml.domains Γ)
  let key ← required fields "key" Yaml.keyConfig
  let chain ← required fields "chain" Yaml.chainConfig
  let oci ← required fields "oci" Yaml.certificateOciConfig
  let audit ← defaulted fields "audit" {} (Yaml.auditConfig Γ)
  let retention ← defaulted fields "retention" .standard Yaml.retentionConfig
  let certificate : CertificateConfig := { id, webrootId, commonName, domains, key, chain, oci, audit, retention }
  match certificate.certificateInvariants with
  | .ok () => some certificate
  | .error _ => none

/-! ## The directory -/

/-- `MAX_CONFIG_BYTES`. -/
def maxConfigBytes : Nat := 1048576

/-- A configuration directory: the settings, validated, and the certificate files with their contents. -/
structure ConfigDirectory where
  path : String
  settings : AppConfig
  initialized : Bool
  files : List (String × Bytes)

/-- `_load_yaml_file` of a readable file; its value is a mapping. -/
def loadYamlFile (yaml : YamlLibrary) (raw : Bytes) : Except Exc (List (String × Yaml)) :=
  if maxConfigBytes < raw.length then
    .error (.of .configurationError "configuration file exceeds maximum size")
  else
    match yaml.load raw with
    | none => .error (.of .configurationError "invalid YAML configuration")
    | some (.map entries) => .ok entries
    | some _ => .error (.of .configurationError "configuration root must be a mapping")

/-- The certificate mapping of a certificate file. -/
def loadCertificateFile (yaml : YamlLibrary) (raw : Bytes) : Except Exc Yaml := do
  match ← loadYamlFile yaml raw with
  | [("certificate", .map entries)] => .ok (.map entries)
  | _ => .error (.of .configurationError "certificate files must contain exactly one certificate mapping")

/-- `_validate_config` of validated settings with certificate mappings. -/
def validateConfig (Γ : Ctx) (settings : AppConfig) (documents : List Yaml) : Except Exc AppConfig :=
  match documents.mapM (Yaml.certificateConfig Γ) with
  | none => .error (.of .configurationError "invalid configuration fields: certificates")
  | some certificates =>
    let config : AppConfig := { settings with certificates := certificates }
    match config.crossFieldInvariants with
    | .ok () => .ok config
    | .error _ => .error (.of .configurationError "invalid configuration fields: ")

/-- `load_config` of a directory, its files in the order of their names. -/
def loadConfig (Γ : Ctx) (yaml : YamlLibrary) (directory : ConfigDirectory) : Except Exc AppConfig := do
  if directory.files = [] then
    throw (.of .configurationError "configuration directory contains no certificate files")
  let documents ← (directory.files.mergeSort (fun a b => decide (a.1 ≤ b.1))).mapM
    (fun file => loadCertificateFile yaml file.2)
  validateConfig Γ directory.settings documents

end OciAcmePublisher
