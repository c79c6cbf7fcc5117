import OciAcmePublisher.Certificates

/-!
# Local validation of certificate material

`validate_certificate_material` checks a local generation before it is published; `validate_public_certificate` checks the leaf
of a bundle read back from OCI. Both return the SHA-256 fingerprint of the leaf they accept.
-/

namespace OciAcmePublisher

/-- The ISO 3166-1 codes the subject country is checked against. -/
def isoCountries : List String :=
  ["AD", "AE", "AF", "AG", "AI", "AL", "AM", "AO", "AQ", "AR", "AS", "AT", "AU", "AW", "AX", "AZ", "BA",
   "BB", "BD", "BE", "BF", "BG", "BH", "BI", "BJ", "BM", "BN", "BO", "BQ", "BR", "BS", "BT", "BV", "BW",
   "BY", "BZ", "CA", "CC", "CD", "CF", "CG", "CH", "CI", "CK", "CL", "CM", "CN", "CO", "CR", "CU", "CV",
   "CW", "CX", "CY", "CZ", "DE", "DJ", "DK", "DM", "DO", "DZ", "EC", "EE", "EG", "EH", "ER", "ES", "ET",
   "FI", "FJ", "FK", "FM", "FO", "FR", "GA", "GB", "GD", "GE", "GF", "GG", "GH", "GI", "GL", "GM", "GN",
   "GP", "GQ", "GR", "GS", "GT", "GU", "GW", "GY", "HK", "HM", "HN", "HR", "HT", "HU", "ID", "IE", "IL",
   "IM", "IN", "IO", "IQ", "IR", "IS", "IT", "JE", "JM", "JO", "JP", "KE", "KG", "KH", "KI", "KM", "KN",
   "KP", "KR", "KW", "KY", "KZ", "LA", "LB", "LC", "LI", "LK", "LR", "LS", "LT", "LU", "LV", "LY", "MA",
   "MC", "MD", "ME", "MG", "MH", "MK", "ML", "MM", "MN", "MO", "MP", "MQ", "MR", "MS", "MT", "MU", "MV",
   "MW", "MX", "MY", "MZ", "NA", "NC", "NE", "NF", "NG", "NI", "NL", "NO", "NP", "NR", "NU", "NZ", "OM",
   "PA", "PE", "PF", "PG", "PH", "PK", "PL", "PM", "PN", "PR", "PS", "PT", "PW", "PY", "QA", "RE", "RO",
   "RS", "RU", "RW", "SA", "SB", "SC", "SD", "SE", "SG", "SH", "SI", "SJ", "SK", "SL", "SM", "SN", "SO",
   "SR", "SS", "ST", "SV", "SX", "SY", "SZ", "TC", "TD", "TF", "TG", "TH", "TJ", "TK", "TL", "TM", "TN",
   "TO", "TR", "TT", "TV", "TW", "TZ", "UA", "UG", "UM", "US", "UY", "UZ", "VA", "VC", "VE", "VG", "VI",
   "VN", "VU", "WF", "WS", "XK", "YE", "YT", "ZA", "ZM", "ZW"]

/-- Raise unless the condition holds. -/
def require (cond : Prop) [Decidable cond] (x : Exc) : Except Exc Unit :=
  if cond then .ok () else .error x

@[simp] theorem require_eq_ok_iff {cond : Prop} [Decidable cond] {x : Exc} {u : Unit} :
    require cond x = .ok u ↔ cond := by
  unfold require
  split <;> simp_all

/-- `CertificateValidationError` with its text. -/
def validationError (message : String) : Exc := .of .certificateValidationError message

/-- `verify_certificate_signature`. -/
def verifyCertificateSignature (Γ : Ctx) (child issuer : X509) : Except Exc Unit := do
  require (child.signatureHash.isSome = true) (validationError "certificate signature algorithm has no hash")
  match issuer.publicKey with
  | .other _ => throw (validationError "unsupported issuer public key algorithm")
  | key => require (Γ.verifies child key = true) (validationError "certificate signature verification failed")

/-- `_dns_sans`: the DNS names of the SAN extension, normalized, in the order of the certificate. -/
def dnsSans (Γ : Ctx) (certificate : X509) : Except Exc (List String) :=
  match certificate.subjectAltNames with
  | none => throw (validationError "certificate does not contain SAN")
  | some names =>
    let values := names.filterMap fun | .dns value => some value | _ => none
    match values.mapM (normalizeDomain Γ) with
    | .ok domains => .ok domains
    | .error _ => throw (validationError "certificate SAN is invalid")

/-- `_common_name`. The check that the value is text raises inside the `try`, so its text is replaced too. -/
def commonName (Γ : Ctx) (certificate : X509) : Except Exc String :=
  match certificate.commonNames with
  | [some value] =>
    match normalizeDomain Γ value with
    | .ok name => .ok name
    | .error _ => throw (validationError "certificate Common Name is invalid")
  | [none] => throw (validationError "certificate Common Name is invalid")
  | _ => throw (validationError "certificate must have exactly one Common Name")

/-- `_validate_key`. -/
def validateKey (certificate : X509) (expected : CertificateConfig) : Except Exc Unit :=
  match expected.key, certificate.publicKey with
  | .rsa size, .rsa keySize _ =>
    require (keySize = size) (validationError "certificate RSA key does not match configuration")
  | .rsa _, _ => throw (validationError "certificate RSA key does not match configuration")
  | .ecdsa curve, .ec name _ =>
    require (name = curve) (validationError "certificate ECDSA key does not match configuration")
  | .ecdsa _, _ => throw (validationError "certificate ECDSA key does not match configuration")

/-- `_validate_extensions`. -/
def validateExtensions (certificate : X509) : Except Exc Unit := do
  match certificate.basicConstraintsCa with
  | none => throw (validationError "leaf certificate lacks BasicConstraints")
  | some ca => require (ca = false) (validationError "leaf certificate must not be a CA")
  require (∀ eku ∈ certificate.extendedKeyUsage, "serverAuth" ∈ eku)
    (validationError "leaf certificate EKU excludes server authentication")
  require (certificate.digitalSignature ≠ some false)
    (validationError "leaf certificate key usage excludes digital signature")

/-- `_validate_country`. -/
def validateCountry (certificate : X509) (compatibility : CompatibilityConfig) : Except Exc Unit :=
  if compatibility.enforceDocumentedSubjectCountry = false then .ok () else
  require (certificate.countries.length = 1 ∧ ∀ c ∈ certificate.countries, c ∈ isoCountries)
    (validationError "certificate country code is missing or not ISO 3166-1")

/-- `_validate_validity`: the validity period, widened by the tolerated clock skew at both ends. -/
def validateValidity (certificate : X509) (global : GlobalConfig) (now : Instant) : Except Exc Unit := do
  let skew := seconds global.clockSkewToleranceSeconds
  require (¬now + skew < certificate.notValidBefore) (validationError "certificate is not yet valid")
  require (¬certificate.notValidAfter < now - skew) (validationError "certificate is expired")

/-- `needle in text`. -/
def containsText (needle text : String) : Bool :=
  text.toList.tails.any (needle.toList.isPrefixOf ·)

/-- The last check of `validate_certificate_material`: the first intermediate signed the leaf. -/
def verifyIssuedByFirst (Γ : Ctx) (material : LineageMaterial) : Except Exc Unit :=
  match material.intermediates with
  | [] => throw (validationError "certificate chain is empty")
  | issuer :: _ => verifyCertificateSignature Γ material.leaf issuer

/-- `validate_certificate_material`: validate local material and return its SHA-256 leaf fingerprint. -/
def validateCertificateMaterial (Γ : Ctx) (material : LineageMaterial) (certificate : CertificateConfig)
    (compatibility : CompatibilityConfig) (global : GlobalConfig) (now : Instant) : Except Exc String := do
  let leaf := material.leaf
  let name ← commonName Γ leaf
  require (name = certificate.commonName)
    (validationError "certificate Common Name does not match configuration")
  let domains ← dnsSans Γ leaf
  require (domains = certificate.domains) (validationError "certificate SAN does not exactly match configuration")
  require (leaf.publicKey.spki = material.privateKey.publicKey.spki)
    (validationError "private key does not match certificate")
  validateValidity leaf global now
  validateExtensions leaf
  validateKey leaf certificate
  validateCountry leaf compatibility
  require (¬(global.environment = .production ∧ containsText "Fake LE" leaf.issuer = true))
    (validationError "staging certificate cannot be published in production")
  require (¬(10240 < material.leafPem.length ∨ 5120 < material.privateKeyPem.length))
    (validationError "certificate or private key exceeds OCI size limit")
  require (¬51200 < material.leafPem.length + material.chainPem.length)
    (validationError "certificate bundle exceeds OCI size limit")
  verifyIssuedByFirst Γ material
  return certificateSha256 leaf

/-- The checks of `validate_public_certificate` on a parsed leaf. -/
def validatePublicLeaf (Γ : Ctx) (leaf : X509) (certificate : CertificateConfig) (global : GlobalConfig)
    (now : Instant) : Except Exc String := do
  let name ← commonName Γ leaf
  require (name = certificate.commonName)
    (validationError "OCI public bundle Common Name does not match configuration")
  let domains ← dnsSans Γ leaf
  require (domains = certificate.domains)
    (validationError "OCI public bundle SAN does not exactly match configuration")
  validateValidity leaf global now
  return certificateSha256 leaf

/-- `validate_public_certificate`: validate public OCI retrieval content against the expected local identity. -/
def validatePublicCertificate (Γ : Ctx) (certificatePem : String) (certificate : CertificateConfig)
    (global : GlobalConfig) (now : Instant) : Except Exc String :=
  match (encodeAscii certificatePem).bind Γ.loadPem with
  | none => throw (validationError "OCI public bundle leaf PEM is invalid")
  | some leaf => validatePublicLeaf Γ leaf certificate global now

/-! ## What the validators accept -/

/-- The leaf is the one the configuration asks for: its Common Name, its DNS names in order and its key parameters. -/
structure MatchesConfiguration (Γ : Ctx) (leaf : X509) (certificate : CertificateConfig) : Prop where
  commonName : commonName Γ leaf = .ok certificate.commonName
  domains : dnsSans Γ leaf = .ok certificate.domains
  key : validateKey leaf certificate = .ok ()

/-- Accepted material matches the configuration, and the returned fingerprint is its leaf's. -/
theorem validateCertificateMaterial_ok {Γ : Ctx} {material : LineageMaterial} {certificate : CertificateConfig}
    {compatibility : CompatibilityConfig} {global : GlobalConfig} {now : Instant} {fingerprint : String}
    (h : validateCertificateMaterial Γ material certificate compatibility global now = .ok fingerprint) :
    MatchesConfiguration Γ material.leaf certificate ∧ fingerprint = certificateSha256 material.leaf := by
  simp only [validateCertificateMaterial, bind_eq_ok_iff, require_eq_ok_iff] at h
  obtain ⟨name, hname, _, hcn, domains, hsans, _, hdom, _, -, _, -, _, -, _, hkey, _, -, _, -, _, -, _, -, _, -, hret⟩ := h
  refine ⟨⟨hcn ▸ hname, hdom ▸ hsans, hkey⟩, ?_⟩
  cases hret
  rfl

/-- An accepted public leaf carries the configured names, is within the widened validity period, and the returned fingerprint
is its own. -/
theorem validatePublicLeaf_ok {Γ : Ctx} {leaf : X509} {certificate : CertificateConfig} {global : GlobalConfig}
    {now : Instant} {fingerprint : String} (h : validatePublicLeaf Γ leaf certificate global now = .ok fingerprint) :
    commonName Γ leaf = .ok certificate.commonName ∧ dnsSans Γ leaf = .ok certificate.domains ∧
      validateValidity leaf global now = .ok () ∧ fingerprint = certificateSha256 leaf := by
  simp only [validatePublicLeaf, bind_eq_ok_iff, require_eq_ok_iff] at h
  obtain ⟨name, hname, _, hcn, domains, hsans, _, hdom, _, hval, hret⟩ := h
  refine ⟨hcn ▸ hname, hdom ▸ hsans, hval, ?_⟩
  cases hret
  rfl

/-- The fingerprint returned for a PEM is the one of the leaf it parses to. -/
theorem validatePublicCertificate_ok {Γ : Ctx} {pem : String} {certificate : CertificateConfig}
    {global : GlobalConfig} {now : Instant} {fingerprint : String}
    (h : validatePublicCertificate Γ pem certificate global now = .ok fingerprint) :
    ∃ leaf, (encodeAscii pem).bind Γ.loadPem = some leaf ∧ fingerprint = certificateSha256 leaf ∧
      validatePublicLeaf Γ leaf certificate global now = .ok fingerprint := by
  unfold validatePublicCertificate at h
  cases hl : (encodeAscii pem).bind Γ.loadPem with
  | none =>
    rw [hl] at h
    cases h
  | some leaf =>
    rw [hl] at h
    exact ⟨leaf, rfl, (validatePublicLeaf_ok h).2.2.2, h⟩

/-- The leaf of accepted material is an accepted public leaf: the public check repeats some of the local ones. -/
theorem validatePublicLeaf_of_material {Γ : Ctx} {material : LineageMaterial} {certificate : CertificateConfig}
    {compatibility : CompatibilityConfig} {global : GlobalConfig} {now : Instant} {fingerprint : String}
    (h : validateCertificateMaterial Γ material certificate compatibility global now = .ok fingerprint) :
    validatePublicLeaf Γ material.leaf certificate global now = .ok fingerprint := by
  simp only [validateCertificateMaterial, bind_eq_ok_iff, require_eq_ok_iff] at h
  obtain ⟨name, hname, _, hcn, domains, hsans, _, hdom, _, -, _, hval, _, -, _, -, _, -, _, -, _, -, _, -, _, -, hret⟩ := h
  simp only [validatePublicLeaf, bind_eq_ok_iff, require_eq_ok_iff]
  exact ⟨name, hname, (), hcn, domains, hsans, (), hdom, (), hval, hret⟩

end OciAcmePublisher
