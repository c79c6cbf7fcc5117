import OciAcmePublisher.Config

/-!
# Certificates

The facts the publisher reads from an X.509 certificate, and what it takes from its libraries: PEM parsing and serialisation,
signature verification, IDNA. `Ctx` carries these library functions; nothing is assumed of them but what a theorem names.
Instants are microseconds since the epoch, as `datetime` counts them.
-/

namespace OciAcmePublisher

abbrev Bytes := List UInt8

abbrev Instant := Int

/-- Microseconds in `n` seconds. -/
def seconds (n : Nat) : Instant := n * 1000000

/-- Microseconds in `n` days. -/
def days (n : Nat) : Instant := n * 86400 * 1000000

/-- `text.encode("ascii")`, none where it raises `UnicodeEncodeError`. -/
def encodeAscii (text : String) : Option Bytes :=
  if text.toList.all (fun c => c.val < 128) then some (text.toList.map (fun c => c.val.toUInt8)) else none

/-- `raw.decode("ascii")`, none where it raises `UnicodeDecodeError`. -/
def decodeAscii (raw : Bytes) : Option String :=
  if raw.all (· < 128) then some (String.ofList (raw.map (fun b => Char.ofNat b.toNat))) else none

/-- The text is lower-case hexadecimal and 64 characters long. -/
def isSha256Hex (text : String) : Bool :=
  text.length == 64 && text.toList.all (fun c => "0123456789abcdef".toList.contains c)

/-- What `certificate.fingerprint(SHA256).hex()` returns. -/
structure Sha256Hex where
  text : String
  valid : isSha256Hex text = true
  deriving DecidableEq

/-- A subject alternative name. -/
inductive GeneralName where
  | dns (value : String)
  | ip (value : String)
  | other (value : String)
  deriving DecidableEq, Repr

/-- A public key: its family with the parameter the policy reads, and its `SubjectPublicKeyInfo`. -/
inductive PublicKey where
  | rsa (keySize : Nat) (spki : String)
  | ec (curve : String) (spki : String)
  | other (spki : String)
  deriving DecidableEq, Repr

/-- `public_key.public_bytes(DER, SubjectPublicKeyInfo)`. -/
def PublicKey.spki : PublicKey → String
  | .rsa _ spki => spki
  | .ec _ spki => spki
  | .other spki => spki

/-- A private key, named by its secret, with its public key. -/
structure PrivateKey where
  secret : String
  publicKey : PublicKey
  deriving DecidableEq, Repr

/-- The parsed certificate. A missing extension is `none`; a Common Name that is not text is `none`. -/
structure X509 where
  subject : String
  issuer : String
  commonNames : List (Option String)
  countries : List String
  subjectAltNames : Option (List GeneralName)
  basicConstraintsCa : Option Bool
  extendedKeyUsage : Option (List String)
  digitalSignature : Option Bool
  notValidBefore : Instant
  notValidAfter : Instant
  publicKey : PublicKey
  signatureHash : Option String
  fingerprint : Sha256Hex
  deriving DecidableEq

/-- `certificate_sha256`. -/
def certificateSha256 (certificate : X509) : String := certificate.fingerprint.text

/-- Parsed certificate material of one generation. -/
structure LineageMaterial where
  leaf : X509
  intermediates : List X509
  privateKey : PrivateKey
  leafPem : Bytes
  chainPem : Bytes
  privateKeyPem : Bytes
  deriving DecidableEq

/-- What `urllib.parse.urlparse` reads from a URL. -/
structure ParsedUrl where
  scheme : String
  hostname : Option String
  username : Option String
  password : Option String
  deriving DecidableEq, Repr

/-- The library functions the code calls. -/
structure Ctx where
  /-- `x509.load_pem_x509_certificate`, none where it raises `ValueError`. -/
  loadPem : Bytes → Option X509
  /-- `x509.load_pem_x509_certificates`, none where it raises `ValueError`. -/
  loadPemAll : Bytes → Option (List X509)
  /-- `certificate.public_bytes(PEM)`. -/
  toPem : X509 → Bytes
  /-- Whether the signature of the certificate verifies under the key, with the certificate's own hash. -/
  verifies : X509 → PublicKey → Bool
  /-- `serialization.load_pem_private_key`, none where it raises `ValueError` or `TypeError`. -/
  loadPrivateKey : Bytes → Option PrivateKey
  /-- `private_key.private_bytes(PEM, PKCS8, NoEncryption)`. -/
  privateKeyPem : PrivateKey → Bytes
  /-- The PEM of the signing request for the Common Name and the domains. -/
  csr : String → List String → PrivateKey → Bytes
  /-- `idna.encode(.., uts46=True, std3_rules=True)`, none where it raises `IDNAError`. -/
  idnaEncode : String → Option String
  /-- Whether `ipaddress.ip_address` accepts the text. -/
  isIpAddress : String → Bool
  /-- `is_global` of an address that `ipaddress.ip_address` accepts. -/
  isGlobal : String → Bool
  /-- `str.lower`. -/
  lower : String → String
  /-- `strftime("%Y%m%dT%H%M%SZ")` in UTC. -/
  compactTimestamp : Instant → String
  /-- `urllib.parse.urlparse`, none where it raises `ValueError`. -/
  parseUrl : String → Option ParsedUrl

/-- The material of three PEM files, none where one of them does not parse. -/
def parseMaterial (Γ : Ctx) (leafPem chainPem privateKeyPem : Bytes) : Option LineageMaterial :=
  match Γ.loadPemAll chainPem, Γ.loadPem leafPem, Γ.loadPrivateKey privateKeyPem with
  | some intermediates, some leaf, some privateKey =>
    some {
      leaf := leaf
      intermediates := intermediates
      privateKey := privateKey
      leafPem := leafPem
      chainPem := chainPem
      privateKeyPem := privateKeyPem }
  | _, _, _ => none

/-- The character of an ASCII byte has the byte's value. -/
theorem ofNat_val_of_lt {b : UInt8} (h : b < 128) : (Char.ofNat b.toNat).val = b.toUInt32 := by
  have hlt : b.toNat < 128 := by simpa [UInt8.lt_iff_toNat_lt] using h
  have hvalid : b.toNat.isValidChar := Or.inl (by omega)
  have hofNat : Char.ofNat b.toNat = Char.ofNatAux b.toNat hvalid := dif_pos hvalid
  rw [hofNat]
  apply UInt32.toNat_inj.1
  exact (UInt8.toNat_toUInt32 b).symm

/-- Text that was decoded from ASCII encodes to the bytes it was decoded from. -/
theorem encodeAscii_of_decodeAscii {raw : Bytes} {text : String} (h : decodeAscii raw = some text) :
    encodeAscii text = some raw := by
  unfold decodeAscii at h
  split at h
  · rename_i hall
    cases h
    have hlt : ∀ b ∈ raw, b < 128 := fun b hb => by simpa using List.all_eq_true.1 hall b hb
    have hascii : (raw.map fun b => Char.ofNat b.toNat).all (fun c => c.val < 128) = true := by
      rw [List.all_eq_true]
      intro c hc
      obtain ⟨b, hb, rfl⟩ := List.mem_map.1 hc
      have hnat : b.toNat < 128 := by simpa [UInt8.lt_iff_toNat_lt] using hlt b hb
      rw [ofNat_val_of_lt (hlt b hb)]
      simpa [UInt32.lt_iff_toNat_lt] using hnat
    have hback : (raw.map fun b => Char.ofNat b.toNat).map (fun c => c.val.toUInt8) = raw := by
      rw [List.map_map]
      refine (List.map_congr_left fun b hb => ?_).trans (List.map_id raw)
      show (Char.ofNat b.toNat).val.toUInt8 = b
      rw [ofNat_val_of_lt (hlt b hb)]
      simp
    unfold encodeAscii
    rw [String.toList_ofList, if_pos hascii, hback]
  · cases h

/-! ## Domains -/

/-- `str.isspace` of one character. -/
def isSpace (c : Char) : Bool :=
  let n := c.toNat
  (9 ≤ n && n ≤ 13) || (28 ≤ n && n ≤ 32) || n == 0x85 || n == 0xa0 || n == 0x1680 || (0x2000 ≤ n && n ≤ 0x200a) ||
    n == 0x2028 || n == 0x2029 || n == 0x202f || n == 0x205f || n == 0x3000

/-- `value.strip()`. -/
def strip (value : String) : String :=
  String.ofList ((value.toList.dropWhile isSpace).reverse.dropWhile isSpace).reverse

/-- `value.rstrip(".")`. -/
def rstripDots (value : String) : String :=
  String.ofList (value.toList.reverse.dropWhile (· == '.')).reverse

/-- A label of a normalized domain: 1 to 63 characters, no hyphen at either end. -/
def checkLabel (label : List Char) : Except Exc Unit := do
  if ¬(1 ≤ label.length ∧ label.length ≤ 63) then
    throw (.of .valueError "contains a label outside DNS length limits")
  if label.head? = some '-' ∨ label.getLast? = some '-' then
    throw (.of .valueError "contains a label beginning or ending with a hyphen")

/-- `normalize_domain`: a normalized DNS A-label, or a `ValueError`. -/
def normalizeDomain (Γ : Ctx) (value : String) : Except Exc String := do
  let candidate := Γ.lower (rstripDots (strip value))
  if candidate.toList = [] ∨ '_' ∈ candidate.toList ∨ '*' ∈ candidate.toList then
    throw (.of .valueError "must be a non-empty non-wildcard FQDN without underscores")
  if Γ.isIpAddress candidate then
    throw (.of .valueError "must not be an IP address")
  match Γ.idnaEncode candidate with
  | none => throw (.of .valueError "is not a valid IDNA domain")
  | some normalized =>
    if 253 < normalized.length then
      throw (.of .valueError "exceeds DNS maximum length")
    (normalized.toList.splitOn '.').forM checkLabel
    return normalized

end OciAcmePublisher
