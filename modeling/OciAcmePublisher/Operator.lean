import OciAcmePublisher.ConfigLoader

/-!
# Operator workflow

`add_certificate` of `operator.py`: the checks of the arguments, the document it composes and the file it writes.
-/

namespace OciAcmePublisher

/-- The arguments of `add_certificate`. -/
structure AddCertificate where
  certificateId : String
  domains : List String
  region : String
  compartmentOcid : String
  certificateOcid : Option String
  dryRun : Bool := false

/-- The name of the file of the new certificate. -/
def AddCertificate.fileName (arguments : AddCertificate) : String := arguments.certificateId ++ ".yaml"

/-- The text or null. -/
def Yaml.ofOption : Option String → Yaml
  | some value => .str value
  | none => .null

/-- The certificate mapping that `add_certificate` composes for the normalized domains. -/
def certificateMapping (arguments : AddCertificate) (first : String) (rest : List String) : List (String × Yaml) := [
  ("id", .str arguments.certificateId),
  ("webroot_id", .str arguments.certificateId),
  ("common_name", .str first),
  ("domains", .seq ((first :: rest).map .str)),
  ("key", .map [("type", .str "rsa"), ("rsa_size", .int 2048)]),
  ("chain", .map [
    ("root_pem_path", .str "/etc/oci-acme-publisher/roots/isrg-root-x1.pem"),
    ("allowed_root_sha256", .seq [.str (String.ofList (List.replicate 64 '0'))]),
    ("allowed_issuer_common_names", .seq [.str "EXAMPLE ISSUER"])]),
  ("oci", .map [
    ("region", .str arguments.region),
    ("compartment_ocid", .str arguments.compartmentOcid),
    ("certificate_ocid", Yaml.ofOption arguments.certificateOcid),
    ("certificate_name", .str arguments.certificateId)]),
  ("audit", .map [
    ("mode", .str "observe"),
    ("automatic_rollback_on_failure", .bool false),
    ("endpoints", .seq [.map [("hostname", .str first), ("port", .int 443)]])])]

/-- The document that `add_certificate` writes. -/
def certificateDocument (arguments : AddCertificate) (first : String) (rest : List String) : Yaml :=
  .map [("certificate", .map (certificateMapping arguments first rest))]

/-- `str(Path(..))` of an absolute path: empty parts and single dots are dropped; of the slashes in front two stay two. -/
def pathText (path : String) : String :=
  let root := if startsWith path "//" ∧ ¬startsWith path "///" then "//" else "/"
  root ++ "/".intercalate (((path.toList.splitOn '/').filter fun part => part ≠ [] ∧ part ≠ ['.']).map String.ofList)

example : pathText "/etc//oci/./certificates/web.yaml" = "/etc/oci/certificates/web.yaml" := by decide +kernel

/-- `add_certificate`: the path of the new file, and the directory with it. -/
def addCertificate (Γ : Ctx) (yaml : YamlLibrary) (directory : ConfigDirectory) (arguments : AddCertificate) :
    Except Exc (String × ConfigDirectory) := do
  if ¬startsWith directory.path "/" then
    throw (.of .configurationError "configuration directory must be an absolute path")
  if ¬isIdentifier arguments.certificateId then
    throw (.of .configurationError "certificate id must contain lowercase letters, digits, and hyphens")
  if arguments.domains = [] then
    throw (.of .configurationError "at least one domain is required")
  match arguments.domains.mapM (normalizeDomain Γ) with
  | .error x =>
    if x.isInstance .valueError then
      throw (.of .configurationError "one or more domains are invalid")
    else throw x
  | .ok [] => throw (.of .lookupError "tuple index out of range")
  | .ok (first :: rest) =>
    if ¬(first :: rest).Nodup then
      throw (.of .configurationError "domains must be unique")
    if arguments.region = "" ∨ arguments.region.toList.any isSpace then
      throw (.of .configurationError "region must be a non-empty OCI region identifier")
    if ¬startsWith arguments.compartmentOcid "ocid1.compartment." then
      throw (.of .configurationError "compartment OCID is invalid")
    if arguments.certificateOcid.any (fun ocid => !startsWith ocid "ocid1.certificate.") then
      throw (.of .configurationError "certificate OCID is invalid")
    if arguments.fileName ∈ directory.files.map (·.1) then
      throw (.of .configurationError "certificate configuration already exists; refusing to overwrite it")
    let path := pathText (directory.path ++ "/certificates/" ++ arguments.fileName)
    if arguments.dryRun then
      return (path, directory)
    if ¬directory.initialized then
      throw (.of .configurationError "configuration directory has not been initialized")
    let file := (arguments.fileName, yaml.dump (certificateDocument arguments first rest))
    return (path, { directory with files := file :: directory.files })

end OciAcmePublisher
