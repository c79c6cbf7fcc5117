import OciAcmePublisher.CompatibilityProbe
import OciAcmePublisher.DurableFiles
import OciAcmePublisher.Effects.Sums
import OciAcmePublisher.EvidenceFiles
import OciAcmePublisher.Scanning.Json

/-!
# Evidence records

`write_evidence`: the record of a live probe, as a document and as the calls that write it, and the file system they act
on. A process may be stopped between any two calls, and every `os.write` may store less than it is given.
-/

namespace OciAcmePublisher

open Effects Scanning DurableFiles

/-! ## The document -/

/-- `key.model_dump(mode="json")`. -/
def keyDocument : KeyConfig → Json.Value
  | .rsa size => .object [("type", .text "rsa"), ("rsa_size", .int size), ("ecdsa_curve", .null)]
  | .ecdsa curve => .object [("type", .text "ecdsa"), ("rsa_size", .null), ("ecdsa_curve", .text curve)]

/-- The dictionary `certificate_profile` returns. -/
def profileDocument (profile : CertificateProfile) : Json.Value :=
  .object [
    ("identifier_count", .int profile.identifierCount),
    ("common_name_is_first_identifier", .bool profile.commonNameIsFirstIdentifier),
    ("contains_wildcard", .bool profile.containsWildcard),
    ("key", keyDocument profile.key)]

/-- The non-secret result fields retained from the live compatibility probe. -/
def probeDocument (result : LiveCompatibilityProbeResult) : Json.Value :=
  .object [
    ("oci_certificate_ocid", .text result.ociCertificateOcid),
    ("initial_version_number", .int result.initialVersionNumber),
    ("promoted_version_number", .int result.promotedVersionNumber),
    ("rollback_version_number", .int result.rollbackVersionNumber),
    ("leaf_fingerprint", .text result.leafFingerprint),
    ("root_fingerprint", .text result.rootFingerprint),
    ("chain_bytes", .int result.chainBytes),
    ("documented_subject_country_enforced", .bool result.documentedSubjectCountryEnforced)]

/-- The members of `payload`. -/
def payloadMembers (recordedAt : String) (certificate : CertificateConfig) (result : LiveCompatibilityProbeResult) :
    List (String × Json.Value) :=
  [("schema_version", .int 2),
    ("result", .text "STAGING_COMPATIBILITY_PASSED"),
    ("recorded_at", .text recordedAt),
    ("certificate_id", .text certificate.id),
    ("qualified_profile", profileDocument (certificateProfile certificate)),
    ("live_probe", probeDocument result)]

/-- The bytes of a text in ASCII. -/
def asciiBytes (text : List Char) : Bytes := text.map fun c => c.val.toUInt8

/-- What is written: `json.dump(payload, evidence_file, indent=2, sort_keys=True)` and a new line. -/
def recordText (recordedAt : String) (certificate : CertificateConfig) (result : LiveCompatibilityProbeResult) : List Char :=
  Json.dumps (some 2) (.object (payloadMembers recordedAt certificate result)) ++ ['\n']

/-! ## The calls -/

/-- What is asked before the file is created. -/
inductive RecordQuery where
  | exists (path : String)
  | isSymlink (path : String)
  | parentIsDirectory (path : String)
  /-- `datetime.now(UTC).isoformat()`. -/
  | now
  deriving DecidableEq

@[reducible] def recordQueries : Signature where
  Op := RecordQuery
  Reply
    | .now => String
    | _ => Bool

/-- The queries and the system calls. -/
@[reducible] def recordCalls : Signature := recordQueries.sum fileCalls

/-- What `write_evidence` does. -/
abbrev RecordAction (α : Type) := Program recordCalls Exc α

abbrev recordQuery (op : RecordQuery) : RecordAction (recordQueries.Reply op) := Program.perform (S := recordCalls) (.inl op)

/-- The buffered text file: all of it is out when it is closed. -/
def writeRecord (path : String) (content : Bytes) : DurableFiles.FileAction Unit := do
  DurableFiles.fileCall (.create path 0o640)
  Program.ensure (writeLoop path content content.length 0) (DurableFiles.fileCall (.close path))

/-- `output.exists() or output.is_symlink()`. -/
def isTaken (path : String) : RecordAction Bool := do
  let found ← recordQuery (.exists path)
  if found then return true else recordQuery (.isSymlink path)

/-- `write_evidence`: persist one immutable, non-secret staging evidence record without overwrite. -/
def writeEvidence (path : String) (certificate : CertificateConfig) (result : LiveCompatibilityProbeResult) : RecordAction Unit :=
  if startsWith path "/" = false then .raise (configurationError "staging evidence path must be an absolute path")
  else do
    let taken ← isTaken path
    if taken then .raise (configurationError "staging evidence already exists; refusing to overwrite it")
    else do
      let directory ← recordQuery (.parentIsDirectory path)
      if directory = false then .raise (configurationError "staging evidence directory does not exist")
      else do
        let recordedAt ← recordQuery .now
        (writeRecord path (asciiBytes (recordText recordedAt certificate result))).right

/-! ## The files -/

/-- What a path leads to; a link is followed to a file that exists or to none. -/
inductive RecordNode where
  | file (permissions : Nat) (content : Bytes)
  | directory
  | symlink (dangling : Bool)
  deriving DecidableEq

/-- The files of the evidence directories. -/
abbrev RecordDisk := String → Option RecordNode

/-- What a query answers. -/
def RecordDisk.Answers (clock : String) (d : RecordDisk) : (op : RecordQuery) → recordQueries.Reply op → Prop
  | .exists path, found => found = (d path).any (· ≠ .symlink true)
  | .isSymlink path, found => found = (d path).any fun node => node = .symlink true ∨ node = .symlink false
  | .parentIsDirectory _, _ => True
  | .now, recordedAt => recordedAt = clock

/-- What a system call does where it takes effect: the mode of a new file is masked, and a write stores as much as it answers. -/
def RecordDisk.Step (umask : Nat) (d : RecordDisk) : (op : FileCall) → fileCalls.Reply op → RecordDisk → Prop
  | .create path mode, _, d' => d path = none ∧ d' = Function.update d path
      (some (.file (mode &&& (0o777 ^^^ (umask &&& 0o777))) []))
  | .write path content, n, d' =>
    n ≤ content.length ∧ ∃ permissions old, d path = some (.file permissions old) ∧
      d' = Function.update d path (some (.file permissions (old ++ content.take n)))
  | _, _, d' => d' = d

/-- The system calls. Any call may raise anything, and changes nothing then. -/
def recordFiles (umask : Nat) : Env fileCalls Exc RecordDisk := fun d op answer d' =>
  match answer with
  | .ok reply => d.Step umask op reply d'
  | .error _ => d' = d

/-- The environment of `write_evidence`. -/
def recordEnv (umask : Nat) (clock : String) : Env recordCalls Exc RecordDisk
  | d, .inl op, .ok reply, d' => d' = d ∧ d.Answers clock op reply
  | d, .inl _, .error _, d' => d' = d
  | d, .inr op, answer, d' => recordFiles umask d op answer d'

/-! ## Reading -/

/-- The integer a number of the document equals; a truth value is one. -/
def numberOf : Json.Value → Option Int
  | .int n => some n
  | .bool value => some (if value then 1 else 0)
  | _ => none

/-- The count a number equals. -/
def countOf (value : Json.Value) : Option Nat := (numberOf value).bind fun n => if 0 ≤ n then some n.toNat else none

/-- The truth value a number equals. -/
def truthOf (value : Json.Value) : Option Bool :=
  (numberOf value).bind fun n => if n = 1 then some true else if n = 0 then some false else none

/-- The key a dictionary equals the document of. -/
def keyOf (value : Json.Value) : Option KeyConfig :=
  match value with
  | .object members =>
    match members.length, members.lookup "type", members.lookup "rsa_size", members.lookup "ecdsa_curve" with
    | 3, some (.text "rsa"), some size, some .null => (countOf size).map .rsa
    | 3, some (.text "ecdsa"), some .null, some (.text curve) => some (.ecdsa curve)
    | _, _, _, _ => none
  | _ => none

/-- The profile a dictionary equals the document of. -/
def profileOf (value : Json.Value) : Option CertificateProfile :=
  match value with
  | .object members =>
    if members.length = 4 then do
      let identifierCount ← (members.lookup "identifier_count").bind countOf
      let commonNameIsFirstIdentifier ← (members.lookup "common_name_is_first_identifier").bind truthOf
      let containsWildcard ← (members.lookup "contains_wildcard").bind truthOf
      let key ← (members.lookup "key").bind keyOf
      return ⟨identifierCount, commonNameIsFirstIdentifier, containsWildcard, key⟩
    else none
  | _ => none

/-- The text a value is. -/
def textOf : Json.Value → Option String
  | .text text => some text
  | _ => none

/-- What qualification reads of a document. -/
def evidenceOf (members : List (String × Json.Value)) : Evidence where
  schemaVersion := (members.lookup "schema_version").bind numberOf
  result := (members.lookup "result").bind textOf
  qualifiedProfile := (members.lookup "qualified_profile").bind profileOf

/-- How `json.loads` ends with a value. -/
def outcomeOf : Json.Value → JsonOutcome
  | .object members => .object (evidenceOf members)
  | _ => .other

/-- What is documented of `json.loads` on bytes: of an ASCII text without NUL, the value of the JSON that it is, and
nothing where it is none. Deep documents and long numbers are left to it. -/
structure Decodes (loads : Bytes → JsonOutcome) : Prop where
  accepts : ∀ {raw : Bytes} {text : String} {value : Json.Value}, decodeAscii raw = some text → 0 ∉ raw →
    Json.loads text.toList = some value → Json.Supported 100 value = true → loads raw = outcomeOf value
  refuses : ∀ {raw : Bytes} {text : String}, decodeAscii raw = some text → 0 ∉ raw → Json.loads text.toList = none →
    ∀ evidence, loads raw ≠ .object evidence

/-- The files as `_read_evidence` finds them: the format bits of a file, a directory or a link. -/
def RecordDisk.evidenceFiles (d : RecordDisk) (loads : Bytes → JsonOutcome) : EvidenceFiles where
  lstat path :=
    match d path with
    | some (.file permissions content) => .ok ⟨0o100000 ||| permissions, content.length⟩
    | some .directory => .ok ⟨0o040755, 4096⟩
    | some (.symlink _) => .ok ⟨0o120777, 0⟩
    | none => .error (.of .osError "")
  readBytes path :=
    match d path with
    | some (.file _ content) => .ok content
    | _ => .error (.of .osError "")
  loads := loads

end OciAcmePublisher
