import OciAcmePublisher.Effects.Eval
import OciAcmePublisher.StagingEvidence

/-!
# Evidence files

`_read_evidence` on the files the evidence paths lead to, and what `require_qualified_profile` makes of them.
-/

namespace OciAcmePublisher

open Effects

/-- The metadata `lstat` returns, as far as it is checked. -/
structure EvidenceMetadata where
  mode : Nat
  size : Nat
  deriving DecidableEq, Repr

/-- How `json.loads` of some bytes ends. -/
inductive JsonOutcome where
  | object (evidence : Evidence)
  | other
  /-- `JSONDecodeError`. -/
  | invalid
  /-- Any other exception: `UnicodeDecodeError`, or `RecursionError` of a deep document. -/
  | raised (x : Exc)
  deriving DecidableEq, Repr

/-- The file system and the JSON decoder, as the reader of evidence uses them. -/
structure EvidenceFiles where
  lstat : String → Except Exc EvidenceMetadata
  readBytes : String → Except Exc Bytes
  loads : Bytes → JsonOutcome

/-- `_MAX_EVIDENCE_BYTES`. -/
def maxEvidenceBytes : Nat := 1048576

/-- `stat.S_ISREG(mode) and not stat.S_ISLNK(mode)`: the format bits of the mode. -/
def isRegular (mode : Nat) : Bool := mode &&& 0o170000 == 0o100000 && mode &&& 0o170000 != 0o120000

variable (files : EvidenceFiles)

/-- The `try` block of `_read_evidence`: the bytes of a safe file. -/
def EvidenceFiles.safeBytes (path : String) : Except Exc Bytes := do
  let metadata ← files.lstat path
  if isRegular metadata.mode = false then
    throw (configurationError "staging evidence is not a regular file")
  if metadata.mode &&& 0o022 ≠ 0 then
    throw (configurationError "staging evidence must not be group or world writable")
  if maxEvidenceBytes < metadata.size then
    throw (configurationError "staging evidence exceeds maximum size")
  files.readBytes path

/-- `_read_evidence`. -/
def EvidenceFiles.readEvidence (path : String) : Except Exc Evidence :=
  match files.safeBytes path with
  | .error x =>
    if x.isInstance .osError then .error (configurationError "unable to read staging evidence") else .error x
  | .ok raw =>
    match files.loads raw with
    | .object evidence => .ok evidence
    | .other => .error (configurationError "staging evidence root must be an object")
    | .invalid => .error (configurationError "staging evidence is invalid JSON")
    | .raised x => .error x

/-- The operations of `require_qualified_profile`, answered from the files. It performs no other. -/
def EvidenceFiles.answers : Answers publisher Exc Unit := fun _ op =>
  match op with
  | .readEvidence path => (files.readEvidence path, ())
  | _ => (.error (.of .exception ""), ())

/-- `require_qualified_profile` on the files. -/
def EvidenceFiles.qualification (config : AppConfig) (certificate : CertificateConfig) : Outcome Exc Unit :=
  ((requireQualifiedProfile config certificate).eval files.answers ()).1

/-- The configuration with its evidence paths in another order. -/
def AppConfig.withEvidencePaths (config : AppConfig) (paths : List String) : AppConfig :=
  { config with compatibility := { config.compatibility with liveEvidencePaths := paths } }

end OciAcmePublisher
