import OciAcmePublisher.AcmeService
import OciAcmePublisher.Effects.Refinement
import OciAcmePublisher.Http01Preflight

/-!
# The files of the challenges

`_write_challenge` and `_remove_challenge`, one system call at a time, in the place of the two operations they implement; and the
preflight, which writes and removes a challenge itself.
-/

namespace OciAcmePublisher

open Effects

/-- The system calls on the challenge directory, and the operations of the publisher. An open file is named by its path. -/
inductive ChallengeFileOp where
  | publisher (op : Op)
  | tokenUrlsafe (size : Nat)
  | makeParent (path : String)
  | create (path : String)
  | write (path : String) (content : Bytes)
  | geteuid
  | publisherUid
  | fchown (path : String) (uid : Nat)
  | fsync (path : String)
  | close (path : String)
  | replace (source target : String)
  | unlink (path : String)
  deriving DecidableEq

/-- The signature of the challenge directory. `unlink` tells whether the file was there. -/
@[reducible] def challengeFiles : Signature where
  Op := ChallengeFileOp
  Reply
    | .publisher op => op.Reply
    | .tokenUrlsafe _ => String
    | .write .. | .geteuid | .publisherUid => Nat
    | .unlink _ => Bool
    | _ => Unit

/-- An action on the challenge directory. -/
abbrev ChallengeFileAction (α : Type) := Program challengeFiles Exc α

/-- Perform one of its operations. -/
abbrev challengeFile (op : ChallengeFileOp) : ChallengeFileAction (challengeFiles.Reply op) := Program.perform (S := challengeFiles) op

/-! ## Writing and removing a challenge -/

/-- `path.name`. -/
def fileName (path : String) : String := String.ofList (path.toList.reverse.takeWhile (· ≠ '/')).reverse

/-- `path.with_name`. -/
def withName (path name : String) : String := String.ofList (path.toList.reverse.dropWhile (· ≠ '/')).reverse ++ name

/-- Root gives the file to the publisher. -/
def chownToPublisher (temporary : String) : ChallengeFileAction Unit := do
  let euid ← challengeFile .geteuid
  if euid = 0 then do
    let uid ← challengeFile .publisherUid
    challengeFile (.fchown temporary uid)
  else return ()

/-- The `try` block of `_write_challenge`. -/
def fillTemporary (temporary : String) (content : Bytes) : ChallengeFileAction Unit := do
  let _ ← challengeFile (.write temporary content)
  chownToPublisher temporary
  challengeFile (.fsync temporary)

/-- `_write_challenge`. -/
def writeChallengeFile (path : String) (content : Bytes) : ChallengeFileAction Unit := do
  challengeFile (.makeParent path)
  let suffix ← challengeFile (.publisher (.tokenHex 12))
  let temporary := withName path ("." ++ fileName path ++ "." ++ suffix)
  challengeFile (.create temporary)
  (fillTemporary temporary content).ensure (challengeFile (.close temporary))
  challengeFile (.replace temporary path)

/-- `_remove_challenge`: a file that is not there is no error. -/
def removeChallengeFile (path : String) : ChallengeFileAction Unit := do
  let _ ← challengeFile (.unlink path)
  return ()

/-- The operations of the publisher, with the challenges written and removed by their system calls. -/
def onChallengeFiles : (op : Op) → ChallengeFileAction op.Reply
  | .writeChallenge path validation =>
    match encodeAscii validation with
    | some content => writeChallengeFile path content
    | none => .raise (.of .unicodeError "ordinal not in range(128)")
  | .removeChallenge path => removeChallengeFile path
  | op => challengeFile (.publisher op)

/-- `Http01Preflight.run`, for the end `checked` of the checks of the domains under their total timeout. -/
def Http01Preflight.runOnFiles (policy : SelfCheckConfig) (config : AppConfig) (certificate : CertificateConfig)
    (checked : Except Exc Unit) : ChallengeFileAction Unit :=
  if policy.enabled = false then return ()
  else do
    let token ← challengeFile (.tokenUrlsafe 32)
    let content ← challengeFile (.tokenUrlsafe 48)
    let path := NativeAcmeService.challengePath config certificate token
    writeChallengeFile path ((encodeAscii content).getD [])
    let outcome : Except Exc Unit :=
      match checked with
      | .ok _ => .ok ()
      | .error error =>
        if error.isInstance .timeoutError then .error (preflightError "HTTP-01 preflight exceeded its total timeout")
        else .error error
    (ofExcept outcome).ensure (removeChallengeFile path)

/-! ## What is in the directory -/

/-- Whether a file was there before the call, or the call has created it. -/
inductive FileOrigin where
  | before | call
  deriving DecidableEq, Repr

/-- The files by their paths. -/
abbrev WebrootFiles := String → Option FileOrigin

/-- What an operation does where it takes effect. A URL-safe token has the form of a challenge token. -/
def WebrootFiles.Step (w : WebrootFiles) : (op : ChallengeFileOp) → challengeFiles.Reply op → WebrootFiles → Prop
  | .tokenUrlsafe _, token, w' => w' = w ∧ NativeAcmeService.isToken token = true
  | .create path, _, w' => w path = none ∧ w' = Function.update w path (some .call)
  | .replace source target, _, w' =>
    w source ≠ none ∧ w' = Function.update (Function.update w source none) target (w source)
  | .unlink path, found, w' => found = (w path).isSome ∧ w' = Function.update w path none
  | _, _, w' => w' = w

/-- The operation removes a file. -/
def ChallengeFileOp.unlinks : ChallengeFileOp → Bool
  | .unlink _ => true
  | _ => false

/-- The directory, in which a file that is there can be removed. Every other operation may raise, and changes nothing then. -/
def webroot : Env challengeFiles Exc WebrootFiles := fun w op answer w' =>
  match answer with
  | .ok reply => w.Step op reply w'
  | .error _ => w' = w ∧ op.unlinks = false

/-- A call that writes challenges. -/
inductive ChallengeCall where
  | issue (Γ : Ctx) (config : AppConfig) (certificate : CertificateConfig) (force : Bool)
  | preflight (policy : SelfCheckConfig) (config : AppConfig) (certificate : CertificateConfig) (checked : Except Exc Unit)

/-- The call on the challenge directory. -/
def ChallengeCall.run : ChallengeCall → ChallengeFileAction Unit
  | .issue Γ config certificate force => do
    let _ ← (NativeAcmeService.issue Γ config certificate force).subst onChallengeFiles
    return ()
  | .preflight policy config certificate checked => Http01Preflight.runOnFiles policy config certificate checked

end OciAcmePublisher
