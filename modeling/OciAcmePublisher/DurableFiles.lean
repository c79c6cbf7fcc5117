import OciAcmePublisher.CertificateStore
import OciAcmePublisher.ChallengeFiles
import OciAcmePublisher.Effects.Ending
import OciAcmePublisher.Metrics

/-!
# The writers of durable files

`_write_new`, the creation of the account key, `write_metrics` and `_write_challenge` by their system calls on one signature, and a
file system that stores of every `os.write` as much as a schedule of short writes says. The loops of `os.write` are unrolled as often
as there are bytes.
-/

namespace OciAcmePublisher.DurableFiles

open Effects

/-- The system calls of the writers. An open file is named by its path. -/
inductive FileCall where
  | makeParent (path : String) (mode : Nat)
  | tokenHex (size : Nat)
  | getpid
  | create (path : String) (mode : Nat)
  | geteuid
  | publisherUid
  | fchown (path : String) (uid : Nat)
  | write (path : String) (content : Bytes)
  | fsync (path : String)
  | close (path : String)
  | replace (source target : String)
  | unlink (path : String)
  deriving DecidableEq

/-- The signature of the writers. -/
@[reducible] def fileCalls : Signature where
  Op := FileCall
  Reply
    | .tokenHex _ => String
    | .getpid | .geteuid | .publisherUid | .write .. => Nat
    | _ => Unit

/-- An action of a writer. -/
abbrev FileAction (α : Type) := Program fileCalls Exc α

/-- Perform one system call. -/
abbrev fileCall (op : FileCall) : FileAction (fileCalls.Reply op) := Program.perform (S := fileCalls) op

/-! ## The writers -/

/-- `while offset < len(content): offset += os.write(descriptor, content[offset:])`, for so many rounds. -/
def writeLoop (path : String) (content : Bytes) : Nat → Nat → FileAction Unit
  | 0, offset => if offset < content.length then .diverge else return ()
  | rounds + 1, offset =>
    if offset < content.length then do
      let n ← fileCall (.write path (content.drop offset))
      writeLoop path content rounds (offset + n)
    else return ()

/-- What only root does. -/
def ifRoot (action : FileAction Unit) : FileAction Unit := do
  let euid ← fileCall .geteuid
  if euid = 0 then action else return ()

/-- `_write_new`. -/
def writeNew (expectedOwnerUid : Nat) (path : String) (content : Bytes) (mode : Nat) : FileAction Unit := do
  fileCall (.create path mode)
  Program.ensure
    (do
      ifRoot (fileCall (.fchown path expectedOwnerUid))
      writeLoop path content content.length 0
      fileCall (.fsync path))
    (fileCall (.close path))

/-- The creation of the account key in `_account_key`, for the PEM of the key that has been generated. -/
def createAccountKey (path : String) (pem : Bytes) : FileAction Unit := do
  fileCall (.makeParent path 0o700)
  fileCall (.create path 0o600)
  Program.ensure
    (do
      writeLoop path pem pem.length 0
      fileCall (.fsync path))
    (fileCall (.close path))

/-- `text.encode("utf-8")`. -/
def encodeUtf8 (text : String) : Bytes := text.toUTF8.data.toList

/-- `"".join(metric.render() for metric in metrics).encode("utf-8")`. -/
def metricsContent (str : Metric → NumberText) (metrics : List Metric) : Except Exc Bytes := do
  let lines ← metrics.mapM (Metric.render str)
  return encodeUtf8 (String.join lines)

/-- `write_metrics`. -/
def writeMetrics (str : Metric → NumberText) (path : String) (metrics : List Metric) : FileAction Unit := do
  fileCall (.makeParent path 0o750)
  let pid ← fileCall .getpid
  let temporary := withName path ("." ++ fileName path ++ "." ++ toString pid ++ ".tmp")
  fileCall (.create temporary 0o640)
  let written ← Program.attempt do
    let content ← ofExcept (metricsContent str metrics)
    writeLoop temporary content content.length 0
    fileCall (.fsync temporary)
  match written with
  | .error error => do
    fileCall (.close temporary)
    fileCall (.unlink temporary)
    .raise error
  | .ok _ => do
    fileCall (.close temporary)
    fileCall (.replace temporary path)

/-- `_write_challenge`. -/
def writeChallenge (path : String) (content : Bytes) : FileAction Unit := do
  fileCall (.makeParent path 0o2750)
  let suffix ← fileCall (.tokenHex 12)
  let temporary := withName path ("." ++ fileName path ++ "." ++ suffix)
  fileCall (.create temporary 0o640)
  Program.ensure
    (do
      -- what `os.write` answers is not looked at
      let _ ← fileCall (.write temporary content)
      ifRoot do
        let uid ← fileCall .publisherUid
        fileCall (.fchown temporary uid)
      fileCall (.fsync temporary))
    (fileCall (.close temporary))
  fileCall (.replace temporary path)

/-! ## Short writes -/

/-- How many of the bytes it is given every `os.write` stores, by its number: some where there are any, and at most all. -/
structure ShortWrites where
  stored : Nat → Nat → Nat
  stored_pos : ∀ i given, 0 < given → 0 < stored i given
  stored_le : ∀ i given, stored i given ≤ given

/-- The contents of the files, and how many writes there have been. -/
structure Disk where
  files : String → Option Bytes
  writes : Nat

/-- What a system call does where it takes effect. -/
def Disk.Step (short : ShortWrites) (d : Disk) : (op : FileCall) → fileCalls.Reply op → Disk → Prop
  | .create path _, _, d' => d.files path = none ∧ d' = { d with files := Function.update d.files path (some []) }
  | .write path content, n, d' =>
    n = short.stored d.writes content.length ∧ ∃ old, d.files path = some old ∧
      d' = ⟨Function.update d.files path (some (old ++ content.take n)), d.writes + 1⟩
  | .replace source target, _, d' =>
    ∃ content, d.files source = some content ∧
      d' = { d with files := Function.update (Function.update d.files source none) target (some content) }
  | .unlink path, _, d' => d' = { d with files := Function.update d.files path none }
  | _, _, d' => d' = d

/-- The file system under a schedule of short writes. Any call may raise anything, and changes nothing then. -/
def fileSystem (short : ShortWrites) : Env fileCalls Exc Disk := fun d op answer d' =>
  match answer with
  | .ok reply => d.Step short op reply d'
  | .error _ => d' = d

/-! ## The store and the challenges -/

/-- The calls of `_write_new` as operations of the store, whose paths are found by `locate`. It makes no other calls. -/
def onStore (locate : String → List String) : (op : FileCall) → StoreAction (fileCalls.Reply op)
  | .create path mode => store (.createFile (locate path) mode)
  | .geteuid => store .geteuid
  | .fchown path uid => store (.fchown (locate path) uid)
  | .write path content => store (.write (locate path) content)
  | .fsync path => store (.fsync (locate path))
  | .close _ => store .close
  | _ => .diverge

/-- The calls of `_write_challenge` on the challenge directory. -/
def onChallengeDirectory : (op : FileCall) → ChallengeFileAction (fileCalls.Reply op)
  | .makeParent path _ => challengeFile (.makeParent path)
  | .tokenHex size => challengeFile (.publisher (.tokenHex size))
  | .create path _ => challengeFile (.create path)
  | .geteuid => challengeFile .geteuid
  | .publisherUid => challengeFile .publisherUid
  | .fchown path uid => challengeFile (.fchown path uid)
  | .write path content => challengeFile (.write path content)
  | .fsync path => challengeFile (.fsync path)
  | .close path => challengeFile (.close path)
  | .replace source target => challengeFile (.replace source target)
  | _ => .diverge

/-- A call and what follows it. -/
theorem subst_then {S : Signature} {α : Type} (σ : (op : FileCall) → Program S Exc (fileCalls.Reply op)) (op : FileCall)
    (f : fileCalls.Reply op → FileAction α) :
    ((fileCall op).bind f).subst σ = (σ op).bind fun a => (f a).subst σ :=
  (Program.subst_bind _ _).trans (congrArg (Program.bind · _) (Program.subst_perform (B := fileCalls) op))

/-- The loop over an offset is the loop over what is left. -/
theorem subst_writeLoop (locate : String → List String) (path : String) (content : Bytes) (rounds offset : Nat) :
    (writeLoop path content rounds offset).subst (onStore locate) =
      NativeCertificateStore.writeAll (locate path) rounds (content.drop offset) := by
  by_cases hoffset : offset < content.length
  · obtain ⟨b, rest, hrest⟩ : ∃ b rest, content.drop offset = b :: rest := ⟨_, _, List.drop_eq_getElem_cons hoffset⟩
    cases rounds with
    | zero =>
      rw [writeLoop, if_pos hoffset, hrest]
      rfl
    | succ rounds =>
      rw [writeLoop, if_pos hoffset, hrest]
      refine (Program.subst_bind _ _).trans ?_
      rw [Program.subst_perform]
      refine congrArg _ (funext fun n => ?_)
      rw [subst_writeLoop, ← List.drop_drop, hrest]
  · have hrest : content.drop offset = [] := List.drop_eq_nil_of_le (Nat.not_lt.1 hoffset)
    cases rounds with
    | zero =>
      rw [writeLoop, if_neg hoffset, hrest]
      rfl
    | succ rounds =>
      rw [writeLoop, if_neg hoffset, hrest]
      rfl

theorem subst_ifRoot (locate : String → List String) (action : FileAction Unit) :
    (ifRoot action).subst (onStore locate) = NativeCertificateStore.ifRoot (action.subst (onStore locate)) := by
  refine (Program.subst_bind _ _).trans ?_
  rw [Program.subst_perform]
  refine congrArg _ (funext fun euid => ?_)
  by_cases heuid : euid = 0
  · simp only [if_pos heuid]
  · simp only [if_neg heuid]
    rfl

/-- `_write_new` on the store is the one of the certificate store. -/
theorem subst_writeNew (config : NativeCertificateStore.StoreConfig) (locate : String → List String) (path : String)
    (content : Bytes) (mode : Nat) :
    (writeNew config.expectedOwnerUid path content mode).subst (onStore locate) =
      NativeCertificateStore.writeNew config (locate path) content mode := by
  refine (subst_then _ _ _).trans (congrArg _ (funext fun _ => ?_))
  rw [Program.subst_ensure, Program.subst_perform]
  refine congrArg (Program.ensure · _) ((Program.subst_bind _ _).trans ?_)
  rw [subst_ifRoot, Program.subst_perform]
  refine congrArg _ (funext fun _ => (Program.subst_bind _ _).trans ?_)
  rw [subst_writeLoop]
  exact congrArg _ (funext fun _ => Program.subst_perform _)

/-- `_write_challenge` on the challenge directory is the one of the preflight. -/
theorem subst_writeChallenge (path : String) (content : Bytes) :
    (writeChallenge path content).subst onChallengeDirectory = writeChallengeFile path content := by
  have hroot : ∀ temporary, (ifRoot do
        let uid ← fileCall .publisherUid
        fileCall (.fchown temporary uid)).subst onChallengeDirectory = chownToPublisher temporary := by
    intro temporary
    refine (subst_then _ _ _).trans (congrArg _ (funext fun euid => ?_))
    by_cases heuid : euid = 0
    · simp only [if_pos heuid]
      exact (subst_then _ _ _).trans (congrArg _ (funext fun uid => Program.subst_perform _))
    · simp only [if_neg heuid]
      rfl
  refine (subst_then _ _ _).trans (congrArg _ (funext fun _ => ?_))
  refine (subst_then _ _ _).trans (congrArg _ (funext fun suffix => ?_))
  refine (subst_then _ _ _).trans (congrArg _ (funext fun _ => (Program.subst_bind _ _).trans ?_))
  rw [Program.subst_ensure, Program.subst_perform, Program.subst_perform]
  refine congrArg (fun p => Program.bind (Program.ensure p _) _) ?_
  refine (subst_then _ _ _).trans (congrArg _ (funext fun _ => (Program.subst_bind _ _).trans ?_))
  rw [hroot, Program.subst_perform]
  rfl

/-- A call of one of the writers. -/
inductive FileWriter where
  | writeNew (expectedOwnerUid : Nat) (path : String) (content : Bytes) (mode : Nat)
  | accountKey (path : String) (pem : Bytes)
  | writeMetrics (str : Metric → NumberText) (path : String) (metrics : List Metric)
  | writeChallenge (path : String) (content : Bytes)

namespace FileWriter

/-- The call. -/
def run : FileWriter → FileAction Unit
  | .writeNew expectedOwnerUid path content mode => DurableFiles.writeNew expectedOwnerUid path content mode
  | .accountKey path pem => DurableFiles.createAccountKey path pem
  | .writeMetrics str path metrics => DurableFiles.writeMetrics str path metrics
  | .writeChallenge path content => DurableFiles.writeChallenge path content

/-- The file the call leaves. -/
def path : FileWriter → String
  | .writeNew _ path .. | .accountKey path _ | .writeMetrics _ path _ | .writeChallenge path _ => path

/-- What it is to hold. -/
def content : FileWriter → Except Exc Bytes
  | .writeNew _ _ content _ | .writeChallenge _ content => .ok content
  | .accountKey _ pem => .ok pem
  | .writeMetrics str _ metrics => DurableFiles.metricsContent str metrics

end FileWriter

end OciAcmePublisher.DurableFiles
