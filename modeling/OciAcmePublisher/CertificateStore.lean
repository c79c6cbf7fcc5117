import OciAcmePublisher.Certificates
import OciAcmePublisher.Effects.Triple
import OciAcmePublisher.Errors

/-!
# The certificate store

`NativeCertificateStore` of one certificate: `load` reads the generation the `current` pointer names, `commit` writes a new one and
swaps the pointer. The directory of the certificate is modelled below its root: the entries of the directory itself, and what is
at each path below `generations`. A symbolic link stands for the path it resolves to.
-/

namespace OciAcmePublisher

open Effects

/-- `CertificateStoreError` with its text. -/
def storeError (message : String) : Exc := .of .certificateStoreError message

/-- A regular file: its content, its owner and its permission bits. -/
structure StoredFile where
  content : Bytes
  owner : Nat
  mode : Nat
  deriving DecidableEq, Repr

/-- What is at a path below `generations`. -/
inductive Node where
  | file (file : StoredFile)
  | directory
  | link
  deriving DecidableEq, Repr

/-- What a symbolic link resolves to: a path below `generations`, or something else. -/
inductive LinkTarget where
  | inside (path : List String)
  | outside
  deriving DecidableEq, Repr

/-- An entry of the certificate's directory besides `generations`. -/
inductive Entry where
  | link (target : LinkTarget)
  | file
  | directory
  deriving DecidableEq, Repr

/-- The directory of a certificate. What is there is in a directory that is there. -/
structure LineageTree where
  lineage : Bool
  generations : Bool
  entries : String → Option Entry
  archive : List String → Option Node
  parent_directory : ∀ path name, archive (path ++ [name]) ≠ none → path = [] ∨ archive path = some .directory

/-- The two directories `commit` makes sure of. -/
inductive StoreDirectory where
  | lineage | generations
  deriving DecidableEq, Repr

/-- What `fstat` reports of an open file. -/
structure FileMetadata where
  regular : Bool
  owner : Nat
  mode : Nat
  deriving DecidableEq, Repr

/-- The operations of the store. Paths are paths below `generations`. -/
inductive StoreOp where
  | isSymlink (entry : String)
  | realpath (entry : String)
  | isDirectory (path : List String)
  | openRead (path : List String)
  | fstat (path : List String)
  | read (path : List String) (size : Nat)
  | close
  | geteuid
  | makeDirectory (directory : StoreDirectory)
  | chmodDirectory (directory : StoreDirectory)
  | chownDirectory (directory : StoreDirectory) (uid : Nat)
  | pathExists (name : String)
  | makeGeneration (name : String)
  | chownGeneration (name : String) (uid : Nat)
  | createFile (path : List String) (mode : Nat)
  | fchown (path : List String) (uid : Nat)
  | write (path : List String) (content : Bytes)
  | fsync (path : List String)
  | tokenHex (size : Nat)
  | symlink (entry : String) (target : LinkTarget)
  | replaceCurrent (entry : String)
  | chownCurrent (uid : Nat)
  | unlink (path : List String)
  | removeGeneration (name : String)
  deriving DecidableEq

/-- The signature of the store. -/
@[reducible] def storage : Signature where
  Op := StoreOp
  Reply
    | .isSymlink _ | .isDirectory _ | .pathExists _ => Bool
    | .realpath _ => LinkTarget
    | .fstat _ => FileMetadata
    | .read .. => Bytes
    | .geteuid | .write .. => Nat
    | .tokenHex _ => String
    | _ => Unit

/-- An action on the store. -/
abbrev StoreAction (α : Type) := Program storage Exc α

/-- Perform one operation of the store. -/
abbrev store (op : StoreOp) : StoreAction (storage.Reply op) := Program.perform (S := storage) op

/-! ## What the operations do -/

namespace LineageTree

/-- The path is a directory. -/
def isDirectory (t : LineageTree) (path : List String) : Bool :=
  match path with
  | [] => t.generations
  | _ => t.archive path = some .directory

/-- A node is put at a path whose parent is a directory; a directory stays one. -/
def set (t : LineageTree) (path : List String) (node : Node)
    (hparent : path.dropLast = [] ∨ t.archive path.dropLast = some .directory)
    (hkeep : t.archive path = some .directory → node = .directory) : LineageTree where
  lineage := t.lineage
  generations := t.generations
  entries := t.entries
  archive := Function.update t.archive path (some node)
  parent_directory := by
    intro parent name h
    have hdir : parent = [] ∨ t.archive parent = some .directory := by
      by_cases hp : parent ++ [name] = path
      · rw [← hp, List.dropLast_concat] at hparent
        exact hparent
      · rw [Function.update_of_ne hp] at h
        exact t.parent_directory parent name h
    refine hdir.imp_right fun hdir => ?_
    by_cases heq : parent = path
    · subst heq
      rw [Function.update_self, hkeep hdir]
    · rw [Function.update_of_ne heq]
      exact hdir

/-- What is at the path, and is no directory, is removed. -/
def remove (t : LineageTree) (path : List String) (hpath : t.archive path ≠ some .directory) (hne : path ≠ []) :
    LineageTree where
  lineage := t.lineage
  generations := t.generations
  entries := t.entries
  archive := Function.update t.archive path none
  parent_directory := by
    intro parent name h
    by_cases hp : parent ++ [name] = path
    · rw [hp, Function.update_self] at h
      exact absurd rfl h
    · rw [Function.update_of_ne hp] at h
      refine (t.parent_directory parent name h).imp_right fun hdir => ?_
      by_cases heq : parent = path
      · subst heq
        exact absurd hdir hpath
      · rw [Function.update_of_ne heq]
        exact hdir

/-- An entry of the certificate's directory changes. -/
def withEntry (t : LineageTree) (entry : String) (value : Option Entry) : LineageTree :=
  { t with entries := Function.update t.entries entry value }

/-- Only what is at the path changes. -/
def ChangesAt (t t' : LineageTree) (path : List String) (node : Option Node) : Prop :=
  t'.lineage = t.lineage ∧ t'.generations = t.generations ∧ t'.entries = t.entries ∧
    t'.archive = Function.update t.archive path node

/-- What an operation of a process with the effective user `euid` answers and leaves where it takes effect. The umask clears bits of
the mode of a new file; a write may be partial, but writes something. -/
def Step (euid : Nat) (t : LineageTree) : (op : StoreOp) → storage.Reply op → LineageTree → Prop
  | .isSymlink entry, found, t' => t' = t ∧ (found = true ↔ ∃ target, t.entries entry = some (.link target))
  | .realpath entry, target, t' => t' = t ∧ t.entries entry = some (.link target)
  | .isDirectory path, found, t' => t' = t ∧ found = t.isDirectory path
  | .openRead path, _, t' => t' = t ∧ ∃ node, t.archive path = some node ∧ node ≠ .link
  | .fstat path, metadata, t' =>
    t' = t ∧ ((metadata.regular = false ∧ t.archive path = some .directory) ∨
      ∃ f, t.archive path = some (.file f) ∧ metadata = ⟨true, f.owner, f.mode⟩)
  | .read path size, content, t' => t' = t ∧ ∃ f, t.archive path = some (.file f) ∧ content = f.content.take size
  | .geteuid, uid, t' => t' = t ∧ uid = euid
  | .makeDirectory .lineage, _, t' =>
    t'.lineage = true ∧ t'.generations = t.generations ∧ t'.entries = t.entries ∧ t'.archive = t.archive
  | .makeDirectory .generations, _, t' =>
    t.lineage = true ∧ t'.lineage = true ∧ t'.generations = true ∧ t'.entries = t.entries ∧ t'.archive = t.archive
  | .pathExists name, found, t' =>
    t' = t ∧ (found = true → t.archive [name] ≠ none) ∧
      (found = false → t.archive [name] = none ∨ t.archive [name] = some .link)
  | .makeGeneration name, _, t' =>
    t.generations = true ∧ t.archive [name] = none ∧ t.ChangesAt t' [name] (some .directory)
  | .createFile path mode, _, t' =>
    ∃ parent name, path = parent ++ [name] ∧ t.archive parent = some .directory ∧ t.archive path = none ∧
      ∃ permitted, t.ChangesAt t' path (some (.file ⟨[], euid, mode &&& permitted⟩))
  | .fchown path uid, _, t' =>
    ∃ f, t.archive path = some (.file f) ∧ t.ChangesAt t' path (some (.file { f with owner := uid }))
  | .write path content, n, t' =>
    ∃ f, t.archive path = some (.file f) ∧ 0 < n ∧ n ≤ content.length ∧
      t.ChangesAt t' path (some (.file { f with content := f.content ++ content.take n }))
  | .symlink entry target, _, t' =>
    t.lineage = true ∧ t.entries entry = none ∧ t' = t.withEntry entry (some (.link target))
  | .replaceCurrent entry, _, t' =>
    entry ≠ "current" ∧ t.entries "current" ≠ some .directory ∧ ∃ target, t.entries entry = some (.link target) ∧
      t' = (t.withEntry "current" (some (.link target))).withEntry entry none
  | .chownCurrent _, _, t' => t' = t ∧ t.entries "current" ≠ none
  | .unlink path, _, t' => t.archive path ≠ some .directory ∧ t.ChangesAt t' path none
  | .removeGeneration name, _, t' =>
    t.archive [name] = some .directory ∧ (∀ child, t.archive [name, child] = none) ∧ t.ChangesAt t' [name] none
  | .close, _, t' | .chmodDirectory _, _, t' | .chownDirectory .., _, t' | .chownGeneration .., _, t'
  | .fsync _, _, t' | .tokenHex _, _, t' => t' = t

end LineageTree

/-- The file system: an operation takes effect, or raises and changes nothing. An exception that strikes between two operations is
one the second of them raises. -/
def disk (euid : Nat) (faults : StoreOp → Exc → Prop) : Env storage Exc LineageTree :=
  stepping (LineageTree.Step euid) (fun x => x.isInstance .osError = true) faults

/-! ## Reading -/

namespace NativeCertificateStore

def maxCertificatePemBytes : Nat := 10240

def maxPrivateKeyPemBytes : Nat := 5120

def maxChainPemBytes : Nat := 51200

/-- The permission bits of the group and the others to write, and to read. -/
def groupOtherWrite : Nat := 0o022

def groupOtherRead : Nat := 0o044

/-- `expected_owner_uid`. -/
structure StoreConfig where
  expectedOwnerUid : Nat
  deriving DecidableEq, Repr

variable (Γ : Ctx) (config : StoreConfig)

/-- The part of `_read` between the opening and the closing of the file. -/
def readOpened (path : List String) (maximumBytes : Nat) (isPrivate : Bool) : StoreAction Bytes := do
  let metadata ← store (.fstat path)
  if metadata.regular = false ∨ metadata.owner ≠ config.expectedOwnerUid then
    .raise (storeError "certificate generation file ownership is invalid")
  else if metadata.mode &&& groupOtherWrite ≠ 0 then
    .raise (storeError "certificate generation file permissions are unsafe")
  else if isPrivate = true ∧ metadata.mode &&& groupOtherRead ≠ 0 then
    .raise (storeError "private key is readable outside publisher account")
  else do
    let content ← store (.read path (maximumBytes + 1))
    if maximumBytes < content.length then .raise (storeError "certificate generation file exceeds size limit")
    else return content

/-- `_read`. -/
def read (path : List String) (maximumBytes : Nat) (isPrivate : Bool) : StoreAction Bytes := do
  let opened ← (store (.openRead path)).attempt
  match opened with
  | .error error =>
    if error.isInstance .osError then .raise (storeError "certificate generation file is unavailable")
    else .raise error
  | .ok _ => (readOpened config path maximumBytes isPrivate).ensure (store .close)

/-- The three files of the generation, parsed. -/
def loadGeneration (path : List String) : StoreAction LineageMaterial := do
  let leafPem ← read config (path ++ ["cert.pem"]) maxCertificatePemBytes false
  let chainPem ← read config (path ++ ["chain.pem"]) maxChainPemBytes false
  let privateKeyPem ← read config (path ++ ["privkey.pem"]) maxPrivateKeyPemBytes true
  match parseMaterial Γ leafPem chainPem privateKeyPem with
  | some material => return material
  | none => .raise (storeError "native ACME certificate parsing failed")

/-- `NativeCertificateStore.load`. -/
def load : StoreAction LineageMaterial := do
  let isLink ← store (.isSymlink "current")
  if isLink = false then .raise (storeError "native ACME certificate generation is unavailable")
  else do
    let target ← store (.realpath "current")
    match target with
    | .outside => .raise (storeError "current certificate generation escapes its archive")
    | .inside path => do
      let isDir ← store (.isDirectory path)
      if isDir = false then .raise (storeError "current certificate generation is unavailable")
      else loadGeneration Γ config path

/-! ## Committing -/

/-- What only root does. -/
def ifRoot (action : StoreAction Unit) : StoreAction Unit := do
  let euid ← store .geteuid
  if euid = 0 then action else return ()

/-- `_ensure_directory`. -/
def ensureDirectory (directory : StoreDirectory) : StoreAction Unit := do
  store (.makeDirectory directory)
  store (.chmodDirectory directory)
  ifRoot (store (.chownDirectory directory config.expectedOwnerUid))

/-- The loop of `os.write`, with the rounds it may need. -/
def writeAll (path : List String) : Nat → Bytes → StoreAction Unit
  | _, [] => return ()
  | 0, _ :: _ => .diverge
  | rounds + 1, content@(_ :: _) => do
    let n ← store (.write path content)
    writeAll path rounds (content.drop n)

/-- `_write_new`. -/
def writeNew (path : List String) (content : Bytes) (mode : Nat) : StoreAction Unit := do
  store (.createFile path mode)
  Program.ensure
    (do
      ifRoot (store (.fchown path config.expectedOwnerUid))
      writeAll path content.length content
      store (.fsync path))
    (store .close)

/-- The `try` block of `commit`: the files of the generation, then the swap of the pointer. -/
def install (leafPem chainPem privateKeyPem : Bytes) (name : String) : StoreAction Unit := do
  writeNew config [name, "cert.pem"] leafPem 0o640
  writeNew config [name, "chain.pem"] chainPem 0o640
  writeNew config [name, "privkey.pem"] privateKeyPem 0o600
  let token ← store (.tokenHex 12)
  let temporary := ".current-" ++ token
  store (.symlink temporary (.inside [name]))
  store (.replaceCurrent temporary)
  ifRoot (store (.chownCurrent config.expectedOwnerUid))

/-- The handler of `commit`: the files of the generation are removed, and its directory where it is empty then. -/
def cleanup (name : String) : StoreAction Unit := do
  store (.unlink [name, "cert.pem"])
  store (.unlink [name, "chain.pem"])
  store (.unlink [name, "privkey.pem"])
  let removed ← (store (.removeGeneration name)).attempt
  match removed with
  | .ok _ => return ()
  | .error error => if error.isInstance .osError then return () else .raise error

/-- `NativeCertificateStore.commit`. -/
def commit (leafPem chainPem privateKeyPem : Bytes) (name : String) : StoreAction LineageMaterial := do
  ensureDirectory config .lineage
  ensureDirectory config .generations
  let found ← store (.pathExists name)
  if found = true then .raise (storeError "certificate generation already exists")
  else do
    store (.makeGeneration name)
    ifRoot (store (.chownGeneration name config.expectedOwnerUid))
    (install config leafPem chainPem privateKeyPem name).handle fun error => do
      cleanup name
      .raise error
    load Γ config

end NativeCertificateStore

end OciAcmePublisher
