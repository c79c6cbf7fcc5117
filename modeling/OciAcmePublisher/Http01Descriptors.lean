import OciAcmePublisher.Effects.Triple
import OciAcmePublisher.Http01Paths
import OciAcmePublisher.Http01Responder

/-!
# Challenge files by descriptor

`ChallengeFileReader` as it runs: every directory and file is opened relative to a descriptor, and every descriptor is to be closed.
The handlers of the responder that read the file system stand here as well, with the middleware around them.
-/

namespace OciAcmePublisher

open Effects

/-- What `os.fstat` reports of an open file. -/
structure FileStatus where
  regular : Bool
  owner : Nat
  mode : Nat
  size : Nat
  deriving DecidableEq, Repr

/-- The operations of the reader. Directories are opened with `O_DIRECTORY`, everything with `O_NOFOLLOW`. -/
inductive FileOp where
  | openBase (path : String)
  | openDirectory (parent : Nat) (name : String)
  | openFile (parent : Nat) (name : String)
  | fstat (fd : Nat)
  | read (fd size : Nat)
  | close (fd : Nat)
  deriving DecidableEq

/-- The signature of the reader. -/
@[reducible] def descriptors : Signature where
  Op := FileOp
  Reply
    | .openBase _ | .openDirectory .. | .openFile .. => Nat
    | .fstat _ => FileStatus
    | .read .. => Bytes
    | .close _ => Unit

/-- An action on descriptors. -/
abbrev FileAction (α : Type) := Program descriptors Exc α

/-- Perform one operation on descriptors. -/
abbrev fileCall (op : FileOp) : FileAction (descriptors.Reply op) := Program.perform (S := descriptors) op

/-- `ChallengeFileError` with its text. -/
def challengeError (message : String) : Exc := .of .challengeFileError message

namespace ChallengeFileReader

/-- The `try` block of `_open_challenge_directory`: the components that are left, below the descriptor `current_fd`. -/
def openComponents : List String → Nat → FileAction Nat
  | [], current => return current
  | component :: rest, current => do
    let step ← Program.attempt do
      let next ← fileCall (.openDirectory current component)
      fileCall (.close current)
      return next
    match step with
    | .ok next => openComponents rest next
    | .error error =>
      if error.isInstance .osError then do
        fileCall (.close current)
        .raise (challengeError "challenge directory is unavailable")
      else .raise error

/-- `_open_challenge_directory`: the descriptor of the directory. -/
def challengeDirectory (reader : ChallengeFileReader) (webrootId : String) : FileAction Nat := do
  let current ← fileCall (.openBase reader.webrootBase)
  openComponents (challengeComponents webrootId) current

/-- The `try` block of `_read_token`. -/
def readOpened (reader : ChallengeFileReader) (fd : Nat) : FileAction Bytes := do
  let metadata ← fileCall (.fstat fd)
  if metadata.regular = false then .raise (challengeError "challenge file is not regular")
  else if metadata.owner ≠ reader.expectedOwnerUid then .raise (challengeError "challenge file ownership is invalid")
  else if metadata.mode &&& 0o022 ≠ 0 then .raise (challengeError "challenge file permissions are unsafe")
  else if reader.maxFileBytes < metadata.size then .raise (challengeError "challenge file exceeds maximum size")
  else do
    let content ← fileCall (.read fd (reader.maxFileBytes + 1))
    if reader.maxFileBytes < content.length then .raise (challengeError "challenge file exceeds maximum size")
    else return content

/-- `_read_token` below the descriptor of a directory. -/
def tokenContent (reader : ChallengeFileReader) (parent : Nat) (token : String) : FileAction Bytes := do
  let opened ← (fileCall (.openFile parent token)).attempt
  match opened with
  | .error error =>
    if error.isInstance .osError then .raise (challengeError "challenge file is unavailable") else .raise error
  | .ok fd => (reader.readOpened fd).ensure (fileCall (.close fd))

/-- `read`. -/
def challengeContent (reader : ChallengeFileReader) (webrootId token : String) : FileAction Bytes := do
  let parent ← reader.challengeDirectory webrootId
  (reader.tokenContent parent token).ensure (fileCall (.close parent))

end ChallengeFileReader

/-- `ResponderState.ready` for the webroots that are left. -/
def ready (reader : ChallengeFileReader) : List String → FileAction Bool
  | [] => return true
  | webrootId :: rest => do
    let opened ← (reader.challengeDirectory webrootId).attempt
    match opened with
    | .error error => if error.isInstance .challengeFileError then return false else .raise error
    | .ok fd => do
      fileCall (.close fd)
      ready reader rest

/-- `required_webroots` of `create_app`. -/
def requiredWebroots (config : AppConfig) : List String := config.certificates.map (·.webrootId)

/-- `_error_middleware` around a handler. `raise web.HTTPNotFound()` is a response here. -/
def errorMiddleware (handler : FileAction HttpResponse) : FileAction HttpResponse :=
  handler.handle fun x =>
    if x.isInstance .timeoutError then return ⟨408, []⟩
    else if x.isOneOf [.osError, .runtimeError, .valueError] then return ⟨500, []⟩
    else .raise x

/-- The text of a response as its body. -/
def asciiBody (text : String) : Bytes := text.toList.map (fun c => c.val.toUInt8)

/-- `_readiness`. -/
def readiness (config : AppConfig) (ownerUid : Nat) : FileAction HttpResponse := do
  let isReady ← ready (challengeReader config ownerUid) (requiredWebroots config)
  return if isReady then ⟨200, asciiBody "ready\n"⟩ else ⟨503, asciiBody "not ready\n"⟩

/-- `_challenge`. -/
def challenge (Γ : Ctx) (config : AppConfig) (ownerUid : Nat) (headers : List RawHeader) (token : String) :
    FileAction HttpResponse :=
  if !matchesToken token then return notFound
  else
    match routeHost Γ config headers with
    | .error x => if x.isOneOf [.hostHeaderError, .keyError, .unicodeError] then return notFound else .raise x
    | .ok webrootId => do
      let outcome ← ((challengeReader config ownerUid).challengeContent webrootId token).attempt
      match outcome with
      | .error x => if x.isOneOf [.challengeFileError, .timeoutError] then return notFound else .raise x
      | .ok content => return ⟨200, content⟩

/-! ## The file system -/

/-- An open file: its descriptor, the path it was opened by and what is there. -/
structure OpenFile where
  fd : Nat
  path : List String
  node : PathEntry

/-- What the file system may refuse: paths it never opens, paths whose opening may fail, reading of what is open, and with which
errors. -/
structure FileFaults where
  refuses : List String → Prop
  fails : List String → Prop
  reading : Prop
  error : Exc → Prop

/-- What `fstat` reports of an entry. -/
def PathEntry.HasStatus : PathEntry → FileStatus → Prop
  | .file owner mode content, status => status = ⟨true, owner, mode, content.length⟩
  | .dir _, status => status.regular = false
  | .link _, _ => False

/-- A file is opened under a free descriptor. -/
def Opened (w : List OpenFile) (fd : Nat) (path : List String) (node : PathEntry) (w' : List OpenFile) : Prop :=
  (∀ d ∈ w, d.fd ≠ fd) ∧ w' = ⟨fd, path, node⟩ :: w

/-- What an operation does where it takes effect. A read from a regular file returns as many bytes as there are, up to the size. -/
def FileStep (tree : Entries) (w : List OpenFile) : (op : FileOp) → descriptors.Reply op → List OpenFile → Prop
  | .openBase path, fd, w' => ∃ inner, tree.lookup path = some (.dir inner) ∧ Opened w fd [path] (.dir inner) w'
  | .openDirectory parent name, fd, w' => ∃ d ∈ w, d.fd = parent ∧ ∃ entries inner, d.node = .dir entries ∧
      entries.lookup name = some (.dir inner) ∧ Opened w fd (d.path ++ [name]) (.dir inner) w'
  | .openFile parent name, fd, w' => ∃ d ∈ w, d.fd = parent ∧ ∃ entries node, d.node = .dir entries ∧
      entries.lookup name = some node ∧ (∀ directory, node ≠ .link directory) ∧ Opened w fd (d.path ++ [name]) node w'
  | .fstat fd, status, w' => w' = w ∧ ∃ d ∈ w, d.fd = fd ∧ d.node.HasStatus status
  | .read fd size, bytes, w' =>
    w' = w ∧ ∃ d ∈ w, d.fd = fd ∧ ∃ owner mode content, d.node = .file owner mode content ∧ bytes = content.take size
  | .close fd, _, w' => (∃ d ∈ w, d.fd = fd) ∧ w' = w.filter (fun d => d.fd != fd)

/-- The operation opens the path. -/
def OpensPath (w : List OpenFile) : FileOp → List String → Prop
  | .openBase base, path => path = [base]
  | .openDirectory parent name, path | .openFile parent name, path => ∃ d ∈ w, d.fd = parent ∧ path = d.path ++ [name]
  | _, _ => False

/-- The operation reads what is open. -/
def FileOp.reads : FileOp → Bool
  | .fstat _ | .read .. => true
  | _ => false

/-- A process's descriptors over a tree of files. -/
def fileSystem (tree : Entries) (faults : FileFaults) : Env descriptors Exc (List OpenFile) := fun w op r w' =>
  match r with
  | .ok reply => FileStep tree w op reply w' ∧ ∀ path, OpensPath w op path → ¬faults.refuses path
  | .error x => w' = w ∧ faults.error x ∧ ((∃ path, OpensPath w op path ∧ faults.fails path) ∨
      (op.reads = true ∧ faults.reading) ∨ ∀ reply w₁, ¬FileStep tree w op reply w₁)

end OciAcmePublisher
