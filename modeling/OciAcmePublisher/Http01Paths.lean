import OciAcmePublisher.Certificates

/-!
# Challenge files

The directory tree under the webroots, how `_write_challenge` puts a file into it and how `ChallengeFileReader` reads one. The
writer resolves its path as any program does, symbolic links included; the reader walks down from the webroot base one component
at a time and follows none. What the accounts may read or write by the permissions of directories is not part of the tree.
-/

namespace OciAcmePublisher

/-- An entry of a directory. A symbolic link shows the entries of the directory it resolves to, if it resolves to one. -/
inductive PathEntry where
  | file (owner mode : Nat) (content : Bytes)
  | dir (entries : List (String × PathEntry))
  | link (directory : Option (List (String × PathEntry)))

/-- The entries of a directory. -/
abbrev Entries := List (String × PathEntry)

/-- The entries with one put in the place of that name. -/
def Entries.put (entries : Entries) (name : String) (node : PathEntry) : Entries :=
  (name, node) :: entries.filter (fun entry => entry.1 != name)

/-- The entries without that name. -/
def Entries.remove (entries : Entries) (name : String) : Entries := entries.filter (fun entry => entry.1 != name)

/-! ## Writing -/

/-- The process that writes: its account, its umask, the account `publisher_uid` resolves, the random part of the temporary name
and how many bytes one `os.write` takes. -/
structure Writer where
  euid : Nat
  umask : Nat
  publisherUid : Option Nat
  random : String
  taken : Nat

/-- The owner of the file, which `os.fchown` changes for the superuser alone. -/
def Writer.owner (writer : Writer) : Option Nat := if writer.euid = 0 then writer.publisherUid else some writer.euid

/-- The mode of a file created with 0o640. -/
def Writer.mode (writer : Writer) : Nat := 0o640 &&& (0o777 ^^^ (writer.umask &&& 0o777))

/-- The temporary file of `_write_challenge` and its replacement of the challenge file. -/
def replaceFile (writer : Writer) (token : String) (content : Bytes) (entries : Entries) : Except Exc Entries :=
  let temporary := "." ++ token ++ "." ++ writer.random
  match entries.lookup temporary with
  | some _ => .error (.of .osError "File exists")
  | none =>
    match writer.owner with
    | none => .error (.of .challengeFileError "publisher account is not available")
    | some owner =>
      let file : PathEntry := .file owner writer.mode (content.take writer.taken)
      match entries.lookup token with
      | some (.dir _) => .error (.of .osError "Is a directory")
      | _ => .ok (((entries.put temporary file).remove temporary).put token file)

/-- `path.parent.mkdir(parents=True, exist_ok=True)` and the update of that directory: missing components are created, links to a
directory are followed. -/
def writeInto (update : Entries → Except Exc Entries) : List String → Entries → Except Exc Entries
  | [], entries => update entries
  | name :: rest, entries =>
    match entries.lookup name with
    | none => (writeInto update rest []).map (fun inner => entries.put name (.dir inner))
    | some (.dir inner) => (writeInto update rest inner).map (fun inner => entries.put name (.dir inner))
    | some (.link (some inner)) => (writeInto update rest inner).map (fun inner => entries.put name (.link (some inner)))
    | some _ => .error (.of .osError "File exists")

/-- `_write_challenge` of a token in a challenge directory. -/
def writeChallenge (writer : Writer) (directory : List String) (token : String) (content : Bytes) (tree : Entries) :
    Except Exc Entries :=
  writeInto (replaceFile writer token content) directory tree

/-! ## Reading -/

/-- `os.open` of a directory below another without following links. -/
def openDirectory : List String → Entries → Option Entries
  | [], entries => some entries
  | name :: rest, entries =>
    match entries.lookup name with
    | some (.dir inner) => openDirectory rest inner
    | _ => none

/-- `ChallengeFileReader`. -/
structure ChallengeFileReader where
  webrootBase : String
  maxFileBytes : Nat
  expectedOwnerUid : Nat

/-- The components below the webroot base. -/
def challengeComponents (webrootId : String) : List String := [webrootId, ".well-known", "acme-challenge"]

/-- `_open_challenge_directory`. Only the components below the base are opened inside the `try`. -/
def ChallengeFileReader.openChallengeDirectory (reader : ChallengeFileReader) (webrootId : String) (tree : Entries) :
    Except Exc Entries :=
  match openDirectory [reader.webrootBase] tree with
  | none => .error (.of .osError "No such file or directory")
  | some base =>
    match openDirectory (challengeComponents webrootId) base with
    | none => .error (.of .challengeFileError "challenge directory is unavailable")
    | some entries => .ok entries

/-- `_read_token`. -/
def ChallengeFileReader.readToken (reader : ChallengeFileReader) (entries : Entries) (token : String) : Except Exc Bytes :=
  match entries.lookup token with
  | some (.file owner mode content) => do
    if owner ≠ reader.expectedOwnerUid then
      throw (.of .challengeFileError "challenge file ownership is invalid")
    if mode &&& 0o022 ≠ 0 then
      throw (.of .challengeFileError "challenge file permissions are unsafe")
    if reader.maxFileBytes < content.length then
      throw (.of .challengeFileError "challenge file exceeds maximum size")
    let content := content.take (reader.maxFileBytes + 1)
    if reader.maxFileBytes < content.length then
      throw (.of .challengeFileError "challenge file exceeds maximum size")
    return content
  | some (.dir _) => .error (.of .challengeFileError "challenge file is not regular")
  | _ => .error (.of .challengeFileError "challenge file is unavailable")

/-- `ChallengeFileReader.read`. -/
def ChallengeFileReader.read (reader : ChallengeFileReader) (webrootId token : String) (tree : Entries) :
    Except Exc Bytes := do
  let entries ← reader.openChallengeDirectory webrootId tree
  reader.readToken entries token

end OciAcmePublisher
