import Mathlib.Logic.Relation
import OciAcmePublisher.Theorems.StoreCommit

/-!
# A load amid commits

Any number of commits of one certificate go on while a load follows the `current` pointer and opens three files. The pointer names
only generations whose files are complete, and a complete file is never written again, only removed: whatever the commits do between
two operations of the load, it returns the files of one commit.
-/

namespace OciAcmePublisher

open Effects NativeCertificateStore

/-- A commit under way, ended or cut: its call, the effective user of its process, and what it has performed so far. -/
structure CommitUnderWay where
  call : CommitCall
  euid : Nat
  performed : List (Event storage Exc)

/-- The descriptor of the load: of the file at a path, or of the file that was there before it was removed. -/
inductive Descriptor where
  | closed
  | linked (path : List String)
  | unlinked (node : Option Node)

/-- The directory of the certificate, the commits and the descriptor of the load. -/
structure SharedStore where
  tree : LineageTree
  commits : List CommitUnderWay
  descriptor : Descriptor

/-- What the descriptor shows. -/
def SharedStore.shown (w : SharedStore) : Option Node :=
  match w.descriptor with
  | .closed => none
  | .linked path => w.tree.archive path
  | .unlinked node => node

/-- A descriptor keeps the file that is removed. -/
def Descriptor.after (t : LineageTree) : Descriptor → (op : StoreOp) → Except Exc (storage.Reply op) → Descriptor
  | .linked path, .unlink path', .ok _ => if path' = path then .unlinked (t.archive path) else .linked path
  | descriptor, _, _ => descriptor

/-- A step of the commits: one more begins, of a generation whose name no other had, or one performs its next operation. -/
inductive SharedStore.Moves (Γ : Ctx) (config : StoreConfig) (faults : StoreOp → Exc → Prop) :
    SharedStore → SharedStore → Prop where
  | begins {w : SharedStore} (call : CommitCall) (euid : Nat) :
      (∀ c ∈ w.commits, c.call.generationName ≠ call.generationName) →
        Moves Γ config faults w { w with commits := w.commits ++ [⟨call, euid, []⟩] }
  | performs {w : SharedStore} {before after : List CommitUnderWay} {c : CommitUnderWay} {op : StoreOp}
      {answer : Except Exc (storage.Reply op)} {tree : LineageTree} : w.commits = before ++ c :: after →
        Exec anyAnswer (c.call.run Γ config) [] .crashed (c.performed ++ [⟨op, answer⟩]) →
          disk c.euid faults w.tree op answer tree →
            Moves Γ config faults w
              ⟨tree, before ++ { c with performed := c.performed ++ [⟨op, answer⟩] } :: after,
                w.descriptor.after w.tree op answer⟩

/-- What an operation of the load answers: what is read is what the descriptor shows. -/
def SharedStore.Answers (euid : Nat) (w : SharedStore) : (op : StoreOp) → storage.Reply op → SharedStore → Prop
  | .openRead path, _, w' =>
    (∃ node, w.tree.archive path = some node ∧ node ≠ .link) ∧ w' = { w with descriptor := .linked path }
  | .fstat _, metadata, w' =>
    w' = w ∧ ((metadata.regular = false ∧ w.shown = some .directory) ∨
      ∃ f, w.shown = some (.file f) ∧ metadata = ⟨true, f.owner, f.mode⟩)
  | .read _ size, content, w' => w' = w ∧ ∃ f, w.shown = some (.file f) ∧ content = f.content.take size
  | .close, _, w' => w' = { w with descriptor := .closed }
  | op, reply, w' => w' = w ∧ w.tree.Step euid op reply w.tree

/-- The store as the load sees it: the commits go on before each of its operations. -/
def amid (Γ : Ctx) (config : StoreConfig) (euid : Nat) (faults : StoreOp → Exc → Prop) : Env storage Exc SharedStore :=
  fun w op answer w' => ∃ w₁, Relation.ReflTransGen (SharedStore.Moves Γ config faults) w w₁ ∧
    stepping (SharedStore.Answers euid) (fun x => x.isInstance .osError = true) faults w₁ op answer w'

/-- The directory before its first commit: there is no pointer and no generation. -/
def LineageTree.Untouched (t : LineageTree) : Prop :=
  (∀ entry target, t.entries entry ≠ some (.link target)) ∧ ∀ path, t.archive path = none

/-- The files of a generation. -/
def generationFiles : List String := ["cert.pem", "chain.pem", "privkey.pem"]

/-- What the commit is to write to the file. -/
def CommitCall.content (call : CommitCall) (file : String) : Bytes :=
  if file = "cert.pem" then call.leafPem
  else if file = "chain.pem" then call.chainPem
  else if file = "privkey.pem" then call.privateKeyPem
  else []

/-- What was written to each file of the generation. -/
def filing : Monitor storage Exc (String → Bytes) where
  start _ := []
  step
    | s, ⟨.write [_, file] content, .ok n⟩ => Function.update s file (s file ++ content.take n)
    | s, _ => s

/-- What the commit has written to the file. -/
def CommitUnderWay.written (c : CommitUnderWay) : String → Bytes := filing.after c.performed

/-- The commit has written the three files of its generation. -/
def CommitUnderWay.Complete (c : CommitUnderWay) : Prop :=
  ∀ file ∈ generationFiles, c.written file = c.call.content file

namespace OneGenerationAux

open StoreAux

/-! ## What a commit does to the files of its generation -/

variable {Γ : Ctx} {config : StoreConfig} {faults : StoreOp → Exc → Prop} {call : CommitCall} {s : String → Bytes}

/-- Files are made empty, under the commit's own name; what is written is what comes next of the content; and a link leads to the
generation when its files are complete. -/
def filed (call : CommitCall) (s : String → Bytes) : Event storage Exc → Prop
  | ⟨.createFile path _, _⟩ => ∃ file, path = [call.generationName, file] ∧ s file = []
  | ⟨.write path content, _⟩ =>
    ∃ file ∈ generationFiles, path = [call.generationName, file] ∧ s file ++ content = call.content file
  | ⟨.symlink _ target, _⟩ =>
    target = .inside [call.generationName] ∧ ∀ file ∈ generationFiles, s file = call.content file
  | _ => True

/-- The operations that neither make nor fill nor link. -/
def bystanding : StoreOp → Bool
  | .createFile .. | .write .. | .symlink .. => false
  | _ => true

theorem filed_bystanding {op : StoreOp} (hop : bystanding op = true) (r : Except Exc (storage.Reply op)) :
    filed call s ⟨op, r⟩ := by
  cases op <;> trivial

theorem filing_bystanding {op : StoreOp} (hop : bystanding op = true) (r : Except Exc (storage.Reply op)) :
    filing.step s ⟨op, r⟩ = s := by
  cases op <;> first | rfl | cases hop

theorem filing_error (op : StoreOp) (x : Exc) : filing.step s ⟨op, .error x⟩ = s := by
  cases op with
  | write path content =>
    unfold filing
    simp only
  | _ => rfl

/-- What the monitor checks, and what it knows of the files. -/
abbrev Files (call : CommitCall) (φ : (String → Bytes) → Prop) : List (Event storage Exc) → Prop :=
  filing.Sees (filed call) φ

/-- The files `files` are complete, and nothing else was written. -/
def Filed (call : CommitCall) (files : List String) (s : String → Bytes) : Prop :=
  ∀ file, s file = if file ∈ files then call.content file else []

theorem filed_snoc {file : String} {files : List String} (hown : s file ++ [] = call.content file)
    (hothers : ∀ other, other ≠ file → s other = if other ∈ files then call.content other else []) :
    Filed call (files ++ [file]) s := by
  intro other
  by_cases heq : other = file
  · subst heq
    rw [if_pos (List.mem_append_right _ (List.mem_singleton_self _)), ← hown, List.append_nil]
  · rw [hothers other heq]
    simp [heq]

theorem bystander {α : Type} {p : StoreAction α} {φ : (String → Bytes) → Prop} (hp : p.Uses (bystanding · = true)) :
    Triple anyAnswer (Files call φ) p (fun _ => Files call φ) (fun _ => filing.Checked (filed call))
      (filing.Checked (filed call)) := by
  have hkeep : Triple anyAnswer (Files call φ) p (fun _ => Files call φ) (fun _ => Files call φ) (Files call φ) :=
    Monitor.frame_sees hp (fun op r s hop => filed_bystanding hop r) fun op r s hop => filing_bystanding hop r
  exact hkeep.conseq (fun _ ht => ht) (fun _ _ ht => ht) (fun _ _ ht => ht.1) fun _ ht => ht.1

theorem bystander_perform {op : StoreOp} {φ : (String → Bytes) → Prop} (hop : bystanding op = true) :
    Triple anyAnswer (Files call φ) (store op) (fun _ => Files call φ) (fun _ => filing.Checked (filed call))
      (filing.Checked (filed call)) :=
  bystander (Program.uses_perform.2 hop)

theorem ifRoot_uses {action : StoreAction Unit} (haction : action.Uses (bystanding · = true)) :
    (ifRoot action).Uses (bystanding · = true) := by
  refine Program.uses_bind (Program.uses_perform.2 rfl) fun euid => ?_
  split
  · exact haction
  · trivial

/-- The rest of the content is written, whatever the writes take. -/
theorem writeAll_filed {file : String} (hfile : file ∈ generationFiles) {files : List String} (rounds : Nat)
    (rest : Bytes) :
    Triple anyAnswer
      (Files call fun s => s file ++ rest = call.content file ∧ ∀ other, other ≠ file →
        s other = if other ∈ files then call.content other else [])
      (writeAll [call.generationName, file] rounds rest) (fun _ => Files call (Filed call (files ++ [file])))
      (fun _ => filing.Checked (filed call)) (filing.Checked (filed call)) := by
  induction rounds generalizing rest with
  | zero =>
    cases rest with
    | nil =>
      refine Triple.ret ?_ fun _ ht => ht.1
      rintro t ⟨hchecked, hown, hothers⟩
      exact ⟨hchecked, filed_snoc hown hothers⟩
    | cons b rest => exact Triple.diverge fun _ ht => ht.1
  | succ rounds ih =>
    cases rest with
    | nil =>
      refine Triple.ret ?_ fun _ ht => ht.1
      rintro t ⟨hchecked, hown, hothers⟩
      exact ⟨hchecked, filed_snoc hown hothers⟩
    | cons b rest =>
      refine Triple.bind (R := fun n => Files call fun s => s file ++ (b :: rest).drop n = call.content file ∧
        ∀ other, other ≠ file → s other = if other ∈ files then call.content other else []) ?_ fun n => ih _
      refine (Monitor.perform_sees (E := fun _ => True) ?_ ?_ fun _ _ _ => trivial).conseq (fun _ ht => ht)
        (fun _ _ ht => ht) (fun _ _ ht => ht.1) fun _ ht => ht
      · rintro s r ⟨hown, -⟩
        exact ⟨file, hfile, rfl, hown⟩
      · rintro s n ⟨hown, hothers⟩
        have hstep : filing.step s ⟨.write [call.generationName, file] (b :: rest), .ok n⟩ =
            Function.update s file (s file ++ (b :: rest).take n) := rfl
        rw [hstep]
        constructor
        · rw [Function.update_self, List.append_assoc, List.take_append_drop]
          exact hown
        · intro other hne
          rw [Function.update_of_ne hne]
          exact hothers other hne

/-- A file is made and its content written. -/
theorem writeNew_filed {file : String} (hfile : file ∈ generationFiles) {files : List String} (hnew : file ∉ files)
    (mode : Nat) :
    Triple anyAnswer (Files call (Filed call files))
      (writeNew config [call.generationName, file] (call.content file) mode)
      (fun _ => Files call (Filed call (files ++ [file]))) (fun _ => filing.Checked (filed call))
      (filing.Checked (filed call)) := by
  have hempty : ∀ s, Filed call files s → s file = [] := by
    intro s hs
    rw [hs file, if_neg hnew]
  refine Triple.bind (R := fun _ => Files call (Filed call files)) ?_ fun _ => ?_
  · refine (Monitor.perform_sees (E := fun _ => True) ?_ (fun s a hs => ?_) fun _ _ _ => trivial).conseq
      (fun _ ht => ht) (fun _ _ ht => ht) (fun _ _ ht => ht.1) fun _ ht => ht
    · intro s r hs
      exact ⟨file, rfl, hempty s hs⟩
    · exact hs
  have hclose : ∀ φ : (String → Bytes) → Prop, Triple anyAnswer (Files call φ) (store .close)
      (fun _ => Files call φ) (fun _ => filing.Checked (filed call)) (filing.Checked (filed call)) :=
    fun φ => bystander_perform rfl
  refine Triple.ensure (Q := fun _ => Files call (Filed call (files ++ [file]))) (E := fun _ => Files call fun _ => True)
    ?_ (fun _ => hclose _) (fun _ => (hclose _).conseq (fun _ ht => ht) (fun _ _ ht => ht.1) (fun _ _ ht => ht)
      fun _ ht => ht) (fun _ _ ht => ht.1) fun _ _ ht => ht
  have hwhole : Triple anyAnswer (Files call (Filed call files))
      (do
        ifRoot (store (.fchown [call.generationName, file] config.expectedOwnerUid))
        writeAll [call.generationName, file] (call.content file).length (call.content file)
        store (.fsync [call.generationName, file]) : StoreAction Unit)
      (fun _ => Files call (Filed call (files ++ [file]))) (fun _ => filing.Checked (filed call))
      (filing.Checked (filed call)) := by
    refine Triple.bind (bystander ?_) fun _ => Triple.bind ((writeAll_filed hfile _ _).pre ?_) fun _ =>
      bystander_perform rfl
    · exact ifRoot_uses (Program.uses_perform.2 rfl)
    · rintro t ⟨hchecked, hs⟩
      refine ⟨hchecked, ?_, fun other _ => hs other⟩
      rw [hempty _ hs]
      rfl
  exact hwhole.conseq (fun _ ht => ht) (fun _ _ ht => ht) (fun _ _ ht => ⟨ht, trivial⟩) fun _ ht => ht

/-- The generation is complete before a link leads to it, and nothing is written after that. -/
theorem install_filed :
    Triple anyAnswer (Files call (Filed call []))
      (install config call.leafPem call.chainPem call.privateKeyPem call.generationName)
      (fun _ => Files call fun _ => True) (fun _ => filing.Checked (filed call)) (filing.Checked (filed call)) := by
  have hfile : ∀ file ∈ generationFiles, ∀ files, file ∉ files → ∀ mode, Triple anyAnswer (Files call (Filed call files))
      (writeNew config [call.generationName, file] (call.content file) mode)
      (fun _ => Files call (Filed call (files ++ [file]))) (fun _ => filing.Checked (filed call))
      (filing.Checked (filed call)) := fun file hfile files hnew mode => writeNew_filed hfile hnew mode
  refine Triple.bind (hfile "cert.pem" (by decide) [] (by decide) 0o640) fun _ => ?_
  refine Triple.bind (hfile "chain.pem" (by decide) ["cert.pem"] (by decide) 0o640) fun _ => ?_
  refine Triple.bind (hfile "privkey.pem" (by decide) ["cert.pem", "chain.pem"] (by decide) 0o600) fun _ => ?_
  refine Triple.bind (bystander_perform rfl) fun token => ?_
  refine Triple.bind (R := fun _ => Files call fun _ => True) ?_ fun _ => ?_
  · refine (Monitor.perform_sees (E := fun _ => True) ?_ (fun _ _ _ => trivial) fun _ _ _ => trivial).conseq
      (fun _ ht => ht) (fun _ _ ht => ht) (fun _ _ ht => ht.1) fun _ ht => ht
    intro s r hs
    refine ⟨rfl, fun file hmem => ?_⟩
    have hall : Filed call generationFiles s := hs
    rw [hall file, if_pos hmem]
  · refine Triple.bind (bystander_perform rfl) fun _ => bystander ?_
    exact ifRoot_uses (Program.uses_perform.2 rfl)

theorem ensureDirectory_uses (directory : StoreDirectory) :
    (ensureDirectory config directory).Uses (bystanding · = true) := by
  refine Program.uses_bind (Program.uses_perform.2 rfl) fun _ => Program.uses_bind (Program.uses_perform.2 rfl) fun _ => ?_
  exact ifRoot_uses (Program.uses_perform.2 rfl)

theorem cleanup_uses (name : String) : (cleanup name).Uses (bystanding · = true) := by
  refine Program.uses_bind (Program.uses_perform.2 rfl) fun _ => Program.uses_bind (Program.uses_perform.2 rfl) fun _ => ?_
  refine Program.uses_bind (Program.uses_perform.2 rfl) fun _ => ?_
  refine Program.uses_bind (Program.uses_attempt (Program.uses_perform.2 rfl)) fun removed => ?_
  cases removed with
  | ok _ => trivial
  | error error =>
    simp only
    split <;> trivial

/-- Every run of a commit passes the check. -/
theorem commit_filed :
    Triple anyAnswer (Files call (Filed call [])) (call.run Γ config) (fun _ => filing.Checked (filed call))
      (fun _ => filing.Checked (filed call)) (filing.Checked (filed call)) := by
  refine Triple.bind (bystander (ensureDirectory_uses .lineage)) fun _ => ?_
  refine Triple.bind (bystander (ensureDirectory_uses .generations)) fun _ => ?_
  refine Triple.bind (bystander_perform rfl) fun found => ?_
  split
  · exact Triple.raise (fun _ ht => ht.1) fun _ ht => ht.1
  · refine Triple.bind (bystander_perform rfl) fun _ => ?_
    refine Triple.bind (bystander (ifRoot_uses (Program.uses_perform.2 rfl))) fun _ => ?_
    refine Triple.bind (R := fun _ => Files call fun _ => True) ?_ fun _ => ?_
    · have hraised : Triple anyAnswer (Files call (Filed call []))
          (install config call.leafPem call.chainPem call.privateKeyPem call.generationName)
          (fun _ => Files call fun _ => True) (fun _ => Files call fun _ => True) (filing.Checked (filed call)) :=
        install_filed.conseq (fun _ ht => ht) (fun _ _ ht => ht) (fun _ _ ht => ⟨ht, trivial⟩) fun _ ht => ht
      refine Triple.handle hraised fun error => ?_
      refine Triple.bind (bystander (cleanup_uses call.generationName)) fun _ => ?_
      exact Triple.raise (fun _ ht => ht.1) fun _ ht => ht.1
    · refine (bystander (load_uses.mono fun op hop => ?_)).post fun _ _ ht => ht.1
      cases op <;> first | rfl | cases hop

theorem checked_of_run {t : List (Event storage Exc)} (h : Exec anyAnswer (call.run Γ config) [] .crashed t) :
    filing.Checked (filed call) t := by
  have hstart : Files call (Filed call []) [] := ⟨filing.checked_nil, fun _ => rfl⟩
  exact commit_filed _ hstart _ _ h

/-- What the commit performs next passes the check. -/
theorem next_filed {c : CommitUnderWay} {e : Event storage Exc}
    (h : Exec anyAnswer (c.call.run Γ config) [] .crashed (c.performed ++ [e])) : filed c.call c.written e :=
  (filing.checked_snoc.1 (checked_of_run h)).2

/-- A complete generation stays as it is. -/
theorem complete_step {e : Event storage Exc} (hcheck : filed call s e)
    (hs : ∀ file ∈ generationFiles, s file = call.content file) : filing.step s e = s := by
  obtain ⟨op, answer⟩ := e
  cases op with
  | write path content =>
    obtain ⟨file, hfile, rfl, hnext⟩ := hcheck
    rw [hs file hfile, List.append_right_eq_self] at hnext
    subst hnext
    cases answer with
    | error x => exact filing_error _ x
    | ok n =>
      have hstep : filing.step s ⟨.write [call.generationName, file] [], .ok n⟩ =
          Function.update s file (s file ++ ([] : Bytes).take n) := rfl
      rw [hstep, List.take_nil, List.append_nil, Function.update_eq_self]
  | createFile path mode => cases answer <;> rfl
  | symlink entry target => cases answer <;> rfl
  | _ => exact filing_bystanding rfl answer

/-! ## What an operation does to the directory -/

variable {euid : Nat} {t t' : LineageTree} {op : StoreOp} {answer : Except Exc (storage.Reply op)}

/-- What is at the path is removed, stays, or changes its owner. -/
def Kept (t t' : LineageTree) (path : List String) : Prop :=
  t'.archive path = none ∨ t'.archive path = t.archive path ∨
    ∃ f uid, t.archive path = some (.file f) ∧ t'.archive path = some (.file { f with owner := uid })

theorem Kept.content {path : List String} {f' : StoredFile} (h : Kept t t' path)
    (hf : t'.archive path = some (.file f')) : ∃ f, t.archive path = some (.file f) ∧ f.content = f'.content := by
  rcases h with hnone | hsame | ⟨f, uid, hfile, howner⟩
  · rw [hnone] at hf
    cases hf
  · exact ⟨f', hsame ▸ hf, rfl⟩
  · rw [howner] at hf
    cases hf
    exact ⟨f, hfile, rfl⟩

theorem Kept.none {path : List String} (h : Kept t t' path) (hnone : t.archive path = none) : t'.archive path = none := by
  rcases h with h | h | ⟨f, uid, hfile, -⟩
  · exact h
  · rw [h, hnone]
  · rw [hnone] at hfile
    cases hfile

/-- Where one path changes, the others do not. -/
theorem kept_of_changes {path : List String} {node : Option Node} (h : t.ChangesAt t' path node) {path' : List String}
    (hne : path' ≠ path) : Kept t t' path' := by
  obtain ⟨-, -, -, harchive⟩ := h
  exact Or.inr (Or.inl (by rw [harchive, Function.update_of_ne hne]))

theorem changes_self {path : List String} {node : Option Node} (h : t.ChangesAt t' path node) :
    t'.archive path = node := by
  obtain ⟨-, -, -, harchive⟩ := h
  rw [harchive, Function.update_self]

/-- A bystanding operation keeps the files of every generation, or removes them. -/
theorem kept_of_bystanding (hop : bystanding op = true) (h : disk euid faults t op answer t') (name file : String) :
    Kept t t' [name, file] := by
  cases answer with
  | error x =>
    obtain ⟨rfl, -⟩ := h
    exact Or.inr (Or.inl rfl)
  | ok reply =>
    cases op with
    | createFile path mode => cases hop
    | write path content => cases hop
    | symlink entry target => cases hop
    | makeGeneration name' =>
      obtain ⟨-, -, hchanges⟩ := h
      exact kept_of_changes hchanges (by simp)
    | removeGeneration name' =>
      obtain ⟨-, -, hchanges⟩ := h
      exact kept_of_changes hchanges (by simp)
    | fchown path uid =>
      obtain ⟨f, hfile, hchanges⟩ := h
      by_cases heq : [name, file] = path
      · subst heq
        exact Or.inr (Or.inr ⟨f, uid, hfile, changes_self hchanges⟩)
      · exact kept_of_changes hchanges heq
    | unlink path =>
      obtain ⟨-, hchanges⟩ := h
      by_cases heq : [name, file] = path
      · subst heq
        exact Or.inl (changes_self hchanges)
      · exact kept_of_changes hchanges heq
    | makeDirectory directory =>
      refine Or.inr (Or.inl ?_)
      cases directory with
      | lineage =>
        obtain ⟨-, -, -, harchive⟩ := h
        rw [harchive]
      | generations =>
        obtain ⟨-, -, -, -, harchive⟩ := h
        rw [harchive]
    | replaceCurrent entry =>
      obtain ⟨-, -, target, -, rfl⟩ := h
      exact Or.inr (Or.inl rfl)
    | _ =>
      have heq : t' = t := by first | exact h.1 | exact h
      subst heq
      exact Or.inr (Or.inl rfl)

/-- A commit writes to no other generation. -/
theorem kept_elsewhere (hcheck : filed call s ⟨op, answer⟩) (h : disk euid faults t op answer t') {name : String}
    (hne : name ≠ call.generationName) (file : String) : Kept t t' [name, file] := by
  have herror : ∀ x : Exc, disk euid faults t op (.error x) t' → Kept t t' [name, file] := by
    rintro x ⟨rfl, -⟩
    exact Or.inr (Or.inl rfl)
  cases op with
  | createFile path mode =>
    obtain ⟨file', rfl, -⟩ := hcheck
    cases answer with
    | error x => exact herror x h
    | ok reply =>
      obtain ⟨parent, name', -, -, -, permitted, hchanges⟩ := h
      exact kept_of_changes hchanges (by simp [hne])
  | write path content =>
    obtain ⟨file', -, rfl, -⟩ := hcheck
    cases answer with
    | error x => exact herror x h
    | ok n =>
      obtain ⟨f, -, -, -, hchanges⟩ := h
      exact kept_of_changes hchanges (by simp [hne])
  | symlink entry target =>
    cases answer with
    | error x => exact herror x h
    | ok reply =>
      obtain ⟨-, -, rfl⟩ := h
      exact Or.inr (Or.inl rfl)
  | _ => exact kept_of_bystanding rfl h name file

/-- The files of a commit hold what it has written to them. -/
theorem own_content (hcheck : filed call s ⟨op, answer⟩) (h : disk euid faults t op answer t')
    (hcontent : ∀ file f, t.archive [call.generationName, file] = some (.file f) → f.content = s file) (file : String)
    {f' : StoredFile} (hf : t'.archive [call.generationName, file] = some (.file f')) :
    f'.content = filing.step s ⟨op, answer⟩ file := by
  have hkept : Kept t t' [call.generationName, file] → filing.step s ⟨op, answer⟩ file = s file →
      f'.content = filing.step s ⟨op, answer⟩ file := by
    intro hk hstep
    obtain ⟨f, hfile, heq⟩ := hk.content hf
    rw [hstep, ← heq, hcontent file f hfile]
  have herror : ∀ x : Exc, disk euid faults t op (.error x) t' → Kept t t' [call.generationName, file] := by
    rintro x ⟨rfl, -⟩
    exact Or.inr (Or.inl rfl)
  cases op with
  | createFile path mode =>
    obtain ⟨file', rfl, hempty⟩ := hcheck
    cases answer with
    | error x => exact hkept (herror x h) rfl
    | ok reply =>
      obtain ⟨parent, name', -, -, -, permitted, hchanges⟩ := h
      by_cases heq : file = file'
      · subst heq
        rw [changes_self hchanges] at hf
        cases hf
        exact hempty.symm
      · exact hkept (kept_of_changes hchanges (by simp [heq])) rfl
  | write path content =>
    obtain ⟨file', -, rfl, -⟩ := hcheck
    cases answer with
    | error x => exact hkept (herror x h) (congrFun (filing_error _ x) file)
    | ok n =>
      obtain ⟨f, hfile, -, -, hchanges⟩ := h
      have hstep : filing.step s ⟨.write [call.generationName, file'] content, .ok n⟩ =
          Function.update s file' (s file' ++ content.take n) := rfl
      by_cases heq : file = file'
      · subst heq
        rw [changes_self hchanges] at hf
        cases hf
        rw [hstep, Function.update_self, hcontent file f hfile]
      · refine hkept (kept_of_changes hchanges (by simp [heq])) ?_
        rw [hstep, Function.update_of_ne heq]
  | symlink entry target =>
    cases answer with
    | error x => exact hkept (herror x h) rfl
    | ok reply =>
      obtain ⟨-, -, rfl⟩ := h
      exact hkept (Or.inr (Or.inl rfl)) rfl
  | _ => exact hkept (kept_of_bystanding rfl h _ file) (congrFun (filing_bystanding rfl answer) file)

/-- A link is one that was there, perhaps under another name, or the one that is made. -/
theorem links_step (h : disk euid faults t op answer t') {entry : String} {target : LinkTarget}
    (hlink : t'.entries entry = some (.link target)) :
    (∃ entry', t.entries entry' = some (.link target)) ∨ ∃ entry', op = .symlink entry' target := by
  have hkeep : t'.entries = t.entries → ∃ entry', t.entries entry' = some (.link target) :=
    fun heq => ⟨entry, heq ▸ hlink⟩
  cases answer with
  | error x =>
    obtain ⟨rfl, -⟩ := h
    exact Or.inl (hkeep rfl)
  | ok reply =>
    cases op with
    | symlink entry' target' =>
      obtain ⟨-, -, rfl⟩ := h
      by_cases heq : entry = entry'
      · subst heq
        simp only [LineageTree.withEntry, Function.update_self, Option.some.injEq, Entry.link.injEq] at hlink
        subst hlink
        exact Or.inr ⟨entry, rfl⟩
      · simp only [LineageTree.withEntry, Function.update_of_ne heq] at hlink
        exact Or.inl ⟨entry, hlink⟩
    | replaceCurrent entry' =>
      obtain ⟨-, -, target', htarget, rfl⟩ := h
      by_cases heq : entry = entry'
      · subst heq
        simp only [LineageTree.withEntry, Function.update_self, reduceCtorEq] at hlink
      · simp only [LineageTree.withEntry, Function.update_of_ne heq] at hlink
        by_cases hcurrent : entry = "current"
        · subst hcurrent
          rw [Function.update_self] at hlink
          cases hlink
          exact Or.inl ⟨entry', htarget⟩
        · rw [Function.update_of_ne hcurrent] at hlink
          exact Or.inl ⟨entry, hlink⟩
    | makeGeneration name =>
      obtain ⟨-, -, -, -, hentries, -⟩ := h
      exact Or.inl (hkeep hentries)
    | removeGeneration name =>
      obtain ⟨-, -, -, -, hentries, -⟩ := h
      exact Or.inl (hkeep hentries)
    | createFile path mode =>
      obtain ⟨parent, name, -, -, -, permitted, -, -, hentries, -⟩ := h
      exact Or.inl (hkeep hentries)
    | fchown path uid =>
      obtain ⟨f, -, -, -, hentries, -⟩ := h
      exact Or.inl (hkeep hentries)
    | write path content =>
      obtain ⟨f, -, -, -, -, -, hentries, -⟩ := h
      exact Or.inl (hkeep hentries)
    | unlink path =>
      obtain ⟨-, -, -, hentries, -⟩ := h
      exact Or.inl (hkeep hentries)
    | makeDirectory directory =>
      refine Or.inl (hkeep ?_)
      cases directory with
      | lineage =>
        obtain ⟨-, -, hentries, -⟩ := h
        exact hentries
      | generations =>
        obtain ⟨-, -, -, hentries, -⟩ := h
        exact hentries
    | _ =>
      have heq : t' = t := by first | exact h.1 | exact h
      subst heq
      exact Or.inl (hkeep rfl)

/-! ## What the commits keep -/

variable {w w' : SharedStore}

/-- The generations have names of their own; what is in them is what their commits wrote; and every link leads to a complete one. -/
structure Sound (Γ : Ctx) (config : StoreConfig) (w : SharedStore) : Prop where
  apart : (w.commits.map (·.call.generationName)).Nodup
  contents : ∀ c ∈ w.commits, ∀ file f,
    w.tree.archive [c.call.generationName, file] = some (.file f) → f.content = c.written file
  unmade : ∀ name, (∀ c ∈ w.commits, c.call.generationName ≠ name) → ∀ file, w.tree.archive [name, file] = none
  links : ∀ entry target, w.tree.entries entry = some (.link target) →
    ∃ c ∈ w.commits, target = .inside [c.call.generationName] ∧ c.Complete

theorem sound_untouched (ht : t.Untouched) : Sound Γ config ⟨t, [], .closed⟩ where
  apart := List.nodup_nil
  contents c hc := by simp at hc
  unmade name _ file := ht.2 [name, file]
  links entry target h := absurd h (ht.1 entry target)

/-- The commit of the call is complete. -/
def Holds (call : CommitCall) (w : SharedStore) : Prop := ∃ c ∈ w.commits, c.call = call ∧ c.Complete

/-- The descriptor is of the file of the generation, or of the file as it was when it was removed. -/
def Faces (call : CommitCall) (file : String) (w : SharedStore) : Prop :=
  w.descriptor = .linked [call.generationName, file] ∨
    ∃ node, w.descriptor = .unlinked node ∧ ∀ f, node = some (.file f) → f.content = call.content file

/-- A complete generation holds the files of its commit. -/
theorem holds_content (hw : Sound Γ config w) (h : Holds call w) {file : String} (hfile : file ∈ generationFiles)
    {f : StoredFile} (hf : w.tree.archive [call.generationName, file] = some (.file f)) : f.content = call.content file := by
  obtain ⟨c, hc, rfl, hcomplete⟩ := h
  rw [hw.contents c hc file f hf, hcomplete file hfile]

theorem shown_content (hw : Sound Γ config w) (h : Holds call w) {file : String} (hfile : file ∈ generationFiles)
    (hfaces : Faces call file w) {f : StoredFile} (hf : w.shown = some (.file f)) : f.content = call.content file := by
  unfold SharedStore.shown at hf
  rcases hfaces with hlinked | ⟨node, hunlinked, hnode⟩
  · rw [hlinked] at hf
    exact holds_content hw h hfile hf
  · rw [hunlinked] at hf
    exact hnode f hf

/-- What a commit has performed grows; the others stay. -/
theorem mem_grown {before after : List CommitUnderWay} {c d : CommitUnderWay} {e : Event storage Exc}
    (hd : d ∈ before ++ c :: after) :
    ∃ d' ∈ before ++ { c with performed := c.performed ++ [e] } :: after, d'.call = d.call ∧
      (d' = d ∨ (d = c ∧ d'.performed = c.performed ++ [e])) := by
  rcases List.mem_append.1 hd with hd | hd
  · exact ⟨d, List.mem_append_left _ hd, rfl, Or.inl rfl⟩
  · rcases List.mem_cons.1 hd with rfl | hd
    · exact ⟨_, List.mem_append_right _ (List.mem_cons_self ..), rfl, Or.inr ⟨rfl, rfl⟩⟩
    · exact ⟨d, List.mem_append_right _ (List.mem_cons_of_mem _ hd), rfl, Or.inl rfl⟩

theorem complete_grown {c d' : CommitUnderWay} {e : Event storage Exc} (hcheck : filed c.call c.written e)
    (hc : c.Complete) (hcall : d'.call = c.call) (hperformed : d'.performed = c.performed ++ [e]) : d'.Complete := by
  have hwritten : d'.written = c.written := by
    unfold CommitUnderWay.written
    rw [hperformed, Monitor.after_snoc]
    exact complete_step hcheck hc
  intro file hfile
  rw [hwritten, hcall]
  exact hc file hfile

/-- A complete generation stays complete. -/
theorem holds_moves (h : Holds call w) (hmove : SharedStore.Moves Γ config faults w w') : Holds call w' := by
  obtain ⟨d, hd, hcall, hcomplete⟩ := h
  cases hmove with
  | begins call' euid' hfresh => exact ⟨d, List.mem_append_left _ hd, hcall, hcomplete⟩
  | @performs before after c op answer tree hcommits hruns hdisk =>
    rw [hcommits] at hd
    obtain ⟨d', hd', hcall', hsame | ⟨rfl, hperformed⟩⟩ := mem_grown (e := ⟨op, answer⟩) hd
    · subst hsame
      exact ⟨d', hd', hcall, hcomplete⟩
    · exact ⟨d', hd', hcall'.trans hcall, complete_grown (next_filed hruns) hcomplete hcall' hperformed⟩

/-- A step of a commit keeps the store sound. -/
theorem sound_performs {before after : List CommitUnderWay} {c : CommitUnderWay} {descriptor : Descriptor}
    (hw : Sound Γ config w) (hcommits : w.commits = before ++ c :: after)
    (hcheck : filed c.call c.written ⟨op, answer⟩) (hdisk : disk c.euid faults w.tree op answer t') :
    Sound Γ config ⟨t', before ++ { c with performed := c.performed ++ [⟨op, answer⟩] } :: after, descriptor⟩ := by
  have hc : c ∈ w.commits := by rw [hcommits]; exact List.mem_append_right _ (List.mem_cons_self ..)
  have hnames : w.commits.map (·.call.generationName) =
      (before ++ { c with performed := c.performed ++ [⟨op, answer⟩] } :: after).map (·.call.generationName) := by
    rw [hcommits]
    simp
  have hothers : ∀ d, d ∈ before ∨ d ∈ after → d ∈ w.commits ∧ d.call.generationName ≠ c.call.generationName := by
    intro d hd
    have hapart := hw.apart
    rw [hcommits, List.map_append, List.map_cons, List.nodup_middle, List.nodup_cons, ← List.map_append] at hapart
    have hmem : d ∈ before ++ after := List.mem_append.2 hd
    refine ⟨?_, fun heq => hapart.1 (heq ▸ List.mem_map_of_mem hmem)⟩
    rw [hcommits]
    rcases hd with hd | hd
    · exact List.mem_append_left _ hd
    · exact List.mem_append_right _ (List.mem_cons_of_mem _ hd)
  refine ⟨hnames ▸ hw.apart, ?_, ?_, ?_⟩
  · intro d hd file f hf
    have hold : d ∈ before ∨ d ∈ after → f.content = d.written file := by
      intro hmem
      obtain ⟨hin, hne⟩ := hothers d hmem
      obtain ⟨f₀, hf₀, heq⟩ := (kept_elsewhere hcheck hdisk hne file).content hf
      rw [← heq, hw.contents d hin file f₀ hf₀]
    rcases List.mem_append.1 hd with hd | hd
    · exact hold (Or.inl hd)
    · rcases List.mem_cons.1 hd with rfl | hd
      · rw [own_content hcheck hdisk (fun file f => hw.contents c hc file f) file hf]
        unfold CommitUnderWay.written
        rw [Monitor.after_snoc]
      · exact hold (Or.inr hd)
  · intro name hname file
    have hno : ∀ d ∈ w.commits, d.call.generationName ≠ name := by
      intro d hd
      rw [hcommits] at hd
      obtain ⟨d', hd', hcall, -⟩ := mem_grown (e := ⟨op, answer⟩) hd
      rw [← hcall]
      exact hname d' hd'
    exact (kept_elsewhere hcheck hdisk (hno c hc).symm file).none (hw.unmade name hno file)
  · intro entry target hlink
    have hcomplete : ∀ d ∈ w.commits, target = .inside [d.call.generationName] → d.Complete →
        ∃ d' ∈ before ++ { c with performed := c.performed ++ [⟨op, answer⟩] } :: after,
          target = .inside [d'.call.generationName] ∧ d'.Complete := by
      intro d hd htarget hcomplete
      rw [hcommits] at hd
      obtain ⟨d', hd', hcall, hsame | ⟨rfl, hperformed⟩⟩ := mem_grown (e := ⟨op, answer⟩) hd
      · subst hsame
        exact ⟨d', hd', htarget, hcomplete⟩
      · exact ⟨d', hd', by rw [hcall]; exact htarget, complete_grown hcheck hcomplete hcall hperformed⟩
    rcases links_step hdisk hlink with ⟨entry', hold⟩ | ⟨entry', rfl⟩
    · obtain ⟨d, hd, htarget, hd'⟩ := hw.links entry' target hold
      exact hcomplete d hd htarget hd'
    · exact hcomplete c hc hcheck.1 hcheck.2

theorem sound_moves (hw : Sound Γ config w) (hmove : SharedStore.Moves Γ config faults w w') : Sound Γ config w' := by
  cases hmove with
  | begins call' euid' hfresh =>
    refine ⟨?_, ?_, ?_, ?_⟩
    · rw [List.map_append, List.map_cons, List.map_nil, ← List.concat_eq_append, List.nodup_concat]
      refine ⟨fun hmem => ?_, hw.apart⟩
      obtain ⟨d, hd, heq⟩ := List.mem_map.1 hmem
      exact hfresh d hd heq
    · intro d hd file f hf
      rcases List.mem_append.1 hd with hd | hd
      · exact hw.contents d hd file f hf
      · rw [List.mem_singleton.1 hd, hw.unmade call'.generationName hfresh file] at hf
        cases hf
    · intro name hname file
      exact hw.unmade name (fun d hd => hname d (List.mem_append_left _ hd)) file
    · intro entry target hlink
      obtain ⟨d, hd, hrest⟩ := hw.links entry target hlink
      exact ⟨d, List.mem_append_left _ hd, hrest⟩
  | performs hcommits hruns hdisk => exact sound_performs hw hcommits (next_filed hruns) hdisk

/-- The descriptor goes on showing the file of the generation. -/
theorem faces_moves {file : String} (hfile : file ∈ generationFiles) (hw : Sound Γ config w) (h : Holds call w)
    (hfaces : Faces call file w) (hmove : SharedStore.Moves Γ config faults w w') : Faces call file w' := by
  cases hmove with
  | begins call' euid' hfresh => exact hfaces
  | @performs before after c op answer tree hcommits hruns hdisk =>
    rcases hfaces with hlinked | ⟨node, hunlinked, hnode⟩
    · have hafter : w.descriptor.after w.tree op answer = .linked [call.generationName, file] ∨
          w.descriptor.after w.tree op answer = .unlinked (w.tree.archive [call.generationName, file]) := by
        rw [hlinked]
        unfold Descriptor.after
        split
        · rename_i heq
          cases heq
          split
          · exact Or.inr rfl
          · exact Or.inl rfl
        · exact Or.inl rfl
      rcases hafter with hafter | hafter
      · exact Or.inl hafter
      · exact Or.inr ⟨_, hafter, fun f hf => holds_content hw h hfile hf⟩
    · refine Or.inr ⟨node, ?_, hnode⟩
      show w.descriptor.after w.tree op answer = _
      rw [hunlinked]
      rfl

/-! ## The load -/

/-- An operation of the load: what is known before it lasts while the commits go on. -/
theorem amid_perform {op : StoreOp} {P : SharedStore → Prop} {Q : storage.Reply op → SharedStore → Prop}
    (hmoves : ∀ w w', P w → SharedStore.Moves Γ config faults w w' → P w')
    (hok : ∀ w reply w', P w → SharedStore.Answers euid w op reply w' → Q reply w') :
    Triple (amid Γ config euid faults) P (store op) Q (fun _ _ => True) fun _ => True := by
  refine Triple.perform (fun _ _ => trivial) ?_ fun _ _ _ _ _ => ⟨trivial, trivial⟩
  rintro w reply w' hw ⟨w₁, hgo, hanswers⟩
  have hw₁ : P w₁ := by
    clear hanswers
    induction hgo with
    | refl => exact hw
    | tail _ hmove ih => exact hmoves _ _ ih hmove
  exact ⟨hok w₁ reply w' hw₁ hanswers, trivial⟩

/-- The store is sound, and the generation of the call is complete. -/
def Serves (Γ : Ctx) (config : StoreConfig) (call : CommitCall) (w : SharedStore) : Prop :=
  Sound Γ config w ∧ Holds call w

theorem serves_moves (h : Serves Γ config call w) (hmove : SharedStore.Moves Γ config faults w w') :
    Serves Γ config call w' :=
  ⟨sound_moves h.1 hmove, holds_moves h.2 hmove⟩

/-- Another descriptor changes nothing about the generation. -/
theorem serves_descriptor (h : Serves Γ config call w) (descriptor : Descriptor) :
    Serves Γ config call { w with descriptor := descriptor } :=
  ⟨⟨h.1.apart, h.1.contents, h.1.unmade, h.1.links⟩, h.2⟩

/-- The load has the file of the generation open. -/
def Opens (Γ : Ctx) (config : StoreConfig) (call : CommitCall) (file : String) (w : SharedStore) : Prop :=
  Serves Γ config call w ∧ Faces call file w

theorem opens_moves {file : String} (hfile : file ∈ generationFiles) (h : Opens Γ config call file w)
    (hmove : SharedStore.Moves Γ config faults w w') : Opens Γ config call file w' :=
  ⟨serves_moves h.1 hmove, faces_moves hfile h.1.1 h.1.2 h.2 hmove⟩

/-- What is read of an open file is what the commit wrote. -/
theorem readOpened_triple {file : String} (hfile : file ∈ generationFiles) (maximumBytes : Nat) (isPrivate : Bool) :
    Triple (amid Γ config euid faults) (Opens Γ config call file)
      (readOpened config [call.generationName, file] maximumBytes isPrivate)
      (fun content w => Serves Γ config call w ∧ content = call.content file) (fun _ _ => True) fun _ => True := by
  have hraise : ∀ (x : Exc) (P : SharedStore → Prop), Triple (amid Γ config euid faults) P (.raise x : StoreAction Bytes)
      (fun content w => Serves Γ config call w ∧ content = call.content file) (fun _ _ => True) fun _ => True :=
    fun x P => Triple.raise (fun _ _ => trivial) fun _ _ => trivial
  refine Triple.bind (R := fun _ => Opens Γ config call file) (amid_perform (fun _ _ => opens_moves hfile) ?_)
    fun metadata => ?_
  · rintro w reply w' hw ⟨rfl, -⟩
    exact hw
  split
  · exact hraise _ _
  · split
    · exact hraise _ _
    · split
      · exact hraise _ _
      · refine Triple.bind (R := fun content w => Serves Γ config call w ∧
          content = (call.content file).take (maximumBytes + 1)) (amid_perform (fun _ _ => opens_moves hfile) ?_)
          fun content => ?_
        · rintro w reply w' hw ⟨rfl, f, hshown, rfl⟩
          rw [shown_content hw.1.1 hw.1.2 hfile hw.2 hshown]
          exact ⟨hw.1, rfl⟩
        · split
          · exact hraise _ _
          · rename_i hsmall
            refine Triple.ret ?_ fun _ _ => trivial
            rintro w ⟨hw, rfl⟩
            rw [List.length_take] at hsmall
            exact ⟨hw, List.take_of_length_le (by omega)⟩

/-- What is read of a file of the generation is what the commit wrote. -/
theorem read_triple {file : String} (hfile : file ∈ generationFiles) (maximumBytes : Nat) (isPrivate : Bool) :
    Triple (amid Γ config euid faults) (Serves Γ config call)
      (NativeCertificateStore.read config [call.generationName, file] maximumBytes isPrivate)
      (fun content w => Serves Γ config call w ∧ content = call.content file) (fun _ _ => True) fun _ => True := by
  have hopen : Triple (amid Γ config euid faults) (Serves Γ config call)
      (store (.openRead [call.generationName, file])) (fun _ => Opens Γ config call file) (fun _ _ => True)
      fun _ => True := by
    refine amid_perform (fun _ _ => serves_moves) ?_
    rintro w reply w' hw ⟨-, rfl⟩
    exact ⟨serves_descriptor hw _, Or.inl rfl⟩
  refine Triple.bind (Triple.attempt hopen (fun _ _ _ => trivial) fun _ _ _ => trivial) fun opened => ?_
  cases opened with
  | error error =>
    simp only
    split <;> exact Triple.raise (fun _ _ => trivial) fun _ _ => trivial
  | ok _ =>
    refine Triple.ensure (readOpened_triple hfile maximumBytes isPrivate) (fun content => ?_)
      (fun x => Triple.unconstrained _) (fun _ _ _ => trivial) fun _ _ _ => trivial
    refine amid_perform ?_ ?_
    · rintro w w' ⟨hw, hcontent⟩ hmove
      exact ⟨serves_moves hw hmove, hcontent⟩
    · rintro w reply w' ⟨hw, hcontent⟩ rfl
      exact ⟨serves_descriptor hw _, hcontent⟩

/-- The load returns the material of the generation it resolved the pointer to. -/
theorem loadGeneration_triple :
    Triple (amid Γ config euid faults) (Serves Γ config call) (loadGeneration Γ config [call.generationName])
      (fun material w => Holds call w ∧ call.material Γ = some material) (fun _ _ => True) fun _ => True := by
  have hread : ∀ file ∈ generationFiles, ∀ maximumBytes isPrivate, Triple (amid Γ config euid faults)
      (Serves Γ config call) (NativeCertificateStore.read config [call.generationName, file] maximumBytes isPrivate)
      (fun content w => Serves Γ config call w ∧ content = call.content file) (fun _ _ => True) fun _ => True :=
    fun file hfile maximumBytes isPrivate => read_triple hfile maximumBytes isPrivate
  refine Triple.bind (hread "cert.pem" (by decide) _ _) fun leafPem => Triple.assume fun hleaf => ?_
  refine Triple.bind (hread "chain.pem" (by decide) _ _) fun chainPem => Triple.assume fun hchain => ?_
  refine Triple.bind (hread "privkey.pem" (by decide) _ _) fun privateKeyPem => Triple.assume fun hkey => ?_
  split
  · rename_i material hparsed
    refine Triple.ret (fun w hw => ⟨hw.2, ?_⟩) fun _ _ => trivial
    have hfiles : leafPem = call.leafPem ∧ chainPem = call.chainPem ∧ privateKeyPem = call.privateKeyPem :=
      ⟨hleaf, hchain, hkey⟩
    obtain ⟨rfl, rfl, rfl⟩ := hfiles
    exact hparsed
  · exact Triple.raise (fun _ _ => trivial) fun _ _ => trivial

theorem load_triple :
    Triple (amid Γ config euid faults) (Sound Γ config) (load Γ config)
      (fun material w => ∃ call, Holds call w ∧ call.material Γ = some material) (fun _ _ => True) fun _ => True := by
  have hraise : ∀ (x : Exc) (P : SharedStore → Prop), Triple (amid Γ config euid faults) P
      (.raise x : StoreAction LineageMaterial) (fun material w => ∃ call, Holds call w ∧ call.material Γ = some material)
      (fun _ _ => True) fun _ => True := fun x P => Triple.raise (fun _ _ => trivial) fun _ _ => trivial
  refine Triple.bind (R := fun _ => Sound Γ config) (amid_perform (fun _ _ => sound_moves) ?_) fun isLink => ?_
  · rintro w reply w' hw ⟨rfl, -⟩
    exact hw
  split
  · exact hraise _ _
  refine Triple.bind (R := fun target w => ∃ call, target = .inside [call.generationName] ∧ Serves Γ config call w)
    (amid_perform (fun _ _ => sound_moves) ?_) fun target => ?_
  · rintro w target w' hw ⟨rfl, -, hlink⟩
    obtain ⟨c, hc, htarget, hcomplete⟩ := hw.links "current" target hlink
    exact ⟨c.call, htarget, hw, c, hc, rfl, hcomplete⟩
  cases target with
  | outside => exact hraise _ _
  | inside path =>
    refine Triple.of_exists fun call => ?_
    have hpath : LinkTarget.inside path = .inside [call.generationName] → Triple (amid Γ config euid faults)
        (Serves Γ config call)
        (do
          let isDir ← store (.isDirectory path)
          if isDir = false then .raise (storeError "current certificate generation is unavailable")
          else loadGeneration Γ config path)
        (fun material w => ∃ call, Holds call w ∧ call.material Γ = some material) (fun _ _ => True) fun _ => True := by
      intro htarget
      cases htarget
      refine Triple.bind (R := fun _ => Serves Γ config call) (amid_perform (fun _ _ => serves_moves) ?_) fun isDir => ?_
      · rintro w reply w' hw ⟨rfl, -⟩
        exact hw
      · split
        · exact hraise _ _
        · exact loadGeneration_triple.post fun material w hw => ⟨call, hw⟩
    exact (Triple.assume hpath).pre fun w hw => ⟨hw.2, hw.1⟩

theorem files_of_material {material : LineageMaterial} (h : call.material Γ = some material) :
    material.leafPem = call.leafPem ∧ material.chainPem = call.chainPem ∧
      material.privateKeyPem = call.privateKeyPem := by
  unfold CommitCall.material parseMaterial at h
  split at h
  · cases h
    exact ⟨rfl, rfl, rfl⟩
  · cases h

end OneGenerationAux

open OneGenerationAux

/-- A load sees one generation. Whatever commits of the certificate, of generations with names of their own, begin, go on, fail or
are cut before and between its operations, a load that returns material returns the leaf, the chain and the private key of one
commit that has written its three files completely. -/
theorem load_one_generation (Γ : Ctx) (config : StoreConfig) (euid : Nat) (faults : StoreOp → Exc → Prop) {t₀ : LineageTree}
    (h₀ : t₀.Untouched) {material : LineageMaterial} {w : SharedStore}
    (h : Exec (amid Γ config euid faults) (load Γ config) ⟨t₀, [], .closed⟩ (.returned material) w) :
    ∃ c ∈ w.commits, c.Complete ∧ c.call.material Γ = some material ∧ material.leafPem = c.call.leafPem ∧
      material.chainPem = c.call.chainPem ∧ material.privateKeyPem = c.call.privateKeyPem := by
  have hstart : Sound Γ config ⟨t₀, [], .closed⟩ := sound_untouched h₀
  obtain ⟨call, ⟨c, hc, rfl, hcomplete⟩, hmaterial⟩ := load_triple.returned hstart h
  exact ⟨c, hc, hcomplete, hmaterial, files_of_material hmaterial⟩

namespace OneGenerationAux

open StoreAux

/-! ## A load amid two commits -/

/-- A run of a commit is made of steps of the commits. -/
theorem moves_of_run (before after : List CommitUnderWay) {p : StoreAction LineageMaterial}
    {w w' : LineageTree × List (Event storage Exc)} {o : Outcome Exc LineageMaterial}
    (hrun : Exec (recording (disk euid faults)) p w o w')
    (hp : ∀ o trace, Exec anyAnswer p w.2 o trace → Exec anyAnswer (call.run Γ config) [] o trace) :
    Relation.ReflTransGen (SharedStore.Moves Γ config faults) ⟨w.1, before ++ ⟨call, euid, w.2⟩ :: after, .closed⟩
      ⟨w'.1, before ++ ⟨call, euid, w'.2⟩ :: after, .closed⟩ := by
  induction hrun with
  | ret | raise | crash => exact .refl
  | @call op k w₁ w₂ w₃ r o henv hrest ih =>
    obtain ⟨hdisk, htrace⟩ := henv
    have hnext : Exec anyAnswer (.call op k) w₁.2 .crashed w₂.2 := .call htrace (.crash _ _)
    have hmove : SharedStore.Moves Γ config faults ⟨w₁.1, before ++ ⟨call, euid, w₁.2⟩ :: after, .closed⟩
        ⟨w₂.1, before ++ ⟨call, euid, w₂.2⟩ :: after, .closed⟩ := by
      have hruns := hp .crashed _ hnext
      rw [htrace] at hruns ⊢
      exact .performs (c := ⟨call, euid, w₁.2⟩) rfl hruns hdisk
    exact .head hmove (ih fun o trace htail => hp o trace (.call htrace htail))

/-- The commits may go on before a load. -/
theorem exec_after {α : Type} {op : StoreOp} {k : Except Exc (storage.Reply op) → StoreAction α} {w w₁ w' : SharedStore}
    {a : α} (hmoves : Relation.ReflTransGen (SharedStore.Moves Γ config faults) w w₁)
    (h : Exec (amid Γ config euid faults) (.call op k) w₁ (.returned a) w') :
    Exec (amid Γ config euid faults) (.call op k) w (.returned a) w' := by
  cases h with
  | call henv hrest =>
    obtain ⟨w₂, hmore, hanswers⟩ := henv
    exact .call ⟨w₂, hmoves.trans hmore, hanswers⟩ hrest

/-- What a load is answered while nothing happens. -/
def answerLoad : Handler storage Exc SharedStore := fun w op =>
  match op with
  | .isSymlink entry =>
    match w.tree.entries entry with
    | some (.link _) => some (.ok true, w)
    | _ => none
  | .realpath entry =>
    match w.tree.entries entry with
    | some (.link target) => some (.ok target, w)
    | _ => none
  | .isDirectory path => some (.ok (w.tree.isDirectory path), w)
  | .openRead path =>
    match w.tree.archive path with
    | some (.file _) => some (.ok (), { w with descriptor := .linked path })
    | _ => none
  | .fstat _ =>
    match w.shown with
    | some (.file f) => some (.ok ⟨true, f.owner, f.mode⟩, w)
    | _ => none
  | .read _ size =>
    match w.shown with
    | some (.file f) => some (.ok (f.content.take size), w)
    | _ => none
  | .close => some (.ok (), { w with descriptor := .closed })
  | _ => none

theorem answerLoad_allowed : answerLoad.Allowed (amid Γ config euid faults) := by
  intro w op r w' h
  refine ⟨w, .refl, ?_⟩
  cases op with
  | isSymlink entry =>
    simp only [answerLoad] at h
    split at h
    · rename_i target hlink
      cases h
      exact ⟨rfl, rfl, fun _ => ⟨target, hlink⟩, fun _ => rfl⟩
    · cases h
  | realpath entry =>
    simp only [answerLoad] at h
    split at h
    · rename_i target hlink
      cases h
      exact ⟨rfl, rfl, hlink⟩
    · cases h
  | isDirectory path =>
    cases h
    exact ⟨rfl, rfl, rfl⟩
  | openRead path =>
    simp only [answerLoad] at h
    split at h
    · rename_i f hfile
      cases h
      exact ⟨⟨_, hfile, nofun⟩, rfl⟩
    · cases h
  | fstat path =>
    simp only [answerLoad] at h
    split at h
    · rename_i f hshown
      cases h
      exact ⟨rfl, Or.inr ⟨f, hshown, rfl⟩⟩
    · cases h
  | read path size =>
    simp only [answerLoad] at h
    split at h
    · rename_i f hshown
      cases h
      exact ⟨rfl, f, hshown, rfl⟩
    · cases h
  | close =>
    cases h
    rfl
  | _ => cases h

/-- The directory of a certificate without a generation. -/
def emptyTree : LineageTree where
  lineage := true
  generations := true
  entries _ := none
  archive _ := none
  parent_directory _ _ h := absurd rfl h

/-- The first commit, cut after the swap of the pointer. -/
def firstCommit : Outcome Exc LineageMaterial × LineageTree × List (Event storage Exc) :=
  (newCall.run Sample.ctx publisherUser).runFor (answerRoot fun _ => none).record 100 (emptyTree, [])

/-- A commit of another generation. -/
def secondCall : CommitCall := ⟨[65], [73], [75], "second"⟩

/-- The second commit in a directory, cut after the swap of the pointer. -/
def secondCommit (t : LineageTree) : Outcome Exc LineageMaterial × LineageTree × List (Event storage Exc) :=
  (secondCall.run Sample.ctx publisherUser).runFor (answerRoot fun _ => none).record 100 (t, [])

/-- The store after the second commit, with no file open. -/
def afterSecond (w : SharedStore) : SharedStore :=
  ⟨(secondCommit w.tree).2.1, w.commits ++ [⟨secondCall, 0, (secondCommit w.tree).2.2⟩], .closed⟩

/-- The second commit comes between the leaf and the chain. -/
def turned (w : SharedStore) (op : StoreOp) : SharedStore :=
  match w.descriptor with
  | .closed =>
    if op = .openRead ["new", "chain.pem"] ∧ ∀ c ∈ w.commits, c.call.generationName ≠ "second" then afterSecond w else w
  | _ => w

/-- What a load is answered amid the second commit. -/
def answerAmid : Handler storage Exc SharedStore := fun w op => answerLoad (turned w op) op

theorem moves_second {w : SharedStore} (hclosed : w.descriptor = .closed)
    (hfresh : ∀ c ∈ w.commits, c.call.generationName ≠ "second") :
    Relation.ReflTransGen (SharedStore.Moves Sample.ctx publisherUser fun _ _ => False) w (afterSecond w) := by
  obtain ⟨t, commits, descriptor⟩ := w
  obtain rfl : descriptor = .closed := hclosed
  refine .head (.begins secondCall 0 hfresh) ?_
  exact moves_of_run commits [] (exec_runFor answerRoot_unfailing.record 100 (secondCall.run Sample.ctx publisherUser) (t, []))
    fun _ _ htrace => htrace

theorem answerAmid_allowed : answerAmid.Allowed (amid Sample.ctx publisherUser euid fun _ _ => False) := by
  intro w op r w' h
  obtain ⟨w₁, hmoves, hanswers⟩ := answerLoad_allowed _ _ _ _ h
  refine ⟨w₁, .trans ?_ hmoves, hanswers⟩
  unfold turned
  split
  · rename_i hclosed
    split
    · rename_i hsecond
      exact moves_second hclosed hsecond.2
    · exact .refl
  · exact .refl

/-- The load that begins after the first commit. -/
def sampleLoad : Outcome Exc LineageMaterial × SharedStore :=
  (load Sample.ctx publisherUser).runFor answerAmid 100 ⟨firstCommit.2.1, [⟨newCall, 0, firstCommit.2.2⟩], .closed⟩

def firstMaterial : LineageMaterial := ⟨Sample.leaf 2, [Sample.issuer], Sample.privateKey, [66], [73], [75]⟩

/-- The load is amid both commits: it ends with the pointer at the second generation, and with the first one's files. -/
theorem sampleLoad_amid : sampleLoad.1 = .returned firstMaterial ∧
    sampleLoad.2.tree.entries "current" = some (.link (.inside ["second"])) := by
  decide +kernel

end OneGenerationAux

open StoreAux

/-- A load that has opened the leaf of the first commit before the second one swaps the pointer returns the files of the
first. -/
theorem load_one_generation_sample :
    sampleLoad.2.tree.entries "current" = some (.link (.inside ["second"])) ∧
      ∃ c ∈ sampleLoad.2.commits, c.Complete ∧ c.call.material Sample.ctx = some firstMaterial ∧
        firstMaterial.leafPem = c.call.leafPem ∧ firstMaterial.chainPem = c.call.chainPem ∧
          firstMaterial.privateKeyPem = c.call.privateKeyPem := by
  have hcut : firstCommit.1 = .crashed := by decide +kernel
  have hcommit : Exec (recording (disk 0 fun _ _ => False)) (newCall.run Sample.ctx publisherUser) (emptyTree, [])
      .crashed firstCommit.2 := exec_of_runFor answerRoot_unfailing.record hcut
  have hbegins : SharedStore.Moves Sample.ctx publisherUser (fun _ _ => False) ⟨emptyTree, [], .closed⟩
      ⟨emptyTree, [⟨newCall, 0, []⟩], .closed⟩ := .begins newCall 0 nofun
  have hmoves := Relation.ReflTransGen.head hbegins
    (moves_of_run [] [] hcommit fun _ _ htrace => htrace)
  obtain ⟨hreturned, hcurrent⟩ := sampleLoad_amid
  have hload : Exec (amid Sample.ctx publisherUser 0 fun _ _ => False) (load Sample.ctx publisherUser)
      ⟨firstCommit.2.1, [⟨newCall, 0, firstCommit.2.2⟩], .closed⟩ (.returned firstMaterial) sampleLoad.2 :=
    exec_of_runFor answerAmid_allowed hreturned
  have huntouched : emptyTree.Untouched := by
    refine ⟨fun entry target h => ?_, fun _ => rfl⟩
    cases h
  exact ⟨hcurrent, load_one_generation Sample.ctx publisherUser 0 (fun _ _ => False) huntouched (exec_after hmoves hload)⟩

end OciAcmePublisher
