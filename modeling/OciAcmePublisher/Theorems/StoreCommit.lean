import Mathlib.Data.List.Induction
import OciAcmePublisher.Lemmas.CertificateStore
import OciAcmePublisher.Simulation

/-!
# Interrupted commits of the certificate store

A commit that is cut or fails before the swap of the `current` pointer leaves what a load returns; one that returns has the new
generation loaded. The handler of `commit` also covers the end of its `try` block, after the swap: an exception there removes the
files of the generation the pointer already names. And the material is loaded for the first time when it is live.
-/

namespace OciAcmePublisher

open Effects NativeCertificateStore

/-- What a commit asks to be stored. -/
structure CommitCall where
  leafPem : Bytes
  chainPem : Bytes
  privateKeyPem : Bytes
  generationName : String

/-- The commit. -/
def CommitCall.run (Γ : Ctx) (config : StoreConfig) (call : CommitCall) : StoreAction LineageMaterial :=
  commit Γ config call.leafPem call.chainPem call.privateKeyPem call.generationName

/-- The complete new material, where the files parse. -/
def CommitCall.material (Γ : Ctx) (call : CommitCall) : Option LineageMaterial :=
  parseMaterial Γ call.leafPem call.chainPem call.privateKeyPem

/-- A load accepts the files as the commit of a process with the effective user `euid` writes them: their owner and their sizes. -/
def CommitCall.Acceptable (config : StoreConfig) (euid : Nat) (call : CommitCall) : Prop :=
  (euid = 0 ∨ euid = config.expectedOwnerUid) ∧ call.leafPem.length ≤ maxCertificatePemBytes ∧
    call.chainPem.length ≤ maxChainPemBytes ∧ call.privateKeyPem.length ≤ maxPrivateKeyPemBytes

instance (config : StoreConfig) (euid : Nat) (call : CommitCall) : Decidable (call.Acceptable config euid) :=
  inferInstanceAs (Decidable (_ ∧ _ ∧ _ ∧ _))

/-- What a load returns of the new generation. -/
def CommitCall.accepted (Γ : Ctx) (config : StoreConfig) (euid : Nat) (call : CommitCall) : Option LineageMaterial :=
  if call.Acceptable config euid then call.material Γ else none

/-- Where a commit stopped: whether the pointer was swapped, and whether a file was removed after that. -/
structure CommitProgress where
  swapped : Bool := false
  removed : Bool := false
  deriving DecidableEq

/-- The monitor of the progress. -/
def committing : Monitor storage Exc CommitProgress where
  start := {}
  step
    | s, ⟨.replaceCurrent _, .ok _⟩ => { s with swapped := true }
    | s, ⟨.unlink _, .ok _⟩ => { s with removed := s.swapped || s.removed }
    | s, _ => s

/-- The commit was atomic: a later load returns what it returned before, or the complete new material, and what it returned before
where the commit raised. -/
def AtomicCommit (Γ : Ctx) (config : StoreConfig) (euid : Nat) (call : CommitCall) (t₀ : LineageTree)
    (o : Outcome Exc LineageMaterial) (t : LineageTree) : Prop :=
  ∃ before after, LoadReturns Γ config euid t₀ before ∧ LoadReturns Γ config euid t after ∧
    (after = before ∨ ∃ material, call.material Γ = some material ∧ after = some material) ∧
      ((∃ x, o = .raised x) → after = before)

/-- Where the commit stopped does no harm: before the swap; or after it with the new generation whole and acceptable, without an
exception unless the same material was there before; or there was nothing before, and there is nothing now. -/
def HarmlessStop (Γ : Ctx) (config : StoreConfig) (euid : Nat) (call : CommitCall) (before : Option LineageMaterial)
    (raised : Prop) (s : CommitProgress) : Prop :=
  s.swapped = false ∨
    (s.removed = false ∧ ∃ new, call.accepted Γ config euid = some new ∧ (raised → before = some new)) ∨
      (before = none ∧ (s.removed = true ∨ call.accepted Γ config euid = none))

namespace StoreAux

variable {Γ : Ctx} {config : StoreConfig} {euid : Nat} {faults : StoreOp → Exc → Prop} {t₀ t t' : LineageTree}
  {name : String} {call : CommitCall} {s : CommitProgress}

/-! ## The stages of a commit -/

/-- What was there is there, and nothing else. -/
structure Unchanged (t₀ t : LineageTree) : Prop where
  current : t.entries "current" = t₀.entries "current"
  generations : t₀.generations = true → t.generations = true
  archive : t.archive = t₀.archive

/-- What was there is there, and the rest is in a generation whose place was free. -/
structure Beside (t₀ : LineageTree) (name : String) (t : LineageTree) : Prop where
  free : t₀.archive [name] = none
  current : t.entries "current" = t₀.entries "current"
  generations : t₀.generations = true → t.generations = true
  archive : ∀ path, path.head? ≠ some name → t.archive path = t₀.archive path

/-- The owner of the new files. -/
def newOwner (config : StoreConfig) (euid : Nat) : Nat := if euid = 0 then config.expectedOwnerUid else euid

/-- The file is at the path, with the mode less the bits the umask cleared. -/
def Written (t : LineageTree) (path : List String) (content : Bytes) (owner mode : Nat) : Prop :=
  ∃ permitted, t.archive path = some (.file ⟨content, owner, mode &&& permitted⟩)

/-- A file of the new generation: its name, content and mode. -/
structure NewFile where
  name : String
  content : Bytes
  mode : Nat

/-- The new generation is being built: its directory is there, and these files. -/
structure Building (config : StoreConfig) (euid : Nat) (t₀ : LineageTree) (name : String) (files : List NewFile)
    (t : LineageTree) : Prop where
  beside : Beside t₀ name t
  directory : t.archive [name] = some .directory
  files : ∀ f ∈ files, Written t [name, f.name] f.content (newOwner config euid) f.mode

/-- The three files of the new generation. -/
def newFiles (call : CommitCall) : List NewFile :=
  [⟨"cert.pem", call.leafPem, 0o640⟩, ⟨"chain.pem", call.chainPem, 0o640⟩, ⟨"privkey.pem", call.privateKeyPem, 0o600⟩]

/-- The pointer names the new generation, which is complete. -/
structure Complete (config : StoreConfig) (euid : Nat) (call : CommitCall) (t : LineageTree) : Prop where
  current : t.entries "current" = some (.link (.inside [call.generationName]))
  directory : t.archive [call.generationName] = some .directory
  files : ∀ f ∈ newFiles call, Written t [call.generationName, f.name] f.content (newOwner config euid) f.mode

/-- The pointer names the new generation, whose leaf is gone. -/
structure Broken (call : CommitCall) (t : LineageTree) : Prop where
  current : t.entries "current" = some (.link (.inside [call.generationName]))
  missing : t.archive [call.generationName, "cert.pem"] = none

/-- Where a commit may stop. -/
inductive Reached (config : StoreConfig) (euid : Nat) (call : CommitCall) (t₀ t : LineageTree) : CommitProgress → Prop where
  | unchanged : Unchanged t₀ t → Reached config euid call t₀ t {}
  | beside : Beside t₀ call.generationName t → Reached config euid call t₀ t {}
  | complete : Complete config euid call t → Reached config euid call t₀ t { swapped := true }
  | broken : Broken call t → Reached config euid call t₀ t { swapped := true, removed := true }

/-! ## What a load returns there -/

/-- What is at a path has something at its first component. -/
theorem archive_head {path : List String} (h : t.archive (name :: path) ≠ none) : t.archive [name] ≠ none := by
  induction path using List.reverseRecOn with
  | nil => exact h
  | append_singleton path last ih =>
    rcases t.parent_directory (name :: path) last h with hnil | hdir
    · cases hnil
    · exact ih (by rw [hdir]; simp)

theorem Beside.archive_eq (h : Beside t₀ name t) {path : List String} (hpath : t₀.archive path ≠ none) :
    t.archive path = t₀.archive path := by
  refine h.archive path fun hhead => ?_
  cases path with
  | nil => cases hhead
  | cons first rest =>
    cases hhead
    exact archive_head hpath h.free

/-- What `_read` accepts, it accepts where the file is still there. -/
theorem readable_mono (harchive : ∀ path, t₀.archive path ≠ none → t.archive path = t₀.archive path)
    {path : List String} {maximumBytes : Nat} {isPrivate : Bool} {content : Bytes}
    (h : t₀.readable config path maximumBytes isPrivate = some content) :
    t.readable config path maximumBytes isPrivate = some content := by
  have hthere : t₀.archive path ≠ none := by
    intro hnone
    unfold LineageTree.readable at h
    rw [hnone] at h
    cases h
  unfold LineageTree.readable at h ⊢
  rw [harchive path hthere]
  exact h

/-- Where nothing of what was there has changed, a load returns what it returned. -/
theorem loaded_eq (hcurrent : t.entries "current" = t₀.entries "current")
    (hgenerations : t₀.generations = true → t.generations = true)
    (harchive : ∀ path, t₀.archive path ≠ none → t.archive path = t₀.archive path)
    (hbefore : (t₀.loaded Γ config).isSome = true ∨ ∀ target, t₀.entries "current" ≠ some (.link target)) :
    t.loaded Γ config = t₀.loaded Γ config := by
  rcases hbefore with hsome | hnone
  · obtain ⟨material, hmaterial⟩ := Option.isSome_iff_exists.1 hsome
    rw [hmaterial]
    unfold LineageTree.loaded at hmaterial ⊢
    rw [hcurrent]
    split at hmaterial
    · rename_i path hpath
      split at hmaterial
      · rename_i hdir
        have hdir' : t.isDirectory path = true := by
          unfold LineageTree.isDirectory at hdir ⊢
          split at hdir
          · exact hgenerations hdir
          · have hthere : t₀.archive path = some .directory := by simpa using hdir
            rw [harchive path (by rw [hthere]; simp), hthere]
            rfl
        rw [if_pos hdir']
        unfold LineageTree.generation at hmaterial ⊢
        split at hmaterial
        · rename_i leafPem chainPem privateKeyPem hleaf hchain hkey
          rw [readable_mono harchive hleaf, readable_mono harchive hchain, readable_mono harchive hkey]
          exact hmaterial
        · cases hmaterial
      · cases hmaterial
    · cases hmaterial
  · unfold LineageTree.loaded
    rw [hcurrent]
    split
    · rename_i path hpath
      exact absurd hpath (hnone _)
    · rfl

theorem land_eq_zero {mode permitted mask : Nat} (h : mode &&& mask = 0) : (mode &&& permitted) &&& mask = 0 := by
  rw [Nat.and_assoc, Nat.and_comm permitted, ← Nat.and_assoc, h, Nat.zero_and]

/-- What `_read` makes of a new file. -/
theorem readable_written {path : List String} {content : Bytes} {owner mode : Nat} (config : StoreConfig)
    (maximumBytes : Nat) (isPrivate : Bool) (h : Written t path content owner mode) (hwrite : mode &&& groupOtherWrite = 0)
    (hread : isPrivate = true → mode &&& groupOtherRead = 0) :
    t.readable config path maximumBytes isPrivate =
      if owner = config.expectedOwnerUid ∧ content.length ≤ maximumBytes then some content else none := by
  obtain ⟨permitted, hfile⟩ := h
  unfold LineageTree.readable
  rw [hfile]
  simp only [land_eq_zero hwrite, true_and]
  have hpriv : isPrivate = true → (mode &&& permitted) &&& groupOtherRead = 0 := fun h => land_eq_zero (hread h)
  by_cases howner : owner = config.expectedOwnerUid ∧ content.length ≤ maximumBytes
  · rw [if_pos howner, if_pos ⟨howner.1, hpriv, howner.2⟩]
  · rw [if_neg howner, if_neg fun hc => howner ⟨hc.1, hc.2.2⟩]

theorem newOwner_eq_iff : newOwner config euid = config.expectedOwnerUid ↔ euid = 0 ∨ euid = config.expectedOwnerUid := by
  unfold newOwner
  by_cases h : euid = 0
  · simp [h]
  · simp [h]

/-- A complete new generation is loaded where it is acceptable. -/
theorem Complete.loaded (h : Complete config euid call t) : t.loaded Γ config = call.accepted Γ config euid := by
  have hpublic : 0o640 &&& groupOtherWrite = 0 := by decide
  have hwrite : 0o600 &&& groupOtherWrite = 0 := by decide
  have hread : 0o600 &&& groupOtherRead = 0 := by decide
  have hleaf := readable_written config maxCertificatePemBytes false
    (h.files ⟨"cert.pem", call.leafPem, 0o640⟩ (by simp [newFiles])) hpublic nofun
  have hchain := readable_written config maxChainPemBytes false
    (h.files ⟨"chain.pem", call.chainPem, 0o640⟩ (by simp [newFiles])) hpublic nofun
  have hkey := readable_written config maxPrivateKeyPemBytes true
    (h.files ⟨"privkey.pem", call.privateKeyPem, 0o600⟩ (by simp [newFiles])) hwrite fun _ => hread
  unfold LineageTree.loaded
  rw [h.current]
  have hdir : t.isDirectory [call.generationName] = true := by
    unfold LineageTree.isDirectory
    simp [h.directory]
  simp only [hdir, if_true]
  unfold LineageTree.generation
  simp only [List.cons_append, List.nil_append, hleaf, hchain, hkey, newOwner_eq_iff]
  unfold CommitCall.accepted CommitCall.Acceptable CommitCall.material
  by_cases howner : euid = 0 ∨ euid = config.expectedOwnerUid
  · by_cases h₁ : call.leafPem.length ≤ maxCertificatePemBytes
    · by_cases h₂ : call.chainPem.length ≤ maxChainPemBytes
      · by_cases h₃ : call.privateKeyPem.length ≤ maxPrivateKeyPemBytes
        · simp [howner, h₁, h₂, h₃]
        · simp [howner, h₁, h₂, h₃]
      · simp [howner, h₁, h₂]
    · simp [howner, h₁]
  · simp [howner]

theorem Broken.loaded (h : Broken call t) : t.loaded Γ config = none := by
  have hnone : t.generation Γ config [call.generationName] = none := by
    unfold LineageTree.generation
    have hleaf : t.readable config ([call.generationName] ++ ["cert.pem"]) maxCertificatePemBytes false = none := by
      unfold LineageTree.readable
      have hmissing : t.archive ([call.generationName] ++ ["cert.pem"]) = none := h.missing
      rw [hmissing]
    rw [hleaf]
  unfold LineageTree.loaded
  rw [h.current]
  simp only [hnone, ite_self]

/-! ## One operation -/

/-- A condition on the tree and the progress. -/
abbrev Now (P : LineageTree → CommitProgress → Prop) (w : LineageTree × List (Event storage Exc)) : Prop :=
  P w.1 (committing.after w.2)

/-- What fails does not count. -/
theorem step_error (s : CommitProgress) (op : StoreOp) (x : Exc) : committing.step s ⟨op, .error x⟩ = s := by
  cases op <;> rfl

/-- An operation of a commit: it takes effect, or nothing has changed. -/
theorem store_spec {op : StoreOp} {P R : LineageTree → CommitProgress → Prop}
    {Q : storage.Reply op → LineageTree → CommitProgress → Prop} (hP : ∀ t s, P t s → R t s)
    (hQ : ∀ t s reply t', P t s → t.Step euid op reply t' →
      Q reply t' (committing.step s ⟨op, .ok reply⟩) ∧ R t' (committing.step s ⟨op, .ok reply⟩)) :
    Triple (recording (disk euid faults)) (Now P) (store op) (fun reply => Now (Q reply)) (fun _ => Now R) (Now R) := by
  refine Triple.perform (fun _ hw => hP _ _ hw) ?_ ?_
  · rintro ⟨t, trace⟩ reply ⟨t', trace'⟩ hw ⟨hs, ht⟩
    simp only at ht hs
    subst ht
    unfold Now
    rw [Monitor.after_snoc]
    exact hQ _ _ _ _ hw hs
  · rintro ⟨t, trace⟩ x ⟨t', trace'⟩ hw ⟨⟨hkeep, -⟩, ht⟩
    simp only at ht hkeep
    subst ht hkeep
    unfold Now
    rw [Monitor.after_snoc, step_error]
    exact ⟨hP _ _ hw, hP _ _ hw⟩

/-- The operation has no part in the progress and changes nothing that counts. -/
def StoreOp.aside : StoreOp → Bool
  | .geteuid | .chmodDirectory _ | .chownDirectory .. | .chownGeneration .. | .fsync _ | .tokenHex _ | .close
  | .chownCurrent _ | .pathExists _ => true
  | _ => false

theorem step_aside {op : StoreOp} (hop : StoreOp.aside op = true) {reply : storage.Reply op}
    (h : t.Step euid op reply t') : t' = t ∧ committing.step s ⟨op, .ok reply⟩ = s := by
  cases op <;> first | exact ⟨h.1, rfl⟩ | exact ⟨h, rfl⟩ | cases hop

theorem store_aside {op : StoreOp} (hop : StoreOp.aside op = true) {P R : LineageTree → CommitProgress → Prop}
    (hP : ∀ t s, P t s → R t s) :
    Triple (recording (disk euid faults)) (Now P) (store op) (fun _ => Now P) (fun _ => Now R) (Now R) := by
  refine store_spec hP fun t s reply t' hw hs => ?_
  obtain ⟨rfl, hstep⟩ := step_aside (s := s) hop hs
  rw [hstep]
  exact ⟨hw, hP _ _ hw⟩

/-- The effective user is asked, and answers. -/
theorem geteuid_spec {P R : LineageTree → CommitProgress → Prop} (hP : ∀ t s, P t s → R t s) :
    Triple (recording (disk euid faults)) (Now P) (store .geteuid) (fun uid w => Now P w ∧ uid = euid) (fun _ => Now R)
      (Now R) := by
  refine (store_spec (Q := fun uid t s => P t s ∧ uid = euid) hP fun t s uid t' hw hs => ?_).conseq (fun _ hw => hw)
    (fun _ _ hw => hw) (fun _ _ hw => hw) fun _ hw => hw
  obtain ⟨rfl, huid⟩ := hs
  exact ⟨⟨hw, huid⟩, hP _ _ hw⟩

/-- What only root does, and nobody else needs. -/
theorem ifRoot_spec {action : StoreAction Unit} {P R : LineageTree → CommitProgress → Prop}
    {Q : Unit → LineageTree → CommitProgress → Prop} (hP : ∀ t s, P t s → R t s)
    (hroot : euid = 0 → Triple (recording (disk euid faults)) (Now P) action (fun u => Now (Q u)) (fun _ => Now R) (Now R))
    (hother : euid ≠ 0 → ∀ t s, P t s → Q () t s) :
    Triple (recording (disk euid faults)) (Now P) (ifRoot action) (fun u => Now (Q u)) (fun _ => Now R) (Now R) := by
  refine Triple.bind (geteuid_spec hP) fun uid => Triple.assume fun huid => ?_
  subst huid
  split
  · rename_i h
    exact hroot h
  · rename_i h
    exact Triple.ret (fun _ hw => hother h _ _ hw) fun _ hw => hP _ _ hw

/-! ## The new generation -/

/-- The stage before the swap. -/
def Unswapped (P : LineageTree → Prop) (t : LineageTree) (s : CommitProgress) : Prop := s = {} ∧ P t

/-- Where the `try` block may stop. -/
inductive InTry (config : StoreConfig) (euid : Nat) (call : CommitCall) (t₀ t : LineageTree) : CommitProgress → Prop where
  | beside : Beside t₀ call.generationName t → InTry config euid call t₀ t {}
  | complete : Complete config euid call t → InTry config euid call t₀ t { swapped := true }

theorem InTry.reached (h : InTry config euid call t₀ t s) : Reached config euid call t₀ t s := by
  cases h with
  | beside h => exact .beside h
  | complete h => exact .complete h

theorem Building.inTry {files : List NewFile} (h : Building config euid t₀ call.generationName files t) :
    InTry config euid call t₀ t {} :=
  .beside h.beside

/-- A change in the new generation leaves the rest. -/
theorem Beside.change (h : Beside t₀ name t) {rest : List String} {node : Option Node}
    (hchange : t.ChangesAt t' (name :: rest) node) : Beside t₀ name t' := by
  obtain ⟨-, hgenerations, hentries, harchive⟩ := hchange
  refine ⟨h.free, by rw [hentries]; exact h.current, fun hg => by rw [hgenerations]; exact h.generations hg, ?_⟩
  intro path hpath
  rw [harchive, Function.update_of_ne]
  · exact h.archive path hpath
  · rintro rfl
    exact hpath rfl

/-- A file of the new generation that is being written. -/
def Writing (config : StoreConfig) (euid : Nat) (t₀ : LineageTree) (name : String) (files : List NewFile)
    (f : NewFile) (owner : Nat) (content : Bytes) (t : LineageTree) : Prop :=
  Building config euid t₀ name files t ∧ Written t [name, f.name] content owner f.mode

variable {files : List NewFile} {f : NewFile}

/-- A change of a file leaves the directory and the other files of the new generation. -/
theorem Building.change (h : Building config euid t₀ name files t) (hf : f.name ∉ files.map (·.name))
    {content : Bytes} {owner mode : Nat}
    (hchange : t.ChangesAt t' [name, f.name] (some (.file ⟨content, owner, mode⟩))) :
    Building config euid t₀ name files t' := by
  have harchive := hchange.2.2.2
  refine ⟨h.beside.change hchange, ?_, ?_⟩
  · rw [harchive, Function.update_of_ne (by simp)]
    exact h.directory
  · intro g hg
    obtain ⟨permitted, hgfile⟩ := h.files g hg
    refine ⟨permitted, ?_⟩
    rw [harchive, Function.update_of_ne]
    · exact hgfile
    · intro heq
      have hname : g.name = f.name := by simpa using heq
      exact hf (by rw [← hname]; exact List.mem_map_of_mem hg)

theorem createFile_spec (hf : f.name ∉ files.map (·.name)) :
    Triple (recording (disk euid faults)) (Now (Unswapped (Building config euid t₀ call.generationName files)))
      (store (.createFile [call.generationName, f.name] f.mode))
      (fun _ => Now (Unswapped (Writing config euid t₀ call.generationName files f euid [])))
      (fun _ => Now (InTry config euid call t₀)) (Now (InTry config euid call t₀)) := by
  refine store_spec ?_ ?_
  · rintro t s ⟨rfl, hb⟩
    exact hb.inTry
  · rintro t s _ t' ⟨rfl, hb⟩ ⟨parent, last, -, -, -, permitted, hchange⟩
    have hb' := hb.change hf hchange
    refine ⟨⟨rfl, hb', permitted, ?_⟩, hb'.inTry⟩
    rw [hchange.2.2.2, Function.update_self]

/-- A change of the file that is being written. -/
theorem Writing.change {owner owner' : Nat} {content content' : Bytes} (hf : f.name ∉ files.map (·.name))
    (h : Writing config euid t₀ name files f owner content t)
    (hchange : ∀ g, t.archive [name, f.name] = some (.file g) →
      t.ChangesAt t' [name, f.name] (some (.file ⟨content', owner', g.mode⟩))) :
    Writing config euid t₀ name files f owner' content' t' := by
  obtain ⟨hb, permitted, hfile⟩ := h
  have hch := hchange _ hfile
  exact ⟨hb.change hf hch, permitted, by rw [hch.2.2.2, Function.update_self]⟩

theorem fchown_spec (hf : f.name ∉ files.map (·.name)) (uid : Nat) {owner : Nat} {content : Bytes} :
    Triple (recording (disk euid faults))
      (Now (Unswapped (Writing config euid t₀ call.generationName files f owner content)))
      (store (.fchown [call.generationName, f.name] uid))
      (fun _ => Now (Unswapped (Writing config euid t₀ call.generationName files f uid content)))
      (fun _ => Now (InTry config euid call t₀)) (Now (InTry config euid call t₀)) := by
  refine store_spec ?_ ?_
  · rintro t s ⟨rfl, hw⟩
    exact hw.1.inTry
  · rintro t s _ t' ⟨rfl, hw⟩ ⟨g, hg, hchange⟩
    have hw' : Writing config euid t₀ call.generationName files f uid content t' := by
      refine hw.change hf fun g' hg' => ?_
      obtain ⟨-, permitted, hfile⟩ := hw
      rw [hg] at hg' hfile
      cases hg'
      cases hfile
      exact hchange
    exact ⟨⟨rfl, hw'⟩, hw'.1.inTry⟩

/-- One write appends a part of the content. -/
theorem write_spec (hf : f.name ∉ files.map (·.name)) {owner : Nat} {content rest : Bytes} :
    Triple (recording (disk euid faults))
      (Now (Unswapped (Writing config euid t₀ call.generationName files f owner content)))
      (store (.write [call.generationName, f.name] rest))
      (fun n w => Now (Unswapped (Writing config euid t₀ call.generationName files f owner (content ++ rest.take n))) w ∧
        0 < n)
      (fun _ => Now (InTry config euid call t₀)) (Now (InTry config euid call t₀)) := by
  refine (store_spec (Q := fun n t s => Unswapped (Writing config euid t₀ call.generationName files f owner
    (content ++ rest.take n)) t s ∧ 0 < n) ?_ ?_).conseq (fun _ hw => hw) (fun _ _ hw => hw) (fun _ _ hw => hw)
    fun _ hw => hw
  · rintro t s ⟨rfl, hw⟩
    exact hw.1.inTry
  · rintro t s n t' ⟨rfl, hw⟩ ⟨g, hg, hpos, -, hchange⟩
    have hw' : Writing config euid t₀ call.generationName files f owner (content ++ rest.take n) t' := by
      refine hw.change hf fun g' hg' => ?_
      obtain ⟨-, permitted, hfile⟩ := hw
      rw [hg] at hg' hfile
      cases hg'
      cases hfile
      exact hchange
    exact ⟨⟨⟨rfl, hw'⟩, hpos⟩, hw'.1.inTry⟩

/-- The loop of writes, over the content that is left. -/
theorem writeAll_spec (hf : f.name ∉ files.map (·.name)) {owner : Nat} (rounds : Nat) {content rest : Bytes} :
    Triple (recording (disk euid faults))
      (Now (Unswapped (Writing config euid t₀ call.generationName files f owner content)))
      (writeAll [call.generationName, f.name] rounds rest)
      (fun _ => Now (Unswapped (Writing config euid t₀ call.generationName files f owner (content ++ rest))))
      (fun _ => Now (InTry config euid call t₀)) (Now (InTry config euid call t₀)) := by
  have hstop : ∀ content t s, Unswapped (Writing config euid t₀ call.generationName files f owner content) t s →
      InTry config euid call t₀ t s := by
    rintro content t s ⟨rfl, hw⟩
    exact hw.1.inTry
  induction rounds generalizing content rest with
  | zero =>
    cases rest with
    | nil =>
      rw [List.append_nil]
      exact Triple.ret (fun _ hw => hw) fun _ hw => hstop _ _ _ hw
    | cons b rest =>
      intro w hw o w' hx
      obtain ⟨rfl, rfl⟩ := exec_diverge_iff.1 hx
      exact hstop _ _ _ hw
  | succ rounds ih =>
    cases rest with
    | nil =>
      rw [List.append_nil]
      exact Triple.ret (fun _ hw => hw) fun _ hw => hstop _ _ _ hw
    | cons b rest =>
      refine Triple.bind (write_spec hf) fun n => Triple.assume fun _ => ?_
      have hsplit : content ++ (b :: rest) = content ++ (b :: rest).take n ++ (b :: rest).drop n := by
        rw [List.append_assoc, List.take_append_drop]
      rw [hsplit]
      exact ih

/-- A file of the new generation is written. -/
theorem writeNew_spec (hf : f.name ∉ files.map (·.name)) :
    Triple (recording (disk euid faults)) (Now (Unswapped (Building config euid t₀ call.generationName files)))
      (writeNew config [call.generationName, f.name] f.content f.mode)
      (fun _ => Now (Unswapped (Building config euid t₀ call.generationName (files ++ [f]))))
      (fun _ => Now (InTry config euid call t₀)) (Now (InTry config euid call t₀)) := by
  have hstop : ∀ owner content t s,
      Unswapped (Writing config euid t₀ call.generationName files f owner content) t s → InTry config euid call t₀ t s := by
    rintro owner content t s ⟨rfl, hw⟩
    exact hw.1.inTry
  have hstop' : ∀ t s, Unswapped (Building config euid t₀ call.generationName (files ++ [f])) t s →
      InTry config euid call t₀ t s := by
    rintro t s ⟨rfl, hb⟩
    exact hb.inTry
  refine Triple.bind (createFile_spec hf) fun _ => ?_
  refine Triple.ensure (Q := fun _ => Now (Unswapped (Building config euid t₀ call.generationName (files ++ [f]))))
    (E := fun _ => Now (InTry config euid call t₀)) ?_ (fun _ => store_aside (by rfl) hstop')
    (fun _ => store_aside (by rfl) fun _ _ h => h) (fun _ _ h => hstop' _ _ h) fun _ _ h => h
  refine Triple.bind (R := fun _ => Now (Unswapped (Writing config euid t₀ call.generationName files f
    (newOwner config euid) []))) ?_ fun _ => ?_
  · refine ifRoot_spec (Q := fun _ => Unswapped (Writing config euid t₀ call.generationName files f
      (newOwner config euid) [])) (hstop euid []) ?_ ?_
    · intro hroot
      have howner : newOwner config euid = config.expectedOwnerUid := if_pos hroot
      rw [howner]
      exact fchown_spec hf _
    · intro hother t s hw
      have howner : newOwner config euid = euid := if_neg hother
      rw [howner]
      exact hw
  · refine Triple.bind (writeAll_spec hf _) fun _ => ?_
    rw [List.nil_append]
    refine (store_aside (by rfl) (hstop _ _)).post ?_
    rintro _ w ⟨hs, hb, hwritten⟩
    refine ⟨hs, hb.beside, hb.directory, ?_⟩
    intro g hg
    rcases List.mem_append.1 hg with hg | hg
    · exact hb.files g hg
    · rw [List.mem_singleton.1 hg]
      exact hwritten

/-! ## The swap -/

/-- The new generation is built, and a temporary link names it. -/
def Linked (config : StoreConfig) (euid : Nat) (t₀ : LineageTree) (call : CommitCall) (temporary : String)
    (t : LineageTree) : Prop :=
  Building config euid t₀ call.generationName (newFiles call) t ∧
    t.entries temporary = some (.link (.inside [call.generationName]))

theorem symlink_spec {temporary : String} (hne : temporary ≠ "current") :
    Triple (recording (disk euid faults))
      (Now (Unswapped (Building config euid t₀ call.generationName (newFiles call))))
      (store (.symlink temporary (.inside [call.generationName])))
      (fun _ => Now (Unswapped (Linked config euid t₀ call temporary))) (fun _ => Now (InTry config euid call t₀))
      (Now (InTry config euid call t₀)) := by
  refine store_spec ?_ ?_
  · rintro t s ⟨rfl, hb⟩
    exact hb.inTry
  · rintro t s _ t' ⟨rfl, hb⟩ ⟨-, -, rfl⟩
    have hb' : Building config euid t₀ call.generationName (newFiles call)
        (t.withEntry temporary (some (.link (.inside [call.generationName])))) := by
      refine ⟨⟨hb.beside.free, ?_, hb.beside.generations, hb.beside.archive⟩, hb.directory, hb.files⟩
      rw [← hb.beside.current]
      exact Function.update_of_ne hne.symm _ _
    exact ⟨⟨rfl, hb', Function.update_self _ _ _⟩, hb'.inTry⟩

theorem replaceCurrent_spec (temporary : String) :
    Triple (recording (disk euid faults)) (Now (Unswapped (Linked config euid t₀ call temporary)))
      (store (.replaceCurrent temporary))
      (fun _ => Now fun t s => s = { swapped := true } ∧ Complete config euid call t)
      (fun _ => Now (InTry config euid call t₀)) (Now (InTry config euid call t₀)) := by
  refine store_spec ?_ ?_
  · rintro t s ⟨rfl, hb, -⟩
    exact hb.inTry
  · rintro t s _ t' ⟨rfl, hb, hlink⟩ ⟨hne, -, target, htarget, rfl⟩
    rw [hlink] at htarget
    cases htarget
    have hc : Complete config euid call
        ((t.withEntry "current" (some (.link (.inside [call.generationName])))).withEntry temporary none) := by
      refine ⟨?_, hb.directory, hb.files⟩
      simp only [LineageTree.withEntry]
      rw [Function.update_of_ne hne.symm, Function.update_self]
    exact ⟨⟨rfl, hc⟩, .complete hc⟩

theorem install_spec :
    Triple (recording (disk euid faults)) (Now (Unswapped (Building config euid t₀ call.generationName [])))
      (install config call.leafPem call.chainPem call.privateKeyPem call.generationName)
      (fun _ => Now fun t s => s = { swapped := true } ∧ Complete config euid call t)
      (fun _ => Now (InTry config euid call t₀)) (Now (InTry config euid call t₀)) := by
  have hstop : ∀ t s, Unswapped (Building config euid t₀ call.generationName (newFiles call)) t s →
      InTry config euid call t₀ t s := by
    rintro t s ⟨rfl, hb⟩
    exact hb.inTry
  have hfresh : ("cert.pem" : String) ∉ ([] : List NewFile).map (·.name) := List.not_mem_nil
  refine Triple.bind (writeNew_spec (f := ⟨"cert.pem", call.leafPem, 0o640⟩) hfresh) fun _ => ?_
  refine Triple.bind (writeNew_spec (f := ⟨"chain.pem", call.chainPem, 0o640⟩) (by simp)) fun _ => ?_
  refine Triple.bind (writeNew_spec (f := ⟨"privkey.pem", call.privateKeyPem, 0o600⟩) (by simp)) fun _ => ?_
  refine Triple.bind (store_aside (by rfl) hstop) fun token => ?_
  have hne : ".current-" ++ token ≠ "current" := by
    intro h
    have hlist := congrArg String.toList h
    simp at hlist
  refine Triple.bind (symlink_spec hne) fun _ => ?_
  refine Triple.bind (replaceCurrent_spec _) fun _ => ?_
  have hcomplete : ∀ t s, (s = { swapped := true } ∧ Complete config euid call t) → InTry config euid call t₀ t s := by
    rintro t s ⟨rfl, hc⟩
    exact .complete hc
  exact ifRoot_spec (Q := fun _ t s => s = { swapped := true } ∧ Complete config euid call t) hcomplete
    (fun _ => store_aside (by rfl) hcomplete) fun _ _ _ h => h

/-! ## The handler -/

/-- Where the handler may stop once it has removed the leaf. -/
inductive Cleaning (call : CommitCall) (t₀ t : LineageTree) : CommitProgress → Prop where
  | beside : Beside t₀ call.generationName t → Cleaning call t₀ t {}
  | broken : Broken call t → Cleaning call t₀ t { swapped := true, removed := true }

theorem Cleaning.reached (h : Cleaning call t₀ t s) : Reached config euid call t₀ t s := by
  cases h with
  | beside h => exact .beside h
  | broken h => exact .broken h

theorem unlinkLeaf_spec :
    Triple (recording (disk euid faults)) (Now (InTry config euid call t₀))
      (store (.unlink [call.generationName, "cert.pem"])) (fun _ => Now (Cleaning call t₀))
      (fun _ => Now (Reached config euid call t₀)) (Now (Reached config euid call t₀)) := by
  refine store_spec (Q := fun _ => Cleaning call t₀) (fun _ _ h => h.reached) ?_
  rintro t s _ t' hw ⟨-, hchange⟩
  cases hw with
  | beside h =>
    have hc : Cleaning call t₀ t' {} := .beside (h.change hchange)
    exact ⟨hc, hc.reached⟩
  | complete h =>
    have hc : Cleaning call t₀ t' { swapped := true, removed := true } := by
      refine .broken ⟨?_, ?_⟩
      · rw [hchange.2.2.1]
        exact h.current
      · rw [hchange.2.2.2, Function.update_self]
    exact ⟨hc, hc.reached⟩

/-- The handler goes on: what it removes next changes nothing. -/
theorem cleaning_spec {op : StoreOp} {rest : List String}
    (hop : ∀ (t : LineageTree) reply t', t.Step euid op reply t' →
      t.ChangesAt t' (call.generationName :: rest) none)
    (hflags : ∀ reply, committing.step {} ⟨op, .ok reply⟩ = {} ∧
      committing.step { swapped := true, removed := true } ⟨op, .ok reply⟩ = { swapped := true, removed := true }) :
    Triple (recording (disk euid faults)) (Now (Cleaning call t₀)) (store op) (fun _ => Now (Cleaning call t₀))
      (fun _ => Now (Cleaning call t₀)) (Now (Cleaning call t₀)) := by
  refine store_spec (fun _ _ h => h) ?_
  intro t s reply t' hw hs
  have hchange := hop t reply t' hs
  cases hw with
  | beside h =>
    rw [(hflags reply).1]
    exact ⟨.beside (h.change hchange), .beside (h.change hchange)⟩
  | broken h =>
    rw [(hflags reply).2]
    have hb : Broken call t' := by
      refine ⟨by rw [hchange.2.2.1]; exact h.current, ?_⟩
      rw [hchange.2.2.2, Function.update_apply, h.missing, ite_self]
    exact ⟨.broken hb, .broken hb⟩

theorem cleanup_spec :
    Triple (recording (disk euid faults)) (Now (InTry config euid call t₀)) (cleanup call.generationName)
      (fun _ => Now (Reached config euid call t₀)) (fun _ => Now (Reached config euid call t₀))
      (Now (Reached config euid call t₀)) := by
  have hreached : ∀ {α : Type} {p : StoreAction α} {Q : α → LineageTree × List (Event storage Exc) → Prop},
      Triple (recording (disk euid faults)) (Now (Cleaning call t₀)) p Q (fun _ => Now (Cleaning call t₀))
        (Now (Cleaning call t₀)) →
      Triple (recording (disk euid faults)) (Now (Cleaning call t₀)) p Q (fun _ => Now (Reached config euid call t₀))
        (Now (Reached config euid call t₀)) := fun h =>
    h.conseq (fun _ hw => hw) (fun _ _ hw => hw) (fun _ _ hw => hw.reached) fun _ hw => hw.reached
  refine Triple.bind unlinkLeaf_spec fun _ => ?_
  refine Triple.bind (hreached (cleaning_spec (fun _ _ _ hs => hs.2) fun _ => ⟨rfl, rfl⟩)) fun _ => ?_
  refine Triple.bind (hreached (cleaning_spec (fun _ _ _ hs => hs.2) fun _ => ⟨rfl, rfl⟩)) fun _ => ?_
  have hremove : Triple (recording (disk euid faults)) (Now (Cleaning call t₀))
      (store (.removeGeneration call.generationName)) (fun _ => Now (Cleaning call t₀)) (fun _ => Now (Cleaning call t₀))
        (Now (Cleaning call t₀)) := cleaning_spec (fun _ _ _ hs => hs.2.2) fun _ => ⟨rfl, rfl⟩
  refine Triple.bind (Triple.attempt (hreached hremove) (fun _ _ hw => hw.reached) fun _ _ hw => hw) ?_
  rintro (error | _)
  · simp only
    split
    · exact Triple.ret (fun _ hw => hw) fun _ hw => hw
    · exact Triple.raise (fun _ hw => hw) fun _ hw => hw
  · exact Triple.ret (fun _ hw => hw.reached) fun _ hw => hw.reached

/-! ## The whole commit -/

/-- A load changes nothing and has no part in the progress. -/
theorem load_keeps {P : LineageTree → CommitProgress → Prop} :
    Triple (recording (disk euid faults)) (Now P) (load Γ config) (fun _ => Now P) (fun _ => Now P) (Now P) := by
  refine Triple.frame load_uses ?_
  rintro ⟨t, trace⟩ op r ⟨t', trace'⟩ hop hw ⟨hs, ht⟩
  simp only at hs ht
  subst ht
  unfold Now
  rw [Monitor.after_snoc]
  cases r with
  | ok reply =>
    obtain rfl := step_reads hop hs
    have hstep : committing.step (committing.after trace) ⟨op, .ok reply⟩ = committing.after trace := by
      cases op <;> first | rfl | cases hop
    rw [hstep]
    exact hw
  | error x =>
    obtain ⟨rfl, -⟩ := hs
    rw [step_error]
    exact hw

theorem unchanged_refl : Unchanged t t := ⟨rfl, id, rfl⟩

/-- The directories a commit makes sure of change nothing that was there. -/
theorem ensureDirectory_spec (directory : StoreDirectory) :
    Triple (recording (disk euid faults)) (Now (Unswapped (Unchanged t₀))) (ensureDirectory config directory)
      (fun _ => Now (Unswapped (Unchanged t₀))) (fun _ => Now (Reached config euid call t₀))
      (Now (Reached config euid call t₀)) := by
  have hstop : ∀ t s, Unswapped (Unchanged t₀) t s → Reached config euid call t₀ t s := by
    rintro t s ⟨rfl, hu⟩
    exact .unchanged hu
  have hmake : ∀ (t t' : LineageTree) reply, Unchanged t₀ t → t.Step euid (.makeDirectory directory) reply t' →
      Unchanged t₀ t' := by
    intro t t' reply hu hs
    cases directory with
    | lineage =>
      obtain ⟨-, hg, he, ha⟩ := hs
      exact ⟨by rw [he]; exact hu.current, fun h => by rw [hg]; exact hu.generations h, ha.trans hu.archive⟩
    | generations =>
      obtain ⟨-, -, hg, he, ha⟩ := hs
      exact ⟨by rw [he]; exact hu.current, fun _ => hg, ha.trans hu.archive⟩
  refine Triple.bind (R := fun _ => Now (Unswapped (Unchanged t₀))) (store_spec hstop ?_) fun _ => ?_
  · rintro t s reply t' ⟨rfl, hu⟩ hs
    have hu' := hmake t t' reply hu hs
    exact ⟨⟨rfl, hu'⟩, .unchanged hu'⟩
  refine Triple.bind (store_aside (by rfl) hstop) fun _ => ?_
  exact ifRoot_spec (Q := fun _ => Unswapped (Unchanged t₀)) hstop (fun _ => store_aside (by rfl) hstop)
    fun _ _ _ h => h

theorem makeGeneration_spec :
    Triple (recording (disk euid faults)) (Now (Unswapped (Unchanged t₀))) (store (.makeGeneration call.generationName))
      (fun _ => Now (Unswapped (Building config euid t₀ call.generationName [])))
      (fun _ => Now (Reached config euid call t₀)) (Now (Reached config euid call t₀)) := by
  refine store_spec ?_ ?_
  · rintro t s ⟨rfl, hu⟩
    exact .unchanged hu
  · rintro t s _ t' ⟨rfl, hu⟩ ⟨-, hfree, hchange⟩
    have hb : Beside t₀ call.generationName t := by
      refine ⟨?_, hu.current, hu.generations, fun path _ => by rw [hu.archive]⟩
      rw [← hu.archive]
      exact hfree
    have hb' : Building config euid t₀ call.generationName [] t' := by
      refine ⟨hb.change hchange, ?_, by simp⟩
      rw [hchange.2.2.2, Function.update_self]
    exact ⟨⟨rfl, hb'⟩, .beside hb'.beside⟩

/-- Wherever a commit stops, and however, it has reached one of the stages. -/
theorem commit_spec :
    Triple (recording (disk euid faults)) (Now (Unswapped (Unchanged t₀))) (call.run Γ config)
      (fun _ => Now (Reached config euid call t₀)) (fun _ => Now (Reached config euid call t₀))
      (Now (Reached config euid call t₀)) := by
  have hstop : ∀ t s, Unswapped (Unchanged t₀) t s → Reached config euid call t₀ t s := by
    rintro t s ⟨rfl, hu⟩
    exact .unchanged hu
  have hbuilding : ∀ t s, Unswapped (Building config euid t₀ call.generationName []) t s →
      Reached config euid call t₀ t s := by
    rintro t s ⟨rfl, hb⟩
    exact .beside hb.beside
  refine Triple.bind (ensureDirectory_spec .lineage) fun _ => ?_
  refine Triple.bind (ensureDirectory_spec .generations) fun _ => ?_
  refine Triple.bind (store_aside (by rfl) hstop) fun found => ?_
  split
  · exact Triple.raise (fun _ hw => hstop _ _ hw) fun _ hw => hstop _ _ hw
  refine Triple.bind makeGeneration_spec fun _ => ?_
  refine Triple.bind (R := fun _ => Now (Unswapped (Building config euid t₀ call.generationName []))) ?_ fun _ => ?_
  · exact ifRoot_spec (Q := fun _ => Unswapped (Building config euid t₀ call.generationName [])) hbuilding
      (fun _ => store_aside (by rfl) hbuilding) fun _ _ _ h => h
  refine Triple.bind (R := fun _ => Now (Reached config euid call t₀)) ?_ fun _ => load_keeps
  refine Triple.handle (install_spec.conseq (fun _ hw => hw) ?_ (fun _ _ hw => hw) fun _ hw => InTry.reached hw)
    fun x => ?_
  · rintro _ w ⟨hs, hc⟩
    unfold Now
    rw [hs]
    exact .complete hc
  · exact Triple.bind cleanup_spec fun _ => Triple.raise (fun _ hw => hw) fun _ hw => hw

/-- What a load returns where a commit stopped. -/
theorem Reached.loaded (h : Reached config euid call t₀ t s)
    (hbefore : (t₀.loaded Γ config).isSome = true ∨ ∀ target, t₀.entries "current" ≠ some (.link target)) :
    (s.swapped = false → t.loaded Γ config = t₀.loaded Γ config) ∧
      (s.swapped = true → s.removed = false → t.loaded Γ config = call.accepted Γ config euid) ∧
        (s.swapped = true → s.removed = true → t.loaded Γ config = none) := by
  cases h with
  | unchanged h =>
    refine ⟨fun _ => loaded_eq h.current h.generations (fun path _ => by rw [h.archive]) hbefore, nofun, nofun⟩
  | beside h => exact ⟨fun _ => loaded_eq h.current h.generations (fun _ => h.archive_eq) hbefore, nofun, nofun⟩
  | complete h => exact ⟨nofun, fun _ _ => h.loaded, nofun⟩
  | broken h => exact ⟨nofun, nofun, fun _ _ => h.loaded⟩

theorem accepted_material {new : LineageMaterial} (h : call.accepted Γ config euid = some new) :
    call.material Γ = some new := by
  unfold CommitCall.accepted at h
  split at h
  · exact h
  · cases h

end StoreAux

open StoreAux

/-- A commit is atomic exactly where its stop does no harm. For every state of the store in which a load succeeds, or in which there
is no `current` pointer, every new material and every run of the commit, cut, raising or returning at any operation: a later load
returns what it returned before the commit or the complete new material, and what it returned before where the commit raised, if
and only if the commit stopped before the swap of the pointer; or after it with the files of the new generation still there and
acceptable to a load, and without an exception unless the same material was there before; or nothing could be loaded before and
nothing can be loaded now, because a file was removed again or because the new files are not acceptable. -/
theorem commit_atomic_iff (Γ : Ctx) (config : StoreConfig) (euid : Nat) (faults : StoreOp → Exc → Prop) (call : CommitCall)
    {t₀ t : LineageTree} {before : Option LineageMaterial} (hload : LoadReturns Γ config euid t₀ before)
    (hbefore : before.isSome = true ∨ ∀ target, t₀.entries "current" ≠ some (.link target))
    {o : Outcome Exc LineageMaterial} {trace : List (Event storage Exc)}
    (h : Exec (recording (disk euid faults)) (call.run Γ config) (t₀, []) o (t, trace)) :
    AtomicCommit Γ config euid call t₀ o t ↔
      HarmlessStop Γ config euid call before (∃ x, o = .raised x) (committing.after trace) := by
  obtain rfl := loadReturns_iff.1 hload
  have hreached : Reached config euid call t₀ t (committing.after trace) := by
    have hstart : Now (Unswapped (Unchanged t₀)) (t₀, ([] : List (Event storage Exc))) := ⟨rfl, unchanged_refl⟩
    have hpost := commit_spec _ hstart _ _ h
    cases o <;> exact hpost
  obtain ⟨hunswapped, hkept, hremoved⟩ := hreached.loaded (Γ := Γ) hbefore
  have hatomic : AtomicCommit Γ config euid call t₀ o t ↔
      (t.loaded Γ config = t₀.loaded Γ config ∨
        ∃ material, call.material Γ = some material ∧ t.loaded Γ config = some material) ∧
          ((∃ x, o = .raised x) → t.loaded Γ config = t₀.loaded Γ config) := by
    unfold AtomicCommit
    simp only [loadReturns_iff]
    constructor
    · rintro ⟨before, after, rfl, rfl, hrest⟩
      exact hrest
    · exact fun hrest => ⟨_, _, rfl, rfl, hrest⟩
  rw [hatomic]
  unfold HarmlessStop
  cases hs : (committing.after trace).swapped with
  | false =>
    have heq := hunswapped hs
    exact ⟨fun _ => Or.inl rfl, fun _ => ⟨Or.inl heq, fun _ => heq⟩⟩
  | true =>
    cases hr : (committing.after trace).removed with
    | true =>
      have hnone := hremoved hs hr
      rw [hnone]
      constructor
      · rintro ⟨hsame | ⟨material, -, hm⟩, -⟩
        · exact Or.inr (Or.inr ⟨hsame.symm, Or.inl rfl⟩)
        · cases hm
      · rintro (hf | ⟨hf, -⟩ | ⟨hb, -⟩)
        · cases hf
        · cases hf
        · exact ⟨Or.inl hb.symm, fun _ => hb.symm⟩
    | false =>
      rw [hkept hs hr]
      cases hacc : call.accepted Γ config euid with
      | some new =>
        constructor
        · rintro ⟨-, hraised⟩
          exact Or.inr (Or.inl ⟨rfl, new, rfl, fun hx => (hraised hx).symm⟩)
        · rintro (hf | ⟨-, new', hnew, hraised⟩ | ⟨-, hf | hf⟩)
          · cases hf
          · cases hnew
            exact ⟨Or.inr ⟨new, accepted_material hacc, rfl⟩, fun hx => (hraised hx).symm⟩
          · cases hf
          · cases hf
      | none =>
        constructor
        · rintro ⟨hsame | ⟨material, -, hm⟩, -⟩
          · exact Or.inr (Or.inr ⟨hsame.symm, Or.inr rfl⟩)
          · cases hm
        · rintro (hf | ⟨-, new, hnew, -⟩ | ⟨hb, -⟩)
          · cases hf
          · cases hnew
          · exact ⟨Or.inl hb.symm, fun _ => hb.symm⟩

namespace StoreAux

/-! ## A run of a commit by root -/

/-- What root gets answered on a tree whose directories are there, but for the operations that fail. -/
def answerRoot (failing : StoreOp → Option Exc) : Handler storage Exc LineageTree := fun t op =>
  match failing op with
  | some x => some (.error x, t)
  | none =>
    match op with
    | .geteuid => some (.ok (0 : Nat), t)
    | .pathExists name => if t.archive [name] = none then some (.ok false, t) else none
    | .makeGeneration name =>
      if h : t.generations = true ∧ t.archive [name] = none then
        some (.ok (), t.set [name] .directory (Or.inl rfl) fun _ => rfl)
      else none
    | .createFile path mode =>
      if h : t.archive path.dropLast = some .directory ∧ t.archive path = none ∧ path ≠ [] then
        some (.ok (), t.set path (.file ⟨[], 0, mode &&& mode⟩) (Or.inr h.1) fun hd => by rw [h.2.1] at hd; cases hd)
      else none
    | .fchown path uid =>
      match h : t.archive path with
      | some (.file f) =>
        if hparent : path.dropLast = [] ∨ t.archive path.dropLast = some .directory then
          some (.ok (), t.set path (.file { f with owner := uid }) hparent fun hd => by rw [h] at hd; cases hd)
        else none
      | _ => none
    | .write path content =>
      match h : t.archive path with
      | some (.file f) =>
        if hparent : (path.dropLast = [] ∨ t.archive path.dropLast = some .directory) ∧ 0 < content.length then
          some (.ok content.length, t.set path (.file { f with content := f.content ++ content.take content.length })
            hparent.1 fun hd => by rw [h] at hd; cases hd)
        else none
      | _ => none
    | .symlink entry target =>
      if t.lineage = true ∧ t.entries entry = none then some (.ok (), t.withEntry entry (some (.link target))) else none
    | .replaceCurrent entry =>
      match t.entries entry with
      | some (.link target) =>
        if entry ≠ "current" ∧ t.entries "current" ≠ some .directory then
          some (.ok (), (t.withEntry "current" (some (.link target))).withEntry entry none)
        else none
      | _ => none
    | .unlink path =>
      if h : t.archive path ≠ some .directory ∧ path ≠ [] then some (.ok (), t.remove path h.1 h.2) else none
    | .makeDirectory directory =>
      match directory with
      | .lineage => if t.lineage = true then some (.ok (), t) else none
      | .generations => if t.lineage = true ∧ t.generations = true then some (.ok (), t) else none
    | .tokenHex _ => some (.ok "token", t)
    | .close | .chmodDirectory _ | .chownDirectory .. | .chownGeneration .. | .fsync _ => some (.ok (), t)
    | .isSymlink _ | .realpath _ | .isDirectory _ | .openRead _ | .fstat _ | .read .. | .chownCurrent _
    | .removeGeneration _ => none

theorem answerRoot_allowed {failing : StoreOp → Option Exc} (hf : ∀ op x, failing op = some x → faults op x) :
    (answerRoot failing).Allowed (disk 0 faults) := by
  intro t op r t' h
  unfold answerRoot at h
  split at h
  · rename_i x hx
    cases h
    exact ⟨rfl, Or.inl (hf op x hx)⟩
  · cases op with
    | geteuid =>
      cases h
      exact ⟨rfl, rfl⟩
    | pathExists name =>
      simp only at h
      split at h
      · rename_i hnone
        cases h
        exact ⟨rfl, nofun, fun _ => Or.inl hnone⟩
      · cases h
    | makeGeneration name =>
      simp only at h
      split at h
      · rename_i hok
        cases h
        exact ⟨hok.1, hok.2, rfl, rfl, rfl, rfl⟩
      · cases h
    | createFile path mode =>
      simp only at h
      split at h
      · rename_i hok
        cases h
        refine ⟨path.dropLast, path.getLast hok.2.2, (List.dropLast_concat_getLast hok.2.2).symm, hok.1, hok.2.1, mode,
          rfl, rfl, rfl, rfl⟩
      · cases h
    | fchown path uid =>
      simp only at h
      split at h
      · rename_i f hfile
        split at h
        · cases h
          exact ⟨f, hfile, rfl, rfl, rfl, rfl⟩
        · cases h
      · cases h
    | write path content =>
      simp only at h
      split at h
      · rename_i f hfile
        split at h
        · rename_i hok
          cases h
          exact ⟨f, hfile, hok.2, Nat.le_refl _, rfl, rfl, rfl, rfl⟩
        · cases h
      · cases h
    | symlink entry target =>
      simp only at h
      split at h
      · rename_i hok
        cases h
        exact ⟨hok.1, hok.2, rfl⟩
      · cases h
    | replaceCurrent entry =>
      simp only at h
      split at h
      · rename_i target htarget
        split at h
        · rename_i hok
          cases h
          exact ⟨hok.1, hok.2, target, htarget, rfl⟩
        · cases h
      · cases h
    | unlink path =>
      simp only at h
      split at h
      · rename_i hok
        cases h
        exact ⟨hok.1, rfl, rfl, rfl, rfl⟩
      · cases h
    | makeDirectory directory =>
      cases directory with
      | lineage =>
        simp only at h
        split at h
        · rename_i hok
          cases h
          exact ⟨hok, rfl, rfl, rfl⟩
        · cases h
      | generations =>
        simp only at h
        split at h
        · rename_i hok
          cases h
          exact ⟨hok.1, hok.1, hok.2, rfl, rfl⟩
        · cases h
    | tokenHex | close | chmodDirectory | chownDirectory | chownGeneration | fsync =>
      cases h
      rfl
    | isSymlink | realpath | isDirectory | openRead | fstat | read | chownCurrent | removeGeneration => cases h

/-- Where nothing fails, nothing has to be allowed to. -/
theorem answerRoot_unfailing : (answerRoot fun _ => none).Allowed (disk 0 fun _ _ => False) :=
  answerRoot_allowed fun _ _ h => by cases h

/-- The publisher's user. -/
def publisherUser : StoreConfig := ⟨7⟩

/-- A store with one generation, `old`, whose leaf is `A`. -/
def oldTree : LineageTree where
  lineage := true
  generations := true
  entries entry := if entry = "current" then some (.link (.inside ["old"])) else none
  archive path :=
    if path = ["old"] then some .directory
    else if path = ["old", "cert.pem"] then some (.file ⟨[65], 7, 0o640⟩)
    else if path = ["old", "chain.pem"] then some (.file ⟨[73], 7, 0o640⟩)
    else if path = ["old", "privkey.pem"] then some (.file ⟨[75], 7, 0o600⟩)
    else none
  parent_directory := by
    intro path name h
    have hcases : ∀ file : String, path ++ [name] = ["old", file] → path = ["old"] := by
      intro file heq
      have hdrop := congrArg List.dropLast heq
      rwa [List.dropLast_concat] at hdrop
    by_cases h₀ : path ++ [name] = ["old"]
    · have hdrop := congrArg List.dropLast h₀
      rw [List.dropLast_concat] at hdrop
      exact Or.inl hdrop
    · refine Or.inr ?_
      have hold : path = ["old"] := by
        by_contra hne
        have h₁ : path ++ [name] ≠ ["old", "cert.pem"] := fun heq => hne (hcases _ heq)
        have h₂ : path ++ [name] ≠ ["old", "chain.pem"] := fun heq => hne (hcases _ heq)
        have h₃ : path ++ [name] ≠ ["old", "privkey.pem"] := fun heq => hne (hcases _ heq)
        simp only [h₀, h₁, h₂, h₃, if_false, ne_eq, not_true_eq_false] at h
      rw [if_pos hold]

/-- A commit of the generation whose leaf is `B`. -/
def newCall : CommitCall := ⟨[66], [73], [75], "new"⟩

/-- What `chown` raises on a file system that does not support it for links. -/
def chownError : Exc := .of .osError "Operation not permitted"

/-- The owner of the link cannot be changed, and the directory cannot be removed. -/
def linkFaults (op : StoreOp) (x : Exc) : Prop :=
  ((∃ uid, op = .chownCurrent uid) ∨ ∃ name, op = .removeGeneration name) ∧ x = chownError

def linkFailing : StoreOp → Option Exc
  | .chownCurrent _ | .removeGeneration _ => some chownError
  | _ => none

theorem linkFailing_faults (op : StoreOp) (x : Exc) (h : linkFailing op = some x) : linkFaults op x := by
  cases op with
  | chownCurrent uid =>
    cases h
    exact ⟨Or.inl ⟨uid, rfl⟩, rfl⟩
  | removeGeneration name =>
    cases h
    exact ⟨Or.inr ⟨name, rfl⟩, rfl⟩
  | _ => cases h

/-- The commit by root, where the operations `failing` names fail. -/
def rootCommit (failing : StoreOp → Option Exc) :
    Outcome Exc LineageMaterial × LineageTree × List (Event storage Exc) :=
  (newCall.run Sample.ctx publisherUser).runFor (answerRoot failing).record 100 (oldTree, [])

end StoreAux

/-- A commit is not atomic in general: root swaps the pointer and then fails to change the owner of the link; the handler removes
the files of the generation the pointer names, and nothing can be loaded any more. -/
theorem commit_atomic_false :
    ∃ t trace old, LoadReturns Sample.ctx publisherUser 0 oldTree (some old) ∧
      Exec (recording (disk 0 linkFaults)) (newCall.run Sample.ctx publisherUser) (oldTree, []) (.raised chownError)
        (t, trace) ∧
      LoadReturns Sample.ctx publisherUser 0 t none ∧
        ¬AtomicCommit Sample.ctx publisherUser 0 newCall oldTree (.raised chownError) t := by
  have hold : ∃ old, some old = oldTree.loaded Sample.ctx publisherUser :=
    ⟨⟨Sample.leaf 1, [Sample.issuer], Sample.privateKey, [65], [73], [75]⟩, by decide +kernel⟩
  obtain ⟨old, hold⟩ := hold
  have hraised : (rootCommit linkFailing).1 = .raised chownError := by decide +kernel
  have hlost : none = (rootCommit linkFailing).2.1.loaded Sample.ctx publisherUser := by decide +kernel
  refine ⟨(rootCommit linkFailing).2.1, (rootCommit linkFailing).2.2, old, loadReturns_iff.2 hold,
    exec_of_runFor (answerRoot_allowed linkFailing_faults).record hraised, loadReturns_iff.2 hlost, ?_⟩
  rintro ⟨before, after, hbefore, hafter, -, hsame⟩
  rw [loadReturns_iff, ← hold] at hbefore
  rw [loadReturns_iff, ← hlost] at hafter
  rw [hbefore, hafter] at hsame
  cases hsame ⟨_, rfl⟩

/-- A commit that is cut right after the swap is atomic. -/
theorem commit_atomic_iff_sample :
    AtomicCommit Sample.ctx publisherUser 0 newCall oldTree .crashed (rootCommit fun _ => none).2.1 := by
  have hcut : (rootCommit fun _ => none).1 = .crashed := by decide +kernel
  have hold : ∃ old, some old = oldTree.loaded Sample.ctx publisherUser :=
    ⟨⟨Sample.leaf 1, [Sample.issuer], Sample.privateKey, [65], [73], [75]⟩, by decide +kernel⟩
  have hnew : ∃ new, newCall.accepted Sample.ctx publisherUser 0 = some new :=
    ⟨⟨Sample.leaf 2, [Sample.issuer], Sample.privateKey, [66], [73], [75]⟩, by decide +kernel⟩
  obtain ⟨old, hold⟩ := hold
  obtain ⟨new, hnew⟩ := hnew
  have hrun := exec_of_runFor answerRoot_unfailing.record hcut
  refine (commit_atomic_iff Sample.ctx publisherUser 0 (fun _ _ => False) newCall (loadReturns_iff.2 hold)
    (Or.inl rfl) hrun).2 (Or.inr (Or.inl ⟨?_, new, hnew, nofun⟩))
  decide +kernel

end OciAcmePublisher
