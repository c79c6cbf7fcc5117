import OciAcmePublisher.Effects.Ending
import OciAcmePublisher.Lemmas.Footprints
import OciAcmePublisher.Theorems.ChainSelection
import OciAcmePublisher.Theorems.StoreCommit

/-!
# What is issued can be loaded and published

A chain that the selection accepts is committed, loaded and validated again. The byte limits of the validator are within those of the
store, and the files are written as the store wants to find them.
-/

namespace OciAcmePublisher

open Effects NativeCertificateStore

/-- Parsing undoes serialisation, for the certificates and the key of the material. -/
structure PemInverse (Γ : Ctx) (material : LineageMaterial) : Prop where
  leaf : Γ.loadPem (Γ.toPem material.leaf) = some material.leaf
  intermediates : Γ.loadPemAll (material.intermediates.flatMap Γ.toPem) = some material.intermediates
  privateKey : Γ.loadPrivateKey (Γ.privateKeyPem material.privateKey) = some material.privateKey

/-- The material is accepted at the time `now` with the root file, as the fingerprint and the chain. -/
structure AcceptedAt (Γ : Ctx) (config : AppConfig) (certificate : CertificateConfig) (now : Instant) (rootFile : Bytes)
    (material : LineageMaterial) (fingerprint : String) (chain : OciCertificateChain) : Prop where
  validated : validateCertificateMaterial Γ material certificate config.compatibility config.global now = .ok fingerprint
  built : buildOciChain Γ (some rootFile) material certificate config.compatibility = .ok chain

/-- The commit of the material under a name. -/
def LineageMaterial.commitCall (material : LineageMaterial) (name : String) : CommitCall :=
  ⟨material.leafPem, material.chainPem, material.privateKeyPem, name⟩

namespace IssuedMaterialAux

open NativeAcmeService

variable {Γ : Ctx} {config : AppConfig} {certificate : CertificateConfig} {privateKey : PrivateKey} {privateKeyPem : Bytes}
  {material : LineageMaterial}

/-! ### The selection -/

/-- The material is made of its certificates and its key, and was accepted at a time that the clock showed. -/
structure Selected (Γ : Ctx) (config : AppConfig) (certificate : CertificateConfig) (privateKey : PrivateKey) (privateKeyPem : Bytes)
    (material : LineageMaterial) (t : List (Event publisher Exc)) : Prop where
  leafPem : material.leafPem = Γ.toPem material.leaf
  chainPem : material.chainPem = material.intermediates.flatMap Γ.toPem
  privateKey : material.privateKey = privateKey
  privateKeyPem : material.privateKeyPem = privateKeyPem
  accepted : ∃ now rootFile fingerprint chain, (⟨.now, .ok now⟩ : Event publisher Exc) ∈ t ∧
    (⟨.readFile certificate.chain.rootPemPath, .ok rootFile⟩ : Event publisher Exc) ∈ t ∧
      AcceptedAt Γ config certificate now rootFile material fingerprint chain

theorem lasting_selected : Lasting (Selected Γ config certificate privateKey privateKeyPem material) := by
  rintro t e ⟨hleaf, hchain, hkey, hkeyPem, now, rootFile, fingerprint, chain, hnow, hroot, haccepted⟩
  exact ⟨hleaf, hchain, hkey, hkeyPem, now, rootFile, fingerprint, chain, List.mem_append_left _ hnow,
    List.mem_append_left _ hroot, haccepted⟩

/-- A chain is built from a root file that was read. -/
theorem buildChain_reads (material : LineageMaterial) :
    Triple anyAnswer (fun _ => True) (buildChain Γ config certificate material)
      (fun chain t => ∃ rootFile, (⟨.readFile certificate.chain.rootPemPath, .ok rootFile⟩ : Event publisher Exc) ∈ t ∧
        buildOciChain Γ (some rootFile) material certificate config.compatibility = .ok chain)
      (fun _ _ => True) fun _ => True := by
  refine Triple.bind (R := fun rootFile t => ∀ raw, rootFile = some raw →
    (⟨.readFile certificate.chain.rootPemPath, .ok raw⟩ : Event publisher Exc) ∈ t) ?_ fun rootFile => ?_
  · refine Triple.bind (R := fun content t => ∀ raw, content = .ok raw →
      (⟨.readFile certificate.chain.rootPemPath, .ok raw⟩ : Event publisher Exc) ∈ t) ?_ fun content => ?_
    · refine Triple.attempt_perform (fun _ _ => trivial) ?_
      rintro t answer _ - rfl
      refine ⟨?_, trivial⟩
      rintro raw rfl
      exact List.mem_append_right _ (List.mem_singleton_self _)
    · cases content with
      | ok raw =>
        refine Triple.ret (fun t ht => ?_) fun _ _ => trivial
        rintro _ ⟨⟩
        exact ht raw rfl
      | error x =>
        simp only
        split
        · exact Triple.ret (fun _ _ => nofun) fun _ _ => trivial
        · exact Triple.raise (fun _ _ => trivial) fun _ _ => trivial
  · refine Triple.ofExcept (fun chain t hbuilt ht => ?_) (fun _ _ _ => trivial) fun _ _ => trivial
    cases rootFile with
    | none =>
      unfold buildOciChain loadPinnedRoot at hbuilt
      cases hbuilt
    | some raw => exact ⟨raw, ht raw rfl, hbuilt⟩

/-- What is validated at a time the clock showed, and has a chain, is selected. -/
theorem accept_selects (hleafPem : material.leafPem = Γ.toPem material.leaf)
    (hchainPem : material.chainPem = material.intermediates.flatMap Γ.toPem) (now : Instant) :
    Triple anyAnswer (fun t => (⟨.now, .ok now⟩ : Event publisher Exc) ∈ t)
      ((ofExcept (validateCertificateMaterial Γ material certificate config.compatibility config.global now)).bind fun _ =>
        (buildChain Γ config certificate material).bind fun _ => .ret material)
      (Selected Γ config certificate material.privateKey material.privateKeyPem) (fun _ _ => True) fun _ => True := by
  refine Triple.bind (R := fun fingerprint t => (⟨.now, .ok now⟩ : Event publisher Exc) ∈ t ∧ validateCertificateMaterial Γ material
    certificate config.compatibility config.global now = .ok fingerprint) ?_ fun fingerprint => Triple.assume fun hvalidated => ?_
  · exact Triple.ofExcept (fun _ _ hvalidated ht => ⟨ht, hvalidated⟩) (fun _ _ _ => trivial) fun _ _ => trivial
  have hreads := (Lasting.mem (⟨.now, .ok now⟩ : Event publisher Exc)).beside (@buildChain_reads Γ config certificate material)
  refine Triple.bind (hreads.conseq (fun _ ht => ⟨trivial, ht⟩) (fun _ _ ht => ht) (fun _ _ _ => trivial) fun _ _ => trivial)
    fun chain => Triple.ret ?_ fun _ _ => trivial
  rintro t ⟨⟨rootFile, hroot, hbuilt⟩, hnow⟩
  exact ⟨hleafPem, hchainPem, rfl, rfl, now, rootFile, fingerprint, chain, hnow, hroot, hvalidated, hbuilt⟩

theorem selectCandidate_selects (candidate : String) :
    Triple anyAnswer (fun _ => True) (selectCandidate Γ config certificate privateKey privateKeyPem candidate)
      (Selected Γ config certificate privateKey privateKeyPem) (fun _ _ => True) fun _ => True := by
  unfold selectCandidate
  split
  · exact Triple.raise (fun _ _ => trivial) fun _ _ => trivial
  · exact Triple.bind (perform_mem (S := publisher) Op.now) fun now => accept_selects rfl rfl now
  · exact Triple.raise (fun _ _ => trivial) fun _ _ => trivial

/-- What the selection returns was accepted. -/
theorem selectChain_selects (candidates : List String) :
    Triple anyAnswer (fun _ => True) (selectChain Γ config certificate privateKey privateKeyPem candidates)
      (Selected Γ config certificate privateKey privateKeyPem) (fun _ _ => True) fun _ => True := by
  induction candidates with
  | nil => exact Triple.raise (fun _ _ => trivial) fun _ _ => trivial
  | cons candidate rest ih =>
    unfold selectChain
    split
    · exact ih
    · refine Triple.bind (Triple.attempt (selectCandidate_selects candidate) (fun _ _ _ => trivial) fun _ _ _ => trivial) ?_
      rintro (error | material)
      · simp only
        split
        · exact ih.pre fun _ _ => trivial
        · exact Triple.raise (fun _ _ => trivial) fun _ _ => trivial
      · exact Triple.ret (fun _ ht => ht) fun _ _ => trivial

/-- The generations committed so far are of selected material. -/
def CommitsSelected (Γ : Ctx) (config : AppConfig) (certificate : CertificateConfig) (privateKey : PrivateKey)
    (t : List (Event publisher Exc)) : Prop :=
  ∀ e ∈ t, Op.commits e.op = true → ∃ material name, e.op = .commitLineage certificate.id
    ⟨material.leafPem, material.chainPem, material.privateKeyPem, name⟩ ∧
      Selected Γ config certificate privateKey (Γ.privateKeyPem privateKey) material t

/-- The finalization of an order commits what it has selected, and nothing else. -/
theorem finalize_commits (order : Order) :
    Triple anyAnswer (fun t => ∀ e ∈ t, Op.commits e.op = false) (finalize Γ config certificate privateKey order)
      (fun _ => CommitsSelected Γ config certificate privateKey) (fun _ => CommitsSelected Γ config certificate privateKey)
      (CommitsSelected Γ config certificate privateKey) := by
  have hnone : ∀ t : List (Event publisher Exc), (∀ e ∈ t, Op.commits e.op = false) →
      CommitsSelected Γ config certificate privateKey t := by
    intro t ht e he hcommits
    rw [ht e he] at hcommits
    cases hcommits
  have hquiet {α : Type} {p : Action α} (hp : p.Uses (Op.commits · = false)) :
      Triple anyAnswer (fun t => ∀ e ∈ t, Op.commits e.op = false) p (fun _ t => ∀ e ∈ t, Op.commits e.op = false)
        (fun _ => CommitsSelected Γ config certificate privateKey) (CommitsSelected Γ config certificate privateKey) := by
    refine (Triple.frame hp ?_).conseq (fun _ ht => ht) (fun _ _ ht => ht) (fun _ => hnone) hnone
    rintro t op answer _ hop ht rfl e he
    rcases List.mem_append.1 he with he | he
    · exact ht e he
    · rw [List.mem_singleton.1 he]
      exact hop
  have hperform (op : Op) (hop : op.commits = false) := hquiet (Program.uses_perform.2 hop : (perform op).Uses _)
  have hidle : ∀ op : Op, op.idle = true → op.commits = false := fun op h => by cases op <;> first | rfl | cases h
  refine Triple.bind (hperform _ rfl) fun started => Triple.bind (hperform _ rfl) fun _ =>
    Triple.bind (hperform _ rfl) fun finalized => ?_
  refine Triple.bind (R := fun material t => (∀ e ∈ t, Op.commits e.op = false) ∧
    Selected Γ config certificate privateKey (Γ.privateKeyPem privateKey) material t) ?_ fun material => ?_
  · exact ((hquiet (uses_selectChain hidle _ _ _)).and (selectChain_selects _)).conseq (fun _ ht => ⟨ht, trivial⟩)
      (fun _ _ ht => ht)
      (fun _ _ ht => ht.1) fun _ ht => ht.1
  have hkeep (op : Op) (hop : op.commits = false) :
      Triple anyAnswer (fun t => (∀ e ∈ t, Op.commits e.op = false) ∧
          Selected Γ config certificate privateKey (Γ.privateKeyPem privateKey) material t) (perform op)
        (fun _ t => (∀ e ∈ t, Op.commits e.op = false) ∧
          Selected Γ config certificate privateKey (Γ.privateKeyPem privateKey) material t)
        (fun _ => CommitsSelected Γ config certificate privateKey) (CommitsSelected Γ config certificate privateKey) :=
    (lasting_selected.beside (hperform op hop)).conseq (fun _ ht => ht) (fun _ _ ht => ht) (fun _ _ ht => ht.1) fun _ ht => ht.1
  refine Triple.bind (hkeep _ rfl) fun now => Triple.bind (hkeep _ rfl) fun token => ?_
  have hcommitted : ∀ t name (answer : Except Exc LineageMaterial), (∀ e ∈ t, Op.commits e.op = false) →
      Selected Γ config certificate privateKey (Γ.privateKeyPem privateKey) material t →
      CommitsSelected Γ config certificate privateKey
        (t ++ [⟨.commitLineage certificate.id ⟨material.leafPem, material.chainPem, Γ.privateKeyPem privateKey, name⟩, answer⟩]) := by
    intro t name answer ht hselected e he hcommits
    rcases List.mem_append.1 he with he | he
    · rw [ht e he] at hcommits
      cases hcommits
    · rw [List.mem_singleton.1 he]
      exact ⟨material, name, by rw [hselected.privateKeyPem], lasting_selected _ _ hselected⟩
  refine Triple.perform (fun t ht => hnone t ht.1) ?_ ?_
  · rintro t answer _ ht rfl
    exact ⟨hcommitted t _ _ ht.1 ht.2, hcommitted t _ _ ht.1 ht.2⟩
  · rintro t x _ ht rfl
    exact ⟨hcommitted t _ _ ht.1 ht.2, hcommitted t _ _ ht.1 ht.2⟩

/-! ### What a load accepts -/

/-- Accepted material is within the limits of the store, and its files parse to it. -/
theorem Selected.loadable {t : List (Event publisher Exc)} (h : Selected Γ config certificate privateKey (Γ.privateKeyPem privateKey)
    material t) (hpem : PemInverse Γ material) {storeConfig : StoreConfig} {euid : Nat}
    (howner : euid = 0 ∨ euid = storeConfig.expectedOwnerUid) (name : String) :
    (material.commitCall name).accepted Γ storeConfig euid = some material := by
  obtain ⟨now, rootFile, fingerprint, chain, -, -, hvalidated, -⟩ := h.accepted
  have hsizes : material.leafPem.length ≤ maxCertificatePemBytes ∧ material.chainPem.length ≤ maxChainPemBytes ∧
      material.privateKeyPem.length ≤ maxPrivateKeyPemBytes := by
    simp only [validateCertificateMaterial, bind_eq_ok_iff, require_eq_ok_iff] at hvalidated
    obtain ⟨-, -, -, -, -, -, -, -, -, -, -, -, -, -, -, -, -, -, -, -, -, hfiles, -, hbundle, -⟩ := hvalidated
    unfold maxCertificatePemBytes maxChainPemBytes maxPrivateKeyPemBytes
    omega
  have hacceptable : (material.commitCall name).Acceptable storeConfig euid := ⟨howner, hsizes⟩
  have hleaf : Γ.loadPem material.leafPem = some material.leaf := by
    rw [h.leafPem]
    exact hpem.leaf
  have hintermediates : Γ.loadPemAll material.chainPem = some material.intermediates := by
    rw [h.chainPem]
    exact hpem.intermediates
  have hkey : Γ.loadPrivateKey material.privateKeyPem = some material.privateKey := by
    rw [h.privateKeyPem, ← h.privateKey]
    exact hpem.privateKey
  have hmaterial : parseMaterial Γ material.leafPem material.chainPem material.privateKeyPem = some material := by
    unfold parseMaterial
    rw [hintermediates, hleaf, hkey]
  unfold CommitCall.accepted
  rw [if_pos hacceptable]
  exact hmaterial

/-! ### A commit whose operations succeed -/

open StoreAux

variable {storeConfig : StoreConfig} {euid : Nat} {call : CommitCall} {t₀ t : LineageTree}

/-- The file system where every operation takes effect, with a record of them. -/
abbrev undisturbed (euid : Nat) : Env storage Exc (LineageTree × List (Event storage Exc)) :=
  recording (succeeding (LineageTree.Step euid))

theorem disk_of_undisturbed (w : LineageTree × List (Event storage Exc)) (op : StoreOp) (answer : Except Exc (storage.Reply op))
    (w' : LineageTree × List (Event storage Exc)) (h : undisturbed euid w op answer w') :
    recording (disk euid fun _ _ => False) w op answer w' :=
  ⟨stepping_of_succeeding h.1, h.2⟩

/-- Where every operation takes effect, nothing raises but the program itself. -/
theorem undisturbed_spec {α : Type} {p : StoreAction α} {P : LineageTree × List (Event storage Exc) → Prop}
    {Q : α → LineageTree × List (Event storage Exc) → Prop} {E : Exc → LineageTree × List (Event storage Exc) → Prop}
    {C : LineageTree × List (Event storage Exc) → Prop} (h : Triple (recording (disk euid fun _ _ => False)) P p Q E C)
    (hp : p.Raises fun _ => False) : Triple (undisturbed euid) P p Q (fun _ _ => False) C := by
  have hraises : Triple (undisturbed euid) (fun _ => True) p (fun _ _ => True) (fun _ _ => False) fun _ => True := by
    refine Triple.raises (φ := fun _ => False) ?_ hp
    rintro w op x w' ⟨⟨reply, hanswer, -⟩, -⟩
    cases hanswer
  exact ((h.among disk_of_undisturbed).and hraises).conseq (fun _ hw => ⟨hw, trivial⟩) (fun _ _ hw => hw.1) (fun _ _ hw => hw.2)
    fun _ hw => hw.1

/-- The operations before the files are made: none of them touches the pointer. -/
def StoreOp.preparing : StoreOp → Bool
  | .makeDirectory _ | .chmodDirectory _ | .chownDirectory .. | .geteuid | .pathExists _ | .makeGeneration _
  | .chownGeneration .. => true
  | _ => false

theorem step_preparing {op : StoreOp} (hop : StoreOp.preparing op = true) {reply : storage.Reply op} {t' : LineageTree}
    (h : t.Step euid op reply t') : t'.entries = t.entries := by
  cases op with
  | makeDirectory directory =>
    cases directory with
    | lineage => exact h.2.2.1
    | generations => exact h.2.2.2.1
  | makeGeneration name => exact h.2.2.2.2.1
  | chmodDirectory | chownDirectory | chownGeneration =>
    rw [h]
  | geteuid | pathExists =>
    rw [h.1]
  | _ => cases hop

/-- The pointer is what it was. -/
def Kept (t₀ : LineageTree) (w : LineageTree × List (Event storage Exc)) : Prop :=
  w.1.entries "current" = t₀.entries "current"

/-- What comes before the files are made. -/
theorem preparing_spec {α : Type} {p : StoreAction α} {P : LineageTree → CommitProgress → Prop}
    {Q : α → LineageTree × List (Event storage Exc) → Prop} {E : Exc → LineageTree × List (Event storage Exc) → Prop}
    {C : LineageTree × List (Event storage Exc) → Prop}
    (h : Triple (recording (disk euid fun _ _ => False)) (Now P) p Q E C) (hp : p.Raises fun _ => False)
    (huses : p.Uses (StoreOp.preparing · = true)) (hkept : ∀ t s, P t s → t.entries "current" = t₀.entries "current") :
    Triple (undisturbed euid) (Now P) p Q (fun _ _ => False) (Kept t₀) := by
  have hframe : Triple (undisturbed euid) (Kept t₀) p (fun _ => Kept t₀) (fun _ => Kept t₀) (Kept t₀) := by
    refine Triple.frame huses ?_
    rintro w op answer w' hop hw ⟨⟨reply, rfl, hs⟩, -⟩
    unfold Kept
    rw [step_preparing hop hs]
    exact hw
  exact ((undisturbed_spec h hp).and hframe).conseq (fun w hw => ⟨hw, hkept _ _ hw⟩) (fun _ _ hw => hw.1) (fun _ _ hw => hw.1)
    fun _ hw => hw.2

/-! ### The parts of the commit -/

theorem raises_ifRoot {action : StoreAction Unit} (h : action.Raises fun _ => False) : (ifRoot action).Raises fun _ => False := by
  refine Program.raises_bind (Program.raises_perform _) fun uid => ?_
  split
  · exact h
  · trivial

theorem raises_ensureDirectory (directory : StoreDirectory) : (ensureDirectory storeConfig directory).Raises fun _ => False :=
  Program.raises_bind (Program.raises_perform _) fun _ => Program.raises_bind (Program.raises_perform _) fun _ =>
    raises_ifRoot (Program.raises_perform _)

theorem raises_writeAll (path : List String) (rounds : Nat) (content : Bytes) :
    (writeAll path rounds content).Raises fun _ => False := by
  induction rounds generalizing content with
  | zero => cases content <;> trivial
  | succ rounds ih =>
    cases content with
    | nil => trivial
    | cons => exact Program.raises_bind (Program.raises_perform _) fun n => ih _

theorem raises_writeNew (path : List String) (content : Bytes) (mode : Nat) :
    (writeNew storeConfig path content mode).Raises fun _ => False := by
  refine Program.raises_bind (Program.raises_perform _) fun _ => Program.raises_ensure ?_ (Program.raises_perform _)
  exact Program.raises_bind (raises_ifRoot (Program.raises_perform _)) fun _ =>
    Program.raises_bind (raises_writeAll _ _ _) fun _ => Program.raises_perform _

theorem raises_install (leafPem chainPem privateKeyPem : Bytes) (name : String) :
    (install storeConfig leafPem chainPem privateKeyPem name).Raises fun _ => False := by
  refine Program.raises_bind (raises_writeNew _ _ _) fun _ => Program.raises_bind (raises_writeNew _ _ _) fun _ => ?_
  refine Program.raises_bind (raises_writeNew _ _ _) fun _ => Program.raises_bind (Program.raises_perform _) fun token => ?_
  refine Program.raises_bind (Program.raises_perform _) fun _ => Program.raises_bind (Program.raises_perform _) fun _ => ?_
  exact raises_ifRoot (Program.raises_perform _)

theorem uses_ifRoot {A : StoreOp → Prop} {action : StoreAction Unit} (hA : A .geteuid) (h : action.Uses A) :
    (ifRoot action).Uses A := by
  refine Program.uses_bind (Program.uses_perform.2 hA) fun uid => ?_
  split
  · exact h
  · trivial

theorem uses_ensureDirectory (directory : StoreDirectory) :
    (ensureDirectory storeConfig directory).Uses (StoreOp.preparing · = true) :=
  Program.uses_bind (Program.uses_perform.2 rfl) fun _ => Program.uses_bind (Program.uses_perform.2 rfl) fun _ =>
    uses_ifRoot rfl (Program.uses_perform.2 rfl)

/-- A complete generation is loaded. -/
theorem load_complete (haccepted : call.accepted Γ storeConfig euid = some material) :
    Triple (undisturbed euid) (Now fun t s => s = { swapped := true } ∧ Complete storeConfig euid call t) (load Γ storeConfig)
      (fun loaded w => loaded = material ∧ w.1.loaded Γ storeConfig = some material) (fun _ _ => False)
      (fun w => w.1.loaded Γ storeConfig = some material) := by
  rintro w ⟨-, hcomplete⟩ o w' hx
  have hload := @load_spec Γ storeConfig euid (fun _ _ => False) w.1 w.1 rfl o w'.1 (hx.mono disk_of_undisturbed).unrecord
  have hloaded : w.1.loaded Γ storeConfig = some material := hcomplete.loaded.trans haccepted
  cases o with
  | returned loaded =>
    obtain ⟨hkeep, hfound⟩ := hload
    rw [hloaded] at hfound
    exact ⟨(Option.some.inj hfound).symm, by rw [hkeep, hloaded]⟩
  | raised x =>
    obtain ⟨-, ⟨_, _, hfault⟩ | ⟨hnone, -⟩⟩ := hload
    · exact hfault
    · rw [hloaded] at hnone
      cases hnone
  | crashed =>
    have hkeep : w'.1 = w.1 := hload
    show w'.1.loaded Γ storeConfig = some material
    rw [hkeep, hloaded]

/-- The pointer is what it was, or leads to the material. -/
def Sound (Γ : Ctx) (storeConfig : StoreConfig) (t₀ : LineageTree) (material : LineageMaterial) (t : LineageTree) : Prop :=
  t.entries "current" = t₀.entries "current" ∨ t.loaded Γ storeConfig = some material

/-- The name of the generation is taken, and the commit says so. -/
def NameTaken (t₀ : LineageTree) (call : CommitCall) (x : Exc) : Prop :=
  x = storeError "certificate generation already exists" ∧ t₀.archive [call.generationName] ≠ none

theorem prepared_step {α : Type} {p : StoreAction α} {P : LineageTree × List (Event storage Exc) → Prop}
    {Q : α → LineageTree × List (Event storage Exc) → Prop}
    (h : Triple (undisturbed euid) P p Q (fun _ _ => False) (Kept t₀)) :
    Triple (undisturbed euid) P p Q (fun x w => NameTaken t₀ call x ∧ Sound Γ storeConfig t₀ material w.1)
      (fun w => Sound Γ storeConfig t₀ material w.1) :=
  h.conseq (fun _ hw => hw) (fun _ _ hw => hw) (fun _ _ hw => hw.elim) fun _ hw => Or.inl hw

/-- The commit returns the material, unless the name of the generation is taken. -/
theorem commit_returns (haccepted : call.accepted Γ storeConfig euid = some material) :
    Triple (undisturbed euid) (Now (Unswapped (Unchanged t₀))) (call.run Γ storeConfig)
      (fun loaded w => loaded = material ∧ Sound Γ storeConfig t₀ material w.1)
      (fun x w => NameTaken t₀ call x ∧ Sound Γ storeConfig t₀ material w.1)
      (fun w => Sound Γ storeConfig t₀ material w.1) := by
  have hunchanged : ∀ t s, Unswapped (Unchanged t₀) t s → t.entries "current" = t₀.entries "current" := fun _ _ h => h.2.current
  have hbuilding : ∀ t s, Unswapped (Building storeConfig euid t₀ call.generationName []) t s →
      t.entries "current" = t₀.entries "current" := fun _ _ h => h.2.beside.current
  have hensured : ∀ directory, Triple (undisturbed euid) (Now (Unswapped (Unchanged t₀))) (ensureDirectory storeConfig directory)
      (fun _ => Now (Unswapped (Unchanged t₀))) (fun x w => NameTaken t₀ call x ∧ Sound Γ storeConfig t₀ material w.1)
      (fun w => Sound Γ storeConfig t₀ material w.1) := fun directory =>
    prepared_step (preparing_spec (@ensureDirectory_spec storeConfig euid (fun _ _ => False) t₀ call directory)
      (raises_ensureDirectory directory) (uses_ensureDirectory directory) hunchanged)
  refine Triple.bind (hensured .lineage) fun _ => Triple.bind (hensured .generations) fun _ => ?_
  have hexists : Triple (recording (disk euid fun _ _ => False)) (Now (Unswapped (Unchanged t₀)))
      (store (.pathExists call.generationName))
      (fun found => Now fun t s => Unswapped (Unchanged t₀) t s ∧ (found = true → t₀.archive [call.generationName] ≠ none))
      (fun _ => Now (Unswapped (Unchanged t₀))) (Now (Unswapped (Unchanged t₀))) := by
    refine store_spec (fun _ _ h => h) ?_
    rintro t s found t' ⟨rfl, hu⟩ ⟨rfl, hfound, -⟩
    rw [← hu.archive]
    exact ⟨⟨⟨rfl, hu⟩, hfound⟩, rfl, hu⟩
  refine Triple.bind (prepared_step (preparing_spec hexists (Program.raises_perform _) (Program.uses_perform.2 rfl) hunchanged))
    fun found => ?_
  split
  · rename_i hfound
    exact Triple.raise (fun w hw => ⟨⟨rfl, hw.2 hfound⟩, Or.inl (hunchanged _ _ hw.1)⟩) fun w hw => Or.inl (hunchanged _ _ hw.1)
  have hmade : Triple (undisturbed euid) (Now (Unswapped (Unchanged t₀))) (store (.makeGeneration call.generationName))
      (fun _ => Now (Unswapped (Building storeConfig euid t₀ call.generationName [])))
      (fun x w => NameTaken t₀ call x ∧ Sound Γ storeConfig t₀ material w.1) fun w => Sound Γ storeConfig t₀ material w.1 :=
    prepared_step (preparing_spec makeGeneration_spec (Program.raises_perform _) (Program.uses_perform.2 rfl) hunchanged)
  refine Triple.bind (hmade.pre fun w hw => hw.1) fun _ => ?_
  have howned : Triple (recording (disk euid fun _ _ => False)) (Now (Unswapped (Building storeConfig euid t₀ call.generationName [])))
      (ifRoot (store (.chownGeneration call.generationName storeConfig.expectedOwnerUid)))
      (fun _ => Now (Unswapped (Building storeConfig euid t₀ call.generationName [])))
      (fun _ => Now (Unswapped (Building storeConfig euid t₀ call.generationName [])))
      (Now (Unswapped (Building storeConfig euid t₀ call.generationName []))) :=
    ifRoot_spec (Q := fun _ => Unswapped (Building storeConfig euid t₀ call.generationName [])) (fun _ _ h => h)
      (fun _ => store_aside (by rfl) fun _ _ h => h) fun _ _ _ h => h
  refine Triple.bind (prepared_step (preparing_spec howned (raises_ifRoot (Program.raises_perform _))
    (uses_ifRoot rfl (Program.uses_perform.2 rfl)) hbuilding)) fun _ => ?_
  -- the handler of the `try` block has nothing to handle
  have hinstalled : Triple (undisturbed euid) (Now (Unswapped (Building storeConfig euid t₀ call.generationName [])))
      (install storeConfig call.leafPem call.chainPem call.privateKeyPem call.generationName)
      (fun _ => Now fun t s => s = { swapped := true } ∧ Complete storeConfig euid call t) (fun _ _ => False)
      (fun w => Sound Γ storeConfig t₀ material w.1) := by
    refine (undisturbed_spec install_spec (raises_install _ _ _ _)).conseq (fun _ hw => hw) (fun _ _ hw => hw) (fun _ _ hw => hw) ?_
    have hsound : ∀ t s, InTry storeConfig euid call t₀ t s → Sound Γ storeConfig t₀ material t := by
      rintro t s (hbeside | hcomplete)
      · exact Or.inl hbeside.current
      · exact Or.inr (hcomplete.loaded.trans haccepted)
    exact fun w hw => hsound _ _ hw
  refine Triple.bind (Triple.handle hinstalled fun x w hw => hw.elim) fun _ => ?_
  exact (load_complete haccepted).conseq (fun _ hw => hw) (fun _ _ hw => ⟨hw.1, Or.inr hw.2⟩) (fun _ _ hw => hw.elim)
    fun _ hw => Or.inr hw

/-! ### The commit comes to an end -/

theorem halts_ifRoot {action : StoreAction Unit} (h : action.Halts) : (ifRoot action).Halts := by
  refine Program.halts_bind Program.halts_perform fun uid => ?_
  split
  · exact h
  · trivial

theorem halts_ensureDirectory (directory : StoreDirectory) : (ensureDirectory storeConfig directory).Halts :=
  Program.halts_bind Program.halts_perform fun _ => Program.halts_bind Program.halts_perform fun _ =>
    halts_ifRoot Program.halts_perform

theorem halts_cleanup (name : String) : (cleanup name).Halts := by
  refine Program.halts_bind Program.halts_perform fun _ => Program.halts_bind Program.halts_perform fun _ => ?_
  refine Program.halts_bind Program.halts_perform fun _ => Program.halts_bind (Program.halts_attempt Program.halts_perform) ?_
  rintro (error | _)
  · simp only
    split <;> trivial
  · trivial

/-- Every write takes some of the content that is left. -/
theorem writeAll_ends (path : List String) {rounds : Nat} {content : Bytes} (hrounds : content.length ≤ rounds) (t : LineageTree) :
    (writeAll path rounds content).Ends (succeeding (LineageTree.Step euid)) t := by
  induction rounds generalizing content t with
  | zero =>
    rw [List.eq_nil_of_length_eq_zero (Nat.le_zero.1 hrounds)]
    trivial
  | succ rounds ih =>
    cases content with
    | nil => trivial
    | cons b rest =>
      have hfewer : ∀ n : Nat, 0 < n → ((b :: rest).drop n).length ≤ rounds := by
        intro n hpos
        rw [List.length_drop]
        omega
      refine Program.ends_bind (Program.Halts.ends Program.halts_perform t) fun n t' hx => ih ?_ t'
      obtain ⟨reply, hreply, f, -, hpos, -⟩ := hx.performed
      cases hreply
      exact hfewer _ hpos

theorem writeNew_ends (path : List String) (content : Bytes) (mode : Nat) (t : LineageTree) :
    (writeNew storeConfig path content mode).Ends (succeeding (LineageTree.Step euid)) t := by
  refine Program.ends_bind (Program.Halts.ends Program.halts_perform t) fun _ t _ => ?_
  refine Program.ends_ensure ?_ fun t => Program.Halts.ends Program.halts_perform t
  refine Program.ends_bind (Program.Halts.ends (halts_ifRoot Program.halts_perform) t) fun _ t _ => ?_
  exact Program.ends_bind (writeAll_ends path (Nat.le_refl _) t) fun _ t _ => Program.Halts.ends Program.halts_perform t

theorem install_ends (leafPem chainPem privateKeyPem : Bytes) (name : String) (t : LineageTree) :
    (install storeConfig leafPem chainPem privateKeyPem name).Ends (succeeding (LineageTree.Step euid)) t := by
  refine Program.ends_bind (writeNew_ends _ _ _ t) fun _ t _ => Program.ends_bind (writeNew_ends _ _ _ t) fun _ t _ => ?_
  refine Program.ends_bind (writeNew_ends _ _ _ t) fun _ t _ => Program.Halts.ends ?_ t
  refine Program.halts_bind Program.halts_perform fun token => Program.halts_bind Program.halts_perform fun _ => ?_
  exact Program.halts_bind Program.halts_perform fun _ => halts_ifRoot Program.halts_perform

/-- A commit whose operations succeed does not write for ever. -/
theorem commit_ends (call : CommitCall) (t : LineageTree) :
    (call.run Γ storeConfig).Ends (succeeding (LineageTree.Step euid)) t := by
  refine Program.ends_bind (Program.Halts.ends (halts_ensureDirectory .lineage) t) fun _ t _ => ?_
  refine Program.ends_bind (Program.Halts.ends (halts_ensureDirectory .generations) t) fun _ t _ => ?_
  refine Program.ends_bind (Program.Halts.ends Program.halts_perform t) fun found t _ => ?_
  split
  · trivial
  refine Program.ends_bind (Program.Halts.ends Program.halts_perform t) fun _ t _ => ?_
  refine Program.ends_bind (Program.Halts.ends (halts_ifRoot Program.halts_perform) t) fun _ t _ => ?_
  refine Program.ends_bind (Program.ends_handle (install_ends _ _ _ _ t) fun x t _ => ?_) fun _ t _ => halts_load.ends t
  exact Program.Halts.ends (Program.halts_bind (f := fun _ => .raise x) (halts_cleanup _) fun _ => trivial) t

end IssuedMaterialAux

open IssuedMaterialAux StoreAux in
/-- What the selection of a chain accepts at a time, the store can load and a publication accepts again at that time. Where parsing
undoes serialisation, the process runs as root or as the publisher and the operations of the commit succeed, the commit ends, and
unless the name of the generation is taken it returns the files as they were given, accepted as the same fingerprint and the same
chain. At every point of it the pointer is what it was, or leads to this material. -/
theorem issued_material_accepted (Γ : Ctx) (config : AppConfig) (certificate : CertificateConfig) (privateKey : PrivateKey)
    (candidates : List String) {material : LineageMaterial} {trace : List (Event publisher Exc)}
    (hselected : Exec anyAnswer (NativeAcmeService.selectChain Γ config certificate privateKey (Γ.privateKeyPem privateKey) candidates)
      [] (.returned material) trace) (hpem : PemInverse Γ material) {storeConfig : StoreConfig} {euid : Nat}
    (howner : euid = 0 ∨ euid = storeConfig.expectedOwnerUid) (name : String) (t₀ : LineageTree) :
    ∃ now rootFile fingerprint chain, (⟨.now, .ok now⟩ : Event publisher Exc) ∈ trace ∧
      (⟨.readFile certificate.chain.rootPemPath, .ok rootFile⟩ : Event publisher Exc) ∈ trace ∧
      AcceptedAt Γ config certificate now rootFile material fingerprint chain ∧
      ((material.commitCall name).run Γ storeConfig).Ends (succeeding (LineageTree.Step euid)) t₀ ∧
      ∀ o t, Exec (succeeding (LineageTree.Step euid)) ((material.commitCall name).run Γ storeConfig) t₀ o t →
        (∀ loaded, o = .returned loaded → loaded.leafPem = material.leafPem ∧ loaded.chainPem = material.chainPem ∧
          loaded.privateKeyPem = material.privateKeyPem ∧
            AcceptedAt Γ config certificate now rootFile loaded fingerprint chain) ∧
        (∀ x, o = .raised x → x = storeError "certificate generation already exists" ∧ t₀.archive [name] ≠ none) ∧
        (t.entries "current" = t₀.entries "current" ∨ t.loaded Γ storeConfig = some material) := by
  have hchosen : Selected Γ config certificate privateKey (Γ.privateKeyPem privateKey) material trace :=
    selectChain_selects candidates _ trivial _ _ hselected
  have hloadable := hchosen.loadable hpem howner name
  obtain ⟨now, rootFile, fingerprint, chain, hnow, hroot, haccepted⟩ := hchosen.accepted
  refine ⟨now, rootFile, fingerprint, chain, hnow, hroot, haccepted, commit_ends _ t₀, fun o t hx => ?_⟩
  obtain ⟨committed, hrecord⟩ := hx.record []
  have hstart : Now (Unswapped (Unchanged t₀)) (t₀, ([] : List (Event storage Exc))) := ⟨rfl, unchanged_refl⟩
  have hpost := commit_returns hloadable _ hstart _ _ hrecord
  cases o with
  | returned loaded =>
    obtain ⟨rfl, hsound⟩ := hpost
    refine ⟨?_, nofun, hsound⟩
    rintro _ ⟨⟩
    exact ⟨rfl, rfl, rfl, haccepted⟩
  | raised x =>
    refine ⟨fun _ h => ?_, fun _ h => ?_, hpost.2⟩
    · cases h
    · cases h
      exact hpost.1
  | crashed =>
    refine ⟨fun _ h => ?_, fun _ h => ?_, hpost⟩
    · cases h
    · cases h

open IssuedMaterialAux in
/-- Every generation that a finalization commits is of material it has selected. -/
theorem finalize_commits_selected (Γ : Ctx) (config : AppConfig) (certificate : CertificateConfig) (privateKey : PrivateKey)
    (order : Order) {o : Outcome Exc LineageMaterial} {trace : List (Event publisher Exc)}
    (h : Exec anyAnswer (NativeAcmeService.finalize Γ config certificate privateKey order) [] o trace) :
    CommitsSelected Γ config certificate privateKey trace := by
  have hpost := finalize_commits (Γ := Γ) order [] (by simp) o trace h
  cases o <;> exact hpost

namespace IssuedMaterialSample

open StoreAux

/-- The clock shows the end of the first day, and the root is in its file. -/
def answers : Handler publisher Exc (List (Event publisher Exc)) := fun t op =>
  match op with
  | .now => some (.ok (days 1), t ++ [⟨.now, .ok (days 1)⟩])
  | .readFile path => some (.ok [82], t ++ [⟨.readFile path, .ok [82]⟩])
  | _ => none

theorem answers_allowed : answers.Allowed anyAnswer := by
  intro t op r t' h
  cases op with
  | now | readFile =>
    cases h
    rfl
  | _ => cases h

/-- What the reads of a load are answered, and the change of the owner of a link that is there. -/
def answerReads : Handler storage Exc LineageTree := fun t op =>
  match op with
  | .isSymlink entry =>
    match t.entries entry with
    | some (.link _) => some (.ok true, t)
    | _ => none
  | .realpath entry =>
    match t.entries entry with
    | some (.link target) => some (.ok target, t)
    | _ => none
  | .isDirectory path => some (.ok (t.isDirectory path), t)
  | .openRead path =>
    match t.archive path with
    | some (.file _) => some (.ok (), t)
    | _ => none
  | .fstat path =>
    match t.archive path with
    | some (.file f) => some (.ok ⟨true, f.owner, f.mode⟩, t)
    | _ => none
  | .read path size =>
    match t.archive path with
    | some (.file f) => some (.ok (f.content.take size), t)
    | _ => none
  | .chownCurrent _ => if t.entries "current" = none then none else some (.ok (), t)
  | op => answerRoot (fun _ => none) t op

theorem answerRoot_ok {t t' : LineageTree} {op : StoreOp} {r : Except Exc (storage.Reply op)}
    (h : answerRoot (fun _ => none) t op = some (r, t')) : ∃ reply, r = .ok reply := by
  cases op with
  | makeDirectory directory =>
    cases directory <;>
    · simp only [answerRoot] at h
      split at h <;> cases h
      exact ⟨_, rfl⟩
  | fchown path uid | write path content =>
    simp only [answerRoot] at h
    split at h
    · split at h <;> cases h
      exact ⟨_, rfl⟩
    · cases h
  | replaceCurrent entry =>
    simp only [answerRoot] at h
    split at h
    · split at h <;> cases h
      exact ⟨_, rfl⟩
    · cases h
  | pathExists | makeGeneration | createFile | symlink | unlink =>
    simp only [answerRoot] at h
    split at h <;> cases h
    exact ⟨_, rfl⟩
  | geteuid | tokenHex | close | chmodDirectory | chownDirectory | chownGeneration | fsync =>
    cases h
    exact ⟨_, rfl⟩
  | isSymlink | realpath | isDirectory | openRead | fstat | read | chownCurrent | removeGeneration => cases h

theorem answerReads_allowed : answerReads.Allowed (succeeding (LineageTree.Step 0)) := by
  intro t op r t' h
  have hroot : answerRoot (fun _ => none) t op = some (r, t') → succeeding (LineageTree.Step 0) t op r t' := by
    intro hanswer
    obtain ⟨reply, rfl⟩ := answerRoot_ok hanswer
    exact ⟨reply, rfl, answerRoot_unfailing _ _ _ _ hanswer⟩
  cases op with
  | isSymlink entry =>
    simp only [answerReads] at h
    split at h <;> cases h
    rename_i target hlink
    exact ⟨true, rfl, rfl, fun _ => ⟨target, hlink⟩, fun _ => rfl⟩
  | realpath entry =>
    simp only [answerReads] at h
    split at h <;> cases h
    rename_i target hlink
    exact ⟨target, rfl, rfl, hlink⟩
  | isDirectory path =>
    cases h
    exact ⟨_, rfl, rfl, rfl⟩
  | openRead path =>
    simp only [answerReads] at h
    split at h <;> cases h
    rename_i f hfile
    exact ⟨(), rfl, rfl, _, hfile, nofun⟩
  | fstat path =>
    simp only [answerReads] at h
    split at h <;> cases h
    rename_i f hfile
    exact ⟨_, rfl, rfl, Or.inr ⟨f, hfile, rfl⟩⟩
  | read path size =>
    simp only [answerReads] at h
    split at h <;> cases h
    rename_i f hfile
    exact ⟨_, rfl, rfl, f, hfile, rfl⟩
  | chownCurrent uid =>
    simp only [answerReads] at h
    split at h <;> cases h
    rename_i hcurrent
    exact ⟨(), rfl, rfl, hcurrent⟩
  | _ => exact hroot h

/-- The commit by root of the generation whose leaf is `B`, beside the old one. -/
def committed : Outcome Exc LineageMaterial × LineageTree :=
  ((Sample.material.commitCall "new").run Sample.ctx publisherUser).runFor answerReads 200 oldTree

/-- The selection of the chain of the leaf `B`. -/
def selected : Outcome Exc LineageMaterial × List (Event publisher Exc) :=
  (NativeAcmeService.selectChain Sample.ctx (Sample.config Sample.certificate) Sample.certificate Sample.privateKey
    (Sample.ctx.privateKeyPem Sample.privateKey) ["BI"]).runFor answers 50 []

end IssuedMaterialSample

open StoreAux IssuedMaterialSample in
/-- The selected chain is committed by root, loaded, and accepted again. -/
theorem issued_material_accepted_sample :
    committed.1 = .returned Sample.material ∧ ∃ now rootFile fingerprint chain,
      AcceptedAt Sample.ctx (Sample.config Sample.certificate) Sample.certificate now rootFile Sample.material fingerprint chain ∧
        (committed.2.entries "current" = oldTree.entries "current" ∨
          committed.2.loaded Sample.ctx publisherUser = some Sample.material) := by
  have hreturned : selected.1 = .returned Sample.material := by decide +kernel
  have hselected := exec_of_runFor answers_allowed hreturned
  have hcommitted : committed.1 = .returned Sample.material := by decide +kernel
  have hrun := exec_of_runFor answerReads_allowed hcommitted
  have hpem : PemInverse Sample.ctx Sample.material := ⟨by decide +kernel, by decide +kernel, by decide +kernel⟩
  obtain ⟨now, rootFile, fingerprint, chain, -, -, -, -, hruns⟩ :=
    issued_material_accepted Sample.ctx (Sample.config Sample.certificate) Sample.certificate Sample.privateKey ["BI"] hselected
      hpem (Or.inl rfl : (0 : Nat) = 0 ∨ 0 = publisherUser.expectedOwnerUid) "new" oldTree
  obtain ⟨hloaded, -, hsound⟩ := hruns _ _ hrun
  exact ⟨hcommitted, now, rootFile, fingerprint, chain, (hloaded _ rfl).2.2.2, hsound⟩

end OciAcmePublisher
