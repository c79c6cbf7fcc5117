import OciAcmePublisher.Lemmas.Disciplines

/-!
# What a run has read before it issues or imports

An order, a committed generation, a created certificate and an uploaded version have a licence: the certificate set they
are for, the staging evidence that qualifies it where the environment is production, and the validated material that OCI
is given.
-/

namespace OciAcmePublisher

open Effects

/-- The operation issues material or gives it to OCI. -/
def Op.issues : Op → Bool
  | .newOrder .. | .commitLineage .. | .createImportedCertificate .. | .uploadPendingVersion .. => true
  | _ => false

/-- What OCI is given by the operation. -/
def Op.imports : Op → Option ImportedVersion
  | .createImportedCertificate _ _ imported _ | .uploadPendingVersion _ _ imported _ => some imported
  | _ => none

namespace Licences

/-- What a run has performed so far. -/
abbrev Past := List (Event publisher Exc)

/-- The operation is for the certificate set, as it is configured or with the OCID that the store has confirmed for it. -/
def IsFor (Γ : Ctx) (certificate : CertificateConfig) (t : Past) : Op → Prop
  | .newOrder csr _ => ∃ key, csr = Γ.csr certificate.commonName certificate.domains key
  | .commitLineage id _ => id = certificate.id
  | .createImportedCertificate compartment name _ _ =>
    certificate.oci.certificateOcid = none ∧ compartment = certificate.oci.compartmentOcid ∧
    name = certificate.oci.certificateName
  | .uploadPendingVersion ocid _ _ _ => certificate.oci.certificateOcid = some ocid ∨
      certificate.oci.certificateOcid = none ∧ ⟨.sql (.selectConfirmedOcid certificate.id), .ok (some ocid)⟩ ∈ t
  | _ => True

/-- The run has read staging evidence that qualifies the certificate set. -/
def Qualified (config : AppConfig) (certificate : CertificateConfig) (t : Past) : Prop :=
  config.compatibility.liveVerified = true ∧ ∃ path ∈ config.compatibility.liveEvidencePaths, ∃ evidence : Evidence,
    ⟨.readEvidence path, .ok evidence⟩ ∈ t ∧ evidence.qualifies (certificateProfile certificate) = true

/-- The run has loaded the material of the certificate set, which is valid at a time it has read and has a chain to the
root it has read. -/
structure Vetted (Γ : Ctx) (config : AppConfig) (certificate : CertificateConfig) (material : LineageMaterial)
    (fingerprint : String)
    (chain : OciCertificateChain) (t : Past) : Prop where
  loaded : ⟨.loadLineage certificate.id, .ok material⟩ ∈ t
  valid : ∃ now : Instant, ⟨.now, .ok now⟩ ∈ t ∧
    validateCertificateMaterial Γ material certificate config.compatibility config.global now = .ok fingerprint
  chained : ∃ raw : Bytes, ⟨.readFile certificate.chain.rootPemPath, .ok raw⟩ ∈ t ∧
    buildOciChain Γ (some raw) material certificate config.compatibility = .ok chain

/-- What OCI is given is the vetted material, named after its fingerprint and a time the run has read. -/
def Imports (Γ : Ctx) (config : AppConfig) (certificate : CertificateConfig) (imported : ImportedVersion) (t : Past) : Prop :=
  ∃ material fingerprint chain, Vetted Γ config certificate material fingerprint chain t ∧
    (∃ now : Instant, ⟨.now, .ok now⟩ ∈ t ∧ versionName Γ now fingerprint = .ok imported.versionName) ∧
      imported.certificatePem = material.leafPem ∧ imported.certChainPem = chain.certChainPem ∧
        imported.privateKeyPem = material.privateKeyPem

/-- The licence of an operation that issues or imports. -/
structure Licence (Γ : Ctx) (config : AppConfig) (t : Past) (op : Op) (certificate : CertificateConfig) : Prop where
  configured : certificate ∈ config.certificates
  isFor : IsFor Γ certificate t op
  qualified : config.global.environment = .production → Qualified config certificate t
  imports : ∀ imported, op.imports = some imported → Imports Γ config certificate imported t

/-- What is performed has its licence. -/
def Licensed (Γ : Ctx) (config : AppConfig) (t : Past) (e : Event publisher Exc) : Prop :=
  e.op.issues = true → ∃ certificate, Licence Γ config t e.op certificate

variable {Γ : Ctx} {config : AppConfig} {certificate : CertificateConfig} {material : LineageMaterial}
  {chain : OciCertificateChain} {fingerprint : String} {α β : Type} {φ : Past → Prop} {passes : Nat}

theorem lasting_qualified : Lasting (Qualified config certificate) :=
  fun _ _ h => ⟨h.1, h.2.imp fun _ h => ⟨h.1, h.2.imp fun _ h => ⟨List.mem_append_left _ h.1, h.2⟩⟩⟩

theorem lasting_vetted : Lasting (Vetted Γ config certificate material fingerprint chain) :=
  fun _ _ h => ⟨List.mem_append_left _ h.loaded, h.valid.imp fun _ h => ⟨List.mem_append_left _ h.1, h.2⟩,
    h.chained.imp fun _ h => ⟨List.mem_append_left _ h.1, h.2⟩⟩

/-! ## The judgement -/

/-- With what is known of the past, every operation has its licence. -/
abbrev Proper (Γ : Ctx) (config : AppConfig) (φ : Past → Prop) (p : Action α) (ψ : α → Past → Prop) : Prop :=
  Guarded anyAnswer (Justifies (Licensed Γ config)) φ p ψ fun _ _ => True

theorem proper_bind {ψ : α → Past → Prop} {χ : β → Past → Prop} {p : Action α} {f : α → Action β} (hp : Proper Γ config φ p ψ)
    (hf : ∀ a, Proper Γ config (ψ a) (f a) χ) : Proper Γ config φ (p.bind f) χ :=
  Guarded.bind hp hf

/-- A program that issues and imports nothing. -/
theorem proper_plain (hφ : Lasting φ) {p : Action α} (hp : p.Uses fun op : Op => op.issues = false) :
    Proper Γ config φ p fun _ => φ :=
  hφ.justifies hp fun _ _ _ _ hop hissues => by rw [hop] at hissues; cases hissues

/-- A read, whose answer is known afterwards. -/
theorem proper_read (hφ : Lasting φ) {op : Op} (hop : op.issues = false) :
    Proper Γ config φ (perform op) fun a t => φ t ∧ ⟨op, .ok a⟩ ∈ t :=
  hφ.answers fun _ _ _ hissues => by rw [hop] at hissues; cases hissues

theorem proper_ofExcept {ψ : β → Past → Prop} {e : Except Exc α} {f : α → Action β}
    (hf : ∀ a, e = .ok a → Proper Γ config φ (f a) ψ) : Proper Γ config φ ((ofExcept e).bind f) ψ := by
  cases e with
  | ok a => exact hf a rfl
  | error x => exact Guarded.raise fun _ _ => trivial

/-- Nothing more is claimed of what is known. -/
theorem proper_rest {p : Action α} (hp : Keeps anyAnswer (Justifies (Licensed Γ config)) p) :
    Proper Γ config φ p fun _ _ => True :=
  hp.conseq (fun _ _ => trivial) (fun _ _ h => h) fun _ _ h => h

/-! ## What issues nothing -/

theorem plain_of_idle (op : Op) (h : op.idle = true) : op.issues = false := by
  cases op <;> first | rfl | cases h

theorem plain_of_footprint {certificateId operationId : String} (op : Op)
    (h : StateStore.footprint certificateId operationId op = true) : op.issues = false := by
  cases op <;> first | rfl | cases h

theorem plain_of_quiet {certificateId operationId : String} (op : Op) (h : op.quiet certificateId operationId = true) :
    op.issues = false := by
  rcases Bool.or_eq_true _ _ ▸ h with hidle | hfoot
  · exact plain_of_idle op hidle
  · exact plain_of_footprint op hfoot

theorem plain_of_observes (op : Op) (h : op.observes = true) : op.issues = false := by
  cases op <;> first | rfl | cases h

theorem plain_of_recordsAudit (op : Op) (h : StateStore.recordsAudit op = true) : op.issues = false := by
  cases op <;> first | rfl | cases h

theorem plain_audit (id : String) : (PublicationService.audit Γ config passes id).Uses fun op : Op => op.issues = false :=
  PublicationService.uses_audit (fun _ _ op h => plain_of_quiet op h) plain_of_observes (fun _ _ _ => rfl) plain_of_recordsAudit
    passes id

theorem plain_rollback (id : String) : (PublicationService.rollback Γ config passes id).Uses fun op : Op => op.issues = false :=
  PublicationService.uses_rollback (fun _ _ op h => plain_of_quiet op h) plain_of_observes (fun _ _ _ => rfl) (fun _ _ _ _ => rfl)
    passes id

theorem plain_retention (id : String) : (PublicationService.retention config id).Uses fun op : Op => op.issues = false :=
  PublicationService.uses_retention plain_of_idle (fun _ _ _ _ _ => rfl) id

/-! ## What is read first -/

theorem proper_search (paths : List String) (hpaths : ∀ path ∈ paths, path ∈ config.compatibility.liveEvidencePaths)
    (hlive : config.compatibility.liveVerified = true) :
    Proper Γ config (fun _ => True) (requireQualifiedProfile.search (certificateProfile certificate) paths)
      fun _ => Qualified config certificate := by
  induction paths with
  | nil => exact Guarded.raise fun _ _ => trivial
  | cons path rest ih =>
    refine proper_bind (proper_read (Lasting.const True) rfl) fun evidence => ?_
    split
    · rename_i hqualifies
      exact Guarded.ret fun t ht => ⟨hlive, path, hpaths path List.mem_cons_self, evidence, ht.2, hqualifies⟩
    · exact (ih fun p hp => hpaths p (List.mem_cons_of_mem _ hp)).conseq (fun _ _ => trivial) (fun _ _ h => h) fun _ _ h => h

/-- Production is gated. -/
theorem proper_gate : Proper Γ config (fun _ => True) (PublicationService.requireProductionQualification config certificate)
    fun _ t => config.global.environment = .production → Qualified config certificate t := by
  unfold PublicationService.requireProductionQualification requireQualifiedProfile
  split
  · split
    · exact Guarded.raise fun _ _ => trivial
    · rename_i hlive
      exact (proper_search _ (fun _ h => h) (by simpa using hlive)).conseq (fun _ h => h) (fun _ _ h _ => h) fun _ _ h => h
  · rename_i hproduction
    exact Guarded.ret fun _ _ h => absurd h hproduction

theorem proper_buildChain (hφ : Lasting φ) : Proper Γ config φ (buildChain Γ config certificate material) fun chain t =>
    φ t ∧ ∃ raw : Bytes, ⟨.readFile certificate.chain.rootPemPath, .ok raw⟩ ∈ t ∧
      buildOciChain Γ (some raw) material certificate config.compatibility = .ok chain := by
  -- a root file that cannot be read has no chain, so nothing is known of the past there
  refine proper_bind (ψ := fun rootFile t => ∀ raw, rootFile = some raw →
    φ t ∧ ⟨.readFile certificate.chain.rootPemPath, .ok raw⟩ ∈ t) ?_ fun rootFile => ?_
  · refine proper_bind (Guarded.attempt (proper_read hφ rfl)) fun content => ?_
    cases content with
    | ok raw =>
      refine Guarded.ret fun t ht raw' hraw => ?_
      cases hraw
      exact ht
    | error x =>
      simp only
      split
      · exact Guarded.ret fun t _ raw hraw => by cases hraw
      · exact Guarded.raise fun _ _ => trivial
  · cases rootFile with
    | none => exact Guarded.raise fun _ _ => trivial
    | some raw =>
      cases hchain : buildOciChain Γ (some raw) material certificate config.compatibility with
      | error x => exact Guarded.raise fun _ _ => trivial
      | ok chain => exact Guarded.ret fun t ht => ⟨(ht raw rfl).1, raw, (ht raw rfl).2, hchain⟩

/-! ## Issuance -/

/-- The operation is idle, or issues material for the certificate set. -/
def issuing (Γ : Ctx) (certificate : CertificateConfig) (op : Op) : Prop :=
  op.issues = false ∨ op.imports = none ∧ ∀ t, IsFor Γ certificate t op

theorem issuing_of_idle (op : Op) (h : op.idle = true) : issuing Γ certificate op := Or.inl (plain_of_idle op h)

theorem uses_runOrder (privateKey : PrivateKey) :
    (NativeAcmeService.runOrder Γ config certificate privateKey).Uses (issuing Γ certificate) := by
  have hplaced : (NativeAcmeService.placeOrder Γ config certificate privateKey).Uses (issuing Γ certificate) := by
    refine Program.uses_bind (Program.uses_perform.2 (Or.inl rfl)) fun _ => ?_
    refine Program.uses_bind (Program.uses_perform.2 (Or.inr ⟨rfl, fun _ => ⟨privateKey, rfl⟩⟩)) fun order => ?_
    simp only
    split <;> trivial
  refine Program.uses_bind (Program.uses_attempt hplaced) fun placed => ?_
  cases placed with
  | error x => trivial
  | ok order =>
    refine Program.uses_bind (NativeAcmeService.uses_answerChallenges issuing_of_idle _ _ _) fun answered => ?_
    obtain ⟨outcome, paths⟩ := answered
    cases outcome with
    | error x => trivial
    | ok _ =>
      exact Program.uses_bind (Program.uses_attempt (NativeAcmeService.uses_finalize issuing_of_idle (fun _ _ => Or.inl rfl)
        (fun _ => Or.inr ⟨rfl, fun _ => rfl⟩) _ _)) fun _ => trivial

/-- What is issued is issued for the certificate set. -/
theorem uses_issue (force : Bool) : (NativeAcmeService.issue Γ config certificate force).Uses (issuing Γ certificate) := by
  refine Program.uses_bind (NativeAcmeService.uses_loadOptional (Or.inl rfl) (Or.inl rfl)) fun current => ?_
  refine Program.uses_bind (NativeAcmeService.uses_reusable (Or.inl rfl) force current) fun reused => ?_
  cases reused with
  | some material => trivial
  | none =>
    refine Program.uses_bind (NativeAcmeService.uses_certificateKey issuing_of_idle current) fun privateKey => ?_
    refine Program.uses_bind (uses_runOrder privateKey) fun outcome => ?_
    exact Program.uses_bind (NativeAcmeService.uses_removeChallenges (fun _ => Or.inl rfl) _) fun _ => uses_ofExcept

theorem proper_issue (hφ : Lasting φ) (hc : certificate ∈ config.certificates)
    (hq : ∀ t, φ t → config.global.environment = .production → Qualified config certificate t) (force : Bool) :
    Proper Γ config φ (NativeAcmeService.issue Γ config certificate force) fun _ => φ := by
  refine hφ.justifies (uses_issue force) fun t op _ ht hop hissues => ?_
  rcases hop with hplain | ⟨hnone, hfor⟩
  · rw [hplain] at hissues
    cases hissues
  · exact ⟨certificate, hc, hfor t, hq t ht, fun imported himports => by rw [hnone] at himports; cases himports⟩

/-! ## Publication -/

/-- The operation is idle, or imports the material for the certificate set. -/
def importing (Γ : Ctx) (certificate : CertificateConfig) (material : LineageMaterial) (chain : OciCertificateChain)
    (fingerprint : String) (now : Instant) (op : Op) : Prop :=
  op.issues = false ∨ (∀ t, IsFor Γ certificate t op) ∧ ∀ imported, op.imports = some imported →
    versionName Γ now fingerprint = .ok imported.versionName ∧ imported.certificatePem = material.leafPem ∧
      imported.certChainPem = chain.certChainPem ∧ imported.privateKeyPem = material.privateKeyPem

theorem uses_ofExcept_bind {A : Op → Prop} {e : Except Exc α} {f : α → Action β} (hf : ∀ a, e = .ok a → (f a).Uses A) :
    ((ofExcept e).bind f).Uses A := by
  cases e with
  | ok a => exact hf a rfl
  | error x => trivial

variable {now : Instant} {operationType : OperationType}

theorem uses_publish :
    (PublicationReconciler.publish Γ config certificate material chain fingerprint now operationType).Uses
      (importing Γ certificate material chain fingerprint now) := by
  have hidle : ∀ op : Op, op.idle = true → importing Γ certificate material chain fingerprint now op :=
    fun op h => Or.inl (plain_of_idle op h)
  have hfoot : ∀ (certificateId operationId : String) (op : Op), StateStore.footprint certificateId operationId op = true →
      importing Γ certificate material chain fingerprint now op := fun _ _ op h => Or.inl (plain_of_footprint op h)
  unfold PublicationReconciler.publish
  split
  · trivial
  · rename_i ocid hocid
    refine Program.uses_bind (StateStore.uses_startOperation (Or.inl rfl) (Or.inl rfl) _ _ _ _ fun _ _ _ _ _ => Or.inl rfl)
      fun operation => ?_
    refine Program.uses_bind (Program.uses_perform.2 (Or.inl rfl)) fun requestId => ?_
    refine Program.uses_bind (Program.uses_perform.2 (Or.inl rfl)) fun remote => ?_
    refine Program.uses_bind (Program.uses_perform.2 (Or.inl rfl)) fun bundle => ?_
    refine Program.uses_bind uses_ofExcept fun current => ?_
    refine Program.uses_bind (StateStore.uses_transition (hfoot certificate.id _) _ _) fun _ => ?_
    split
    · refine Program.uses_bind (Program.uses_perform.2 (Or.inl rfl)) fun _ => ?_
      exact PublicationReconciler.uses_complete (fun op h => hidle op (idle_of_records op h)) (hfoot _ _) _ _ _
    · refine Program.uses_bind ?_ fun candidate => PublicationReconciler.uses_promoteAndConfirm (hfoot _ _)
        (fun op h => hidle op (idle_of_records op h)) (fun op h => hidle op (idle_of_pauses op h)) (fun _ _ _ => Or.inl rfl)
        (Or.inl rfl) (Or.inl rfl) (fun _ _ => Or.inl rfl) _
      refine Program.uses_bind (PublicationReconciler.uses_findMatchingPending hidle) fun found => ?_
      cases found with
      | some version => trivial
      | none =>
        refine uses_ofExcept_bind fun label hlabel => ?_
        refine Program.uses_bind (Program.uses_perform.2 (Or.inr ⟨fun _ => Or.inl hocid, ?_⟩)) fun _ => ?_
        · rintro imported himports
          cases himports
          exact ⟨hlabel, rfl, rfl, rfl⟩
        refine Program.uses_bind (StateStore.uses_transition (hfoot certificate.id _) _ _) fun _ => ?_
        refine Program.uses_bind (Program.uses_perform.2 (Or.inl rfl)) fun _ => ?_
        refine Program.uses_bind (PublicationReconciler.uses_findMatchingPending hidle) fun visible => ?_
        cases visible <;> trivial

/-! ## The services -/

/-- What is loaded, validated and chained is vetted from there on. -/
theorem proper_vetted (hφ : Lasting φ) {ψ : β → Past → Prop} {f : LineageMaterial → String → OciCertificateChain → Action β}
    (hf : ∀ material fingerprint chain, Proper Γ config (fun t => φ t ∧ Vetted Γ config certificate material fingerprint chain t)
      (f material fingerprint chain) ψ) :
    Proper Γ config φ ((perform (.loadLineage certificate.id)).bind fun material => (perform .now).bind fun now =>
      (ofExcept (validateCertificateMaterial Γ material certificate config.compatibility config.global now)).bind
      fun fingerprint =>
        (buildChain Γ config certificate material).bind fun chain => f material fingerprint chain) ψ := by
  refine proper_bind (proper_read hφ rfl) fun material => ?_
  refine proper_bind (proper_read (hφ.and (Lasting.mem _)) rfl) fun now => proper_ofExcept fun fingerprint hvalid => ?_
  refine proper_bind (proper_buildChain ((hφ.and (Lasting.mem _)).and (Lasting.mem _))) fun chain => ?_
  exact (hf material fingerprint chain).conseq
    (fun t ht => ⟨ht.1.1.1, ht.1.1.2, ⟨now, ht.1.2, hvalid⟩, ht.2⟩) (fun _ _ h => h) fun _ _ h => h

theorem configured_of_ok {id : String} (h : configuredCertificate config id = .ok certificate) :
    certificate ∈ config.certificates := by
  unfold configuredCertificate at h
  split at h
  · rename_i hfound
    cases h
    exact List.mem_of_find?_eq_some hfound
  · cases h

/-- Where the gate has been passed. -/
abbrev passedGate (config : AppConfig) (certificate : CertificateConfig) (t : Past) : Prop :=
  config.global.environment = .production → Qualified config certificate t

theorem publish_proper (id : String) :
    Keeps anyAnswer (Justifies (Licensed Γ config)) (PublicationService.publish Γ config passes id operationType) := by
  refine proper_ofExcept fun certificate hcertificate => ?_
  have hgate : Lasting (passedGate config certificate) := lasting_qualified.imp
  refine proper_bind proper_gate fun _ => proper_vetted hgate fun material fingerprint chain => ?_
  refine proper_bind (proper_plain (hgate.and lasting_vetted) (Program.uses_perform.2 rfl)) fun _ => ?_
  refine proper_bind (proper_plain (hgate.and lasting_vetted) (PublicationService.uses_openPorts plain_of_idle)) fun _ => ?_
  refine proper_bind (proper_read (hgate.and lasting_vetted) rfl) fun now => ?_
  refine proper_bind (((hgate.and lasting_vetted).and (Lasting.mem _)).justifies uses_publish ?_) fun result => ?_
  · rintro t op r ⟨⟨hq, hvetted⟩, hnow⟩ hop hissues
    rcases hop with hplain | ⟨hfor, himports⟩
    · rw [hplain] at hissues
      cases hissues
    · exact ⟨certificate, configured_of_ok hcertificate, hfor t, hq, fun imported hop =>
        ⟨material, fingerprint, chain, hvetted, ⟨now, hnow, (himports imported hop).1⟩, (himports imported hop).2⟩⟩
  · refine proper_rest (Keeps.frame (A := fun op : Op => op.issues = false) ?_ ?_)
    · refine Program.uses_bind (Program.uses_perform.2 rfl) fun _ => Program.uses_bind ?_ fun _ => ?_
      · exact PublicationService.uses_runPostPublicationAudit (fun _ _ op h => plain_of_quiet op h) plain_of_observes
          (fun _ _ _ => rfl) plain_of_recordsAudit (fun _ _ _ _ => rfl) passes
      · exact Program.uses_bind (PublicationService.uses_runPostPublicationRetention plain_of_idle fun _ _ _ _ _ => rfl)
          fun _ => trivial
    · rintro op hop t r _ rfl
      exact justifies_snoc fun hissues => by rw [hop] at hissues; cases hissues

theorem renew_proper (id : String) (force : Bool) :
    Keeps anyAnswer (Justifies (Licensed Γ config)) (PublicationService.renew Γ config passes id force) := by
  refine proper_ofExcept fun certificate hcertificate => ?_
  have hgate : Lasting (passedGate config certificate) := lasting_qualified.imp
  refine proper_bind proper_gate fun _ => ?_
  refine proper_bind (proper_plain hgate (PublicationService.uses_runPreflight plain_of_idle)) fun _ => ?_
  refine proper_bind (proper_plain hgate (PublicationService.uses_beforeFingerprint plain_of_idle)) fun _ => ?_
  refine proper_bind (proper_plain hgate (Program.uses_perform.2 rfl)) fun _ => ?_
  refine proper_bind (proper_issue hgate (configured_of_ok hcertificate) (fun _ h => h) _) fun _ => ?_
  exact proper_bind (proper_plain hgate (Program.uses_perform.2 rfl)) fun _ => proper_rest (publish_proper _)

/-! ### Bootstrap -/

theorem plain_transition {operationId : String} {state : OperationState} {fields : TransitionFields} :
    (StateStore.transition operationId state fields).Uses fun op : Op => op.issues = false :=
  StateStore.uses_transition (@plain_of_footprint "" operationId) _ _

theorem plain_confirmCreated {operationId : String} (ocid : String) (bundle : OciPublicBundle) (remoteFingerprint : String)
    (requestId : Option String) :
    (PublicationService.confirmCreated certificate fingerprint operationId ocid bundle remoteFingerprint requestId).Uses
      fun op : Op => op.issues = false :=
  Program.uses_bind plain_transition fun _ => Program.uses_bind (StateStore.uses_recordFacts rfl fun _ => rfl) fun _ =>
    Program.uses_bind plain_transition fun _ => trivial

theorem plain_readCreated (ocid requestId mismatch : String) :
    (PublicationService.readCreated Γ config certificate fingerprint ocid requestId mismatch).Uses
      fun op : Op => op.issues = false := by
  refine Program.uses_bind (Program.uses_perform.2 rfl) fun bundle => Program.uses_bind (Program.uses_perform.2 rfl) fun now => ?_
  refine Program.uses_bind uses_ofExcept fun remoteFingerprint => ?_
  split <;> trivial

theorem plain_creationFailed {operationId : String} (created : Bool) (error : Exc) :
    (PublicationService.creationFailed operationId created error).Uses fun op : Op => op.issues = false := by
  unfold PublicationService.creationFailed
  split
  · exact Program.uses_bind plain_transition fun _ => trivial
  · split
    · exact Program.uses_bind plain_transition fun _ => trivial
    · trivial

theorem plain_recoverBootstrap :
    (PublicationService.recoverBootstrap Γ config certificate fingerprint).Uses fun op : Op => op.issues = false := by
  refine Program.uses_bind (Program.uses_perform.2 rfl) fun active => ?_
  split
  · trivial
  · split
    · trivial
    · refine Program.uses_bind (Program.uses_perform.2 rfl) fun requestId => ?_
      refine Program.uses_bind (plain_readCreated _ _ _) fun read => Program.uses_bind (plain_confirmCreated _ _ _ _)
        fun result => ?_
      exact Program.uses_bind (Program.uses_perform.2 rfl) fun _ => trivial
  · trivial

theorem creates_proper (hφ : Lasting φ) (hc : certificate ∈ config.certificates) (hocid : certificate.oci.certificateOcid = none)
    (hq : ∀ t, φ t → passedGate config certificate t) (requestId : String) :
    Proper Γ config (fun t => φ t ∧ Vetted Γ config certificate material fingerprint chain t)
      (PublicationService.create Γ certificate material chain fingerprint requestId) fun _ _ => True := by
  refine proper_bind (proper_read (hφ.and lasting_vetted) rfl) fun now => proper_ofExcept fun label hlabel => ?_
  refine (((hφ.and lasting_vetted).and (Lasting.mem _)).answers ?_).conseq (fun _ h => h) (fun _ _ _ => trivial) fun _ _ h => h
  rintro t r ⟨⟨ht, hvetted⟩, hnow⟩ -
  refine ⟨certificate, hc, ⟨hocid, rfl, rfl⟩, hq t ht, fun imported himports => ?_⟩
  cases himports
  exact ⟨material, fingerprint, chain, hvetted, ⟨now, hnow, hlabel⟩, rfl, rfl, rfl⟩

theorem createCertificate_proper (hφ : Lasting φ) (hc : certificate ∈ config.certificates)
    (hocid : certificate.oci.certificateOcid = none) (hq : ∀ t, φ t → passedGate config certificate t) :
    Proper Γ config (fun t => φ t ∧ Vetted Γ config certificate material fingerprint chain t)
      (PublicationService.createCertificate Γ config certificate material chain fingerprint) fun _ _ => True := by
  have hplain : ∀ {γ : Type} {p : Action γ}, p.Uses (fun op : Op => op.issues = false) →
      Keeps anyAnswer (Justifies (Licensed Γ config)) p := fun hp => proper_plain (Lasting.const True) hp
  have hlasts : Lasting fun t => φ t ∧ Vetted Γ config certificate material fingerprint chain t := hφ.and lasting_vetted
  refine proper_bind (proper_plain hlasts (StateStore.uses_startOperation (A := fun op : Op => op.issues = false) rfl rfl _ _ _ _
    fun _ _ _ _ _ => rfl)) fun operation => ?_
  refine proper_bind (proper_plain hlasts plain_transition) fun _ => ?_
  refine proper_bind (ψ := fun _ _ => True) ((Guarded.attempt (Q := fun _ _ => True) (E := fun _ _ => True) ?_).conseq
    (fun _ h => h) (fun _ _ _ => trivial) fun _ _ h => h) fun outcome => ?_
  · refine proper_bind (proper_plain hlasts (Program.uses_perform.2 rfl)) fun requestId => ?_
    exact proper_bind (creates_proper hφ hc hocid hq requestId) fun _ => Guarded.ret fun _ _ => trivial
  · cases outcome with
    | error x => exact hplain (plain_creationFailed _ _)
    | ok created =>
      obtain ⟨requestId, ocid⟩ := created
      refine hplain (Program.uses_handle ?_ fun x => plain_creationFailed _ _)
      exact Program.uses_bind plain_transition fun _ => Program.uses_bind (plain_readCreated _ _ _) fun read =>
        plain_confirmCreated _ _ _ _

theorem bootstrap_proper (id : String) :
    Keeps anyAnswer (Justifies (Licensed Γ config)) (PublicationService.bootstrap Γ config id) := by
  refine proper_ofExcept fun certificate hcertificate => ?_
  have hgate : Lasting (passedGate config certificate) := lasting_qualified.imp
  split
  · exact Guarded.raise fun _ _ => trivial
  · rename_i hocid
    refine proper_bind proper_gate fun _ => ?_
    refine proper_bind (proper_plain hgate (PublicationService.uses_runPreflight plain_of_idle)) fun _ => ?_
    refine proper_bind (proper_plain hgate (Program.uses_perform.2 rfl)) fun _ => ?_
    refine proper_bind (proper_issue hgate (configured_of_ok hcertificate) (fun _ h => h) _) fun _ => ?_
    refine proper_bind (proper_plain hgate (Program.uses_perform.2 rfl)) fun _ => ?_
    refine proper_vetted hgate fun material fingerprint chain => ?_
    refine proper_bind (proper_plain (hgate.and lasting_vetted) (PublicationService.uses_openPorts plain_of_idle)) fun _ => ?_
    refine proper_bind (proper_plain (hgate.and lasting_vetted) plain_recoverBootstrap) fun recovered => ?_
    cases recovered with
    | some result => exact Guarded.ret fun _ _ => trivial
    | none => exact createCertificate_proper hgate (configured_of_ok hcertificate) (by simpa using hocid) fun _ h => h

/-! ### The timer run -/

/-- The OCID is no part of what is validated and chained. -/
theorem imports_recovered {certificate' : CertificateConfig} {ocid : String} {imported : ImportedVersion} {t : Past}
    (hsame : certificate' = certificate ∨ certificate' = certificate.withOcid ocid) {recovered : CertificateConfig}
    (h : Imports Γ (PublicationService.withRecoveredOcid config recovered ocid) certificate' imported t) :
    Imports Γ config certificate imported t := by
  obtain ⟨material, fingerprint, chain, hvetted, hnow, hpem⟩ := h
  refine ⟨material, fingerprint, chain, ?_, hnow, hpem⟩
  rcases hsame with rfl | rfl
  · exact ⟨hvetted.loaded, hvetted.valid, hvetted.chained⟩
  · exact ⟨hvetted.loaded, hvetted.valid, hvetted.chained⟩

/-- A licence with the configuration of a recovered OCID is one with the configuration it was recovered for. -/
theorem licensed_recovered {ocid : String} (hc : certificate ∈ config.certificates)
    (hocid : certificate.oci.certificateOcid = none)
    {t : Past} {e : Event publisher Exc} (ht : ⟨.sql (.selectConfirmedOcid certificate.id), .ok (some ocid)⟩ ∈ t)
    (h : Licensed Γ (PublicationService.withRecoveredOcid config certificate ocid) t e) : Licensed Γ config t e := by
  intro hissues
  obtain ⟨c, hmem, hfor, hq, himports⟩ := h hissues
  obtain ⟨item, hitem, hsame⟩ := List.mem_map.1 hmem
  split at hsame
  · subst hsame
    refine ⟨certificate, hc, ?_, hq, fun imported hop => imports_recovered (Or.inr rfl) (himports imported hop)⟩
    revert hfor
    generalize e.op = op
    cases op with
    | uploadPendingVersion id etag imported requestId =>
      rintro (hid | ⟨hnone, -⟩)
      · cases hid
        exact Or.inr ⟨hocid, ht⟩
      · cases hnone
    | createImportedCertificate => exact fun hfor => by cases hfor.1
    | _ => exact fun hfor => hfor
  · subst hsame
    exact ⟨item, hitem, hfor, hq, fun imported hop => imports_recovered (Or.inl rfl) (himports imported hop)⟩

theorem attemptRenewal_proper (hc : certificate ∈ config.certificates) :
    Keeps anyAnswer (Justifies (Licensed Γ config)) (PublicationService.attemptRenewal Γ config passes certificate) := by
  unfold PublicationService.attemptRenewal
  split
  · exact renew_proper _ _
  · rename_i hocid
    refine proper_bind (proper_plain (Lasting.const True) (Program.uses_perform.2 rfl)) fun _ => ?_
    refine proper_bind (proper_read (Lasting.const True) rfl) fun recovered => ?_
    cases recovered with
    | none => exact proper_rest (Keeps.bind (bootstrap_proper _) fun _ => Keeps.ret)
    | some ocid =>
      refine (Lasting.weaken (Lasting.mem _) (renew_proper _ _) fun t e ht => licensed_recovered hc hocid ht).conseq
        (fun _ h => h.2) (fun _ _ h => h) fun _ _ h => h

end Licences

open Licences

/-- The services perform nothing without its licence. -/
theorem services_licensed (Γ : Ctx) (passes : Nat) (config : AppConfig) :
    ServicesKeep Γ passes config anyAnswer (Justifies (Licensed Γ config)) where
  idle op hop t r t' h := by
    subst h
    exact justifies_snoc fun hissues => by rw [plain_of_idle op hop] at hissues; cases hissues
  publish id _ _ := publish_proper id
  renew := renew_proper
  attempt _ := attemptRenewal_proper
  bootstrap := bootstrap_proper
  audit id := proper_plain (Lasting.const True) (plain_audit id)
  rollback id := proper_plain (Lasting.const True) (plain_rollback id)
  retention id := proper_plain (Lasting.const True) (plain_retention id)

end OciAcmePublisher
