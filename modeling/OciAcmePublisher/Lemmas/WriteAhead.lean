import OciAcmePublisher.Lemmas.Disciplines
import OciAcmePublisher.Lemmas.OwnRow

/-!
# What the store says before OCI is changed

Every run keeps to this: of a certificate it creates, a version it uploads and a version it promotes, the store already has an
active row, with the fingerprint of what is created or uploaded. The deletion of an old version is scheduled without a row.
-/

namespace OciAcmePublisher

open Effects Tables

/-- The mutation schedules a deletion. -/
def Mutation.schedulesDeletion : Mutation → Bool
  | .deletionScheduled .. => true
  | _ => false

/-- What the store loads is what the PEM files parse to. -/
def LineageMaterial.Parsed (Γ : Ctx) (material : LineageMaterial) : Prop :=
  parseMaterial Γ material.leafPem material.chainPem material.privateKeyPem = some material

/-- The material of every lineage is what its PEM files parse to. -/
def World.Parsed (Γ : Ctx) (w : World) : Prop := ∀ id material, w.lineages id = some material → material.Parsed Γ

/-- The store has an active row that names the change which led from the one world to the other: a bootstrap whose material is
validated, with the fingerprint of all that is in the new certificate; an operation that has reconciled with the OCI certificate
before the upload of a version with its fingerprint; one that names the version before a promotion. -/
def Mutation.Journaled (Γ : Ctx) (w w' : World) : Mutation → Prop
  | .created ocid => ∃ row ∈ w.database.operations.rows, row.state = .localCertValidated ∧ row.operationType = .bootstrap ∧
      ∃ fingerprint r, row.localFingerprint = some fingerprint ∧ w'.certificates ocid = some r ∧
        ∀ v ∈ r.versions.rows, v.fingerprint Γ = some fingerprint
  | .uploaded ocid number => ∃ row ∈ w.database.operations.rows, row.state = .ociReconciled ∧
      row.ociCertificateOcid = some ocid ∧ row.opcRequestId.isSome = true ∧
        ∃ fingerprint r, row.localFingerprint = some fingerprint ∧ w'.certificates ocid = some r ∧
          ∃ v ∈ r.versions.rows, v.number = number ∧ v.fingerprint Γ = some fingerprint
  | .promoted ocid number => ∃ row ∈ w.database.operations.rows,
      (row.state = .ociPendingVerified ∨ row.state = .ociReconciled ∧ row.operationType = .rollback) ∧
        row.ociCertificateOcid = some ocid ∧ row.ociVersionNumber = some number ∧ row.opcRequestId.isSome = true
  | .deletionScheduled .. => False

/-- What OCI accepts, a scheduled deletion apart, is journaled before. -/
def Journals (Γ : Ctx) (w w' : World) : Prop :=
  ∀ m, w'.mutations = w.mutations ++ [m] → m.schedulesDeletion = false → m.Journaled Γ w w'

namespace WriteAhead

variable {Γ : Ctx} {faults : Faults} {config : AppConfig} {certificate : CertificateConfig} {material : LineageMaterial}
  {chain : OciCertificateChain} {now : Instant} {α β : Type} {operationId requestId id F : String} {passes : Nat}
  {rows : List OperationRow} {φ ψ : OperationRow → Prop} {operationType : OperationType}

/-- The judgement of this module: what is known is about the store, and nothing is claimed of exceptions. -/
abbrev Writes (Γ : Ctx) (faults : Faults) (P : Database → Prop) (p : Action α) (Q : α → Database → Prop) : Prop :=
  Guarded (service Γ faults) (Journals Γ) (fun w => P w.database) p (fun a w => Q a w.database) fun _ _ => True

/-- Nothing is known, nothing is claimed. -/
abbrev Free (Γ : Ctx) (faults : Faults) (p : Action α) : Prop := Keeps (service Γ faults) (Journals Γ) p

/-- The operation changes nothing in OCI. -/
def apart (op : Op) : Prop := op.mutatesOci = false

theorem apart_of_idle (op : Op) (h : op.idle = true) : apart op := by
  cases op <;> first | rfl | cases h

theorem apart_of_observes (op : Op) (h : op.observes = true) : apart op := by
  cases op <;> first | rfl | cases h

theorem apart_of_footprint {certificateId : String} (op : Op) (h : StateStore.footprint certificateId operationId op = true) :
    apart op := by
  cases op <;> first | rfl | cases h

theorem apart_of_records (op : Op) (h : StateStore.records op = true) : apart op := apart_of_idle op (idle_of_records op h)

theorem apart_of_pauses (op : Op) (h : pauses op = true) : apart op := apart_of_idle op (idle_of_pauses op h)

theorem journals_of_apart {w w' : World} (h : w'.mutations = w.mutations) : Journals Γ w w' := by
  intro m hm
  rw [h] at hm
  exact absurd (congrArg List.length hm) (by simp)

/-- What PEM files parse to is parsed. -/
theorem parsed_of_parse {leafPem chainPem privateKeyPem : Bytes}
    (h : parseMaterial Γ leafPem chainPem privateKeyPem = some material) : material.Parsed Γ := by
  have hparse := h
  unfold parseMaterial at h
  split at h
  · cases h
    exact hparse
  · cases h

/-- The leaf of parsed material is what its PEM parses to. -/
theorem loadPem_of_parsed (h : material.Parsed Γ) : Γ.loadPem material.leafPem = some material.leaf := by
  unfold LineageMaterial.Parsed parseMaterial at h
  split at h
  · rename_i hleaf _
    rw [hleaf]
    exact congrArg (Option.map LineageMaterial.leaf) h
  · cases h

/-- A version that holds the PEM of parsed material has its fingerprint. -/
theorem fingerprint_of_holds (h : material.Parsed Γ) {v : Version} {imported : ImportedVersion} (hv : v.holds imported)
    (hpem : imported.certificatePem = material.leafPem) : v.fingerprint Γ = some (certificateSha256 material.leaf) := by
  unfold Version.fingerprint
  rw [encodeAscii_of_decodeAscii hv.1, hpem]
  exact congrArg (Option.map certificateSha256) (loadPem_of_parsed h)

/-- A commit stores what the PEM files parse to, and nothing else changes a lineage. -/
theorem parsed_of_service {w w' : World} {op : Op} {answer : Except Exc op.Reply} (hw : w.Parsed Γ)
    (h : service Γ faults w op answer w') : w'.Parsed Γ := by
  by_cases hop : op.commits = false
  · intro id material hmaterial
    rw [service_lineages h hop] at hmaterial
    exact hw id material hmaterial
  · rcases service_cases h with ⟨-, rfl⟩ | rfl | ⟨reply, hs⟩
    · exact hw
    · exact hw
    · cases op with
      | commitLineage id generation =>
        obtain ⟨hparsed, rfl⟩ := hs
        intro id' material (hmaterial : Function.update w.lineages id (some reply) id' = some material)
        by_cases hid : id' = id
        · rw [hid, Function.update_self] at hmaterial
          obtain rfl := Option.some.inj hmaterial
          exact parsed_of_parse hparsed
        · rw [Function.update_of_ne hid] at hmaterial
          exact hw id' material hmaterial
      | _ => exact absurd rfl hop

/-- What a triple says of a program that changes nothing in OCI. -/
theorem writes_of_triple {P C : Database → Prop} {Q : α → Database → Prop} {E : Exc → Database → Prop} {p : Action α}
    (hp : p.Uses apart) (ht : Triple (persisting faults.observing) P p Q E C) : Writes Γ faults P p Q := by
  have hquiet : Guarded (service Γ faults) (Journals Γ) (fun _ => True) p (fun _ _ => True) fun _ _ => True :=
    Guarded.frame hp fun _ _ _ _ hop _ h => ⟨journals_of_apart (service_certificates h hop).2, trivial⟩
  have htriple : Triple (service Γ faults) (fun w => P w.database) p (fun a w => Q a w.database) (fun x w => E x w.database)
      fun w => C w.database := by
    intro w hw o w' hx
    have hpost := ht _ hw _ _ (exec_persisting hx)
    cases o <;> exact hpost
  exact (hquiet.of_triple htriple).conseq (fun _ h => ⟨trivial, h⟩) (fun _ _ h => h.2) fun _ _ _ => trivial

theorem free_of_apart {p : Action α} (hp : p.Uses apart) : Free Γ faults p :=
  Keeps.frame hp fun _ hop _ _ _ h => journals_of_apart (service_certificates h hop).2

/-- A program that writes no row and changes nothing in OCI. -/
theorem keeps_own {p : Action α} (hp : p.Uses apart) (hrows : p.Uses Op.passive) :
    Writes Γ faults (Owns operationId rows φ) p fun _ => Owns operationId rows φ :=
  writes_of_triple hp (owns_frame hrows)

/-- An idle program writes no row and changes nothing in OCI. -/
theorem idles {p : Action α} (hp : p.Uses fun op : Op => op.idle = true) :
    Writes Γ faults (Owns operationId rows φ) p fun _ => Owns operationId rows φ :=
  keeps_own (hp.mono apart_of_idle) (hp.mono passive_of_idle)

/-- A change in OCI that the own row names. -/
theorem changes {op : Op} (hop : op.mutatesOci = true)
    (hstep : ∀ (w : World) (reply : op.Reply) (w' : World) (m : Mutation), w.Step Γ op reply w' →
      w'.mutations = w.mutations ++ [m] → ∀ row ∈ w.database.operations.rows, φ row → m.Journaled Γ w w') :
    Guarded (service Γ faults) (Journals Γ) (fun w => Owns operationId rows φ w.database) (perform op)
      (fun _ w => Owns operationId rows φ w.database) fun _ w => Owns operationId rows φ w.database := by
  have hsql : op.isSql = false := by cases op <;> first | rfl | cases hop
  have hkeep : ∀ (w : World) answer (w' : World), Owns operationId rows φ w.database → service Γ faults w op answer w' →
      Owns operationId rows φ w'.database := by
    intro w answer w' hw h
    rw [service_database h hsql]
    exact hw
  refine Guarded.perform (fun w r w' hw h m hm _ => ?_) (fun w a w' hw h => hkeep w _ w' hw h)
    fun w x w' hw h => hkeep w _ w' hw h
  obtain ⟨row, hrow, -, hp⟩ := hw.own
  rcases service_cases h with ⟨hobserves, -⟩ | rfl | ⟨reply, hs⟩
  · rw [apart_of_observes op hobserves] at hop
    cases hop
  · exact absurd (congrArg List.length hm) (by simp)
  · exact hstep w reply w' m hs hm row hrow hp

/-- What a transition of the own row makes of what is known of it. -/
theorem transitions {state : OperationState} {fields : TransitionFields}
    (h : ∀ (r : OperationRow) (t : Transition), φ r → t.state = state → t.ociVersionNumber = fields.ociVersionNumber →
      t.ociCertificateOcid = fields.ociCertificateOcid → t.opcRequestId = fields.opcRequestId → ψ (r.transition t)) :
    Writes Γ faults (Owns operationId rows φ) (StateStore.transition operationId state fields) fun _ =>
      Owns operationId rows ψ := by
  refine writes_of_triple (E := fun _ _ => True) (C := fun _ => True)
    (StateStore.uses_transition_row (A := apart) rfl (fun _ => rfl) _ _) ?_
  have hclock : ∀ {γ : Type} {p : Action γ}, p.Uses Op.passive → Triple (persisting faults.observing) (Owns operationId rows φ) p
      (fun _ => Owns operationId rows φ) (fun _ _ => True) fun _ => True := fun hp => owns_aside hp fun _ _ _ => trivial
  refine Triple.bind (hclock ?_) fun completed => Triple.bind (hclock ?_) fun updated => ?_
  · unfold StateStore.completedAt
    split
    · exact Program.uses_bind (StateStore.uses_utcNow (A := Op.passive) rfl) fun _ => trivial
    · trivial
  · exact StateStore.uses_utcNow (A := Op.passive) rfl
  refine Triple.bind (R := fun _ => Owns operationId rows ψ) ?_ fun count => ?_
  · refine Triple.statement (fun _ _ => trivial) (fun db reply db' hdb hs => ⟨?_, trivial⟩) (fun _ _ _ _ => trivial)
      fun _ _ _ _ _ _ _ => trivial
    rw [hs.2]
    refine (hdb.transition _).imp ?_
    rintro row ⟨r, hr, rfl⟩
    exact h r _ hr rfl rfl rfl rfl
  · split
    · exact Triple.ret (fun _ hdb => hdb) fun _ _ => trivial
    · exact Triple.raise (fun _ _ => trivial) fun _ _ => trivial

/-- A run that starts an operation owns the new row. -/
theorem starts {certificateId : String} {localFingerprint ocid : Option String} {f : Operation → Action β}
    (hf : ∀ operation rows, Writes Γ faults (Owns operation.operationId rows fun r => r.state = .discovered ∧
      r.operationType = operationType ∧ r.localFingerprint = localFingerprint ∧ r.ociCertificateOcid = ocid) (f operation)
        fun _ _ => True) :
    Free Γ faults ((StateStore.startOperation certificateId operationType localFingerprint ocid).bind f) := by
  refine Guarded.bind (R := fun operation w => ∃ rows, Owns operation.operationId rows (fun r => r.state = .discovered ∧
      r.operationType = operationType ∧ r.localFingerprint = localFingerprint ∧ r.ociCertificateOcid = ocid) w.database)
    ?_ fun operation w h => ?_
  · refine writes_of_triple (P := fun _ => True) (Q := fun operation db => ∃ rows, Owns operation.operationId rows
      (fun r => r.state = .discovered ∧ r.operationType = operationType ∧ r.localFingerprint = localFingerprint ∧
        r.ociCertificateOcid = ocid) db) (E := fun _ _ => True) (C := fun _ => True)
        (StateStore.uses_startOperation (A := apart) rfl rfl _ _ _ _ fun _ _ _ _ _ => rfl) ?_
    have hfree : ∀ {γ : Type} (p : Action γ), Triple (persisting faults.observing) (fun _ => True) p (fun _ _ => True)
        (fun _ _ => True) fun _ => True := fun p => Triple.unconstrained p
    refine Triple.bind (hfree _) fun operationId => Triple.bind (hfree _) fun started => ?_
    refine Triple.bind (R := fun _ db => ∃ rows, Owns operationId rows (fun r => r.state = .discovered ∧
      r.operationType = operationType ∧ r.localFingerprint = localFingerprint ∧ r.ociCertificateOcid = ocid) db) ?_
      fun _ => Triple.ret (fun _ h => h) fun _ _ => trivial
    refine Triple.statement (fun _ _ => trivial) (fun db reply db' _ hs => ⟨⟨_, (owns_insert hs).1.imp ?_⟩, trivial⟩)
      (fun _ _ _ _ => trivial) fun _ _ _ _ _ _ _ => trivial
    rintro r rfl
    exact ⟨rfl, rfl, rfl, rfl⟩
  · obtain ⟨rows, h⟩ := h
    exact hf operation rows w h

theorem own_bind {p : Action α} {f : α → Action β} {Q : β → Database → Prop}
    (hp : Writes Γ faults (Owns operationId rows φ) p fun _ => Owns operationId rows ψ)
    (hf : ∀ a, Writes Γ faults (Owns operationId rows ψ) (f a) Q) : Writes Γ faults (Owns operationId rows φ) (p.bind f) Q :=
  Guarded.bind hp hf

/-- The rest of a run that changes nothing more in OCI. -/
theorem rests {P : Database → Prop} {p : Action α} (hp : p.Uses apart) : Writes Γ faults P p fun _ _ => True :=
  (free_of_apart hp).conseq (fun _ _ => trivial) (fun _ _ h => h) fun _ _ h => h

/-! ## Publication -/

/-- The row of a publication, from its reconciliation on. -/
structure Reconciled (ocid fingerprint : String) (r : OperationRow) : Prop where
  ocid : r.ociCertificateOcid = some ocid
  fingerprint : r.localFingerprint = some fingerprint
  request : r.opcRequestId.isSome = true

/-- The row that names the version to promote. -/
def Names (ocid : String) (number : Int) (r : OperationRow) : Prop :=
  (r.state = .ociPendingVerified ∨ r.state = .ociReconciled ∧ r.operationType = .rollback) ∧ r.ociCertificateOcid = some ocid ∧
    r.ociVersionNumber = some number ∧ r.opcRequestId.isSome = true

theorem promotes {ocid : String} {number : Int} (etag : Option String) :
    Guarded (service Γ faults) (Journals Γ) (fun w => Owns operationId rows (Names ocid number) w.database)
      (perform (.promoteCurrent ocid number etag requestId)) (fun _ w => Owns operationId rows (Names ocid number) w.database)
        fun _ w => Owns operationId rows (Names ocid number) w.database := by
  refine changes rfl fun w reply w' m hs hm row hrow hp => ?_
  obtain ⟨r, r', -, -, rfl⟩ := hs
  cases List.singleton_inj.1 (List.append_cancel_left hm)
  exact ⟨row, hrow, hp⟩

theorem promoteCurrent_writes {ocid : String} {number : Int} :
    Writes Γ faults (Owns operationId rows (Names ocid number))
      (PublicationReconciler.promoteCurrent config ocid number requestId) fun _ => Owns operationId rows (Names ocid number) := by
  unfold PublicationReconciler.promoteCurrent
  induction (PublicationReconciler.promotionPolicy config).maxAttempts with
  | zero => exact Guarded.raise fun _ _ => trivial
  | succ remaining ih =>
    refine own_bind (idles (Program.uses_perform.2 rfl)) fun refreshed => ?_
    split
    · exact Guarded.ret fun _ h => h
    · refine Guarded.bind (Guarded.attempt (promotes refreshed.etag)) fun outcome => ?_
      cases outcome with
      | ok _ => exact Guarded.ret fun _ h => h
      | error x =>
        simp only
        split
        · exact own_bind (idles ((uses_sleepFor fun op h => idle_of_pauses op h) _ _ _)) fun _ => ih
        · exact Guarded.raise fun _ _ => trivial

theorem promoteAndConfirm_writes {ocid : String} (candidate : OciCertificateVersion) :
    Writes Γ faults (Owns operationId rows (Reconciled ocid F))
      (PublicationReconciler.promoteAndConfirm Γ config certificate F now operationType ocid operationId requestId candidate)
        fun _ _ => True := by
  refine own_bind (transitions (ψ := Names ocid candidate.versionNumber) fun r t hr hstate hversion hocid hrequest => ?_)
    fun _ => ?_
  · refine ⟨Or.inl hstate, ?_, ?_, ?_⟩
    · show t.ociCertificateOcid.or r.ociCertificateOcid = some ocid
      rw [hocid]
      exact hr.ocid
    · show t.ociVersionNumber.or r.ociVersionNumber = _
      rw [hversion]
      rfl
    · show (t.opcRequestId.or r.opcRequestId).isSome = true
      rw [hrequest]
      rfl
  refine own_bind (idles (Program.uses_perform.2 rfl)) fun _ => own_bind promoteCurrent_writes fun _ => rests ?_
  refine Program.uses_bind (Program.uses_perform.2 rfl) fun _ => ?_
  refine Program.uses_bind (uses_retryReadUntilSync apart_of_pauses (Program.uses_perform.2 (by rfl)) _ _) fun confirmed => ?_
  refine Program.uses_bind uses_ofExcept fun fingerprint => ?_
  split
  · trivial
  · refine Program.uses_bind (StateStore.uses_transition_row (A := apart) rfl (fun _ => rfl) _ _) fun _ => ?_
    exact Program.uses_bind (Program.uses_perform.2 rfl) fun _ =>
      PublicationReconciler.uses_complete apart_of_records apart_of_footprint _ _ _

theorem obtainCandidate_writes {ocid : String} (hparsed : material.Parsed Γ) (hF : certificateSha256 material.leaf = F)
    (etag : Option String) :
    Writes Γ faults (Owns operationId rows fun r => Reconciled ocid F r ∧ r.state = .ociReconciled)
      (PublicationReconciler.obtainCandidate Γ config certificate material chain F now ocid operationId requestId etag) fun _ =>
        Owns operationId rows (Reconciled ocid F) := by
  have hfind : (PublicationReconciler.findMatchingPending Γ ocid certificate config F now requestId).Uses fun op : Op =>
      op.idle = true :=
    PublicationReconciler.uses_findMatchingPending fun _ h => h
  refine own_bind (idles hfind) fun found => ?_
  cases found with
  | some version => exact Guarded.ret fun _ h => h.imp fun _ hr => hr.1
  | none =>
    refine own_bind (idles uses_ofExcept) fun label => ?_
    refine own_bind ((changes rfl fun w reply w' m hs hm row hrow hp => ?_).conseq (fun _ h => h) (fun _ _ h => h)
      fun _ _ _ => trivial) fun _ => ?_
    · obtain ⟨r, r', v, -, hv, hup, rfl⟩ := hs
      cases List.singleton_inj.1 (List.append_cancel_left hm)
      have huploaded : { v with stages := Resource.uploadedStages } ∈ r'.versions.rows := by
        rw [(Resource.upload_eq_some hup).2.1]
        exact List.mem_append_right _ (List.mem_singleton_self _)
      have hfingerprint : v.fingerprint Γ = some F := by rw [fingerprint_of_holds hparsed hv rfl, hF]
      exact ⟨row, hrow, hp.2, hp.1.ocid, hp.1.request, F, r', hp.1.fingerprint, Function.update_self .., _, huploaded, rfl,
        hfingerprint⟩
    refine own_bind (transitions (ψ := Reconciled ocid F) fun r t hr _ _ hocid hrequest => ?_) fun _ => ?_
    · refine ⟨?_, hr.1.fingerprint, ?_⟩
      · show t.ociCertificateOcid.or r.ociCertificateOcid = some ocid
        rw [hocid]
        exact hr.1.ocid
      · show (t.opcRequestId.or r.opcRequestId).isSome = true
        rw [hrequest]
        rfl
    refine own_bind (idles (Program.uses_perform.2 rfl)) fun _ => own_bind (idles hfind) fun visible => ?_
    cases visible with
    | some version => exact Guarded.ret fun _ h => h
    | none => exact Guarded.raise fun _ _ => trivial

theorem publish_writes (hparsed : material.Parsed Γ) : Free Γ faults
    (PublicationReconciler.publish Γ config certificate material chain (certificateSha256 material.leaf) now operationType) := by
  unfold PublicationReconciler.publish
  split
  · exact Guarded.raise fun _ _ => trivial
  · rename_i ocid hocid
    refine starts fun operation rows => ?_
    refine own_bind (idles (Program.uses_perform.2 rfl)) fun requestId => own_bind (idles (Program.uses_perform.2 rfl))
      fun remote => ?_
    refine own_bind (idles (Program.uses_perform.2 rfl)) fun bundle => own_bind (idles uses_ofExcept) fun current => ?_
    refine own_bind (transitions (ψ := fun r =>
      Reconciled ocid (certificateSha256 material.leaf) r ∧ r.state = .ociReconciled)
      fun r t hr hstate _ hocid hrequest => ?_) fun _ => ?_
    · obtain ⟨-, -, hfingerprint, hr⟩ := hr
      refine ⟨⟨?_, hfingerprint, ?_⟩, hstate⟩
      · show t.ociCertificateOcid.or r.ociCertificateOcid = some ocid
        rw [hocid]
        exact hr
      · show (t.opcRequestId.or r.opcRequestId).isSome = true
        rw [hrequest]
        rfl
    split
    · exact rests (Program.uses_bind (Program.uses_perform.2 rfl) fun _ =>
        PublicationReconciler.uses_complete apart_of_records apart_of_footprint _ _ _)
    · exact own_bind (obtainCandidate_writes hparsed rfl remote.etag) fun candidate => promoteAndConfirm_writes candidate

/-! ## Rollback and bootstrap -/

theorem rollback_writes {audit : Option AuditConfig} : Free Γ faults
    (RollbackService.rollback Γ config certificate now audit passes) := by
  unfold RollbackService.rollback
  split
  · exact Guarded.raise fun _ _ => trivial
  · rename_i ocid hocid
    refine starts fun operation rows => ?_
    refine own_bind (idles (Program.uses_perform.2 rfl)) fun _ => own_bind (idles (Program.uses_perform.2 rfl))
      fun requestId => ?_
    refine own_bind (idles (RollbackService.uses_previousVersion fun _ h => h)) fun candidate => ?_
    refine own_bind (idles (Program.uses_perform.2 rfl)) fun bundle => own_bind (idles uses_ofExcept) fun fingerprint => ?_
    refine own_bind (idles (Program.uses_perform.2 rfl)) fun remote => ?_
    refine own_bind (transitions (ψ := Names ocid candidate.versionNumber) fun r t hr hstate hversion hocid hrequest => ?_)
      fun _ => ?_
    · obtain ⟨-, htype, -, hr⟩ := hr
      refine ⟨Or.inr ⟨hstate, htype⟩, ?_, ?_, ?_⟩
      · show t.ociCertificateOcid.or r.ociCertificateOcid = some ocid
        rw [hocid]
        exact hr
      · show t.ociVersionNumber.or r.ociVersionNumber = _
        rw [hversion]
        rfl
      · show (t.opcRequestId.or r.opcRequestId).isSome = true
        rw [hrequest]
        rfl
    refine own_bind ((promotes remote.etag).conseq (fun _ h => h) (fun _ _ h => h) fun _ _ _ => trivial) fun _ => rests ?_
    exact RollbackService.uses_confirm apart_of_records (@apart_of_footprint _ "") (fun _ _ _ => rfl)
      apart_of_pauses rfl apart_of_observes
      _ _

theorem uses_apart_transition {state : OperationState} {fields : TransitionFields} :
    (StateStore.transition operationId state fields).Uses apart :=
  StateStore.uses_transition_row (A := apart) rfl (fun _ => rfl) _ _

theorem uses_apart_confirmCreated (ocid : String) (bundle : OciPublicBundle) (remoteFingerprint : String)
    (requestId : Option String) :
    (PublicationService.confirmCreated certificate F operationId ocid bundle remoteFingerprint requestId).Uses apart :=
  Program.uses_bind uses_apart_transition fun _ =>
    Program.uses_bind (StateStore.uses_recordFacts (A := apart) rfl fun _ => rfl) fun _ =>
      Program.uses_bind uses_apart_transition fun _ => trivial

theorem uses_apart_readCreated (ocid mismatch : String) :
    (PublicationService.readCreated Γ config certificate F ocid requestId mismatch).Uses apart := by
  refine Program.uses_bind (Program.uses_perform.2 rfl) fun bundle => Program.uses_bind (Program.uses_perform.2 rfl) fun now => ?_
  refine Program.uses_bind uses_ofExcept fun remoteFingerprint => ?_
  split <;> trivial

theorem uses_apart_creationFailed (created : Bool) (error : Exc) :
    (PublicationService.creationFailed operationId created error).Uses apart := by
  unfold PublicationService.creationFailed
  split
  · exact Program.uses_bind uses_apart_transition fun _ => trivial
  · split
    · exact Program.uses_bind uses_apart_transition fun _ => trivial
    · trivial

theorem createCertificate_writes (hparsed : material.Parsed Γ) : Free Γ faults
    (PublicationService.createCertificate Γ config certificate material chain (certificateSha256 material.leaf)) := by
  refine starts fun operation rows => ?_
  refine own_bind (transitions (ψ := fun r => r.state = .localCertValidated ∧ r.operationType = .bootstrap ∧
    r.localFingerprint = some (certificateSha256 material.leaf)) fun r t hr hstate _ _ _ => ⟨hstate, hr.2.1, hr.2.2.1⟩)
      fun _ => ?_
  refine Guarded.bind (R := fun _ _ => True) ?_ fun outcome => ?_
  · refine (Guarded.attempt (Q := fun _ _ => True) (E := fun _ _ => True) ?_).conseq (fun _ h => h) (fun _ _ _ => trivial)
      fun _ _ h => h
    refine own_bind (Q := fun _ _ => True) (p := perform .uuid4) (idles (Program.uses_perform.2 rfl)) fun requestId => ?_
    refine Guarded.bind (R := fun _ _ => True) ?_ fun ocid => Guarded.ret fun _ _ => trivial
    refine own_bind (Q := fun _ _ => True) (p := perform .now) (idles (Program.uses_perform.2 rfl)) fun now =>
      own_bind (idles uses_ofExcept) fun label => ?_
    refine (changes rfl fun w reply w' m hs hm row hrow hp => ?_).conseq (fun _ h => h) (fun _ _ _ => trivial)
      fun _ _ _ => trivial
    obtain ⟨-, v, hv, rfl⟩ := hs
    cases List.singleton_inj.1 (List.append_cancel_left hm)
    refine ⟨row, hrow, hp.1, hp.2.1, _, .created v, hp.2.2, Function.update_self .., fun u hu => ?_⟩
    obtain rfl := List.mem_singleton.1 hu
    exact fingerprint_of_holds hparsed hv rfl
  · cases outcome with
    | error x => exact free_of_apart (uses_apart_creationFailed _ _)
    | ok created =>
      obtain ⟨requestId, ocid⟩ := created
      refine free_of_apart (Program.uses_handle (Program.uses_bind uses_apart_transition fun _ =>
        Program.uses_bind (uses_apart_readCreated _ _) fun read => uses_apart_confirmCreated _ _ _ _) fun x =>
          uses_apart_creationFailed _ _)

theorem uses_apart_recoverBootstrap : (PublicationService.recoverBootstrap Γ config certificate F).Uses apart := by
  refine Program.uses_bind (Program.uses_perform.2 rfl) fun active => ?_
  split
  · trivial
  · split
    · trivial
    · refine Program.uses_bind (Program.uses_perform.2 rfl) fun requestId => ?_
      refine Program.uses_bind (uses_apart_readCreated _ _) fun read => ?_
      refine Program.uses_bind (uses_apart_confirmCreated _ _ _ _) fun result => ?_
      exact Program.uses_bind (Program.uses_perform.2 rfl) fun _ => trivial
  · trivial

theorem apart_of_quiet {certificateId : String} (op : Op) (h : op.quiet certificateId operationId = true) : apart op := by
  rcases Bool.or_eq_true _ _ ▸ h with hidle | hfoot
  · exact apart_of_idle op hidle
  · exact apart_of_footprint op hfoot

/-- What the services do aside changes nothing in OCI, or schedules a deletion. -/
theorem aside_journals {op : Op} {answer : Except Exc op.Reply} {w w' : World} (hop : op.aside = true)
    (h : service Γ faults w op answer w') : Journals Γ w w' := by
  by_cases hapart : op.mutatesOci = false
  · exact journals_of_apart (service_certificates h hapart).2
  · intro m hm hkept
    rcases service_cases h with ⟨-, rfl⟩ | rfl | ⟨reply, hs⟩
    · exact absurd (congrArg List.length hm) (by simp)
    · exact absurd (congrArg List.length hm) (by simp)
    · cases op with
      | scheduleVersionDeletion ocid number time etag requestId =>
        obtain ⟨r, -, rfl⟩ := hs
        cases List.singleton_inj.1 (List.append_cancel_left hm)
        cases hkept
      | createImportedCertificate | uploadPendingVersion | promoteCurrent => cases hop
      | _ => exact absurd rfl hapart

/-- The services in a world whose lineages are what their PEM files parse to. -/
abbrev parsedService (Γ : Ctx) (faults : Faults) : Env publisher Exc World :=
  restricting (service Γ faults) fun w _ => w.Parsed Γ

theorem parts_journal (Γ : Ctx) (faults : Faults) :
    PartsKeep Γ (parsedService Γ faults) (Journals Γ) (LineageMaterial.Parsed Γ) := by
  have hparsed : ∀ {γ : Type} {p : Action γ}, Free Γ faults p → Keeps (parsedService Γ faults) (Journals Γ) p :=
    fun hp w hw => (hp w hw).mono fun _ _ _ _ h => h.1
  exact {
    aside := fun _ hop _ _ _ h => aside_journals hop h.1
    load := fun id w material w' h => h.2 id material h.1.2
    publication := fun _ _ _ _ _ _ hmaterial _ => hparsed (publish_writes hmaterial)
    audit := fun _ passes id => hparsed (free_of_apart (PublicationService.uses_audit (fun _ _ op h => apart_of_quiet op h)
      apart_of_observes (fun _ _ _ => rfl) (fun op h => by cases op <;> first | rfl | cases h) passes id))
    rollback := fun _ _ _ _ _ => hparsed rollback_writes
    recovery := fun _ _ _ => hparsed (free_of_apart uses_apart_recoverBootstrap)
    creation := fun _ _ _ _ hmaterial => hparsed (createCertificate_writes hmaterial) }

end WriteAhead

end OciAcmePublisher
