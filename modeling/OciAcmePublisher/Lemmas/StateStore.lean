import OciAcmePublisher.Lemmas.Footprints
import OciAcmePublisher.Persistence

/-!
# The rows a reconciliation closes

Before it completes its own row, `_complete` completes every other active row of the same certificate and local fingerprint. When
it returns, none is active.
-/

namespace OciAcmePublisher

open Effects Tables

variable {Γ : Ctx} {faults : Faults} {α : Type} {certificateId F : String}

/-- No row of the certificate and the fingerprint is active, but for the rows of `except`. -/
def Closed (certificateId F : String) (except : Option String) (db : Database) : Prop :=
  ∀ row ∈ db.operations.rows, row.certificateId = certificateId → row.localFingerprint = some F →
    some row.operationId ≠ except → row.active = false

/-- The operation executes no statement. -/
def Op.leavesDatabase (op : Op) : Prop := op.isSql = false

/-- A program that executes no statement keeps the database. -/
theorem database_frame {D : Database → Prop} {p : Action α} (hp : p.Uses Op.leavesDatabase) :
    Triple (persisting faults) D p (fun _ => D) (fun _ => D) D :=
  Triple.frame hp fun _ _ _ _ hop hw h => by
    rw [persisting_eq h hop]
    exact hw

/-- A statement that is answered took effect. -/
theorem sql_spec {D : Database → Prop} (statement : Statement) :
    Triple (persisting faults) D (sql statement) (fun reply db' => ∃ db, D db ∧ db.Step statement reply db')
      (fun _ _ => True) fun _ => True :=
  Triple.statement (fun _ _ => trivial) (fun db _ _ hdb hs => ⟨⟨db, hdb, hs⟩, trivial⟩) (fun _ _ _ _ => trivial)
    fun _ _ _ _ _ _ _ => trivial

/-- A row that an update of the operations leaves behind is one it spares, or the update of one it selects. -/
theorem mem_updateOperations {db : Database} {p : OperationRow → Bool} {f : OperationRow → OperationRow}
    {hf : ∀ r, (f r).operationId = r.operationId} {row : OperationRow} :
    row ∈ (db.updateOperations p f hf).operations.rows ↔
      (∃ r ∈ db.operations.rows, p r = true ∧ f r = row) ∨ (row ∈ db.operations.rows ∧ p row = false) :=
  @Table.mem_updateWhere _ _ _ _ _ _ hf _

/-- `complete_reconciled_operations` closes every active row but the excluded one. -/
theorem completeReconciledOperations_closes (version : Int) (operationId : String) :
    Triple (persisting faults) (fun _ => True)
      (StateStore.completeReconciledOperations certificateId F version operationId)
      (fun _ => Closed certificateId F (some operationId)) (fun _ _ => True) fun _ => True := by
  refine Triple.last _ fun now => ?_
  refine (sql_spec (D := fun _ => True) _).post ?_
  rintro n w ⟨db, -, -, hdb⟩ row hrow hc hF hid
  rw [hdb] at hrow
  rcases mem_updateOperations.1 hrow with ⟨r, -, -, rfl⟩ | ⟨-, hp⟩
  · rfl
  · have hne : row.operationId ≠ operationId := fun h => hid (congrArg some h)
    simpa [OperationRow.closedBy, hc, hF, hne] using hp

/-- The terminal transition of the excluded row closes it too. -/
theorem transition_closes {state : OperationState} (hs : state.isTerminal = true) (operationId : String)
    (fields : TransitionFields) :
    Triple (persisting faults) (Closed certificateId F (some operationId))
      (StateStore.transition operationId state fields) (fun _ => Closed certificateId F none)
      (fun _ _ => True) fun _ => True := by
  have hkeep : ∀ {β : Type} {p : Action β}, p.Uses Op.leavesDatabase →
      Triple (persisting faults) (Closed certificateId F (some operationId)) p
        (fun _ => Closed certificateId F (some operationId)) (fun _ _ => True) fun _ => True := fun hp =>
    (database_frame hp).conseq (fun _ hw => hw) (fun _ _ hw => hw) (fun _ _ _ => trivial) fun _ _ => trivial
  refine Triple.bind (hkeep (StateStore.uses_completedAt (A := Op.leavesDatabase) rfl state)) fun completed => ?_
  refine Triple.bind (hkeep (StateStore.uses_utcNow (A := Op.leavesDatabase) rfl)) fun updated => ?_
  refine Triple.bind (sql_spec _) fun n => ?_
  have hclosed : ∀ w : Database, (∃ db, Closed certificateId F (some operationId) db ∧ db.Step (.updateOperation operationId
      { state := state
        ociVersionNumber := fields.ociVersionNumber
        ociCertificateOcid := fields.ociCertificateOcid
        opcRequestId := fields.opcRequestId
        errorCode := fields.errorCode
        errorMessageRedacted := fields.errorMessageRedacted
        updatedAt := updated
        completedAt := completed }) n w) → Closed certificateId F none w := by
    rintro w ⟨db, hdb, -, hstep⟩ row hrow hc hF -
    rw [hstep] at hrow
    rcases mem_updateOperations.1 hrow with ⟨r, -, -, rfl⟩ | ⟨hmem, hp⟩
    · simp [OperationRow.active, OperationRow.transition, hs]
    · exact hdb row hmem hc hF (by simpa using hp)
  split
  · exact Triple.ret hclosed fun _ _ => trivial
  · exact Triple.raise (fun _ _ => trivial) fun _ _ => trivial

/-- Recording a fact changes no operation row. -/
theorem recordFacts_closed {except : Option String} (id : String) (update : FactUpdate) :
    Triple (persisting faults) (Closed certificateId F except) (StateStore.recordFacts id update)
      (fun _ => Closed certificateId F except) (fun _ _ => True) fun _ => True := by
  refine Triple.bind (R := fun _ => Closed certificateId F except)
    ((database_frame (StateStore.uses_utcNow (A := Op.leavesDatabase) rfl)).conseq (fun _ hw => hw) (fun _ _ hw => hw) (fun _ _ _ => trivial)
      fun _ _ => trivial) fun now => ?_
  refine (sql_spec _).post ?_
  rintro _ w ⟨db, hdb, hstep⟩
  rw [hstep]
  exact hdb

namespace PublicationReconciler

variable {certificate : CertificateConfig} {config : AppConfig} {material : LineageMaterial}
  {chain : OciCertificateChain} {now : Instant} {operationType : OperationType} {operationId requestId : String}

theorem complete_closes (remoteFingerprint : String) (versionNumber : Int) (changed : Bool) :
    Triple (persisting faults) (fun _ => True)
      (complete operationId certificate F remoteFingerprint versionNumber changed operationType)
      (fun _ => Closed certificate.id F none) (fun _ _ => True) fun _ => True := by
  refine Triple.last _ fun _ => ?_
  refine Triple.bind (completeReconciledOperations_closes _ _) fun _ => ?_
  refine Triple.bind (R := fun _ => Closed certificate.id F (some operationId)) ?_ fun _ => ?_
  · unfold recordRenewal
    split
    · exact recordFacts_closed _ _
    · exact Triple.ret (fun _ hw => hw) fun _ _ => trivial
  refine Triple.bind (transition_closes rfl _ _) fun _ => ?_
  exact Triple.ret (fun _ hw => hw) fun _ _ => trivial

/-- A publication that returns leaves no active row of its certificate and fingerprint. -/
theorem publish_closes :
    Triple (persisting faults) (fun _ => True) (publish Γ config certificate material chain F now operationType)
      (fun _ => Closed certificate.id F none) (fun _ _ => True) fun _ => True := by
  unfold publish
  split
  · exact Triple.raise (fun _ _ => trivial) fun _ _ => trivial
  · refine Triple.last _ fun operation => ?_
    refine Triple.last _ fun requestId => ?_
    refine Triple.last _ fun remote => ?_
    refine Triple.last _ fun bundle => ?_
    refine Triple.last _ fun current => ?_
    refine Triple.last _ fun _ => ?_
    split
    · exact Triple.last _ fun _ => complete_closes _ _ _
    · refine Triple.last _ fun candidate => ?_
      refine Triple.last _ fun _ => ?_
      refine Triple.last _ fun _ => ?_
      refine Triple.last _ fun _ => ?_
      refine Triple.last _ fun _ => ?_
      refine Triple.last _ fun confirmed => ?_
      refine Triple.last _ fun fingerprint => ?_
      split
      · exact Triple.raise (fun _ _ => trivial) fun _ _ => trivial
      · refine Triple.last _ fun _ => ?_
        refine Triple.last _ fun _ => ?_
        exact complete_closes _ _ _

end PublicationReconciler

end OciAcmePublisher
