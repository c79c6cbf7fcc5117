import OciAcmePublisher.Effects.Refinement
import OciAcmePublisher.Lemmas.Publication
import OciAcmePublisher.Metrics
import OciAcmePublisher.Theorems.Conclusion
import OciAcmePublisher.Theorems.RenewalRecord
import OciAcmePublisher.Theorems.RowLifecycle

/-!
# What the failure metrics count

The failure counters are derived from the states of the operation rows. A publication that fails leaves its row in the state it had
reached, and a renewal that fails before its publication leaves no row: no failure state is ever written for either, and their
counters stay what they are. A failed audit is counted where its row is marked.
-/

namespace OciAcmePublisher

open Effects Tables PublicationService Metrics

/-! ## Calls and the audits in them -/

/-- A step of a call of the service. -/
inductive MeteredStep where
  | issue (certificateId : String) (force : Bool)
  | reconcile (certificateId : String) (operationType : OperationType)
  | recordCompleted (operationType : OperationType) (certificate : CertificateConfig) (result : PublicationResult)
  | audit (certificateId : String)
  | rollback (certificateId : String)
  | recordRollbackFailed (certificate : CertificateConfig)
  | retain (certificate : CertificateConfig)

/-- A step, with the configuration of its call. -/
structure MeteredOp where
  config : AppConfig
  passes : Nat
  step : MeteredStep

/-- The signature of the calls. -/
@[reducible] def metered : Signature where
  Op := MeteredOp
  Reply op :=
    match op.step with
    | .reconcile .. => CertificateConfig × PublicationResult
    | .audit _ => Bool
    | .rollback _ => RollbackResult
    | _ => Unit

/-- What is called. -/
inductive MeteredKind where
  | renew (force : Bool)
  | publish | reconcile | audit
  deriving DecidableEq

/-- A call of the service, with its configuration. -/
structure MeteredCall where
  config : AppConfig
  passes : Nat
  kind : MeteredKind

namespace MeteredCall

variable (Γ : Ctx) (s : MeteredCall)

/-- Perform a step of the call. -/
def perform (step : MeteredStep) : Program metered Exc (metered.Reply ⟨s.config, s.passes, step⟩) :=
  Program.perform (S := metered) ⟨s.config, s.passes, step⟩

/-- The audit after a publication. -/
def publicationAudit (certificate : CertificateConfig) : Program metered Exc Unit :=
  match certificate.audit.mode with
  | .disabled => return ()
  | .enforce => do
    let successful ← (s.perform (.audit certificate.id)).handle fun error =>
      if error.isInstance .auditError then return false else .raise error
    if successful = true then return ()
    else if certificate.audit.automaticRollbackOnFailure = false then
      .raise (auditError "TLS audit failed after OCI publication")
    else do
      let outcome ← (s.perform (.rollback certificate.id)).attempt
      match outcome with
      | .ok _ => return ()
      | .error error =>
        if error.isInstance .rollbackError then do
          s.perform (.recordRollbackFailed certificate)
          .raise error
        else .raise error
  | .observe =>
    Program.handle ((s.perform (.audit certificate.id)).bind fun _ => .ret ()) fun error =>
      if error.isInstance .auditError then return () else .raise error

/-- A publication. -/
def publication (certificateId : String) (operationType : OperationType) : Program metered Exc Unit := do
  let reached ← s.perform (.reconcile certificateId operationType)
  s.perform (.recordCompleted operationType reached.1 reached.2)
  s.publicationAudit reached.1
  s.perform (.retain reached.1)

/-- The steps of the call. -/
def steps (certificateId : String) : Program metered Exc Unit :=
  match s.kind with
  | .renew force => do
    s.perform (.issue certificateId force)
    s.publication certificateId .renew
  | .publish => s.publication certificateId .publish
  | .reconcile => s.publication certificateId .reconcile
  | .audit => (s.perform (.audit certificateId)).bind fun _ => .ret ()

/-- The call, without its result. -/
def run (certificateId : String) : Action Unit :=
  match s.kind with
  | .renew force => (renew Γ s.config s.passes certificateId force).bind fun _ => .ret ()
  | .publish => (publish Γ s.config s.passes certificateId .publish).bind fun _ => .ret ()
  | .reconcile => (publish Γ s.config s.passes certificateId .reconcile).bind fun _ => .ret ()
  | .audit => (audit Γ s.config s.passes certificateId).bind fun _ => .ret ()

/-- `renew`, up to its publication. -/
def issue (config : AppConfig) (certificateId : String) (force : Bool) : Action Unit := do
  let certificate ← ofExcept (configuredCertificate config certificateId)
  requireProductionQualification config certificate
  runPreflight certificate
  let _ ← beforeFingerprint Γ config certificate
  logEvent .info "ACME_STARTED" [("certificate_id", .text certificate.id)]
  let _ ← NativeAcmeService.issue Γ config certificate force
  logEvent .info "ACME_COMPLETED" [("certificate_id", .text certificate.id)]

/-- What a step does. -/
def implementation : (op : metered.Op) → Action (metered.Reply op)
  | ⟨config, _, .issue certificateId force⟩ => issue Γ config certificateId force
  | ⟨config, _, .reconcile certificateId operationType⟩ => reconciled Γ config certificateId operationType
  | ⟨_, _, .recordCompleted operationType certificate result⟩ => logEvent .info "OPERATION_COMPLETED"
      [("certificate_id", .text certificate.id), ("operation", .text operationType.lowerName),
        ("version_number", .number result.currentVersionNumber)]
  | ⟨config, passes, .audit certificateId⟩ => audit Γ config passes certificateId
  | ⟨config, passes, .rollback certificateId⟩ => rollback Γ config passes certificateId
  | ⟨_, _, .recordRollbackFailed certificate⟩ =>
    logEvent .error "OCI_ROLLBACK_FAILED" [("certificate_id", .text certificate.id)]
  | ⟨config, _, .retain certificate⟩ => runPostPublicationRetention Γ config certificate

end MeteredCall

/-- The audit of the event raised, or returned False. -/
def auditEventFailed : Event metered Exc → Bool
  | ⟨⟨_, _, .audit _⟩, .ok successful⟩ => !successful
  | ⟨⟨_, _, .audit _⟩, .error _⟩ => true
  | _ => false

/-- An audit that raises raises `AuditError`. -/
def AuditsRaiseAuditError (t : List (Event metered Exc)) : Prop :=
  ∀ config passes id x, (⟨⟨config, passes, .audit id⟩, .error x⟩ : Event metered Exc) ∈ t → x.isInstance .auditError = true

/-- The counter counts the call where it raises. -/
def MeteredCall.countedBy (s : MeteredCall) : Counter → Bool
  | .renewal => s.kind = .renew true || s.kind = .renew false
  | .publication => s.kind = .publish || s.kind = .reconcile
  | .audit => false

/-- How many calls the counter is to count: the calls of its kind that raised, and for the audits those in the steps performed. -/
def toCount (calls : List (MeteredCall × Outcome Exc Unit)) (t : List (Event metered Exc)) : Counter → Nat
  | .audit => t.countP auditEventFailed
  | counter => calls.countP fun c => c.1.countedBy counter &&
      (match c.2 with
      | .raised _ => true
      | _ => false)

/-- The exported metrics count the failures. -/
def FailuresCounted (metrics : List Metric) (certificateId : String) (calls : List (MeteredCall × Outcome Exc Unit))
    (t : List (Event metered Exc)) : Prop :=
  ∀ counter : Counter, ∀ m ∈ metrics, m.name = counter.name → m.labels = [("certificate_id", certificateId)] →
    m.value = some (toCount calls t counter : Rat)

namespace FailureMetricsAux

variable {Γ : Ctx} {config : AppConfig} {certificate : CertificateConfig} {material : LineageMaterial}
  {chain : OciCertificateChain} {faults : Faults} {α β : Type} {operationId requestId id F : String} {passes n : Nat}
  {now : Instant} {operationType : OperationType}

/-! ## What a statement does to the counts -/

/-- The types a renewal or a publication has. -/
def publishing (operationType : OperationType) : Bool := operationType ≠ .audit && operationType ≠ .rollback

/-- No row of a renewal or a publication is in a failure state. -/
def Clean (db : Database) : Prop :=
  ∀ r ∈ db.operations.rows, publishing r.operationType = true → r.state ∉ failureStates

/-- So it is, and `n` audits of the certificate are in a failure state. -/
def Steady (id : String) (n : Nat) (db : Database) : Prop := Clean db ∧ failures db id Counter.audit.types = n

/-- The operation puts no row in a failure state, and transitions none. -/
def gentle : Op → Prop
  | .sql (.insertOperation row) => row.state ∉ failureStates
  | .sql (.updateOperation ..) => False
  | _ => True

theorem terminal_of_failure {state : OperationState} (h : state ∈ failureStates) : state.isTerminal = true := by
  cases state <;> first | rfl | exact absurd h (by decide)

theorem failed_false {r : OperationRow} {types : OperationType → Bool} (h : r.state ∉ failureStates) :
    failed id types r = false := by
  simp [failed, h]

theorem steady_congr {db db' : Database} (heq : db'.operations = db.operations) (h : Steady id n db) : Steady id n db' := by
  unfold Steady Clean failures
  rw [heq]
  exact h

theorem failures_update {db : Database} {p : OperationRow → Bool} {f : OperationRow → OperationRow}
    {hf : ∀ r, (f r).operationId = r.operationId} {types : OperationType → Bool}
    (h : ∀ r ∈ db.operations.rows, p r = true → failed id types (f r) = failed id types r) :
    failures (db.updateOperations p f hf) id types = failures db id types := by
  unfold failures
  rw [show (db.updateOperations p f hf).operations.rows = db.operations.rows.map fun r => if p r then f r else r from rfl,
    List.countP_map]
  refine List.countP_congr fun r hr => ?_
  simp only [Function.comp]
  by_cases hp : p r = true
  · rw [if_pos hp, h r hr hp]
  · rw [if_neg hp]

theorem steady_update {db : Database} {p : OperationRow → Bool} {f : OperationRow → OperationRow}
    {hf : ∀ r, (f r).operationId = r.operationId}
    (hcount : ∀ r ∈ db.operations.rows, p r = true → failed id Counter.audit.types (f r) = failed id Counter.audit.types r)
    (hclean : ∀ r ∈ db.operations.rows, p r = true → publishing (f r).operationType = true → (f r).state ∉ failureStates)
    (h : Steady id n db) : Steady id n (db.updateOperations p f hf) := by
  refine ⟨fun row hrow htype => ?_, ?_⟩
  · rcases mem_updateOperations.1 hrow with ⟨r, hr, hp, rfl⟩ | ⟨hmem, -⟩
    · exact hclean r hr hp htype
    · exact h.1 row hmem htype
  · rw [failures_update hcount]
    exact h.2

/-- A bulk update that completes rows that were in no failure state. -/
theorem steady_completed {db : Database} {p : OperationRow → Bool} {f : OperationRow → OperationRow}
    {hf : ∀ r, (f r).operationId = r.operationId} (hdone : ∀ r, (f r).state = .completed)
    (hp : ∀ r, p r = true → r.state ∉ failureStates) (h : Steady id n db) : Steady id n (db.updateOperations p f hf) := by
  have hcompleted : ∀ r, (f r).state ∉ failureStates := by
    intro r
    rw [hdone r]
    decide
  refine steady_update (fun r _ hr => ?_) (fun r _ _ _ => hcompleted r) h
  rw [failed_false (hcompleted r), failed_false (hp r hr)]

theorem steady_step {s : Statement} {db db' : Database} {reply : s.Reply} (hgentle : gentle (.sql s))
    (hstep : db.Step s reply db') (h : Steady id n db) : Steady id n db' := by
  cases s with
  | insertOperation new =>
    obtain ⟨t, ht, rfl⟩ := hstep
    have hrows := (Table.insert_eq_some_iff.1 ht).2
    constructor
    · intro row hrow htype
      have hmem : row ∈ t.rows := hrow
      rw [hrows] at hmem
      rcases List.mem_append.1 hmem with hmem | hnew
      · exact h.1 row hmem htype
      · rw [List.mem_singleton.1 hnew]
        exact hgentle
    · unfold failures
      rw [show ({ db with operations := t } : Database).operations.rows = t.rows from rfl, hrows, List.countP_append,
        List.countP_singleton, failed_false hgentle]
      exact h.2
  | updateOperation id t => exact hgentle.elim
  | completeReconciled certificateId localFingerprint version excluding now =>
    rw [hstep.2]
    refine steady_completed (fun _ => rfl) (fun r hp hfailed => ?_) h
    simp only [OperationRow.closedBy, OperationRow.active, terminal_of_failure hfailed, Bool.not_true, Bool.and_false,
      Bool.false_eq_true] at hp
  | completeInterruptedAudits certificateId excluding now =>
    rw [hstep.2]
    refine steady_completed (fun _ => rfl) (fun r hp hfailed => ?_) h
    simp only [OperationRow.staleAudit, Bool.and_eq_true, decide_eq_true_eq] at hp
    rw [hp.1.2] at hfailed
    exact absurd hfailed (by decide)
  | selectActive | selectConfirmedOcid | selectAlert => exact steady_congr (by rw [hstep.1]) h
  | upsertFacts | upsertAlert => exact steady_congr (by rw [show db' = _ from hstep]) h

theorem steady_after {op : Op} {answer : Except Exc op.Reply} {db db' : Database} (hgentle : gentle op)
    (h : persisting faults db op answer db') (hdb : Steady id n db) : Steady id n db' := by
  refine RenewalRecordAux.kept_after (fun s reply hop hstep => ?_) h hdb
  subst hop
  exact steady_step hgentle hstep hdb

/-! ## The own row -/

open RenewalRecordAux (Typed typed_after)

/-- A transition of the own row: a publication does not put it in a failure state. -/
def unfailing (operationId : String) (operationType : OperationType) (op : Op) : Prop :=
  gentle op ∨ ∃ t : Transition, op = .sql (.updateOperation operationId t) ∧
    (operationType = .rollback ∨ (publishing operationType = true ∧ t.state ∉ failureStates))

theorem steady_own {op : Op} {answer : Except Exc op.Reply} {db db' : Database} {certificateId : String}
    (hop : unfailing operationId operationType op) (h : persisting faults db op answer db') (hdb : Steady id n db)
    (htyped : Typed operationId certificateId operationType db) : Steady id n db' := by
  rcases hop with hgentle | ⟨t, rfl, htype⟩
  · exact steady_after hgentle h hdb
  · refine RenewalRecordAux.kept_after (fun s reply hs hstep => ?_) h hdb
    cases hs
    rw [hstep.2]
    obtain ⟨row, hrow, hid, -, hrowType⟩ := htyped
    have hown : ∀ r ∈ db.operations.rows, decide (r.operationId = operationId) = true → r.operationType = operationType := by
      intro r hr hp
      obtain rfl : r = row := Table.eq_of_key_eq hr hrow ((of_decide_eq_true hp).trans hid.symm)
      exact hrowType
    have hnoaudit : Counter.audit.types operationType = false := by
      rcases htype with rfl | ⟨hpub, -⟩
      · rfl
      · cases operationType <;> first | rfl | cases hpub
    refine steady_update (fun r hr hp => ?_) (fun r hr hp hpub => ?_) hdb
    · have hr' := hown r hr hp
      simp [failed, OperationRow.transition, hr', hnoaudit]
    · have hr' : (r.transition t).operationType = operationType := hown r hr hp
      rcases htype with rfl | ⟨-, hstate⟩
      · rw [hr'] at hpub
        cases hpub
      · exact hstate

/-- What a program keeps, whatever its end. -/
abbrev Keeps (faults : Faults) (I : Database → Prop) (p : Action α) : Prop :=
  Triple (persisting faults) I p (fun _ => I) (fun _ => I) I

theorem keeps_gentle {p : Action α} (hp : p.Uses gentle) : Keeps faults (Steady id n) p :=
  Triple.frame hp fun _ _ _ _ hop hdb h => steady_after hop h hdb

/-- A program on behalf of an operation that has its row. -/
theorem keeps_own {certificateId : String} {p : Action α} (hp : p.Uses (unfailing operationId operationType)) :
    Keeps faults (fun db => Steady id n db ∧ Typed operationId certificateId operationType db) p :=
  Triple.frame hp fun _ _ _ _ hop hdb h => ⟨steady_own hop h hdb.1 hdb.2, typed_after h hdb.2⟩

theorem gentle_of_passive (op : Op) (h : op.passive) : gentle op := by
  cases op with
  | sql statement => cases statement <;> trivial
  | _ => trivial

theorem gentle_of_idle (op : Op) (h : op.idle = true) : gentle op := gentle_of_passive op (passive_of_idle op h)

/-- An operation is started: its row is there, in no failure state. -/
theorem startOperation_typed (certificateId : String) (operationType : OperationType) (localFingerprint ocid : Option String) :
    Triple (persisting faults) (Steady id n) (StateStore.startOperation certificateId operationType localFingerprint ocid)
      (fun operation db => Steady id n db ∧ ∃ row ∈ db.operations.rows, row.operationId = operation.operationId ∧
        row.certificateId = certificateId ∧ row.operationType = operationType ∧ row.state ∉ failureStates)
      (fun _ => Steady id n) (Steady id n) := by
  refine Triple.bind (keeps_gentle (Program.uses_perform.2 trivial)) fun operationId => ?_
  refine Triple.bind (keeps_gentle (StateStore.uses_utcNow (A := gentle) trivial)) fun started => ?_
  refine Triple.bind (R := fun _ db => Steady id n db ∧ ∃ row ∈ db.operations.rows, row.operationId = operationId ∧
    row.certificateId = certificateId ∧ row.operationType = operationType ∧ row.state ∉ failureStates) ?_ fun _ =>
    Triple.ret (fun _ h => h) fun _ h => h.1
  have hgentle : gentle (.sql (.insertOperation {
      operationId := operationId
      certificateId := certificateId
      operationType := operationType
      state := .discovered
      localFingerprint := localFingerprint
      ociCertificateOcid := ocid
      startedAt := started
      updatedAt := started })) := by
    show OperationState.discovered ∉ failureStates
    decide
  refine Triple.perform (fun _ h => h) (fun db reply db' hdb h => ?_) fun db x db' hdb h => ?_
  · have hnext := steady_after hgentle h hdb
    refine ⟨⟨hnext, ?_⟩, hnext⟩
    have hinsert : db.Step (.insertOperation _) reply db' := h.2
    obtain ⟨t, ht, rfl⟩ := hinsert
    rw [(Table.insert_eq_some_iff.1 ht).2]
    exact ⟨_, List.mem_append_right _ (List.mem_singleton_self _), rfl, rfl, rfl, hgentle⟩
  · have hnext := steady_after hgentle h hdb
    exact ⟨hnext, hnext⟩

/-! ## The steps other than an audit -/

theorem uses_transition_unfailing (hpub : publishing operationType = true) {state : OperationState}
    (hs : state ∉ failureStates) (fields : TransitionFields) :
    (StateStore.transition operationId state fields).Uses (unfailing operationId operationType) := by
  have hnow : unfailing operationId operationType .now := Or.inl trivial
  refine Program.uses_bind (StateStore.uses_completedAt hnow state) fun _ => ?_
  refine Program.uses_bind (StateStore.uses_utcNow hnow) fun _ => ?_
  refine Program.uses_bind (Program.uses_perform.2 (Or.inr ⟨_, rfl, Or.inr ⟨hpub, hs⟩⟩)) fun _ => ?_
  split <;> trivial

theorem uses_complete_unfailing (hpub : publishing operationType = true) (remoteFingerprint : String) (versionNumber : Int)
    (changed : Bool) :
    (PublicationReconciler.complete operationId certificate F remoteFingerprint versionNumber changed operationType).Uses
      (unfailing operationId operationType) := by
  have hnow : unfailing operationId operationType .now := Or.inl trivial
  have hfact : ∀ id update time, unfailing operationId operationType (.sql (.upsertFacts id update time)) :=
    fun _ _ _ => Or.inl trivial
  refine Program.uses_bind (StateStore.uses_recordFacts hnow (hfact _ _)) fun _ => ?_
  refine Program.uses_bind (Program.uses_bind (StateStore.uses_utcNow hnow) fun _ =>
    Program.uses_perform.2 (Or.inl trivial)) fun _ => ?_
  refine Program.uses_bind ?_ fun _ => ?_
  · unfold PublicationReconciler.recordRenewal
    split
    · exact StateStore.uses_recordFacts hnow (hfact _ _)
    · trivial
  · exact Program.uses_bind (uses_transition_unfailing hpub (by decide) _) fun _ => trivial

theorem uses_obtainCandidate_unfailing (hpub : publishing operationType = true) (ocid : String) (etag : Option String) :
    (PublicationReconciler.obtainCandidate Γ config certificate material chain F now ocid operationId requestId etag).Uses
      (unfailing operationId operationType) := by
  have hidle : ∀ op : Op, op.idle = true → unfailing operationId operationType op := fun op h => Or.inl (gentle_of_idle op h)
  refine Program.uses_bind (PublicationReconciler.uses_findMatchingPending hidle) fun found => ?_
  cases found with
  | some c => trivial
  | none =>
    refine Program.uses_bind uses_ofExcept fun _ => ?_
    refine Program.uses_bind (Program.uses_perform.2 (Or.inl trivial)) fun _ => ?_
    refine Program.uses_bind (uses_transition_unfailing hpub (by decide) _) fun _ => ?_
    refine Program.uses_bind (Program.uses_perform.2 (Or.inl trivial)) fun _ => ?_
    refine Program.uses_bind (PublicationReconciler.uses_findMatchingPending hidle) fun visible => ?_
    cases visible <;> trivial

theorem uses_reconcile_unfailing (hpub : publishing operationType = true) (ocid : String) :
    (PublicationReconciler.reconcile Γ config certificate material chain F now operationType ocid operationId).Uses
      (unfailing operationId operationType) := by
  have hperform (op : Op) (hop : op.idle = true) : (perform op).Uses (unfailing operationId operationType) :=
    Program.uses_perform.2 (Or.inl (gentle_of_idle op hop))
  have hpause : ∀ op : Op, pauses op = true → unfailing operationId operationType op :=
    fun op h => Or.inl (gentle_of_passive op (passive_of_pauses op h))
  refine Program.uses_bind (hperform _ rfl) fun requestId => ?_
  refine Program.uses_bind (hperform _ rfl) fun remote => ?_
  refine Program.uses_bind (hperform _ rfl) fun bundle => ?_
  refine Program.uses_bind uses_ofExcept fun current => ?_
  refine Program.uses_bind (uses_transition_unfailing hpub (by decide) _) fun _ => ?_
  split
  · refine Program.uses_bind (hperform _ rfl) fun _ => ?_
    exact uses_complete_unfailing hpub _ _ _
  · refine Program.uses_bind (uses_obtainCandidate_unfailing hpub _ _) fun candidate => ?_
    refine Program.uses_bind (uses_transition_unfailing hpub (by decide) _) fun _ => ?_
    refine Program.uses_bind (hperform _ rfl) fun _ => ?_
    refine Program.uses_bind (PublicationReconciler.uses_promoteCurrent hpause (Or.inl trivial)
      (fun _ _ => Or.inl trivial) _) fun _ => ?_
    refine Program.uses_bind (hperform _ rfl) fun _ => ?_
    refine Program.uses_bind (uses_retryReadUntilSync hpause (hperform _ rfl) _ _) fun confirmed => ?_
    refine Program.uses_bind uses_ofExcept fun fingerprint => ?_
    split
    · trivial
    · refine Program.uses_bind (uses_transition_unfailing hpub (by decide) _) fun _ => ?_
      refine Program.uses_bind (hperform _ rfl) fun _ => ?_
      exact uses_complete_unfailing hpub _ _ _

theorem typed_of_started {db : Database} {certificateId : String}
    (h : Steady id n db ∧ ∃ row ∈ db.operations.rows, row.operationId = operationId ∧ row.certificateId = certificateId ∧
      row.operationType = operationType ∧ row.state ∉ failureStates) :
    Steady id n db ∧ Typed operationId certificateId operationType db := by
  obtain ⟨hsteady, row, hrow, hid, hc, htype, -⟩ := h
  exact ⟨hsteady, row, hrow, hid, hc, htype⟩

theorem reconciled_keeps (hpub : publishing operationType = true) (certificateId : String) :
    Keeps faults (Steady id n) (reconciled Γ config certificateId operationType) := by
  have hret : ∀ {γ : Type} (c : γ), Keeps faults (Steady id n) (.ret c : Action γ) := fun c =>
    Triple.ret (fun _ h => h) fun _ h => h
  refine Triple.bind (keeps_gentle uses_ofExcept) fun certificate => ?_
  refine Triple.bind (keeps_gentle (uses_requireProductionQualification gentle_of_idle)) fun _ => ?_
  refine Triple.bind (keeps_gentle (Program.uses_perform.2 trivial)) fun material => ?_
  refine Triple.bind (keeps_gentle (Program.uses_perform.2 trivial)) fun validated => ?_
  refine Triple.bind (keeps_gentle uses_ofExcept) fun fingerprint => ?_
  refine Triple.bind (keeps_gentle (uses_buildChain gentle_of_idle)) fun chain => ?_
  refine Triple.bind (keeps_gentle (Program.uses_perform.2 trivial)) fun _ => ?_
  refine Triple.bind (keeps_gentle (uses_openPorts gentle_of_idle)) fun _ => ?_
  refine Triple.bind (keeps_gentle (Program.uses_perform.2 trivial)) fun now => ?_
  refine Triple.bind (R := fun _ => Steady id n) ?_ fun _ => hret _
  unfold PublicationReconciler.publish
  split
  · exact Triple.raise (fun _ h => h) fun _ h => h
  · refine Triple.bind (startOperation_typed _ _ _ _) fun operation => ?_
    exact (keeps_own (uses_reconcile_unfailing hpub _)).conseq (fun _ h => typed_of_started h) (fun _ _ h => h.1)
      (fun _ _ h => h.1) fun _ h => h.1

theorem issue_keeps (certificateId : String) (force : Bool) :
    Keeps faults (Steady id n) (MeteredCall.issue Γ config certificateId force) := by
  refine Triple.bind (keeps_gentle uses_ofExcept) fun certificate => ?_
  refine Triple.bind (keeps_gentle (uses_requireProductionQualification gentle_of_idle)) fun _ => ?_
  refine Triple.bind (keeps_gentle (uses_runPreflight gentle_of_idle)) fun _ => ?_
  refine Triple.bind (keeps_gentle (uses_beforeFingerprint gentle_of_idle)) fun _ => ?_
  refine Triple.bind (keeps_gentle (Program.uses_perform.2 trivial)) fun _ => ?_
  refine Triple.bind (keeps_gentle (NativeAcmeService.uses_issue gentle_of_idle (fun _ _ => trivial) (fun _ _ => trivial)
    (fun _ => trivial) _)) fun _ => ?_
  exact keeps_gentle (Program.uses_perform.2 trivial)

theorem unfailing_of_quiet {certificateId : String} (op : Op) (h : op.quiet certificateId operationId = true) :
    unfailing operationId .rollback op := by
  unfold Op.quiet at h
  rcases Bool.or_eq_true_iff.1 h with h | h
  · exact Or.inl (gentle_of_idle op h)
  · cases op with
    | sql statement =>
      cases statement with
      | updateOperation other t =>
        obtain rfl : other = operationId := of_decide_eq_true h
        exact Or.inr ⟨t, rfl, Or.inl rfl⟩
      | insertOperation => cases h
      | _ => exact Or.inl trivial
    | _ => exact Or.inl trivial

theorem rollback_keeps (certificateId : String) :
    Keeps faults (Steady id n) (PublicationService.rollback Γ config passes certificateId) := by
  refine Triple.bind (keeps_gentle uses_ofExcept) fun certificate => ?_
  refine Triple.bind (keeps_gentle (uses_openPorts gentle_of_idle)) fun _ => ?_
  refine Triple.bind (keeps_gentle (Program.uses_perform.2 trivial)) fun now => ?_
  refine Triple.bind (keeps_gentle (uses_auditService gentle_of_idle)) fun configuration => ?_
  unfold RollbackService.rollback
  split
  · exact Triple.raise (fun _ h => h) fun _ h => h
  · refine Triple.bind (startOperation_typed _ _ _ _) fun operation => ?_
    have hquiet : ∀ op : Op, op.quiet certificate.id operation.operationId = true →
        unfailing operation.operationId .rollback op := unfailing_of_quiet
    exact (keeps_own (RollbackService.uses_restore hquiet
      (fun op h => Or.inl (gentle_of_passive op (passive_of_observes op h))) fun _ _ _ => Or.inl trivial)).conseq
        (fun _ h => typed_of_started h) (fun _ _ h => h.1) (fun _ _ h => h.1) fun _ h => h.1

theorem retention_keeps : Keeps faults (Steady id n) (runPostPublicationRetention Γ config certificate) :=
  keeps_gentle (uses_runPostPublicationRetention gentle_of_idle fun _ _ _ _ _ => trivial)

/-! ## An audit -/

/-- The audit has its row, which is in no failure state. -/
def Pending (id : String) (n : Nat) (operationId : String) (db : Database) : Prop :=
  Steady id n db ∧ ∃ row ∈ db.operations.rows, row.operationId = operationId ∧ row.certificateId = id ∧
    row.operationType = .audit ∧ row.state ∉ failureStates

/-- An audit's own row is transitioned to no failure state. -/
def auditing (operationId : String) (op : Op) : Prop :=
  gentle op ∨ ∃ t : Transition, op = .sql (.updateOperation operationId t) ∧ t.state ∉ failureStates

/-- The exception is no `AuditError`. -/
def Lost (x : Exc) (db : Database) : Prop := x.isInstance .auditError = false ∧ Clean db

/-- The audit failed: it is counted where it raises `AuditError`. -/
def Failed (id : String) (n : Nat) (x : Exc) (db : Database) : Prop :=
  Clean db ∧ (x.isInstance .auditError = true → Steady id (n + 1) db)

theorem lost_failed {x : Exc} {db : Database} (h : Lost x db) : Failed id n x db := by
  refine ⟨h.2, fun hx => ?_⟩
  rw [h.1] at hx
  cases hx

theorem pending_update {db : Database} {p : OperationRow → Bool} {f : OperationRow → OperationRow}
    {hf : ∀ r, (f r).operationId = r.operationId} (hsame : ∀ r, (f r).certificateId = r.certificateId ∧
      (f r).operationType = r.operationType) (hstate : ∀ r, (f r).state ∉ failureStates)
    (hp : ∀ r ∈ db.operations.rows, p r = true → r.state ∉ failureStates) (h : Pending id n operationId db) :
    Pending id n operationId (db.updateOperations p f hf) := by
  obtain ⟨hsteady, row, hrow, hid, hc, htype, hrowState⟩ := h
  refine ⟨steady_update (fun r hr hpr => ?_) (fun r _ _ _ => hstate r) hsteady, ?_⟩
  · rw [failed_false (hstate r), failed_false (hp r hr hpr)]
  · by_cases hpr : p row = true
    · exact ⟨f row, mem_updateOperations.2 (Or.inl ⟨row, hrow, hpr, rfl⟩), (hf row).trans hid, (hsame row).1.trans hc,
        (hsame row).2.trans htype, hstate row⟩
    · exact ⟨row, mem_updateOperations.2 (Or.inr ⟨hrow, by simpa using hpr⟩), hid, hc, htype, hrowState⟩

theorem pending_step {s : Statement} {db db' : Database} {reply : s.Reply} (hop : auditing operationId (.sql s))
    (hstep : db.Step s reply db') (h : Pending id n operationId db) : Pending id n operationId db' := by
  have hcompleted : OperationState.completed ∉ failureStates := by decide
  cases s with
  | insertOperation new =>
    rcases hop with hgentle | ⟨t, hs, -⟩
    · refine ⟨steady_step hgentle hstep h.1, ?_⟩
      obtain ⟨row, hrow, hrest⟩ := h.2
      obtain ⟨t, ht, rfl⟩ := hstep
      refine ⟨row, ?_, hrest⟩
      show row ∈ t.rows
      rw [(Table.insert_eq_some_iff.1 ht).2]
      exact List.mem_append_left _ hrow
    · cases hs
  | updateOperation other t =>
    rcases hop with hgentle | ⟨t', hs, hstate⟩
    · exact hgentle.elim
    · cases hs
      rw [hstep.2]
      refine pending_update (fun _ => ⟨rfl, rfl⟩) (fun _ => hstate) (fun r hr hp => ?_) h
      obtain ⟨-, row, hrow, hid, -, -, hrowState⟩ := h
      obtain rfl : r = row := Table.eq_of_key_eq hr hrow ((of_decide_eq_true hp).trans hid.symm)
      exact hrowState
  | completeReconciled certificateId localFingerprint version excluding now =>
    rw [hstep.2]
    refine pending_update (fun _ => ⟨rfl, rfl⟩) (fun _ => hcompleted) (fun r _ hp hfailed => ?_) h
    simp only [OperationRow.closedBy, OperationRow.active, terminal_of_failure hfailed, Bool.not_true, Bool.and_false,
      Bool.false_eq_true] at hp
  | completeInterruptedAudits certificateId excluding now =>
    rw [hstep.2]
    refine pending_update (fun _ => ⟨rfl, rfl⟩) (fun _ => hcompleted) (fun r _ hp hfailed => ?_) h
    simp only [OperationRow.staleAudit, Bool.and_eq_true, decide_eq_true_eq] at hp
    rw [hp.1.2] at hfailed
    exact absurd hfailed (by decide)
  | selectActive | selectConfirmedOcid | selectAlert =>
    rw [hstep.1]
    exact h
  | upsertFacts | upsertAlert =>
    rw [show db' = _ from hstep]
    exact ⟨steady_congr rfl h.1, h.2⟩

theorem pending_after {op : Op} {answer : Except Exc op.Reply} {db db' : Database} (hop : auditing operationId op)
    (h : persisting faults db op answer db') (hdb : Pending id n operationId db) : Pending id n operationId db' := by
  refine RenewalRecordAux.kept_after (fun s reply hs hstep => ?_) h hdb
  subst hs
  exact pending_step hop hstep hdb

theorem keeps_pending {p : Action α} (hp : p.Uses (auditing operationId)) :
    Keeps faults (Pending id n operationId) p :=
  Triple.frame hp fun _ _ _ _ hop hdb h => pending_after hop h hdb

/-- One row more is in a failure state. -/
theorem failures_marked {db : Database} {types : OperationType → Bool} {f : OperationRow → OperationRow}
    {hf : ∀ r, (f r).operationId = r.operationId} {row : OperationRow} (hrow : row ∈ db.operations.rows)
    (hbefore : failed id types row = false) (hafter : failed id types (f row) = true) :
    failures (db.updateOperations (fun r => r.operationId = row.operationId) f hf) id types = failures db id types + 1 := by
  obtain ⟨l₁, l₂, hsplit⟩ := List.append_of_mem hrow
  have hkeys := db.operations.nodup
  rw [hsplit, List.map_append, List.map_cons, List.nodup_middle, List.nodup_cons, ← List.map_append] at hkeys
  have hothers : ∀ r ∈ l₁ ++ l₂, decide (r.operationId = row.operationId) = false := by
    intro r hr
    rw [decide_eq_false_iff_not]
    exact fun heq => hkeys.1 (heq ▸ List.mem_map_of_mem hr)
  have hside : ∀ l : List OperationRow, (∀ r ∈ l, decide (r.operationId = row.operationId) = false) →
      (l.map fun r => if decide (r.operationId = row.operationId) = true then f r else r) = l := by
    intro l hl
    refine (List.map_congr_left fun r hr => ?_).trans (List.map_id l)
    rw [hl r hr]
    rfl
  unfold failures
  rw [show (db.updateOperations (fun r => decide (r.operationId = row.operationId)) f hf).operations.rows =
    db.operations.rows.map fun r => if decide (r.operationId = row.operationId) = true then f r else r from rfl, hsplit,
    List.map_append, List.map_cons, hside l₁ fun r hr => hothers r (List.mem_append_left _ hr),
    hside l₂ fun r hr => hothers r (List.mem_append_right _ hr)]
  simp only [decide_true, if_true, List.countP_append, List.countP_cons, hbefore, hafter, if_true, Bool.false_eq_true,
    if_false]
  omega

/-- The own row of an audit is marked as failed. -/
theorem marked_step {db db' : Database} {t : Transition} {reply : Nat} (ht : t.state = .auditFailed)
    (hstep : db.Step (.updateOperation operationId t) reply db') (h : Pending id n operationId db) : Steady id (n + 1) db' := by
  obtain ⟨⟨hclean, hcount⟩, row, hrow, hid, hc, htype, hstate⟩ := h
  subst hid
  rw [hstep.2]
  have hown : ∀ r ∈ db.operations.rows, decide (r.operationId = row.operationId) = true → r = row :=
    fun r hr hp => Table.eq_of_key_eq hr hrow (of_decide_eq_true hp)
  constructor
  · intro r hr hpub
    rcases mem_updateOperations.1 hr with ⟨r₀, hr₀, hp, rfl⟩ | ⟨hmem, -⟩
    · have hpub' : publishing r₀.operationType = true := hpub
      rw [hown r₀ hr₀ hp, htype] at hpub'
      cases hpub'
    · exact hclean r hmem hpub
  · rw [← hcount]
    refine failures_marked hrow (failed_false hstate) ?_
    have hfailed : OperationState.auditFailed ∈ failureStates := by decide
    simp [failed, OperationRow.transition, hc, htype, ht, hfailed, Counter.types]

/-- What is known of a program that observes nothing and raises no `AuditError` of its own. -/
theorem keeps_lost (hf : faults.Honest) {I : Database → Prop} (hI : ∀ db, I db → Clean db) {p : Action α}
    {Q : α → Database → Prop} (hp : Triple (persisting faults) I p Q (fun _ => I) I)
    (huses : p.Uses fun op : Op => op.observes = false) (hr : p.Raises fun x => x.isInstance .auditError = false) :
    Triple (persisting faults) I p Q Lost fun _ => True := by
  have hraises : Triple (persisting faults) (fun _ => True) p (fun _ _ => True)
      (fun x _ => x.isInstance .auditError = false) fun _ => True :=
    Triple.raises_of_uses (fun _ op x _ hop h => hf.audit op x hop (h.1 x rfl)) huses hr
  exact (hp.and hraises).conseq (fun _ h => ⟨h, trivial⟩) (fun _ _ h => h.1) (fun _ _ h => ⟨h.2, hI _ h.1⟩)
    fun _ _ => trivial

theorem transition_unobserving (state : OperationState) (fields : TransitionFields) :
    (StateStore.transition operationId state fields).Uses fun op : Op => op.observes = false :=
  StateStore.uses_transition_row (A := fun op : Op => op.observes = false) rfl (fun _ => rfl) state fields

theorem uses_transition_auditing {state : OperationState} (hs : state ∉ failureStates) (fields : TransitionFields) :
    (StateStore.transition operationId state fields).Uses (auditing operationId) := by
  have hnow : auditing operationId .now := Or.inl trivial
  refine Program.uses_bind (StateStore.uses_completedAt hnow state) fun _ => ?_
  refine Program.uses_bind (StateStore.uses_utcNow hnow) fun _ => ?_
  refine Program.uses_bind (Program.uses_perform.2 (Or.inr ⟨_, rfl, hs⟩)) fun _ => ?_
  split <;> trivial

theorem utcNow_lost (hf : faults.Honest) :
    Triple (persisting faults) (Pending id n operationId) utcNow (fun _ => Pending id n operationId) Lost fun _ => True :=
  keeps_lost hf (fun _ h => h.1.1) (keeps_pending (StateStore.uses_utcNow (A := auditing operationId) (Or.inl trivial)))
    (StateStore.uses_utcNow (A := fun op : Op => op.observes = false) rfl) StateStore.raises_utcNow

/-- A failed audit marks its row. -/
theorem auditFailed_marks (hf : faults.Honest) :
    Triple (persisting faults) (Pending id n operationId) (auditFailed Γ config certificate operationId)
      (fun _ => Steady id (n + 1)) Lost fun _ => True := by
  have hmark : Triple (persisting faults) (Pending id n operationId)
      (StateStore.transition operationId .auditFailed { errorCode := some "AUDIT_FAILED" }) (fun _ => Steady id (n + 1))
      Lost fun _ => True := by
    refine Triple.bind (R := fun _ => Pending id n operationId)
      (Triple.bind (utcNow_lost hf) fun _ => Triple.ret (fun _ h => h) fun _ _ => trivial) fun completed => ?_
    refine Triple.bind (utcNow_lost hf) fun updated => ?_
    refine Triple.bind (R := fun _ => Steady id (n + 1)) ?_ fun count => ?_
    · refine Triple.perform (fun _ _ => trivial) (fun db reply db' hdb h => ⟨marked_step rfl h.2 hdb, trivial⟩)
        fun db x db' hdb h => ⟨⟨hf.audit _ x rfl (h.1 x rfl), ?_⟩, trivial⟩
      have hkept : Clean db' := RenewalRecordAux.kept_after (fun s reply hs hst => by
        cases hs
        exact (marked_step rfl hst hdb).1) h hdb.1.1
      exact hkept
    · split
      · exact Triple.ret (fun _ h => h) fun _ _ => trivial
      · exact Triple.raise (fun _ h => ⟨rfl, h.1⟩) fun _ _ => trivial
  refine Triple.bind hmark fun _ => ?_
  have hcalm : Triple (persisting faults) (fun _ => True) (notifyAuditFailure Γ config certificate.id) (fun _ _ => True)
      (fun x _ => x.isInstance .auditError = false) fun _ => True := by
    intro db _ o db' hx
    exact (hx.guaranteed (LifecycleAux.calm_notifyAuditFailure hf certificate.id db trivial)).2
  have hnotify : Triple (persisting faults) (Steady id (n + 1)) (notifyAuditFailure Γ config certificate.id)
      (fun _ => Steady id (n + 1)) Lost fun _ => True :=
    ((keeps_gentle (uses_notifyAuditFailure gentle_of_idle _)).and hcalm).conseq (fun _ h => ⟨h, trivial⟩)
      (fun _ _ h => h.1) (fun _ _ h => ⟨h.2, h.1.1⟩) fun _ _ => trivial
  refine Triple.bind hnotify fun _ => ?_
  exact keeps_lost hf (fun _ h => h.1) (keeps_gentle (Program.uses_perform.2 trivial)) (Program.uses_perform.2 rfl)
    (Program.raises_perform _)

theorem auditing_of_passive (op : Op) (h : op.passive) : auditing operationId op := Or.inl (gentle_of_passive op h)

theorem auditing_of_idle (op : Op) (h : op.idle = true) : auditing operationId op := Or.inl (gentle_of_idle op h)

/-- The `try` block of an audit. -/
theorem auditCurrent_counts (hf : faults.Honest) (ocid : String) :
    Triple (persisting faults) (Pending id n operationId)
      (auditCurrent Γ config passes certificate ocid operationId requestId)
      (fun successful => Steady id (if successful then n else n + 1))
      (fun x db => Clean db ∧ (x.isInstance .auditError = true → Pending id n operationId db)) fun _ => True := by
  have hkeep : ∀ {γ : Type} {p : Action γ}, p.Uses (auditing operationId) →
      Triple (persisting faults) (Pending id n operationId) p (fun _ => Pending id n operationId)
        (fun x db => Clean db ∧ (x.isInstance .auditError = true → Pending id n operationId db)) fun _ => True :=
    fun hp => (keeps_pending hp).conseq (fun _ h => h) (fun _ _ h => h) (fun _ _ h => ⟨h.1.1, fun _ => h⟩) fun _ _ => trivial
  have hobserves : ∀ op : Op, op.observes = true → auditing operationId op :=
    fun op h => auditing_of_passive op (passive_of_observes op h)
  refine Triple.bind (hkeep (Program.uses_perform.2 (Or.inl trivial))) fun bundle => ?_
  refine Triple.bind (hkeep (Program.uses_perform.2 (Or.inl trivial))) fun now => ?_
  refine Triple.bind (hkeep uses_ofExcept) fun expected => ?_
  refine Triple.bind (hkeep (uses_auditService auditing_of_idle)) fun configuration => ?_
  refine Triple.bind (hkeep (AuditService.uses_audit hobserves configuration passes expected)) fun result => ?_
  split
  · have hfailed : Triple (persisting faults) (Pending id n operationId) (auditFailed Γ config certificate operationId)
        (fun _ => Steady id (n + 1))
        (fun x db => Clean db ∧ (x.isInstance .auditError = true → Pending id n operationId db)) fun _ => True := by
      refine (auditFailed_marks hf).conseq (fun _ h => h) (fun _ _ h => h) (fun x db h => ⟨h.2, fun hx => ?_⟩) fun _ h => h
      rw [h.1] at hx
      cases hx
    exact Triple.bind hfailed fun _ => Triple.ret (fun _ h => h) fun _ _ => trivial
  · refine Triple.bind (hkeep (uses_transition_auditing (by decide) _)) fun _ => ?_
    refine Triple.bind (hkeep (StateStore.uses_recordFacts (A := auditing operationId) (Or.inl trivial)
      fun _ => Or.inl trivial)) fun _ => ?_
    refine Triple.bind (hkeep (uses_transition_auditing (by decide) _)) fun _ => ?_
    refine Triple.bind (hkeep (StateStore.uses_completeInterruptedAudits (A := auditing operationId) (Or.inl trivial)
      fun _ => Or.inl trivial)) fun _ => ?_
    refine Triple.bind (hkeep (Program.uses_perform.2 (Or.inl trivial))) fun _ => ?_
    exact Triple.ret (fun _ h => h.1) fun _ _ => trivial

/-- An audit that has its row is counted where it returns False or raises `AuditError`. -/
theorem auditStarted_counts (hf : faults.Honest) (ocid : String) :
    Triple (persisting faults) (Pending id n operationId) (auditStarted Γ config passes certificate ocid operationId)
      (fun successful => Steady id (if successful then n else n + 1)) (Failed id n) fun _ => True := by
  have hlost : ∀ {γ : Type} {p : Action γ} {P : Database → Prop} {Q : γ → Database → Prop},
      Triple (persisting faults) P p Q Lost (fun _ => True) → Triple (persisting faults) P p Q (Failed id n) fun _ => True :=
    fun h => h.conseq (fun _ h => h) (fun _ _ h => h) (fun _ _ h => lost_failed h) fun _ h => h
  have hclean : ∀ db, Pending id n operationId db → Clean db := fun _ h => h.1.1
  refine Triple.bind (hlost (keeps_lost hf hclean (keeps_pending (Program.uses_perform.2 (Or.inl trivial)))
    (Program.uses_perform.2 rfl) (Program.raises_perform _))) fun requestId => ?_
  refine Triple.bind (hlost (keeps_lost hf hclean (keeps_pending (uses_transition_auditing (by decide) _))
    (transition_unobserving _ _) (StateStore.raises_transition (φ := fun x => x.isInstance .auditError = false) rfl _ _)))
    fun _ => ?_
  refine Triple.handle (auditCurrent_counts hf ocid) fun x => ?_
  split
  · rename_i hx
    have hmarks : Triple (persisting faults) (Pending id n operationId) (auditFailed Γ config certificate operationId)
        (fun _ => Steady id (n + 1)) (Failed id n) fun _ => True := hlost (auditFailed_marks hf)
    refine (Triple.bind hmarks fun _ => ?_).pre fun db h => h.2 hx
    exact Triple.raise (fun _ h => ⟨h.1, fun _ => h⟩) fun _ _ => trivial
  · rename_i hx
    exact Triple.raise (fun _ h => ⟨h.1, fun hx' => absurd hx' hx⟩) fun _ _ => trivial

/-- An audit is counted where it returns False or raises `AuditError`. -/
theorem audit_counts (hf : faults.Honest) :
    Triple (persisting faults) (Steady id n) (audit Γ config passes id)
      (fun successful => Steady id (if successful then n else n + 1)) (Failed id n) fun _ => True := by
  have hlost : ∀ {γ : Type} {p : Action γ} {P : Database → Prop} {Q : γ → Database → Prop},
      Triple (persisting faults) P p Q Lost (fun _ => True) → Triple (persisting faults) P p Q (Failed id n) fun _ => True :=
    fun h => h.conseq (fun _ h => h) (fun _ _ h => h) (fun _ _ h => lost_failed h) fun _ h => h
  have hclean : ∀ db, Steady id n db → Clean db := fun _ h => h.1
  have hconfigured : Triple (persisting faults) (Steady id n) (ofExcept (configuredCertificate config id))
      (fun certificate db => Steady id n db ∧ certificate.id = id) (Failed id n) fun _ => True := by
    cases hc : configuredCertificate config id with
    | ok certificate => exact Triple.ret (fun _ h => ⟨h, configuredCertificate_id hc⟩) fun _ _ => trivial
    | error x =>
      have hx : x.isInstance .auditError = false := by
        unfold configuredCertificate at hc
        split at hc
        · cases hc
        · cases hc
          rfl
      exact Triple.raise (fun _ h => lost_failed ⟨hx, h.1⟩) fun _ _ => trivial
  refine Triple.bind hconfigured fun certificate => Triple.assume fun hid => ?_
  split
  · exact Triple.raise (fun _ h => lost_failed ⟨rfl, h.1⟩) fun _ _ => trivial
  · rename_i ocid _
    refine Triple.bind (hlost (keeps_lost hf hclean (keeps_gentle (uses_openPorts gentle_of_idle))
      (uses_openPorts fun op h => observes_of_idle h) raises_openPorts)) fun _ => ?_
    refine Triple.bind (hlost (keeps_lost hf hclean (startOperation_typed certificate.id .audit none (some ocid))
      (StateStore.uses_startOperation (A := fun op : Op => op.observes = false) rfl rfl _ _ _ _ fun _ _ _ _ _ => rfl)
      (StateStore.raises_startOperation _ _ _ _))) fun operation => ?_
    subst hid
    exact auditStarted_counts hf ocid

/-! ## The calls -/

/-- No row of a renewal or a publication is in a failure state, and the failed audits are counted. -/
def Accounted (id : String) (w : Database × List (Event metered Exc)) : Prop :=
  Clean w.1 ∧ (AuditsRaiseAuditError w.2 → failures w.1 id Counter.audit.types = w.2.countP auditEventFailed)

/-- The environment of the steps. -/
abbrev accounting (Γ : Ctx) (faults : Faults) : Env metered Exc (Database × List (Event metered Exc)) :=
  recording (implementing (persisting faults) (MeteredCall.implementation Γ))

/-- The step audits no other certificate, and publishes as a renewal or a publication. -/
def properTo (id : String) (op : MeteredOp) : Prop :=
  match op.step with
  | .audit i => i = id
  | .reconcile _ operationType => publishing operationType = true
  | _ => True

theorem auditsRaise_of_snoc {t : List (Event metered Exc)} {e : Event metered Exc} (h : AuditsRaiseAuditError (t ++ [e])) :
    AuditsRaiseAuditError t :=
  fun config passes i x hmem => h config passes i x (List.mem_append_left _ hmem)

/-- A step other than an audit. -/
theorem accounted_other {op : MeteredOp} {r : Except Exc (metered.Reply op)} {db db' : Database}
    {t : List (Event metered Exc)} (hkeeps : ∀ n, Keeps faults (Steady id n) (MeteredCall.implementation Γ op))
    (hevent : auditEventFailed ⟨op, r⟩ = false)
    (hx : Exec (persisting faults) (MeteredCall.implementation Γ op) db (Outcome.ofExcept r) db')
    (h : Accounted id (db, t)) : Accounted id (db', t ++ [⟨op, r⟩]) := by
  have hsteady : Steady id (failures db id Counter.audit.types) db' := by
    have hpost := hkeeps _ db ⟨h.1, rfl⟩ _ db' hx
    cases r <;> exact hpost
  refine ⟨hsteady.1, fun haudits => ?_⟩
  rw [hsteady.2, h.2 (auditsRaise_of_snoc haudits), List.countP_append, List.countP_singleton, hevent]
  rfl

/-- Every step keeps the account. -/
theorem accounted_step (hf : faults.Honest) {op : MeteredOp} (hop : properTo id op) {r : Except Exc (metered.Reply op)}
    {w w' : Database × List (Event metered Exc)} (hx : accounting Γ faults w op r w') (h : Accounted id w) :
    Accounted id w' := by
  obtain ⟨db, t⟩ := w
  obtain ⟨db', t'⟩ := w'
  obtain ⟨hexec, htrace⟩ := hx
  simp only at hexec htrace
  subst htrace
  obtain ⟨config, passes, step⟩ := op
  cases step with
  | issue certificateId force =>
    refine accounted_other (fun n => issue_keeps certificateId force) ?_ hexec h
    cases r <;> rfl
  | reconcile certificateId operationType =>
    refine accounted_other (fun n => reconciled_keeps hop certificateId) ?_ hexec h
    cases r <;> rfl
  | recordCompleted operationType certificate result =>
    refine accounted_other (fun n => keeps_gentle (Program.uses_perform.2 trivial)) ?_ hexec h
    cases r <;> rfl
  | rollback certificateId =>
    refine accounted_other (fun n => rollback_keeps certificateId) ?_ hexec h
    cases r <;> rfl
  | recordRollbackFailed certificate =>
    refine accounted_other (fun n => keeps_gentle (Program.uses_perform.2 trivial)) ?_ hexec h
    cases r <;> rfl
  | retain certificate =>
    refine accounted_other (fun n => retention_keeps) ?_ hexec h
    cases r <;> rfl
  | audit i =>
    obtain rfl : i = id := hop
    have hpost := audit_counts (Γ := Γ) hf db ⟨h.1, rfl⟩ _ db' hexec
    cases r with
    | ok successful =>
      have hsteady : Steady i (if successful = true then failures db i Counter.audit.types
        else failures db i Counter.audit.types + 1) db' := hpost
      refine ⟨hsteady.1, fun haudits => ?_⟩
      rw [hsteady.2, h.2 (auditsRaise_of_snoc haudits), List.countP_append, List.countP_singleton]
      cases successful <;> rfl
    | error x =>
      have hfailed : Failed i (failures db i Counter.audit.types) x db' := hpost
      refine ⟨hfailed.1, fun haudits => ?_⟩
      have hx := haudits config passes i x (List.mem_append_right _ (List.mem_singleton_self _))
      rw [(hfailed.2 hx).2, h.2 (auditsRaise_of_snoc haudits), List.countP_append, List.countP_singleton]
      rfl

/-- A program whose steps are proper keeps the account. -/
theorem accounted_frame (hf : faults.Honest) {p : Program metered Exc α} (hp : p.Uses (properTo id)) :
    Triple (accounting Γ faults) (Accounted id) p (fun _ => Accounted id) (fun _ => Accounted id) (Accounted id) :=
  Triple.frame hp fun _ _ _ _ hop h hx => accounted_step hf hop hx h

theorem uses_publicationAudit {s : MeteredCall} (hid : certificate.id = id) :
    (s.publicationAudit certificate).Uses (properTo id) := by
  unfold MeteredCall.publicationAudit
  split
  · trivial
  · refine Program.uses_bind (Program.uses_handle (Program.uses_perform.2 hid) fun error => ?_) fun successful => ?_
    · split <;> trivial
    · split
      · trivial
      · split
        · trivial
        · refine Program.uses_bind (Program.uses_attempt (Program.uses_perform.2 trivial)) fun outcome => ?_
          cases outcome with
          | ok _ => trivial
          | error error =>
            simp only
            split
            · exact Program.uses_bind (Program.uses_perform.2 trivial) fun _ => trivial
            · trivial
  · refine Program.uses_handle (Program.uses_bind (Program.uses_perform.2 hid) fun _ => trivial) fun error => ?_
    split <;> trivial

theorem yields_reconciled (certificateId : String) (operationType : OperationType) :
    (reconciled Γ config certificateId operationType).Yields fun reached => reached.1.id = certificateId := by
  unfold reconciled
  cases hc : configuredCertificate config certificateId with
  | error x => trivial
  | ok certificate =>
    have hid := configuredCertificate_id hc
    simp only [ofExcept, Program.bind_eq, Program.ret_bind, Program.pure_eq]
    refine Program.yields_last _ fun _ => Program.yields_last _ fun _ => Program.yields_last _ fun _ => ?_
    refine Program.yields_last _ fun _ => Program.yields_last _ fun _ => Program.yields_last _ fun _ => ?_
    refine Program.yields_last _ fun _ => Program.yields_last _ fun _ => Program.yields_last _ fun _ => ?_
    exact hid

/-- A publication keeps the account. -/
theorem publication_accounted (hf : faults.Honest) {s : MeteredCall} (hpub : publishing operationType = true) :
    Triple (accounting Γ faults) (Accounted id) (s.publication id operationType) (fun _ => Accounted id)
      (fun _ => Accounted id) (Accounted id) := by
  refine Triple.bind (R := fun reached w => Accounted id w ∧ reached.1.id = id) ?_ fun reached =>
    Triple.assume fun hid => ?_
  · have hproper : properTo id ⟨s.config, s.passes, .reconcile id operationType⟩ := hpub
    refine Triple.perform (fun _ h => h) (fun w reached w' h hx => ?_) fun w x w' h hx => ?_
    · have hnext := accounted_step hf hproper hx h
      have hrun : Exec (persisting faults) (reconciled Γ s.config id operationType) w.1 (.returned reached) w'.1 := hx.1
      exact ⟨⟨hnext, hrun.yields (yields_reconciled _ _) rfl⟩, hnext⟩
    · have hnext := accounted_step hf hproper hx h
      exact ⟨hnext, hnext⟩
  · refine Triple.bind (accounted_frame hf (Program.uses_perform.2 trivial)) fun _ => ?_
    refine Triple.bind (accounted_frame hf (uses_publicationAudit hid)) fun _ => ?_
    exact accounted_frame hf (Program.uses_perform.2 trivial)

/-- Every call keeps the account. -/
theorem steps_accounted (hf : faults.Honest) (s : MeteredCall) :
    Triple (accounting Γ faults) (Accounted id) (s.steps id) (fun _ => Accounted id) (fun _ => Accounted id)
      (Accounted id) := by
  unfold MeteredCall.steps
  split
  · exact Triple.bind (accounted_frame hf (Program.uses_perform.2 trivial)) fun _ => publication_accounted hf rfl
  · exact publication_accounted hf rfl
  · exact publication_accounted hf rfl
  · exact accounted_frame hf (Program.uses_bind (Program.uses_perform.2 rfl) fun _ => trivial)

/-! ## The calls are what their steps do -/

theorem bind_unit (p : Action Unit) : (p.bind fun _ => .ret ()) = p := Program.bind_ret p

theorem subst_step (s : MeteredCall) (step : MeteredStep) :
    (s.perform step).subst (MeteredCall.implementation Γ) = MeteredCall.implementation Γ ⟨s.config, s.passes, step⟩ :=
  Program.subst_perform _

/-- A step, then the rest. -/
theorem subst_step_bind (s : MeteredCall) (step : MeteredStep)
    (f : metered.Reply ⟨s.config, s.passes, step⟩ → Program metered Exc α) :
    ((s.perform step).bind f).subst (MeteredCall.implementation Γ) =
      Program.bind (MeteredCall.implementation Γ ⟨s.config, s.passes, step⟩)
        fun reply => (f reply).subst (MeteredCall.implementation Γ) := by
  rw [Program.subst_bind, subst_step]

theorem subst_publicationAudit (s : MeteredCall) :
    (s.publicationAudit certificate).subst (MeteredCall.implementation Γ) =
      runPostPublicationAudit Γ s.config s.passes certificate := by
  unfold MeteredCall.publicationAudit runPostPublicationAudit
  cases hmode : certificate.audit.mode with
  | disabled => rfl
  | observe =>
    simp only
    rw [Program.subst_handle, Program.subst_bind, subst_step]
    congr 1
    funext error
    split <;> rfl
  | enforce =>
    unfold enforcePostPublicationAudit
    simp only [hmode, ne_eq, not_true_eq_false, if_false, Program.bind_eq]
    rw [Program.subst_bind, Program.subst_handle, subst_step]
    have hcaught : ∀ error : Exc, Program.subst (MeteredCall.implementation Γ)
        (if error.isInstance .auditError = true then (pure false : Program metered Exc Bool) else .raise error) =
          if error.isInstance .auditError = true then pure false else .raise error := by
      intro error
      split <;> rfl
    simp only [hcaught]
    congr 1
    funext successful
    split
    · rfl
    split
    · rfl
    rw [Program.subst_bind, Program.attempt, Program.subst_handle, Program.subst_bind, subst_step]
    congr 1
    funext outcome
    cases outcome with
    | ok _ => rfl
    | error error =>
      simp only
      split
      · rw [Program.subst_bind, subst_step]
        rfl
      · rfl

/-- A publication is its steps. -/
theorem subst_publication (s : MeteredCall) (certificateId : String) (operationType : OperationType) :
    (s.publication certificateId operationType).subst (MeteredCall.implementation Γ) =
      (publish Γ s.config s.passes certificateId operationType).bind fun _ => .ret () := by
  have hrest : ∀ reached : CertificateConfig × PublicationResult,
      Program.subst (MeteredCall.implementation Γ) ((s.perform (.recordCompleted operationType reached.1 reached.2)).bind fun _ =>
        (s.publicationAudit reached.1).bind fun _ => s.perform (.retain reached.1)) =
      (logEvent .info "OPERATION_COMPLETED" [("certificate_id", .text reached.1.id),
        ("operation", .text operationType.lowerName), ("version_number", .number reached.2.currentVersionNumber)]).bind
          fun _ => (runPostPublicationAudit Γ s.config s.passes reached.1).bind fun _ =>
            runPostPublicationRetention Γ s.config reached.1 := by
    intro reached
    refine (subst_step_bind s _ _).trans ?_
    simp only [Program.subst_bind, subst_publicationAudit]
    refine congrArg (Program.bind _) (funext fun _ => congrArg (Program.bind _) (funext fun _ => ?_))
    exact subst_step s _
  refine (subst_step_bind s (.reconcile certificateId operationType) _).trans ?_
  refine (congrArg (Program.bind _) (funext hrest)).trans ?_
  simp only [publish, MeteredCall.implementation, reconciled, Program.bind_eq, Program.pure_eq, Program.bind_assoc,
    Program.ret_bind, bind_unit]

/-- A call is its steps. -/
theorem subst_steps (s : MeteredCall) (certificateId : String) :
    (s.steps certificateId).subst (MeteredCall.implementation Γ) = s.run Γ certificateId := by
  unfold MeteredCall.steps MeteredCall.run
  split
  · refine (subst_step_bind s (.issue certificateId _) _).trans ?_
    refine (congrArg (Program.bind _) (funext fun _ => subst_publication s certificateId .renew)).trans ?_
    simp only [renew, MeteredCall.implementation, MeteredCall.issue, Program.bind_eq, Program.bind_assoc]
  · exact subst_publication s certificateId .publish
  · exact subst_publication s certificateId .reconcile
  · rw [Program.subst_bind, subst_step]
    rfl

/-- A history of calls that end is one of their steps. -/
theorem history_of_steps {calls : List (MeteredCall × Outcome Exc Unit)} {db last : Database}
    (h : History (persisting faults) (fun s => s.run Γ id) db calls last) (hends : ∀ c ∈ calls, c.2 ≠ .crashed) :
    ∃ t, History (accounting Γ faults) (fun s => s.steps id) (db, []) calls (last, t) := by
  induction h with
  | nil => exact ⟨[], .nil _⟩
  | @snoc _ _ calls s o _ hx ih =>
    obtain ⟨t, ht⟩ := ih fun c hc => hends c (List.mem_append_left _ hc)
    have hcall := hends (s, o) (List.mem_append_right _ (List.mem_singleton_self _))
    rw [← subst_steps] at hx
    obtain ⟨t', ht'⟩ := (hx.abstract hcall).record t
    exact ⟨t', ht.snoc ht'⟩

/-! ## The exported samples -/

/-- The sample of a counter is the count of its rows. -/
theorem sample_value {db : Database} {daysRemaining : CertificateConfig → Option Rat} {counter : Counter} {m : Metric}
    (hm : m ∈ collectMetrics config db daysRemaining) (hname : m.name = counter.name)
    (hlabels : m.labels = [("certificate_id", id)]) : m.value = some (failures db id counter.types : Rat) := by
  rw [← entry_tally]
  unfold collectMetrics at hm
  rcases List.mem_cons.1 hm with rfl | hm
  · cases hlabels
  obtain ⟨certificate, -, hm⟩ := List.mem_flatMap.1 hm
  unfold certificateSamples at hm
  rcases List.mem_append.1 hm with hm | hm
  · simp only [List.mem_cons, List.not_mem_nil, or_false] at hm
    rcases hm with rfl | rfl | rfl | rfl | rfl | rfl | rfl | rfl | rfl | rfl <;> cases hlabels <;> cases counter <;>
      first | rfl | simp [Counter.name] at hname
  · obtain ⟨x, -, rfl⟩ := List.mem_map.1 hm
    cases hlabels

/-- A configured certificate has the sample of every counter. -/
theorem sample_exists {db : Database} {daysRemaining : CertificateConfig → Option Rat} (counter : Counter)
    (hid : ∃ certificate ∈ config.certificates, certificate.id = id) :
    ∃ m ∈ collectMetrics config db daysRemaining, m.name = counter.name ∧ m.labels = [("certificate_id", id)] := by
  obtain ⟨certificate, hmem, rfl⟩ := hid
  refine ⟨⟨counter.name, some (counter.entry (tally db certificate.id)), [("certificate_id", certificate.id)]⟩, ?_, rfl, rfl⟩
  refine List.mem_cons_of_mem _ (List.mem_flatMap.2 ⟨certificate, hmem, List.mem_append_left _ ?_⟩)
  cases counter <;> simp [Counter.name, Counter.entry]

/-- The counters of the renewals and the publications are zero. -/
theorem failures_eq_zero {db : Database} {counter : Counter} (h : Clean db) (hcounter : counter ≠ .audit) :
    failures db id counter.types = 0 := by
  unfold failures
  rw [List.countP_eq_zero]
  intro r hr hfailed
  simp only [failed, Bool.and_eq_true, decide_eq_true_eq] at hfailed
  refine h r hr ?_ hfailed.2
  have htype := hfailed.1.2
  cases counter <;> cases hr : r.operationType <;> rw [hr] at htype <;> first | rfl | exact absurd rfl hcounter | cases htype

end FailureMetricsAux

open FailureMetricsAux

/-- The failure metrics count the failures where there is no failed renewal or publication to count, and nowhere else. For every
history of renewals, publications, reconciliations and audits of a configured certificate, from the empty store and with any answers:
where the exported counters of failed renewals and publications are the numbers of the calls that raised, and the counter of failed
audits the number of audits, of their own or after a publication, that raised or returned False, only audits raised; and where only
audits raised, none of them anything but `AuditError`, the counters are these numbers. -/
theorem failure_metrics_counted (Γ : Ctx) {faults : Faults} (hf : faults.Honest) (config : AppConfig) {id : String}
    (hid : ∃ certificate ∈ config.certificates, certificate.id = id) (daysRemaining : CertificateConfig → Option Rat)
    {calls : List (MeteredCall × Outcome Exc Unit)} {last : Database} {t : List (Event metered Exc)}
    (h : History (accounting Γ faults) (fun s => s.steps id) ({}, []) calls (last, t)) :
    (FailuresCounted (collectMetrics config last daysRemaining) id calls t →
      ∀ c ∈ calls, ∀ x, c.2 = .raised x → c.1.kind = .audit) ∧
    ((∀ c ∈ calls, ∀ x, c.2 = .raised x → c.1.kind = .audit) → AuditsRaiseAuditError t →
      FailuresCounted (collectMetrics config last daysRemaining) id calls t) := by
  have hstart : Accounted id (({} : Database), ([] : List (Event metered Exc))) := by
    refine ⟨fun r hr => ?_, fun _ => rfl⟩
    cases hr
  obtain ⟨hclean, haccount⟩ := h.keeps (fun s w o w' hw hx => by
    have hpost := steps_accounted hf s w hw o w' hx
    cases o <;> exact hpost) hstart
  have hraised : ∀ counter, counter ≠ .audit → toCount calls t counter = calls.countP fun c => c.1.countedBy counter &&
      (match c.2 with
      | .raised _ => true
      | _ => false) := by
    intro counter hcounter
    cases counter <;> first | rfl | exact absurd rfl hcounter
  constructor
  · intro hcounted c hc x hx
    by_contra hkind
    have hcounter : ∃ counter, counter ≠ .audit ∧ c.1.countedBy counter = true := by
      cases hk : c.1.kind with
      | renew force => exact ⟨.renewal, by decide, by cases force <;> simp [MeteredCall.countedBy, hk]⟩
      | publish => exact ⟨.publication, by decide, by simp [MeteredCall.countedBy, hk]⟩
      | reconcile => exact ⟨.publication, by decide, by simp [MeteredCall.countedBy, hk]⟩
      | audit => exact absurd hk hkind
    obtain ⟨counter, hne, hby⟩ := hcounter
    obtain ⟨m, hm, hname, hlabels⟩ : ∃ m ∈ collectMetrics config last daysRemaining, m.name = counter.name ∧
        m.labels = [("certificate_id", id)] := sample_exists counter hid
    have hvalue := hcounted counter m hm hname hlabels
    rw [sample_value hm hname hlabels, failures_eq_zero hclean hne, hraised counter hne] at hvalue
    have hzero : 0 = calls.countP fun c => c.1.countedBy counter &&
        (match c.2 with
        | .raised _ => true
        | _ => false) := by
      exact_mod_cast Option.some.inj hvalue
    have hnone := List.countP_eq_zero.1 hzero.symm c hc
    rw [hby, hx] at hnone
    exact hnone rfl
  · intro hall haudits counter m hm hname hlabels
    rw [sample_value hm hname hlabels]
    by_cases hcounter : counter = .audit
    · subst hcounter
      rw [haccount haudits]
      rfl
    · rw [failures_eq_zero hclean hcounter, hraised counter hcounter, List.countP_eq_zero.2]
      intro c hc hcount
      obtain ⟨hby, hraise⟩ := Bool.and_eq_true_iff.1 hcount
      cases ho : c.2 with
      | raised x =>
        have hkind := hall c hc x ho
        cases counter <;> simp [MeteredCall.countedBy, hkind] at hby
      | returned a =>
        rw [ho] at hraise
        cases hraise
      | crashed =>
        rw [ho] at hraise
        cases hraise

namespace FailureMetricsAux

open Sample

/-- A renewal of the sample certificate. -/
def sampleRenewal : MeteredCall := ⟨config certificate, 1, .renew false⟩

/-- The challenge server is not reached. -/
def unreachable : Exc := .of .preflightError "HTTP-01 preflight failed"

/-- The preflight of a certificate. -/
def meteredPreflight : Op → Bool
  | .preflight .. => true
  | _ => false

/-- Only the preflight fails. -/
def preflightFaults : Faults := fun op x => meteredPreflight op = true ∧ x = unreachable

theorem honest_preflightFaults : preflightFaults.observing.Honest where
  audit op x ho hx := by
    rcases hx with ⟨-, rfl⟩ | hx
    · rfl
    · rw [ho] at hx
      cases hx
  store s x hx := by
    rcases hx with ⟨hx, -⟩ | hx <;> cases hx

/-- The steps of the renewal before its publication. -/
def unreachedRun : Outcome Exc Unit × World :=
  (MeteredCall.implementation ctx ⟨sampleRenewal.config, sampleRenewal.passes, .issue "web" false⟩).runFor
    (simulateFailing ctx script meteredPreflight unreachable) 30 (world resource)

/-- An outside where every endpoint presents another leaf, and time passes quickly. -/
def misplaced : Network := fun observed op =>
  match op with
  | .resolve _ => .ok ["192.0.2.1"]
  | .probe .. => .ok "other"
  | .monotonic => .ok (1000 * observed)
  | _ => .error (.of .osError "no network")

/-- The sample certificate, with an audited endpoint. -/
def audited (mode : AuditMode) : CertificateConfig := { certificate with audit := { mode := mode, endpoints := endpoints } }

/-- A publication whose audit is observed. -/
def samplePublication : MeteredCall := ⟨config (audited .observe), 1, .publish⟩

/-- An audit that is enforced. -/
def sampleAudit : MeteredCall := ⟨config (audited .enforce), 1, .audit⟩

/-- The simulated service, a step of a call at a time. -/
def simulateSteps : Handler metered Exc (World × List (Event metered Exc)) := fun w op =>
  match (MeteredCall.implementation addressed op).runFor (simulate addressed script) 100 w.1 with
  | (.returned a, w') => some (.ok a, (w', w.2 ++ [⟨op, .ok a⟩]))
  | (.raised x, w') => some (.error x, (w', w.2 ++ [⟨op, .error x⟩]))
  | (.crashed, _) => none

/-- The database of a simulated call, and what was performed. -/
def kept (w : World × List (Event metered Exc)) : Database × List (Event metered Exc) := (w.1.database, w.2)

/-- The calls of the simulation are calls on its database. -/
theorem steps_exec {α : Type} {p : Program metered Exc α} {n : Nat} {o : Outcome Exc α} {w : World × List (Event metered Exc)}
    (ho : (p.runFor simulateSteps n w).1 = o) :
    Exec (accounting addressed noFaults.observing) p (kept w) o (kept (p.runFor simulateSteps n w).2) := by
  have hallowed : simulateSteps.Allowed fun w op r w' => accounting addressed noFaults.observing (kept w) op r (kept w') := by
    intro w op r w' h
    have hrun := exec_persisting (exec_runFor (simulate_allowed addressed script noFaults) 100
      (MeteredCall.implementation addressed op) w.1)
    unfold simulateSteps at h
    split at h
    · rename_i a w₁ heq
      cases h
      rw [heq] at hrun
      exact ⟨hrun, rfl⟩
    · rename_i x w₁ heq
      cases h
      rw [heq] at hrun
      exact ⟨hrun, rfl⟩
    · cases h
  exact (exec_of_runFor hallowed ho).map kept fun _ _ _ _ h => h

/-- The publication. -/
def publicationRun : Outcome Exc Unit × World × List (Event metered Exc) :=
  (samplePublication.steps "web").runFor simulateSteps 10 ({ world resource with network := misplaced }, [])

/-- The audit after it. -/
def auditRun : Outcome Exc Unit × World × List (Event metered Exc) :=
  (sampleAudit.steps "web").runFor simulateSteps 10 publicationRun.2

/-- What the audit raises. -/
def timedOut : Exc := auditError "TLS audit did not converge before propagation timeout"

/-- The two calls and their outcomes. -/
def sampleCalls : List (MeteredCall × Outcome Exc Unit) :=
  [(samplePublication, .returned ())] ++ [(sampleAudit, .raised timedOut)]

/-- What an audit raises is an `AuditError`. -/
def raisesAuditError : Event metered Exc → Bool
  | ⟨⟨_, _, .audit _⟩, .error x⟩ => x.isInstance .auditError
  | _ => true

end FailureMetricsAux

/-- A renewal whose preflight fails raises `PreflightError`, and the counter of failed renewals stays zero. -/
theorem failure_metrics_counted_false :
    preflightFaults.observing.Honest ∧ ∃ last t, History (accounting Sample.ctx preflightFaults.observing)
        (fun s => s.steps "web") ({}, []) [(sampleRenewal, .raised unreachable)] (last, t) ∧ AuditsRaiseAuditError t ∧
      ¬FailuresCounted (collectMetrics sampleRenewal.config last fun _ => none) "web" [(sampleRenewal, .raised unreachable)] t := by
  have hraised : unreachedRun.1 = .raised unreachable := by decide +kernel
  have hrows : failures unreachedRun.2.database "web" Counter.renewal.types = 0 := by decide +kernel
  have hfails : (simulateFailing Sample.ctx Sample.script meteredPreflight unreachable).Allowed
      (service Sample.ctx preflightFaults) := simulateFailing_allowed Sample.ctx Sample.script fun _ h => ⟨h, rfl⟩
  have hexec := exec_persisting (exec_of_runFor hfails hraised)
  have hstep : accounting Sample.ctx preflightFaults.observing ({}, [])
      ⟨sampleRenewal.config, sampleRenewal.passes, .issue "web" false⟩ (.error unreachable)
      (unreachedRun.2.database, [⟨⟨sampleRenewal.config, sampleRenewal.passes, .issue "web" false⟩, .error unreachable⟩]) :=
    ⟨hexec, rfl⟩
  have hcall : Exec (accounting Sample.ctx preflightFaults.observing) (sampleRenewal.steps "web") ({}, []) (.raised unreachable)
      (unreachedRun.2.database, [⟨⟨sampleRenewal.config, sampleRenewal.passes, .issue "web" false⟩, .error unreachable⟩]) :=
    .call hstep (.raise unreachable _)
  refine ⟨honest_preflightFaults, _, _, History.snoc (l := []) (.nil _) hcall, fun _ _ _ _ hmem => ?_, fun hcounted => ?_⟩
  · cases List.mem_singleton.1 hmem
  · obtain ⟨m, hm, hname, hlabels⟩ : ∃ m ∈ collectMetrics sampleRenewal.config unreachedRun.2.database fun _ => none,
        m.name = Counter.renewal.name ∧ m.labels = [("certificate_id", "web")] :=
      sample_exists .renewal ⟨_, List.mem_singleton_self _, rfl⟩
    have hvalue := hcounted .renewal m hm hname hlabels
    rw [sample_value hm hname hlabels, hrows] at hvalue
    have hone : toCount [(sampleRenewal, .raised unreachable)]
        [⟨⟨sampleRenewal.config, sampleRenewal.passes, .issue "web" false⟩, .error unreachable⟩] .renewal = 1 := rfl
    rw [hone, Nat.cast_zero, Nat.cast_one] at hvalue
    exact absurd (Option.some.inj hvalue) zero_ne_one

/-- A publication returns though its audit returns False, and an audit after it raises `AuditError`: two failed audits are counted,
and no failed publication. -/
theorem failure_metrics_counted_sample :
    ∃ last t, History (accounting Sample.addressed noFaults.observing) (fun s => s.steps "web") ({}, [])
        sampleCalls (last, t) ∧
      toCount sampleCalls t .audit = 2 ∧ FailuresCounted (collectMetrics sampleAudit.config last fun _ => none) "web" sampleCalls t := by
  have hreturned : publicationRun.1 = .returned () := by decide +kernel
  have hraised : auditRun.1 = .raised timedOut := by decide +kernel
  have hhistory : History (accounting Sample.addressed noFaults.observing) (fun s => s.steps "web") ({}, []) sampleCalls
      (kept auditRun.2) :=
    .snoc (.snoc (l := []) (.nil _) (steps_exec hreturned)) (steps_exec hraised)
  have hevents : ∀ e ∈ auditRun.2.2, raisesAuditError e = true := by decide +kernel
  have haudits : AuditsRaiseAuditError auditRun.2.2 := fun _ _ _ _ hmem => hevents _ hmem
  have hconfigured : ∃ certificate ∈ sampleAudit.config.certificates, certificate.id = "web" :=
    ⟨_, List.mem_singleton_self _, rfl⟩
  refine ⟨_, _, hhistory, by decide +kernel, (failure_metrics_counted Sample.addressed LifecycleAux.honest_observing
    sampleAudit.config hconfigured _ hhistory).2 ?_ haudits⟩
  intro c hc x hx
  rcases List.mem_append.1 hc with hc | hc
  · rw [List.mem_singleton.1 hc] at hx
    cases hx
  · rw [List.mem_singleton.1 hc]
    rfl

end OciAcmePublisher
