import OciAcmePublisher.Lemmas.OwnRow
import OciAcmePublisher.Simulation

/-!
# Stale audits

A successful audit closes the audits that stopped while their row was AUDIT_PENDING. An audit that stops before that, or between
AUDIT_SUCCESS and COMPLETED, leaves a row that no audit closes.
-/

namespace OciAcmePublisher

open Effects Tables

/-- What may differ between two audits of a certificate. -/
structure AuditRun where
  config : AppConfig
  passes : Nat

/-- One audit. -/
def AuditRun.run (Γ : Ctx) (certificateId : String) (call : AuditRun) : Action Bool :=
  PublicationService.audit Γ call.config call.passes certificateId

/-- No audit of the certificate is nonterminal. -/
def Database.AuditsEnded (certificateId : String) (db : Database) : Prop :=
  ∀ row ∈ db.operations.rows, row.certificateId = certificateId → row.operationType = .audit → row.active = false

/-- Every nonterminal audit of the certificate is AUDIT_PENDING. -/
def Database.AuditsPending (certificateId : String) (db : Database) : Prop :=
  ∀ row ∈ db.operations.rows, row.certificateId = certificateId → row.operationType = .audit → row.active = true →
    row.state = .auditPending

instance (certificateId : String) (db : Database) : Decidable (db.AuditsEnded certificateId) :=
  inferInstanceAs (Decidable (∀ row ∈ db.operations.rows, _ → _ → _))

namespace StaleAuditsAux

variable {Γ : Ctx} {faults : Faults} {certificateId operationId : String} {rows : List OperationRow}

/-- What an audit that succeeds leaves: its own row is completed, and of the rows it found the AUDIT_PENDING ones are closed. -/
def Swept (certificateId : String) (rows : List OperationRow) (db' : Database) : Prop :=
  ∃ operationId now db, Owns operationId rows (OperationRow.Is certificateId .audit .completed) db ∧
    db'.operations = (db.updateOperations (OperationRow.staleAudit certificateId operationId)
      (fun r => r.completeAudit now) (OperationRow.completeAudit_operationId now)).operations

/-- The end of a successful audit. -/
theorem completeInterruptedAudits_sweeps :
    Triple (persisting faults) (Owns operationId rows (OperationRow.Is certificateId .audit .completed))
      (StateStore.completeInterruptedAudits certificateId operationId) (fun _ => Swept certificateId rows)
      (fun _ _ => True) fun _ => True := by
  refine Triple.bind (owns_aside (StateStore.uses_utcNow (A := Op.passive) rfl) fun _ _ _ => trivial) fun now => ?_
  refine (sql_spec _).post ?_
  rintro _ db' ⟨db, hdb, hstep⟩
  exact ⟨operationId, now, db, hdb, congrArg Database.operations hstep.2⟩

theorem swept_frame {α : Type} {p : Action α} (hp : p.Uses Op.passive) :
    Triple (persisting faults) (Swept certificateId rows) p (fun _ => Swept certificateId rows) (fun _ _ => True)
      fun _ => True := by
  refine (Triple.frame hp ?_).conseq (fun _ h => h) (fun _ _ h => h) (fun _ _ _ => trivial) fun _ _ => trivial
  rintro db op answer db' hop ⟨id, now, mid, howns, heq⟩ h
  exact ⟨id, now, mid, howns, (operations_of_passive hop h).trans heq⟩

/-- An audit that has started its row. -/
theorem auditStarted_sweeps (config : AppConfig) (passes : Nat) (certificate : CertificateConfig) (ocid : String) :
    Triple (persisting faults) (Owns operationId rows (OperationRow.Is certificate.id .audit .discovered))
      (PublicationService.auditStarted Γ config passes certificate ocid operationId)
      (fun successful db' => successful = true → Swept certificate.id rows db') (fun _ _ => True) fun _ => True := by
  have haside : ∀ {β : Type} {s : OperationState} {p : Action β}, p.Uses Op.passive →
      Triple (persisting faults) (Owns operationId rows (OperationRow.Is certificate.id .audit s)) p
        (fun _ => Owns operationId rows (OperationRow.Is certificate.id .audit s)) (fun _ _ => True) fun _ => True :=
    fun hp => owns_aside hp fun _ _ _ => trivial
  have htransition : ∀ {s s' : OperationState} {fields : TransitionFields},
      Triple (persisting faults) (Owns operationId rows (OperationRow.Is certificate.id .audit s))
        (StateStore.transition operationId s' fields)
        (fun _ => Owns operationId rows (OperationRow.Is certificate.id .audit s')) (fun _ _ => True) fun _ => True :=
    (transition_owns _).conseq (fun _ h => h) (fun _ _ h => h) (fun _ _ _ => trivial) fun _ h => h
  refine Triple.bind (haside (Program.uses_perform.2 rfl)) fun requestId => ?_
  refine Triple.bind htransition fun _ => ?_
  refine Triple.handle (R := fun _ _ => True) ?_ fun x => ?_
  · refine Triple.bind (haside (Program.uses_perform.2 rfl)) fun bundle => ?_
    refine Triple.bind (haside (Program.uses_perform.2 rfl)) fun now => ?_
    refine Triple.bind (haside uses_ofExcept) fun expected => ?_
    refine Triple.bind (haside (PublicationService.uses_auditService passive_of_idle)) fun configuration => ?_
    refine Triple.bind (haside (AuditService.uses_audit passive_of_observes _ _ _)) fun result => ?_
    split
    · refine Triple.last _ fun _ => Triple.ret (fun _ _ h => ?_) fun _ _ => trivial
      cases h
    · refine Triple.bind htransition fun _ => ?_
      refine Triple.bind (haside (StateStore.uses_recordFacts rfl fun _ => rfl)) fun _ => ?_
      refine Triple.bind htransition fun _ => ?_
      refine Triple.bind completeInterruptedAudits_sweeps fun _ => ?_
      refine Triple.bind (R := fun _ => Swept certificate.id rows) ?_ fun _ =>
        Triple.ret (fun _ h _ => h) fun _ _ => trivial
      exact swept_frame (Program.uses_perform.2 rfl)
  · split
    · exact Triple.last _ fun _ => Triple.raise (fun _ _ => trivial) fun _ _ => trivial
    · exact Triple.raise (fun _ _ => trivial) fun _ _ => trivial

/-- An audit that returns true has swept the rows it found. -/
theorem audit_sweeps (config : AppConfig) (passes : Nat) :
    Triple (persisting faults) (fun db => db.operations.rows = rows)
      (PublicationService.audit Γ config passes certificateId)
      (fun successful db' => successful = true → Swept certificateId rows db') (fun _ _ => True) fun _ => True := by
  refine Triple.bind (R := fun certificate db => db.operations.rows = rows ∧ certificate.id = certificateId) ?_
    fun certificate => Triple.assume fun hid => ?_
  · refine Triple.ofExcept (fun certificate db hc hdb => ⟨hdb, configuredCertificate_id hc⟩) (fun _ _ _ => trivial)
      fun _ _ => trivial
  subst hid
  split
  · exact Triple.raise (fun _ _ => trivial) fun _ _ => trivial
  · rename_i ocid _
    refine Triple.bind (rows_aside (PublicationService.uses_openPorts passive_of_idle)) fun _ => ?_
    refine Triple.bind (startOperation_owns.conseq (fun _ h => h) (fun _ _ h => h.1) (fun _ _ _ => trivial) fun _ h => h)
      fun operation => ?_
    exact auditStarted_sweeps config passes certificate ocid

/-- After the sweep every audit has ended exactly where those that were found active were AUDIT_PENDING. -/
theorem Swept.ended_iff {db db' : Database} (h : Swept certificateId db.operations.rows db') :
    db'.AuditsEnded certificateId ↔ db.AuditsPending certificateId := by
  obtain ⟨operationId, now, mid, howns, heq⟩ := h
  constructor
  · intro hended row hrow hc hty hactive
    obtain ⟨hmem, hne⟩ := howns.mem hrow
    by_contra hstate
    have hkept : row ∈ db'.operations.rows := by
      rw [heq]
      refine mem_updateOperations.2 (Or.inr ⟨hmem, ?_⟩)
      simp [OperationRow.staleAudit, hstate]
    rw [hended row hkept hc hty] at hactive
    cases hactive
  · intro hpending row hrow hc hty
    rw [heq] at hrow
    rcases mem_updateOperations.1 hrow with ⟨r, -, -, rfl⟩ | ⟨hmem, hstale⟩
    · rfl
    · rcases howns.cases hmem with hfound | ⟨-, his⟩
      · by_contra hactive
        have hstate := hpending row hfound hc hty (by simpa using hactive)
        have hne := (howns.mem hfound).2
        simp [OperationRow.staleAudit, hc, hty, hstate, hne] at hstale
      · rw [OperationRow.active, his.reached]
        rfl

end StaleAuditsAux

open StaleAuditsAux

/-- After a history of audits of a certificate, each cut, failing or returning, an audit that returns true leaves no nonterminal
audit of the certificate exactly where every one it found was AUDIT_PENDING: no earlier audit has stopped between its start and
AUDIT_PENDING, or between AUDIT_SUCCESS and COMPLETED. -/
theorem audits_ended_iff (Γ : Ctx) (faults : Faults) (certificateId : String) {start db' : Database}
    {earlier : List (AuditRun × Outcome Exc Bool)} {call : AuditRun}
    (h : History (persisting faults) (AuditRun.run Γ certificateId) start (earlier ++ [(call, .returned true)]) db') :
    ∃ db, History (persisting faults) (AuditRun.run Γ certificateId) start earlier db ∧
      Exec (persisting faults) (call.run Γ certificateId) db (.returned true) db' ∧
        (db'.AuditsEnded certificateId ↔ db.AuditsPending certificateId) := by
  obtain ⟨db, hearlier, hx⟩ := h.split
  refine ⟨db, hearlier, hx, ?_⟩
  exact ((audit_sweeps call.config call.passes).returned rfl hx rfl).ended_iff

namespace StaleAuditsAux

open Sample

/-- An audit of the sample certificate, with the endpoints left alone. -/
def sampleAudit : AuditRun := ⟨config { certificate with audit := { mode := .disabled } }, 1⟩

/-- A sample audit, cut before its operation number `n`. -/
def auditRun (n : Nat) (w : World) : Outcome Exc Bool × World :=
  (sampleAudit.run ctx "web").runFor (simulate ctx script) n w

/-- The database after an audit that was cut before its operation number `n` and one that was not. -/
def auditedTwice (n : Nat) : Database := (auditRun 100 (auditRun n (world resource)).2).2.database

theorem auditedTwice_history {n : Nat} (hcut : (auditRun n (world resource)).1 = .crashed)
    (hret : (auditRun 100 (auditRun n (world resource)).2).1 = .returned true) :
    History (persisting noFaults.observing) (AuditRun.run ctx "web") {} [(sampleAudit, .crashed), (sampleAudit, .returned true)]
      (auditedTwice n) := by
  have hfirst := exec_of_runFor (simulate_allowed ctx script noFaults) hcut
  have hsecond := exec_of_runFor (simulate_allowed ctx script noFaults) hret
  exact .snoc (.snoc (.nil _) (i := sampleAudit) (exec_persisting hfirst)) (i := sampleAudit) (exec_persisting hsecond)

end StaleAuditsAux

/-- An audit is cut right after its row is inserted; the next one succeeds and leaves that row DISCOVERED. -/
theorem audits_ended_false :
    History (persisting noFaults.observing) (AuditRun.run Sample.ctx "web") {}
        [(sampleAudit, .crashed), (sampleAudit, .returned true)] (auditedTwice 5) ∧
      ¬(auditedTwice 5).AuditsEnded "web" :=
  ⟨auditedTwice_history (by decide +kernel) (by decide +kernel), by decide +kernel⟩

/-- An audit is cut while its row is AUDIT_PENDING; the next one succeeds and closes it. -/
theorem audits_ended_iff_sample :
    (auditedTwice 10).AuditsEnded "web" ∧ ∃ db, db.AuditsPending "web" ∧
      History (persisting noFaults.observing) (AuditRun.run Sample.ctx "web") {} [(sampleAudit, .crashed)] db := by
  have hhistory : History (persisting noFaults.observing) (AuditRun.run Sample.ctx "web") {}
      ([(sampleAudit, .crashed)] ++ [(sampleAudit, .returned true)]) (auditedTwice 10) :=
    auditedTwice_history (by decide +kernel) (by decide +kernel)
  have hended : (auditedTwice 10).AuditsEnded "web" := by decide +kernel
  obtain ⟨db, hearlier, -, hiff⟩ := audits_ended_iff Sample.ctx noFaults.observing "web" hhistory
  exact ⟨hended, db, hiff.1 hended, hearlier⟩

end OciAcmePublisher
