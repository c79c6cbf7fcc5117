import OciAcmePublisher.Lemmas.Lifecycle
import OciAcmePublisher.Simulation

/-!
# The life cycle of an operation row

Over any history of service runs, whatever the ports answer and wherever a run is cut: a row is dated exactly when it has ended, an
ended row never changes, and what identifies a row or has been learnt for it is never lost.
-/

namespace OciAcmePublisher

open Effects Tables

/-- A service run that writes the store. -/
inductive ServiceCall where
  | bootstrap | publish | reconcile
  | renew (force : Bool)
  | audit | rollback | retention
  deriving DecidableEq, Repr

/-- A run of the publisher: what is called, for which certificate, with which configuration. -/
structure ServiceRun where
  config : AppConfig
  certificateId : String
  passes : Nat
  call : ServiceCall

/-- The program of a run, without its result. -/
def ServiceRun.run (Γ : Ctx) (s : ServiceRun) : Action Unit :=
  match s.call with
  | .bootstrap => (PublicationService.bootstrap Γ s.config s.certificateId).bind fun _ => .ret ()
  | .publish => (PublicationService.publish Γ s.config s.passes s.certificateId .publish).bind fun _ => .ret ()
  | .reconcile => (PublicationService.publish Γ s.config s.passes s.certificateId .reconcile).bind fun _ => .ret ()
  | .renew force => (PublicationService.renew Γ s.config s.passes s.certificateId force).bind fun _ => .ret ()
  | .audit => (PublicationService.audit Γ s.config s.passes s.certificateId).bind fun _ => .ret ()
  | .rollback => (PublicationService.rollback Γ s.config s.passes s.certificateId).bind fun _ => .ret ()
  | .retention => (PublicationService.retention s.config s.certificateId).bind fun _ => .ret ()

/-- What a row may become. -/
structure OperationRow.Evolves (r r' : OperationRow) : Prop where
  operationId : r'.operationId = r.operationId
  certificateId : r'.certificateId = r.certificateId
  operationType : r'.operationType = r.operationType
  localFingerprint : r'.localFingerprint = r.localFingerprint
  ended : r.state.isTerminal = true → r' = r
  ociVersionNumber : r.ociVersionNumber.isSome = true → r'.ociVersionNumber.isSome = true
  ociCertificateOcid : r.ociCertificateOcid.isSome = true → r'.ociCertificateOcid.isSome = true
  opcRequestId : r.opcRequestId.isSome = true → r'.opcRequestId.isSome = true

/-- Every row of the store is still there, as what it may have become. -/
def Database.Evolves (db db' : Database) : Prop :=
  ∀ r ∈ db.operations.rows, ∃ r' ∈ db'.operations.rows, r.Evolves r'

/-- A row is dated exactly when it has ended. -/
def Database.Dated (db : Database) : Prop :=
  ∀ r ∈ db.operations.rows, r.completedAt.isSome = r.state.isTerminal

namespace LifecycleAux

theorem OperationRow.evolves_refl (r : OperationRow) : r.Evolves r :=
  ⟨rfl, rfl, rfl, rfl, fun _ => rfl, id, id, id⟩

theorem OperationRow.evolves_trans {a b c : OperationRow} (hab : a.Evolves b) (hbc : b.Evolves c) : a.Evolves c where
  operationId := hbc.operationId.trans hab.operationId
  certificateId := hbc.certificateId.trans hab.certificateId
  operationType := hbc.operationType.trans hab.operationType
  localFingerprint := hbc.localFingerprint.trans hab.localFingerprint
  ended h := by
    have hb := hab.ended h
    rw [hbc.ended (by rw [hb]; exact h), hb]
  ociVersionNumber h := hbc.ociVersionNumber (hab.ociVersionNumber h)
  ociCertificateOcid h := hbc.ociCertificateOcid (hab.ociCertificateOcid h)
  opcRequestId h := hbc.opcRequestId (hab.opcRequestId h)

theorem evolves_trans (a b c : Database) (hab : a.Evolves b) (hbc : b.Evolves c) : a.Evolves c := by
  intro r hr
  obtain ⟨r', hr', h⟩ := hab r hr
  obtain ⟨r'', hr'', h'⟩ := hbc r' hr'
  exact ⟨r'', hr'', OperationRow.evolves_trans h h'⟩

/-- `COALESCE` loses nothing. -/
theorem or_isSome {β : Type} (a b : Option β) (h : b.isSome = true) : (a.or b).isSome = true := by
  cases a with
  | none => exact h
  | some _ => rfl

/-- The rows after an update of rows that are active. -/
theorem evolves_update {db : Database} {p : OperationRow → Bool} {f : OperationRow → OperationRow}
    {hf : ∀ r, (f r).operationId = r.operationId}
    (h : ∀ r ∈ db.operations.rows, p r = true → r.Evolves (f r)) : db.Evolves (db.updateOperations p f hf) := by
  intro r hr
  cases hp : p r with
  | true => exact ⟨f r, mem_updateOperations.2 (Or.inl ⟨r, hr, hp, rfl⟩), h r hr hp⟩
  | false => exact ⟨r, mem_updateOperations.2 (Or.inr ⟨hr, hp⟩), OperationRow.evolves_refl r⟩

theorem dated_update {db : Database} {p : OperationRow → Bool} {f : OperationRow → OperationRow}
    {hf : ∀ r, (f r).operationId = r.operationId} (hdb : db.Dated)
    (h : ∀ r, (f r).completedAt.isSome = (f r).state.isTerminal) : (db.updateOperations p f hf).Dated := by
  intro r hr
  rcases mem_updateOperations.1 hr with ⟨x, -, -, rfl⟩ | ⟨hmem, -⟩
  · exact h x
  · exact hdb r hmem

theorem evolves_of_operations {db db' : Database} (h : db'.operations = db.operations) : db.Evolves db' := by
  intro r hr
  exact ⟨r, by rw [h]; exact hr, OperationRow.evolves_refl r⟩

/-- An orderly statement: what becomes of the rows. -/
theorem Orderly.evolves {db db' : Database} (h : db.Orderly db') : db.Evolves db' := by
  rcases h with heq | ⟨s, reply, hs, hstep⟩
  · exact evolves_of_operations heq
  cases s with
  | insertOperation row =>
    obtain ⟨t, ht, rfl⟩ := hstep
    intro r hr
    refine ⟨r, ?_, OperationRow.evolves_refl r⟩
    rw [show ({ db with operations := t } : Database).operations.rows = t.rows from rfl,
      (Table.insert_eq_some_iff.1 ht).2]
    exact List.mem_append_left _ hr
  | updateOperation id t =>
    obtain ⟨⟨row, hrow, hid, hactive⟩, -⟩ := hs
    rw [hstep.2]
    refine evolves_update fun r hr hp => ?_
    obtain rfl : r = row := Table.eq_of_key_eq hr hrow ((of_decide_eq_true hp).trans hid.symm)
    refine ⟨rfl, rfl, rfl, rfl, fun hend => ?_, or_isSome _ _, or_isSome _ _, or_isSome _ _⟩
    rw [OperationRow.active, hend] at hactive
    cases hactive
  | completeReconciled certificateId F version excluding now =>
    rw [hstep.2]
    refine evolves_update fun r _ hp => ⟨rfl, rfl, rfl, rfl, fun hend => ?_, fun _ => rfl, id, id⟩
    simp [OperationRow.closedBy, OperationRow.active, hend] at hp
  | completeInterruptedAudits certificateId excluding now =>
    rw [hstep.2]
    refine evolves_update fun r _ hp => ⟨rfl, rfl, rfl, rfl, fun hend => ?_, id, id, id⟩
    have hstate : r.state = .auditPending := by
      simp only [OperationRow.staleAudit, Bool.and_eq_true, decide_eq_true_eq] at hp
      exact hp.1.2
    rw [hstate] at hend
    cases hend
  | selectActive | selectConfirmedOcid | selectAlert => exact evolves_of_operations (by rw [hstep.1])
  | upsertFacts | upsertAlert => exact evolves_of_operations (by rw [hstep])

theorem Orderly.dated {db db' : Database} (h : db.Orderly db') (hdb : db.Dated) : db'.Dated := by
  have hsame : db'.operations = db.operations → db'.Dated := by
    intro heq r hr
    rw [heq] at hr
    exact hdb r hr
  rcases h with heq | ⟨s, reply, hs, hstep⟩
  · exact hsame heq
  cases s with
  | insertOperation row =>
    obtain ⟨t, ht, rfl⟩ := hstep
    intro r hr
    rw [show ({ db with operations := t } : Database).operations.rows = t.rows from rfl,
      (Table.insert_eq_some_iff.1 ht).2] at hr
    rcases List.mem_append.1 hr with hmem | hnew
    · exact hdb r hmem
    · rw [List.mem_singleton.1 hnew, hs.1, hs.2.1]
      rfl
  | updateOperation id t =>
    rw [hstep.2]
    exact dated_update hdb fun r => hs.2
  | completeReconciled | completeInterruptedAudits =>
    rw [hstep.2]
    exact dated_update hdb fun r => rfl
  | selectActive | selectConfirmedOcid | selectAlert => exact hsame (by rw [hstep.1])
  | upsertFacts | upsertAlert => exact hsame (by rw [hstep])

/-- No count of ended rows falls. -/
theorem count_le {db db' : Database} (h : db.Evolves db') {s : OperationState} (hs : s.isTerminal = true) :
    db.operations.countWhere (fun r => r.state = s) ≤ db'.operations.countWhere (fun r => r.state = s) := by
  unfold Table.countWhere
  refine (List.subperm_of_subset (List.Nodup.filter _ (List.Nodup.of_map _ db.operations.nodup)) ?_).length_le
  intro r hr
  obtain ⟨hmem, hstate⟩ := List.mem_filter.1 hr
  obtain ⟨r', hr', hev⟩ := h r hmem
  have hend : r.state.isTerminal = true := by
    rw [of_decide_eq_true hstate]
    exact hs
  rw [hev.ended hend] at hr'
  exact List.mem_filter.2 ⟨hr', hstate⟩

/-- Every statement of a run is orderly. -/
theorem run_orderly {Γ : Ctx} {faults : Faults} (hf : faults.Honest) (s : ServiceRun) : Plain faults (s.run Γ) := by
  have hret : ∀ {β : Type} {p : Action β}, Plain faults p → Plain faults (p.bind fun _ => (.ret () : Action Unit)) :=
    fun hp => plain_bind hp fun _ => Guarded.ret fun _ _ => trivial
  unfold ServiceRun.run
  cases s.call with
  | bootstrap => exact hret (PublicationService.bootstrap_orderly hf)
  | publish => exact hret (PublicationService.publish_orderly hf (by decide))
  | reconcile => exact hret (PublicationService.publish_orderly hf (by decide))
  | renew force => exact hret (PublicationService.renew_orderly hf force)
  | audit => exact hret (PublicationService.audit_orderly hf)
  | rollback => exact hret PublicationService.rollback_orderly
  | retention => exact hret PublicationService.retention_orderly

end LifecycleAux

open LifecycleAux

/-- Operation rows follow their life cycle. Over any history of service runs, each cut, raising or returning, on any certificates
and with any answers: in every store the history passes through a row is dated exactly when its state is terminal; and of any two
of these stores the later one still has every row of the earlier one, with the same identity, type and fingerprint, unchanged if it
had ended, and without losing a version, an OCID or a request identifier, so that no count of ended rows falls. -/
theorem operation_rows_evolve (Γ : Ctx) {faults : Faults} (hf : faults.Honest) {start last : Database}
    (hstart : start.Dated) {past : List Database} {runs : List (ServiceRun × Outcome Exc Unit)}
    (h : History (witnessing (persisting faults)) (ServiceRun.run Γ) (start, []) runs (last, past)) :
    (∀ db ∈ past ++ [last], db.Dated) ∧
      (past ++ [last]).Pairwise fun db db' => db.Evolves db' ∧ ∀ s : OperationState, s.isTerminal = true →
        db.operations.countWhere (fun r => r.state = s) ≤ db'.operations.countWhere (fun r => r.state = s) := by
  have hkeep : ∀ s (w : Database × List Database) o w', ((∀ db ∈ w.2 ++ [w.1], db.Dated) ∧
      (w.2 ++ [w.1]).Pairwise Database.Evolves) → Exec (witnessing (persisting faults)) (ServiceRun.run Γ s) w o w' →
        (∀ db ∈ w'.2 ++ [w'.1], db.Dated) ∧ (w'.2 ++ [w'.1]).Pairwise Database.Evolves := by
    rintro s w o w' ⟨hdated, hpair⟩ hx
    have hrun := run_orderly (Γ := Γ) hf s w.1 trivial
    refine ⟨?_, hx.related evolves_trans (fun _ _ => Orderly.evolves) hrun hpair⟩
    have hpassed := Exec.passed (I := Database.Dated) (fun _ _ h hd => Orderly.dated h hd) hx hrun hdated
    exact hpassed
  obtain ⟨hdated, hpair⟩ := h.keeps hkeep ⟨by simpa using hstart, List.pairwise_singleton _ _⟩
  exact ⟨hdated, hpair.imp fun hev => ⟨hev, fun s hs => count_le hev hs⟩⟩

namespace LifecycleAux

open Sample

theorem honest_observing : noFaults.observing.Honest where
  audit op x ho hx := by
    rcases hx with hx | hx
    · exact hx.elim
    · rw [ho] at hx
      cases hx
  store s x hx := by
    rcases hx with hx | hx
    · exact hx.elim
    · cases hx

/-- A publication of the sample certificate, with its audits switched off. -/
def sampleService : ServiceRun := ⟨config { certificate with audit := { mode := .disabled } }, "web", 1, .publish⟩

/-- The sample publication, run to its end. -/
def serviceRun : Outcome Exc Unit × World := (sampleService.run ctx).runFor (simulate ctx script) 100 (world resource)

end LifecycleAux

/-- One publication, from the empty store. -/
theorem operation_rows_evolve_sample :
    serviceRun.1 = .returned () ∧ ∃ past : List Database,
      (∀ db ∈ past ++ [serviceRun.2.database], db.Dated) ∧
        (past ++ [serviceRun.2.database]).Pairwise fun db db' => db.Evolves db' ∧ ∀ s : OperationState,
          s.isTerminal = true →
            db.operations.countWhere (fun r => r.state = s) ≤ db'.operations.countWhere (fun r => r.state = s) := by
  refine ⟨by decide +kernel, ?_⟩
  have hexec := exec_runFor (simulate_allowed Sample.ctx Sample.script noFaults) 100 (sampleService.run Sample.ctx)
    (Sample.world Sample.resource)
  obtain ⟨past, hwitness⟩ := (exec_persisting hexec).witness []
  have hempty : (Sample.world Sample.resource).database.Dated := by
    intro r hr
    cases hr
  exact ⟨past, operation_rows_evolve Sample.ctx honest_observing hempty (.snoc (.nil _) (i := sampleService) hwitness)⟩

end OciAcmePublisher
