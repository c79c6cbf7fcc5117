import OciAcmePublisher.Effects.Chronicle
import OciAcmePublisher.Theorems.RowLifecycle

/-!
# The timestamp of a completed renewal

A renewal records its timestamp before it completes its own row. The bulk update that closes interrupted operations does not: where
it closes the row of a renewal that was cut before its timestamp, the row is COMPLETED and the certificate's
`last_successful_renewal_at` is what it was before.
-/

namespace OciAcmePublisher

open Effects Tables

/-- The recorded time of the last successful renewal is not earlier than the start of the row. -/
def Database.Timestamped (db : Database) (row : OperationRow) : Prop :=
  ∃ facts ∈ db.certificateStates.rows, facts.certificateId = row.certificateId ∧
    ∃ renewed ∈ facts.lastSuccessfulRenewalAt, row.startedAt ≤ renewed

/-- Every completed renewal has its timestamp. -/
def Database.RenewalsRecorded (db : Database) : Prop :=
  ∀ row ∈ db.operations.rows, row.operationType = .renew → row.state = .completed → db.Timestamped row

/-- The bulk update closes no renewal without a timestamp, and a renewal is not recorded at a time before renewals of the
certificate were started. -/
def Op.Timely (db : Database) : Op → Prop
  | .sql (.completeReconciled certificateId localFingerprint _ excluding _) =>
    ∀ row ∈ db.operations.rows, row.closedBy certificateId localFingerprint excluding = true → row.operationType = .renew →
      db.Timestamped row
  | .sql (.upsertFacts certificateId .renewal time) =>
    ∀ row ∈ db.operations.rows, row.certificateId = certificateId → row.operationType = .renew → row.startedAt ≤ time
  | _ => True

instance (db : Database) (op : Op) : Decidable (op.Timely db) := by
  unfold Op.Timely Database.Timestamped
  split <;> infer_instance

/-- The store, as long as what is written to it is timely. -/
def timely (faults : Faults) : Env publisher Exc Database := fun db op answer db' =>
  persisting faults db op answer db' ∧ op.Timely db

namespace RenewalRecordAux

variable {Γ : Ctx} {config : AppConfig} {certificate : CertificateConfig} {material : LineageMaterial}
  {chain : OciCertificateChain} {faults : Faults} {α β : Type} {operationId requestId id F : String} {passes : Nat}
  {now : Instant} {operationType : OperationType}

/-- The row of the operation is there, and of this certificate and type. -/
def Typed (operationId certificateId : String) (operationType : OperationType) (db : Database) : Prop :=
  ∃ row ∈ db.operations.rows, row.operationId = operationId ∧ row.certificateId = certificateId ∧
    row.operationType = operationType

/-- Every renewal of the certificate has a timestamp, completed or not. -/
def AllTimestamped (certificateId : String) (db : Database) : Prop :=
  ∀ row ∈ db.operations.rows, row.certificateId = certificateId → row.operationType = .renew → db.Timestamped row

/-- The operation completes no row with an update of its own, nor inserts a completed one. -/
def Op.mild : Op → Prop
  | .sql (.insertOperation row) => row.state ≠ .completed
  | .sql (.updateOperation _ t) => t.state ≠ .completed
  | _ => True

/-! ## What a statement does -/

theorem timestamped_congr {db db' : Database} {row row' : OperationRow} (hfacts : db'.certificateStates = db.certificateStates)
    (hid : row'.certificateId = row.certificateId) (hstart : row'.startedAt = row.startedAt) (h : db.Timestamped row) :
    db'.Timestamped row' := by
  unfold Database.Timestamped
  rw [hfacts, hid, hstart]
  exact h

/-- The facts of the certificate after an upsert. -/
theorem mem_factsUpdated {db : Database} {certificateId : String} {update : FactUpdate} {now : Timestamp}
    {facts : CertificateState} : facts ∈ (db.factsUpdated certificateId update now).rows ↔
      (facts ∈ db.certificateStates.rows ∧ facts.certificateId ≠ certificateId) ∨
        (∃ old ∈ db.certificateStates.rows, old.certificateId = certificateId ∧ facts = old.record now update) ∨
          ((∀ old ∈ db.certificateStates.rows, old.certificateId ≠ certificateId) ∧
            facts = CertificateState.record { certificateId := certificateId, updatedAt := now } now update) := by
  have hkey : (CertificateState.record { certificateId := certificateId, updatedAt := now } now update).certificateId =
      certificateId := CertificateState.record_certificateId _ _ _
  unfold Database.factsUpdated Table.upsert
  split
  · rename_i t ht
    obtain ⟨hfresh, hrows⟩ := Table.insert_eq_some_iff.1 ht
    have hne : ∀ old ∈ db.certificateStates.rows, old.certificateId ≠ certificateId :=
      fun old hold heq => hfresh (List.mem_map.2 ⟨old, hold, heq.trans hkey.symm⟩)
    rw [hrows, List.mem_append, List.mem_singleton]
    constructor
    · rintro (hmem | rfl)
      · exact Or.inl ⟨hmem, hne _ hmem⟩
      · exact Or.inr (Or.inr ⟨hne, rfl⟩)
    · rintro (⟨hmem, -⟩ | ⟨old, hold, heq, -⟩ | ⟨-, rfl⟩)
      · exact Or.inl hmem
      · exact absurd heq (hne old hold)
      · exact Or.inr rfl
  · rename_i hnone
    have hthere : ∃ old ∈ db.certificateStates.rows, old.certificateId = certificateId := by
      by_contra hno
      have hfresh : (CertificateState.record { certificateId := certificateId, updatedAt := now } now update).certificateId ∉
          db.certificateStates.rows.map (·.certificateId) := by
        rw [hkey]
        intro hmem
        obtain ⟨old, hold, heq⟩ := List.mem_map.1 hmem
        exact hno ⟨old, hold, heq⟩
      unfold Table.insert at hnone
      rw [dif_neg hfresh] at hnone
      cases hnone
    rw [Table.mem_updateWhere]
    simp only [hkey, decide_eq_true_eq, decide_eq_false_iff_not]
    constructor
    · rintro (⟨old, hold, heq, rfl⟩ | ⟨hmem, hne⟩)
      · exact Or.inr (Or.inl ⟨old, hold, heq, rfl⟩)
      · exact Or.inl ⟨hmem, hne⟩
    · rintro (⟨hmem, hne⟩ | ⟨old, hold, heq, rfl⟩ | ⟨hall, -⟩)
      · exact Or.inr ⟨hmem, hne⟩
      · exact Or.inl ⟨old, hold, heq, rfl⟩
      · obtain ⟨old, hold, heq⟩ := hthere
        exact absurd heq (hall old hold)

/-- A recorded fact other than a renewal keeps the timestamps. -/
theorem timestamped_facts {db : Database} {certificateId : String} {update : FactUpdate} {now : Timestamp}
    {row : OperationRow} (hupdate : update ≠ .renewal) (h : db.Timestamped row) :
    ({ db with certificateStates := db.factsUpdated certificateId update now } : Database).Timestamped row := by
  obtain ⟨facts, hfacts, hid, renewed, hrenewed, hle⟩ := h
  by_cases hc : facts.certificateId = certificateId
  · refine ⟨facts.record now update, mem_factsUpdated.2 (Or.inr (Or.inl ⟨facts, hfacts, hc, rfl⟩)), ?_, renewed, ?_, hle⟩
    · rw [CertificateState.record_certificateId]
      exact hid
    · cases update with
      | renewal => exact absurd rfl hupdate
      | _ => exact hrenewed
  · exact ⟨facts, mem_factsUpdated.2 (Or.inl ⟨hfacts, hc⟩), hid, renewed, hrenewed, hle⟩

/-- A recorded renewal is the timestamp of every row of the certificate that was started before. -/
theorem timestamped_renewal {db : Database} {now : Timestamp} {row : OperationRow} (hle : row.startedAt ≤ now) :
    ({ db with certificateStates := db.factsUpdated row.certificateId .renewal now } : Database).Timestamped row := by
  by_cases hthere : ∃ old ∈ db.certificateStates.rows, old.certificateId = row.certificateId
  · obtain ⟨old, hold, hid⟩ := hthere
    exact ⟨old.record now .renewal, mem_factsUpdated.2 (Or.inr (Or.inl ⟨old, hold, hid, rfl⟩)), hid, now, rfl, hle⟩
  · exact ⟨_, mem_factsUpdated.2 (Or.inr (Or.inr ⟨fun old hold heq => hthere ⟨old, hold, heq⟩, rfl⟩)), rfl, now, rfl, hle⟩

theorem timestamped_other {db : Database} {certificateId : String} {now : Timestamp} {row : OperationRow}
    (hne : row.certificateId ≠ certificateId) (h : db.Timestamped row) :
    ({ db with certificateStates := db.factsUpdated certificateId .renewal now } : Database).Timestamped row := by
  obtain ⟨facts, hfacts, hid, renewed, hrenewed, hle⟩ := h
  exact ⟨facts, mem_factsUpdated.2 (Or.inl ⟨hfacts, hid ▸ hne⟩), hid, renewed, hrenewed, hle⟩

/-- An update that keeps what the timestamps depend on. -/
theorem recorded_update {db : Database} {p : OperationRow → Bool} {f : OperationRow → OperationRow}
    {hf : ∀ r, (f r).operationId = r.operationId}
    (hsame : ∀ r, (f r).certificateId = r.certificateId ∧ (f r).startedAt = r.startedAt ∧
      (f r).operationType = r.operationType)
    (hdone : ∀ r ∈ db.operations.rows, p r = true → r.operationType = .renew → (f r).state = .completed → db.Timestamped r)
    (h : db.RenewalsRecorded) : (db.updateOperations p f hf).RenewalsRecorded := by
  intro row hrow htype hstate
  rcases mem_updateOperations.1 hrow with ⟨r, hr, hp, rfl⟩ | ⟨hmem, -⟩
  · obtain ⟨hid, hstart, htype'⟩ := hsame r
    exact timestamped_congr rfl hid hstart (hdone r hr hp (htype'.symm.trans htype) hstate)
  · exact timestamped_congr rfl rfl rfl (h row hmem htype hstate)

/-- A timely statement that completes no row of its own keeps the renewals recorded. -/
theorem recorded_step {s : Statement} {db db' : Database} {reply : s.Reply} (hmild : Op.mild (.sql s))
    (htimely : (Op.sql s).Timely db) (hstep : db.Step s reply db') (h : db.RenewalsRecorded) : db'.RenewalsRecorded := by
  cases s with
  | insertOperation new =>
    obtain ⟨t, ht, rfl⟩ := hstep
    intro row hrow htype hstate
    have hrows : row ∈ t.rows := hrow
    rw [(Table.insert_eq_some_iff.1 ht).2] at hrows
    rcases List.mem_append.1 hrows with hmem | hnew
    · exact timestamped_congr rfl rfl rfl (h row hmem htype hstate)
    · rw [List.mem_singleton.1 hnew] at hstate
      exact absurd hstate hmild
  | updateOperation id t =>
    rw [hstep.2]
    exact recorded_update (fun _ => ⟨rfl, rfl, rfl⟩) (fun _ _ _ _ hstate => absurd hstate hmild) h
  | completeReconciled certificateId localFingerprint version excluding now =>
    rw [hstep.2]
    exact recorded_update (fun _ => ⟨rfl, rfl, rfl⟩) (fun r hr hp htype _ => htimely r hr hp htype) h
  | completeInterruptedAudits certificateId excluding now =>
    rw [hstep.2]
    refine recorded_update (fun _ => ⟨rfl, rfl, rfl⟩) (fun r _ hp htype _ => ?_) h
    have haudit : r.operationType = .audit := by
      simp only [OperationRow.staleAudit, Bool.and_eq_true, decide_eq_true_eq] at hp
      exact hp.1.1.2
    rw [haudit] at htype
    cases htype
  | upsertFacts certificateId update now =>
    rw [show db' = _ from hstep]
    intro row hrow htype hstate
    have hold := h row hrow htype hstate
    by_cases hup : update = .renewal
    · subst hup
      by_cases hc : row.certificateId = certificateId
      · subst hc
        exact timestamped_renewal (htimely row hrow rfl htype)
      · exact timestamped_other hc hold
    · exact timestamped_facts hup hold
  | selectActive | selectConfirmedOcid | selectAlert =>
    rw [hstep.1]
    exact h
  | upsertAlert =>
    rw [show db' = _ from hstep]
    exact h

/-- What every step of a statement keeps, an operation keeps, whether it is answered or raises. -/
theorem kept_after {I : Database → Prop} {op : Op} {answer : Except Exc op.Reply} {db db' : Database}
    (hstep : ∀ s reply, op = .sql s → db.Step s reply db' → I db') (h : persisting faults db op answer db') (hdb : I db) :
    I db' := by
  cases op with
  | sql s =>
    have hmatch := h.2
    cases answer with
    | ok reply => exact hstep s reply rfl hmatch
    | error x =>
      rcases (show db' = db ∨ ∃ reply, db.Step s reply db' from hmatch) with rfl | ⟨reply, hs⟩
      · exact hdb
      · exact hstep s reply rfl hs
  | _ =>
    rw [show db' = db from h.2]
    exact hdb

/-- A mild operation keeps the renewals recorded. -/
theorem recorded_after {op : Op} {answer : Except Exc op.Reply} {db db' : Database} (hmild : Op.mild op)
    (h : timely faults db op answer db') (hdb : db.RenewalsRecorded) : db'.RenewalsRecorded := by
  refine kept_after (fun s reply hop hstep => ?_) h.1 hdb
  subst hop
  exact recorded_step hmild h.2 hstep hdb

/-- An update that keeps the identity of the rows keeps the type of the own one. -/
theorem typed_update {db : Database} {p : OperationRow → Bool} {f : OperationRow → OperationRow}
    {hf : ∀ r, (f r).operationId = r.operationId}
    (hsame : ∀ r, (f r).certificateId = r.certificateId ∧ (f r).operationType = r.operationType)
    (h : Typed operationId id operationType db) : Typed operationId id operationType (db.updateOperations p f hf) := by
  obtain ⟨row, hrow, hid, hc, htype⟩ := h
  by_cases hp : p row = true
  · exact ⟨f row, mem_updateOperations.2 (Or.inl ⟨row, hrow, hp, rfl⟩), (hf row).trans hid, (hsame row).1.trans hc,
      (hsame row).2.trans htype⟩
  · exact ⟨row, mem_updateOperations.2 (Or.inr ⟨hrow, by simpa using hp⟩), hid, hc, htype⟩

theorem typed_congr {db db' : Database} (heq : db'.operations = db.operations) (h : Typed operationId id operationType db) :
    Typed operationId id operationType db' := by
  unfold Typed
  rw [heq]
  exact h

/-- No statement changes the type of a row. -/
theorem typed_step {s : Statement} {db db' : Database} {reply : s.Reply} (hstep : db.Step s reply db')
    (h : Typed operationId id operationType db) : Typed operationId id operationType db' := by
  cases s with
  | insertOperation new =>
    obtain ⟨t, ht, rfl⟩ := hstep
    obtain ⟨row, hrow, hrest⟩ := h
    refine ⟨row, ?_, hrest⟩
    show row ∈ t.rows
    rw [(Table.insert_eq_some_iff.1 ht).2]
    exact List.mem_append_left _ hrow
  | updateOperation | completeReconciled | completeInterruptedAudits =>
    rw [hstep.2]
    exact typed_update (fun _ => ⟨rfl, rfl⟩) h
  | selectActive | selectConfirmedOcid | selectAlert => exact typed_congr (by rw [hstep.1]) h
  | upsertFacts | upsertAlert => exact typed_congr (by rw [show db' = _ from hstep]) h

theorem typed_after {op : Op} {answer : Except Exc op.Reply} {db db' : Database} (h : persisting faults db op answer db')
    (hdb : Typed operationId id operationType db) : Typed operationId id operationType db' :=
  kept_after (fun _ _ _ hstep => typed_step hstep hdb) h hdb

/-! ## Programs -/

/-- The renewals are recorded, and the own row is of its type. -/
def Carried (operationId certificateId : String) (operationType : OperationType) (db : Database) : Prop :=
  db.RenewalsRecorded ∧ Typed operationId certificateId operationType db

/-- The program keeps the renewals recorded. -/
abbrev Records (faults : Faults) (p : Action α) : Prop :=
  Triple (timely faults) Database.RenewalsRecorded p (fun _ => Database.RenewalsRecorded)
    (fun _ => Database.RenewalsRecorded) Database.RenewalsRecorded

/-- The program of an operation keeps them too. -/
abbrev Carries (faults : Faults) (operationId certificateId : String) (operationType : OperationType) (p : Action α)
    (Q : α → Database → Prop := fun _ => Carried operationId certificateId operationType) : Prop :=
  Triple (timely faults) (Carried operationId certificateId operationType) p Q (fun _ => Database.RenewalsRecorded)
    Database.RenewalsRecorded

theorem mild_of_passive (op : Op) (h : op.passive) : Op.mild op := by
  cases op with
  | sql statement => cases statement <;> trivial
  | _ => trivial

theorem mild_of_idle (op : Op) (h : op.idle = true) : Op.mild op := mild_of_passive op (passive_of_idle op h)

/-- A program that completes no row of its own. -/
theorem records_frame {p : Action α} (hp : p.Uses Op.mild) : Records faults p :=
  Triple.frame hp fun _ _ _ _ hop hdb h => recorded_after hop h hdb

theorem carries_frame {p : Action α} (hp : p.Uses Op.mild) : Carries faults operationId id operationType p :=
  (Triple.frame (I := Carried operationId id operationType) hp
    fun _ _ _ _ hop hdb h => ⟨recorded_after hop h hdb.1, typed_after h.1 hdb.2⟩).conseq (fun _ h => h) (fun _ _ h => h)
      (fun _ _ h => h.1) fun _ h => h.1

/-- What an operation that is no renewal may perform: its own row it may also complete. -/
def own (operationId : String) (op : Op) : Prop := Op.mild op ∨ ∃ t, op = .sql (.updateOperation operationId t)

theorem own_of_quiet (op : Op) (h : op.quiet id operationId = true) : own operationId op := by
  unfold Op.quiet at h
  rcases Bool.or_eq_true_iff.1 h with h | h
  · exact Or.inl (mild_of_idle op h)
  · cases op with
    | sql statement =>
      cases statement with
      | updateOperation other t =>
        obtain rfl : other = operationId := of_decide_eq_true h
        exact Or.inr ⟨t, rfl⟩
      | insertOperation => cases h
      | _ => exact Or.inl trivial
    | _ => exact Or.inl trivial

theorem own_of_observes (op : Op) (h : op.observes = true) : own operationId op :=
  Or.inl (mild_of_passive op (passive_of_observes op h))

theorem own_of_recordsAudit (op : Op) (h : StateStore.recordsAudit op = true) : own operationId op := by
  cases op with
  | sql statement =>
    cases statement with
    | insertOperation => cases h
    | updateOperation => cases h
    | _ => exact Or.inl trivial
  | _ => cases h

/-- The row of an audit or of a rollback is no renewal, so what its operation does to it does not matter. -/
theorem carried_frame (htype : operationType ≠ .renew) {p : Action α} (hp : p.Uses (own operationId)) :
    Carries faults operationId id operationType p := by
  refine (Triple.frame (I := Carried operationId id operationType) hp fun db op answer db' hop hdb h => ?_).conseq
    (fun _ h => h) (fun _ _ h => h) (fun _ _ h => h.1) fun _ h => h.1
  refine ⟨?_, typed_after h.1 hdb.2⟩
  rcases hop with hmild | ⟨t, rfl⟩
  · exact recorded_after hmild h hdb.1
  · refine kept_after (fun s reply hs hstep => ?_) h.1 hdb.1
    cases hs
    rw [hstep.2]
    refine recorded_update (fun _ => ⟨rfl, rfl, rfl⟩) (fun r hr hp hrenew _ => ?_) hdb.1
    obtain ⟨row, hrow, hid, -, hrowType⟩ := hdb.2
    obtain rfl : r = row := Table.eq_of_key_eq hr hrow ((of_decide_eq_true hp).trans hid.symm)
    exact absurd (hrowType.symm.trans hrenew) htype

/-- A started operation has a row of its type. -/
theorem startOperation_carries (certificateId : String) (operationType : OperationType)
    (localFingerprint ocid : Option String) :
    Triple (timely faults) Database.RenewalsRecorded
      (StateStore.startOperation certificateId operationType localFingerprint ocid)
      (fun operation => Carried operation.operationId certificateId operationType) (fun _ => Database.RenewalsRecorded)
      Database.RenewalsRecorded := by
  refine Triple.bind (records_frame (Program.uses_perform.2 trivial)) fun operationId => ?_
  refine Triple.bind (records_frame (StateStore.uses_utcNow (A := Op.mild) trivial)) fun started => ?_
  refine Triple.bind (R := fun _ => Carried operationId certificateId operationType) ?_ fun _ =>
    Triple.ret (fun _ h => h) fun _ h => h.1
  have hmild : Op.mild (.sql (.insertOperation {
      operationId := operationId
      certificateId := certificateId
      operationType := operationType
      state := .discovered
      localFingerprint := localFingerprint
      ociCertificateOcid := ocid
      startedAt := started
      updatedAt := started })) := by
    show OperationState.discovered ≠ .completed
    decide
  refine Triple.perform (fun _ h => h) (fun db reply db' hdb h => ?_) fun db x db' hdb h => ?_
  · have hnext := recorded_after hmild h hdb
    refine ⟨⟨hnext, ?_⟩, hnext⟩
    have hinsert : db.Step (.insertOperation _) reply db' := h.1.2
    obtain ⟨t, ht, rfl⟩ := hinsert
    unfold Typed
    rw [(Table.insert_eq_some_iff.1 ht).2]
    exact ⟨_, List.mem_append_right _ (List.mem_singleton_self _), rfl, rfl, rfl⟩
  · have hnext := recorded_after hmild h hdb
    exact ⟨hnext, hnext⟩

theorem uses_transition_mild {state : OperationState} (hs : state ≠ .completed) (fields : TransitionFields) :
    (StateStore.transition operationId state fields).Uses Op.mild := by
  have hnow : Op.mild .now := trivial
  refine Program.uses_bind (StateStore.uses_completedAt hnow state) fun _ => ?_
  refine Program.uses_bind (StateStore.uses_utcNow hnow) fun _ => ?_
  refine Program.uses_bind (Program.uses_perform.2 hs) fun _ => ?_
  split <;> trivial

/-- What `_complete` knows when it completes its row: a renewal has its timestamp. -/
def Ready (operationId certificateId : String) (operationType : OperationType) (db : Database) : Prop :=
  Carried operationId certificateId operationType db ∧ (operationType = .renew → AllTimestamped certificateId db)

/-- Reading the clock keeps what is known of the store. -/
theorem utcNow_ready :
    Triple (timely faults) (Ready operationId id operationType) utcNow (fun _ => Ready operationId id operationType)
      (fun _ => Database.RenewalsRecorded) Database.RenewalsRecorded := by
  refine Triple.bind (R := fun _ => Ready operationId id operationType) ?_ fun _ =>
    Triple.ret (fun _ h => h) fun _ h => h.1.1
  refine Triple.perform (fun _ h => h.1.1) (fun db _ db' hdb h => ?_) fun db _ db' hdb h => ?_
  · rw [show db' = db from h.1.2]
    exact ⟨hdb, hdb.1.1⟩
  · rw [show db' = db from h.1.2]
    exact ⟨hdb.1.1, hdb.1.1⟩

/-- The recorded renewal is the timestamp of every renewal of the certificate. -/
theorem recordRenewal_ready :
    Carries faults operationId certificate.id operationType
      (PublicationReconciler.recordRenewal certificate operationType)
      fun _ => Ready operationId certificate.id operationType := by
  unfold PublicationReconciler.recordRenewal
  by_cases htype : operationType = .renew
  · rw [if_pos htype]
    refine Triple.bind (carries_frame (StateStore.uses_utcNow (A := Op.mild) trivial)) fun now => ?_
    have hmild : Op.mild (.sql (.upsertFacts certificate.id .renewal now)) := trivial
    refine Triple.perform (fun _ h => h.1) (fun db reply db' hdb h => ?_) fun db x db' hdb h => ?_
    · have hnext := recorded_after hmild h hdb.1
      refine ⟨⟨⟨hnext, typed_after h.1 hdb.2⟩, fun _ => ?_⟩, hnext⟩
      rw [show db' = { db with certificateStates := db.factsUpdated certificate.id .renewal now } from h.1.2]
      intro row hrow hid hrenew
      have hle := h.2 row hrow hid hrenew
      rw [← hid]
      exact timestamped_renewal hle
    · have hnext := recorded_after hmild h hdb.1
      exact ⟨hnext, hnext⟩
  · rw [if_neg htype]
    exact Triple.ret (fun _ h => ⟨h, fun hrenew => absurd hrenew htype⟩) fun _ h => h.1

/-- The own row is completed. -/
theorem completed_records (fields : TransitionFields) :
    Triple (timely faults) (Ready operationId id operationType) (StateStore.transition operationId .completed fields)
      (fun _ => Database.RenewalsRecorded) (fun _ => Database.RenewalsRecorded) Database.RenewalsRecorded := by
  have hdated : Triple (timely faults) (Ready operationId id operationType) (StateStore.completedAt .completed)
      (fun _ => Ready operationId id operationType) (fun _ => Database.RenewalsRecorded) Database.RenewalsRecorded :=
    Triple.bind utcNow_ready fun _ => Triple.ret (fun _ h => h) fun _ h => h.1.1
  refine Triple.bind hdated fun completed => ?_
  refine Triple.bind utcNow_ready fun updated => ?_
  refine Triple.bind (R := fun _ => Database.RenewalsRecorded) ?_ fun count => ?_
  · have hstep : ∀ (db db' : Database) (t : Transition) reply, Ready operationId id operationType db →
        db.Step (.updateOperation operationId t) reply db' → db'.RenewalsRecorded := by
      rintro db db' t reply ⟨⟨hrec, row, hrow, hid, hc, htype⟩, hready⟩ ⟨-, rfl⟩
      refine recorded_update (fun _ => ⟨rfl, rfl, rfl⟩) (fun r hr hp hrenew _ => ?_) hrec
      obtain rfl : r = row := Table.eq_of_key_eq hr hrow ((of_decide_eq_true hp).trans hid.symm)
      exact hready (htype.symm.trans hrenew) r hr hc hrenew
    refine Triple.perform (fun _ h => h.1.1) (fun db reply db' hdb h => ?_) fun db x db' hdb h => ?_
    · have hnext := hstep db db' _ reply hdb h.1.2
      exact ⟨hnext, hnext⟩
    · have hnext : db'.RenewalsRecorded := kept_after (fun s reply hs hst => by
        cases hs
        exact hstep db db' _ reply hdb hst) h.1 hdb.1.1
      exact ⟨hnext, hnext⟩
  · split
    · exact Triple.ret (fun _ h => h) fun _ h => h
    · exact Triple.raise (fun _ h => h) fun _ h => h

theorem complete_records (remoteFingerprint : String) (versionNumber : Int) (changed : Bool) :
    Carries faults operationId certificate.id operationType
      (PublicationReconciler.complete operationId certificate F remoteFingerprint versionNumber changed operationType)
      fun _ => Database.RenewalsRecorded := by
  refine Triple.bind (carries_frame (StateStore.uses_recordFacts (A := Op.mild) trivial fun _ => trivial)) fun _ => ?_
  refine Triple.bind (carries_frame (Program.uses_bind (StateStore.uses_utcNow (A := Op.mild) trivial) fun _ =>
    Program.uses_perform.2 trivial)) fun _ => ?_
  refine Triple.bind recordRenewal_ready fun _ => ?_
  exact Triple.bind (completed_records _) fun _ => Triple.ret (fun _ h => h) fun _ h => h

theorem obtainCandidate_carries (ocid : String) (etag : Option String) :
    Carries faults operationId certificate.id operationType
      (PublicationReconciler.obtainCandidate Γ config certificate material chain F now ocid operationId requestId etag) := by
  refine Triple.bind (carries_frame (PublicationReconciler.uses_findMatchingPending mild_of_idle)) fun found => ?_
  cases found with
  | some c => exact Triple.ret (fun _ h => h) fun _ h => h.1
  | none =>
    refine Triple.bind (carries_frame uses_ofExcept) fun _ => ?_
    refine Triple.bind (carries_frame (Program.uses_perform.2 trivial)) fun _ => ?_
    refine Triple.bind (carries_frame (uses_transition_mild (by decide) _)) fun _ => ?_
    refine Triple.bind (carries_frame (Program.uses_perform.2 trivial)) fun _ => ?_
    refine Triple.bind (carries_frame (PublicationReconciler.uses_findMatchingPending mild_of_idle)) fun visible => ?_
    cases visible with
    | some c => exact Triple.ret (fun _ h => h) fun _ h => h.1
    | none => exact Triple.raise (fun _ h => h.1) fun _ h => h.1

theorem reconcile_records (ocid : String) :
    Carries faults operationId certificate.id operationType
      (PublicationReconciler.reconcile Γ config certificate material chain F now operationType ocid operationId)
      fun _ => Database.RenewalsRecorded := by
  have hperform (op : Op) (hop : op.idle = true) : Carries faults operationId certificate.id operationType (perform op) :=
    carries_frame (Program.uses_perform.2 (mild_of_idle op hop))
  have htransition (state : OperationState) (hs : state ≠ .completed) (fields : TransitionFields) :
      Carries faults operationId certificate.id operationType (StateStore.transition operationId state fields) :=
    carries_frame (uses_transition_mild hs fields)
  refine Triple.bind (hperform _ rfl) fun requestId => ?_
  refine Triple.bind (hperform _ rfl) fun remote => ?_
  refine Triple.bind (hperform _ rfl) fun bundle => ?_
  refine Triple.bind (carries_frame uses_ofExcept) fun current => ?_
  refine Triple.bind (htransition _ (by decide) _) fun _ => ?_
  split
  · refine Triple.bind (hperform _ rfl) fun _ => ?_
    exact complete_records _ _ _
  · refine Triple.bind (obtainCandidate_carries _ _) fun candidate => ?_
    refine Triple.bind (htransition _ (by decide) _) fun _ => ?_
    refine Triple.bind (hperform _ rfl) fun _ => ?_
    refine Triple.bind (carries_frame (PublicationReconciler.uses_promoteCurrent
      (fun op h => mild_of_passive op (passive_of_pauses op h)) trivial (fun _ _ => trivial) _)) fun _ => ?_
    refine Triple.bind (hperform _ rfl) fun _ => ?_
    refine Triple.bind (carries_frame (uses_retryReadUntilSync (fun op h => mild_of_passive op (passive_of_pauses op h))
      (Program.uses_perform.2 (mild_of_idle _ (by rfl))) _ _)) fun confirmed => ?_
    refine Triple.bind (carries_frame uses_ofExcept) fun fingerprint => ?_
    split
    · exact Triple.raise (fun _ h => h.1) fun _ h => h.1
    · refine Triple.bind (htransition _ (by decide) _) fun _ => ?_
      refine Triple.bind (hperform _ rfl) fun _ => ?_
      exact complete_records _ _ _

/-! ## The services -/

theorem reconciler_publish_records :
    Records faults (PublicationReconciler.publish Γ config certificate material chain F now operationType) := by
  unfold PublicationReconciler.publish
  split
  · exact Triple.raise (fun _ h => h) fun _ h => h
  · exact Triple.bind (startOperation_carries _ _ _ _) fun _ => reconcile_records _

theorem audit_records (certificateId : String) :
    Records faults (PublicationService.audit Γ config passes certificateId) := by
  refine Triple.bind (records_frame uses_ofExcept) fun certificate => ?_
  split
  · exact Triple.raise (fun _ h => h) fun _ h => h
  · rename_i ocid _
    refine Triple.bind (records_frame (PublicationService.uses_openPorts mild_of_idle)) fun _ => ?_
    refine Triple.bind (startOperation_carries _ _ _ _) fun operation => ?_
    have hquiet : ∀ op : Op, op.quiet certificate.id operation.operationId = true → own operation.operationId op := own_of_quiet
    exact (carried_frame (by decide) (PublicationService.uses_auditStarted hquiet own_of_observes own_of_recordsAudit passes
      ocid)).conseq (fun _ h => h) (fun _ _ h => h.1) (fun _ _ h => h) fun _ h => h

theorem rollback_records (certificateId : String) :
    Records faults (PublicationService.rollback Γ config passes certificateId) := by
  refine Triple.bind (records_frame uses_ofExcept) fun certificate => ?_
  refine Triple.bind (records_frame (PublicationService.uses_openPorts mild_of_idle)) fun _ => ?_
  refine Triple.bind (records_frame (Program.uses_perform.2 trivial)) fun now => ?_
  refine Triple.bind (records_frame (PublicationService.uses_auditService mild_of_idle)) fun configuration => ?_
  unfold RollbackService.rollback
  split
  · exact Triple.raise (fun _ h => h) fun _ h => h
  · refine Triple.bind (startOperation_carries _ _ _ _) fun operation => ?_
    have hquiet : ∀ op : Op, op.quiet certificate.id operation.operationId = true → own operation.operationId op := own_of_quiet
    exact (carried_frame (by decide) (RollbackService.uses_restore hquiet own_of_observes
      fun _ _ _ => Or.inl trivial)).conseq (fun _ h => h) (fun _ _ h => h.1) (fun _ _ h => h) fun _ h => h

theorem postPublicationAudit_records :
    Records faults (PublicationService.runPostPublicationAudit Γ config passes certificate) := by
  have hret : ∀ {γ : Type} (c : γ), Records faults (.ret c : Action γ) := fun c => Triple.ret (fun _ h => h) fun _ h => h
  have hraise : ∀ {γ : Type} (x : Exc), Records faults (.raise x : Action γ) := fun x =>
    Triple.raise (fun _ h => h) fun _ h => h
  unfold PublicationService.runPostPublicationAudit PublicationService.enforcePostPublicationAudit
  split
  · exact hret _
  · split
    · exact hret _
    · refine Triple.bind (Triple.handle (audit_records _) fun x => ?_) fun successful => ?_
      · split
        · exact hret _
        · exact hraise _
      · split
        · exact hret _
        · split
          · exact hraise _
          · refine Triple.bind ((rollback_records _).attempt (fun _ _ h => h) fun _ _ h => h) fun outcome => ?_
            cases outcome with
            | ok _ => exact hret _
            | error x =>
              simp only
              split
              · exact Triple.bind (records_frame (Program.uses_perform.2 trivial)) fun _ => hraise _
              · exact hraise _
  · refine Triple.handle (Triple.bind (audit_records _) fun _ => hret _) fun x => ?_
    split
    · exact hret _
    · exact hraise _

theorem publish_records (certificateId : String) :
    Records faults (PublicationService.publish Γ config passes certificateId operationType) := by
  refine Triple.bind (records_frame uses_ofExcept) fun certificate => ?_
  refine Triple.bind (records_frame (PublicationService.uses_requireProductionQualification mild_of_idle)) fun _ => ?_
  refine Triple.bind (records_frame (Program.uses_perform.2 trivial)) fun material => ?_
  refine Triple.bind (records_frame (Program.uses_perform.2 trivial)) fun validated => ?_
  refine Triple.bind (records_frame uses_ofExcept) fun fingerprint => ?_
  refine Triple.bind (records_frame (uses_buildChain mild_of_idle)) fun chain => ?_
  refine Triple.bind (records_frame (Program.uses_perform.2 trivial)) fun _ => ?_
  refine Triple.bind (records_frame (PublicationService.uses_openPorts mild_of_idle)) fun _ => ?_
  refine Triple.bind (records_frame (Program.uses_perform.2 trivial)) fun now => ?_
  refine Triple.bind reconciler_publish_records fun result => ?_
  refine Triple.bind (records_frame (Program.uses_perform.2 trivial)) fun _ => ?_
  refine Triple.bind postPublicationAudit_records fun _ => ?_
  refine Triple.bind (records_frame (PublicationService.uses_runPostPublicationRetention mild_of_idle fun _ _ _ _ _ =>
    trivial)) fun _ => ?_
  exact Triple.ret (fun _ h => h) fun _ h => h

theorem renew_records (certificateId : String) (force : Bool) :
    Records faults (PublicationService.renew Γ config passes certificateId force) := by
  refine Triple.bind (records_frame uses_ofExcept) fun certificate => ?_
  refine Triple.bind (records_frame (PublicationService.uses_requireProductionQualification mild_of_idle)) fun _ => ?_
  refine Triple.bind (records_frame (PublicationService.uses_runPreflight mild_of_idle)) fun _ => ?_
  refine Triple.bind (records_frame (PublicationService.uses_beforeFingerprint mild_of_idle)) fun _ => ?_
  refine Triple.bind (records_frame (Program.uses_perform.2 trivial)) fun _ => ?_
  refine Triple.bind (records_frame (NativeAcmeService.uses_issue mild_of_idle (fun _ _ => trivial) (fun _ _ => trivial)
    (fun _ => trivial) _)) fun _ => ?_
  refine Triple.bind (records_frame (Program.uses_perform.2 trivial)) fun _ => ?_
  exact publish_records certificateId

end RenewalRecordAux

/-- A run that publishes or renews. -/
def ServiceRun.publishes (s : ServiceRun) : Bool :=
  match s.call with
  | .publish | .reconcile | .renew _ => true
  | _ => false

namespace RenewalRecordAux

theorem run_records {Γ : Ctx} {faults : Faults} {s : ServiceRun} (hs : s.publishes = true) : Records faults (s.run Γ) := by
  have hret : ∀ {α : Type} {p : Action α}, Records faults p → Records faults (p.bind fun _ => (.ret () : Action Unit)) :=
    fun hp => Triple.bind hp fun _ => Triple.ret (fun _ h => h) fun _ h => h
  unfold ServiceRun.publishes at hs
  unfold ServiceRun.run
  cases hcall : s.call with
  | publish => exact hret (publish_records _)
  | reconcile => exact hret (publish_records _)
  | renew force => exact hret (renew_records _ force)
  | _ =>
    rw [hcall] at hs
    cases hs

/-- The condition is sharp where interrupted operations are closed: a renewal without a timestamp is left COMPLETED without it. -/
theorem not_recorded_of_untimely {db db' : Database} {certificateId localFingerprint excluding : String} {version : Int}
    {now : Timestamp} {reply : Nat}
    (hstep : db.Step (.completeReconciled certificateId localFingerprint version excluding now) reply db')
    (h : ¬Op.Timely db (.sql (.completeReconciled certificateId localFingerprint version excluding now))) :
    ¬db'.RenewalsRecorded := by
  intro hrec
  refine h fun row hrow hclosed htype => ?_
  rw [hstep.2] at hrec
  exact hrec (row.complete version now) (mem_updateOperations.2 (Or.inl ⟨row, hrow, hclosed, rfl⟩)) htype rfl

end RenewalRecordAux

/-- A completed renewal has its timestamp. Over any history of publications, reconciliations and renewals, each cut, raising or
returning, with any answers: as long as interrupted renewals are closed only once a renewal has been recorded after their start, and
no renewal is recorded at a time before one was started, every RENEW row that is COMPLETED has a timestamp not before its start. -/
theorem renewal_timestamp_recorded (Γ : Ctx) {faults : Faults} {start last : Database} (hstart : start.RenewalsRecorded)
    {runs : List ({s : ServiceRun // s.publishes = true} × Outcome Exc Unit)}
    (h : History (timely faults) (fun s => s.1.run Γ) start runs last) : last.RenewalsRecorded := by
  refine h.keeps (fun s db o db' hdb hx => ?_) hstart
  have hpost := RenewalRecordAux.run_records s.2 db hdb o db' hx
  cases o <;> exact hpost

namespace RenewalRecordAux

open Sample

/-- A run on the sample certificate, with its audits switched off. -/
def sampleRun (call : ServiceCall) : ServiceRun :=
  ⟨config { certificate with audit := { mode := .disabled } }, "web", 1, call⟩

/-- A renewal that is cut when its row has been inserted, and the publication after it. -/
def cutRenewal : Outcome Exc Unit × World := ((sampleRun (.renew false)).run ctx).runFor (simulate ctx script) 30 (world resource)

def publicationAfter : Outcome Exc Unit × World := ((sampleRun .publish).run ctx).runFor (simulate ctx script) 100 cutRenewal.2

/-- The material of the leaf that OCI shows at first. -/
def firstMaterial : LineageMaterial := { material with leaf := leaf 1, leafPem := [65] }

/-- A run on a day with some local material, stopped before anything that is not timely. -/
def timelyRun (call : ServiceCall) (day : Nat) (m : LineageMaterial) (steps : Nat) (w : World) : Outcome Exc Unit × World :=
  ((sampleRun call).run ctx).runFor
    ((simulate ctx { script with now := days day }).checked fun w op => decide (op.Timely w.database)) steps
    { w with lineages := fun _ => some m }

/-- A renewal of `B` is cut on the first day, one of `A` is recorded on the second, and `B` is published on the third. -/
def interrupted : Outcome Exc Unit × World := timelyRun (.renew false) 1 material 30 (world resource)

def recorded : Outcome Exc Unit × World := timelyRun (.renew false) 2 firstMaterial 100 interrupted.2

def closing : Outcome Exc Unit × World := timelyRun .publish 3 material 100 recorded.2

theorem timelyRun_exec (call : ServiceCall) (day : Nat) (m : LineageMaterial) (steps : Nat) (w : World) :
    Exec (timely noFaults.observing) ((sampleRun call).run ctx) w.database (timelyRun call day m steps w).1
      (timelyRun call day m steps w).2.database :=
  (exec_runFor (simulate_allowed ctx { script with now := days day } noFaults).checked steps ((sampleRun call).run ctx)
    { w with lineages := fun _ => some m }).map World.database fun _ _ _ _ h => ⟨persisting_of_service h.1, of_decide_eq_true h.2⟩

end RenewalRecordAux

open RenewalRecordAux

/-- A renewal is cut before its timestamp, and the publication after it completes its row. -/
theorem renewal_timestamp_recorded_false :
    ¬∀ (runs : List ({s : ServiceRun // s.publishes = true} × Outcome Exc Unit)) (last : Database),
      History (persisting noFaults.observing) (fun s => s.1.run Sample.ctx) {} runs last → last.RenewalsRecorded := by
  intro hall
  have hfirst := exec_persisting (exec_runFor (simulate_allowed Sample.ctx Sample.script noFaults) 30
    ((sampleRun (.renew false)).run Sample.ctx) (Sample.world Sample.resource))
  have hsecond := exec_persisting (exec_runFor (simulate_allowed Sample.ctx Sample.script noFaults) 100
    ((sampleRun .publish).run Sample.ctx) cutRenewal.2)
  have hrecorded := hall ([(⟨sampleRun (.renew false), rfl⟩, cutRenewal.1)] ++ [(⟨sampleRun .publish, rfl⟩, publicationAfter.1)])
    publicationAfter.2.database (.snoc (.snoc (l := []) (.nil _) hfirst) hsecond)
  have hrow : ∃ row ∈ publicationAfter.2.database.operations.rows, row.operationType = .renew ∧ row.state = .completed := by
    decide +kernel
  have hfacts : ∀ facts ∈ publicationAfter.2.database.certificateStates.rows, facts.lastSuccessfulRenewalAt = none := by
    decide +kernel
  obtain ⟨row, hmem, htype, hstate⟩ := hrow
  obtain ⟨facts, hmem', -, renewed, hrenewed, -⟩ := hrecorded row hmem htype hstate
  rw [hfacts facts hmem'] at hrenewed
  cases hrenewed

/-- The publication closes the renewal that was cut, after the later one has been recorded: both are COMPLETED then. -/
theorem renewal_timestamp_recorded_sample :
    interrupted.1 = .crashed ∧ recorded.1 = .returned () ∧ closing.1 = .returned () ∧
      closing.2.database.operations.rows.map (fun row => (row.operationType, row.state)) =
        [(.renew, .completed), (.renew, .completed), (.publish, .completed)] ∧ closing.2.database.RenewalsRecorded := by
  have hstart : Database.RenewalsRecorded {} := by
    intro row hrow
    cases hrow
  have hhistory : History (timely noFaults.observing) (fun s : {s : ServiceRun // s.publishes = true} => s.1.run Sample.ctx) {}
      ([(⟨sampleRun (.renew false), rfl⟩, interrupted.1)] ++ [(⟨sampleRun (.renew false), rfl⟩, recorded.1)] ++
        [(⟨sampleRun .publish, rfl⟩, closing.1)]) closing.2.database :=
    .snoc (.snoc (.snoc (l := []) (.nil _) (timelyRun_exec (.renew false) 1 Sample.material 30 (Sample.world Sample.resource)))
      (timelyRun_exec (.renew false) 2 firstMaterial 100 interrupted.2)) (timelyRun_exec .publish 3 Sample.material 100 recorded.2)
  exact ⟨by decide +kernel, by decide +kernel, by decide +kernel, by decide +kernel,
    renewal_timestamp_recorded Sample.ctx hstart hhistory⟩

end OciAcmePublisher
