import OciAcmePublisher.Effects.Chronicle
import OciAcmePublisher.Lemmas.AuditService
import OciAcmePublisher.Theorems.AuditEvidence
import OciAcmePublisher.Theorems.Upload

/-!
# The OCID a timer run recovers

Without a configured OCID a timer run publishes to the OCID of the operation that was completed last. A run completes its own
operation once it has confirmed CURRENT, but the two bulk updates that close interrupted operations do not look at the OCID: what
they close may be of another OCI certificate, which nobody has read.
-/

namespace OciAcmePublisher

open Effects Tables

/-- The run has read CURRENT of the OCI certificate, and its leaf has the fingerprint `f`. -/
def ReadCurrent (Γ : Ctx) (config : AppConfig) (certificate : CertificateConfig) (ocid f : String) (t : Trace) : Prop :=
  ∃ requestId bundle now, (⟨.getPublicBundle ocid none requestId, .ok bundle⟩ : Event publisher Exc) ∈ t ∧
    validatePublicCertificate Γ bundle.certificatePem certificate config.global now = .ok f

/-- What an operation of the type expects of CURRENT: an audit, the leaf its endpoints present; a rollback, the version it
restores; the others, the local generation. -/
def Expected (Γ : Ctx) (config : AppConfig) (certificate : CertificateConfig) (ocid f : String) (t : Trace) :
    OperationType → Prop
  | .audit => certificate.audit.mode = .disabled ∨ ∀ endpoint ∈ certificate.audit.endpoints, Seen certificate.audit endpoint f t
  | .rollback =>
    ∃ version requestId bundle now,
      (⟨.getPublicBundle ocid (some version) requestId, .ok bundle⟩ : Event publisher Exc) ∈ t ∧
        validatePublicCertificate Γ bundle.certificatePem certificate config.global now = .ok f
  | _ => ∃ material, (⟨.loadLineage certificate.id, .ok material⟩ : Event publisher Exc) ∈ t ∧
      f = certificateSha256 material.leaf

/-- The run has read CURRENT of the OCI certificate and found what an operation of the type expects. -/
def Confirmed (Γ : Ctx) (config : AppConfig) (certificate : CertificateConfig) (operationType : OperationType) (ocid : String)
    (t : Trace) : Prop :=
  ∃ f, ReadCurrent Γ config certificate ocid f t ∧ Expected Γ config certificate ocid f t operationType

/-- The statement completes the operation, or closes the operations interrupted before it. -/
def Op.Closes (operationId : String) : Op → Prop
  | .sql (.updateOperation id t) => id = operationId ∧ t.state = .completed
  | .sql (.completeReconciled _ _ _ id _) | .sql (.completeInterruptedAudits _ id _) => id = operationId
  | _ => False

/-- The statement closes what it closes on the grounds `K` of the operation it closes it for. -/
def Op.Grounded (K : OperationType → String → Prop) (db : Database) : Op → Prop
  | .sql (.insertOperation row) => row.state ≠ .completed
  | .sql (.updateOperation id t) =>
    t.state = .completed → t.ociCertificateOcid = none ∧
      ∀ own ∈ db.operations.rows, own.operationId = id → ∀ ocid, own.ociCertificateOcid = some ocid → K own.operationType ocid
  | .sql (.completeReconciled _ _ _ id _) | .sql (.completeInterruptedAudits _ id _) =>
    ∀ own ∈ db.operations.rows, own.operationId = id → ∀ ocid, own.ociCertificateOcid = some ocid → K own.operationType ocid
  | _ => True

/-- A row that is closed with an operation bears the OCID of that operation, or none. -/
def Database.Shares (db : Database) (operationId : String) (row : OperationRow) : Prop :=
  row.ociCertificateOcid = none ∨
    ∃ own ∈ db.operations.rows, own.operationId = operationId ∧ own.ociCertificateOcid = row.ociCertificateOcid

/-- The bulk updates close rows of the OCID of their operation only, and an operation completes in a later second than the rows of
other OCIDs. -/
def Op.Attributed (db : Database) : Op → Prop
  | .sql (.completeReconciled certificateId localFingerprint _ id _) =>
    ∀ row ∈ db.operations.rows, row.closedBy certificateId localFingerprint id = true → db.Shares id row
  | .sql (.completeInterruptedAudits certificateId id _) =>
    ∀ row ∈ db.operations.rows, row.staleAudit certificateId id = true → db.Shares id row
  | .sql (.updateOperation id t) =>
    t.state = .completed → ∀ own ∈ db.operations.rows, own.operationId = id →
      ∀ row ∈ db.confirmedRows own.certificateId, row.ociCertificateOcid ≠ own.ociCertificateOcid →
        completedBefore (own.transition t) row = false
  | _ => True

instance (db : Database) (op : Op) : Decidable (op.Attributed db) := by
  cases op with
  | sql s => cases s <;> unfold Op.Attributed Database.Shares <;> infer_instance
  | _ => exact inferInstanceAs (Decidable True)

/-- The store, as long as what completes operations is attributed. -/
def attributed (faults : Faults) : Env publisher Exc Database := fun db op answer db' =>
  persisting faults db op answer db' ∧ op.Attributed db

/-- The run completes its operation on the OCI certificate. -/
def Completes (certificateId ocid : String) (x : Database × Event publisher Exc) : Prop :=
  ∃ id t n, x.2 = ⟨.sql (.updateOperation id t), .ok n⟩ ∧ t.state = .completed ∧ ∃ row ∈ x.1.operations.rows,
    row.operationId = id ∧ row.certificateId = certificateId ∧ row.ociCertificateOcid = some ocid

/-- The run has closed an operation on the OCI certificate, or others on behalf of it, and had before that read CURRENT and found
what the operation expects. -/
def Ratified (Γ : Ctx) (config : AppConfig) (certificate : CertificateConfig) (ocid : String)
    (c : Chronicle publisher Exc Database) : Prop :=
  ∃ before db e after, c = before ++ (db, e) :: after ∧ ∃ own ∈ db.operations.rows, e.op.Closes own.operationId ∧
    own.ociCertificateOcid = some ocid ∧ Confirmed Γ config certificate own.operationType ocid (before.map (·.2))

/-- The run has confirmed the OCI certificate. -/
def ServiceRun.Confirms (Γ : Ctx) (s : ServiceRun) (ocid : String) (c : Chronicle publisher Exc Database) : Prop :=
  ∃ certificate, configuredCertificate s.config s.certificateId = .ok certificate ∧ Ratified Γ s.config certificate ocid c

/-- A database, and what the run has done so far with the database before each operation. -/
abbrev Chronicled := Database × Chronicle publisher Exc Database

namespace RecoveredOcidAux

variable {Γ : Ctx} {config : AppConfig} {certificate : CertificateConfig} {material : LineageMaterial}
  {chain : OciCertificateChain} {faults : Faults} {α β : Type} {operationId ocid requestId F : String}
  {operationType : OperationType} {passes : Nat} {now : Instant}

/-- What the run has done so far. -/
def trace (w : Chronicled) : Trace := w.2.map (·.2)

/-- The operation is grounded on what the run has confirmed. -/
def Attested (Γ : Ctx) (config : AppConfig) (certificate : CertificateConfig) (w w' : Chronicled) : Prop :=
  ∀ x, w'.2 = w.2 ++ [x] → x.2.op.Grounded (fun T o => Confirmed Γ config certificate T o (trace w)) w.1

/-- Every completion of the program is grounded. -/
abbrev Attests (Γ : Ctx) (config : AppConfig) (certificate : CertificateConfig) (faults : Faults) (P : Chronicled → Prop)
    (p : Action α) (Q : α → Chronicled → Prop) : Prop :=
  Guarded (chronicling (persisting faults)) (Attested Γ config certificate) P p Q fun _ _ => True

/-- Nothing is known, nothing is claimed. -/
abbrev Plain (Γ : Ctx) (config : AppConfig) (certificate : CertificateConfig) (faults : Faults) (p : Action α) : Prop :=
  Attests Γ config certificate faults (fun _ => True) p fun _ _ => True

/-- The row of the operation is there, of this type and with this OCID. -/
def Bears (operationId : String) (operationType : OperationType) (ocid : Option String) (db : Database) : Prop :=
  ∃ row ∈ db.operations.rows, row.operationId = operationId ∧ row.operationType = operationType ∧
    row.ociCertificateOcid = ocid

/-- The row bears the OCID, and `φ` has happened. -/
def Bearing (operationId : String) (operationType : OperationType) (ocid : Option String) (φ : Trace → Prop) (w : Chronicled) :
    Prop :=
  Bears operationId operationType ocid w.1 ∧ φ (trace w)

/-- The operation completes no operation, and gives none another OCID. -/
def Op.steady : Op → Prop
  | .sql (.insertOperation row) => row.state ≠ .completed
  | .sql (.updateOperation _ t) => t.state ≠ .completed ∧ t.ociCertificateOcid = none
  | .sql (.completeReconciled ..) | .sql (.completeInterruptedAudits ..) => False
  | _ => True

theorem steady_of_passive (op : Op) (h : op.passive) : Op.steady op := by
  cases op with
  | sql statement => cases statement <;> trivial
  | _ => trivial

theorem steady_of_idle (op : Op) (h : op.idle = true) : Op.steady op := steady_of_passive op (passive_of_idle op h)

theorem grounded_of_steady {K : OperationType → String → Prop} {db : Database} {op : Op} (h : Op.steady op) :
    op.Grounded K db := by
  cases op with
  | sql statement =>
    cases statement with
    | updateOperation id t => exact fun hs => absurd hs h.1
    | insertOperation row => exact h
    | completeReconciled | completeInterruptedAudits => exact h.elim
    | _ => trivial
  | _ => trivial

/-- An update that keeps the types and the OCIDs. -/
theorem bears_update {o : Option String} {db : Database} {p : OperationRow → Bool} {f : OperationRow → OperationRow}
    {hf : ∀ r, (f r).operationId = r.operationId} (htype : ∀ r, (f r).operationType = r.operationType)
    (hocid : ∀ r, (f r).ociCertificateOcid = r.ociCertificateOcid)
    (hb : Bears operationId operationType o db) : Bears operationId operationType o (db.updateOperations p f hf) := by
  obtain ⟨row, hrow, hid, ht, ho⟩ := hb
  by_cases hp : p row = true
  · exact ⟨f row, mem_updateOperations.2 (Or.inl ⟨row, hrow, hp, rfl⟩), (hf row).trans hid, (htype row).trans ht,
      (hocid row).trans ho⟩
  · exact ⟨row, mem_updateOperations.2 (Or.inr ⟨hrow, by simpa using hp⟩), hid, ht, ho⟩

/-- A statement that gives no row another OCID. -/
theorem bears_step {o : Option String} {s : Statement} {db db' : Database} {reply : s.Reply}
    (hs : ∀ id t, s = .updateOperation id t → t.ociCertificateOcid = none) (h : db.Step s reply db')
    (hb : Bears operationId operationType o db) : Bears operationId operationType o db' := by
  cases s with
  | insertOperation row =>
    obtain ⟨t, ht, rfl⟩ := h
    obtain ⟨r, hr, hid, htype, ho⟩ := hb
    refine ⟨r, ?_, hid, htype, ho⟩
    show r ∈ t.rows
    rw [(Table.insert_eq_some_iff.1 ht).2]
    exact List.mem_append_left _ hr
  | updateOperation id t =>
    have hocid : ∀ r : OperationRow, (r.transition t).ociCertificateOcid = r.ociCertificateOcid := by
      intro r
      show t.ociCertificateOcid.or _ = _
      rw [hs id t rfl]
      rfl
    rw [h.2]
    exact bears_update (fun _ => rfl) hocid hb
  | completeReconciled =>
    rw [h.2]
    exact bears_update (fun _ => rfl) (fun _ => rfl) hb
  | completeInterruptedAudits =>
    rw [h.2]
    exact bears_update (fun _ => rfl) (fun _ => rfl) hb
  | selectActive | selectConfirmedOcid | selectAlert =>
    rw [h.1]
    exact hb
  | upsertFacts | upsertAlert =>
    rw [show db' = _ from h]
    exact hb

/-- One operation that gives no row another OCID, whether it is answered or raises. -/
theorem bears_after {o : Option String} {op : Op} {answer : Except Exc op.Reply} {db db' : Database}
    (hop : ∀ id t, op = .sql (.updateOperation id t) → t.ociCertificateOcid = none) (h : persisting faults db op answer db')
    (hb : Bears operationId operationType o db) : Bears operationId operationType o db' := by
  cases op with
  | sql s =>
    have hs : ∀ id t, s = .updateOperation id t → t.ociCertificateOcid = none := fun id t hid => hop id t (by rw [hid])
    have hmatch := h.2
    cases answer with
    | ok reply => exact bears_step hs hmatch hb
    | error x =>
      rcases (show db' = db ∨ ∃ reply, db.Step s reply db' from hmatch) with rfl | ⟨reply, hstep⟩
      · exact hb
      · exact bears_step hs hstep hb
  | _ =>
    rw [show db' = db from h.2]
    exact hb

theorem ocid_of_steady {op : Op} (h : Op.steady op) :
    ∀ id t, op = .sql (.updateOperation id t) → t.ociCertificateOcid = none := by
  rintro id t rfl
  exact h.2

/-- A chronicled run is a run under the answers it got. -/
theorem anyAnswer_of_chronicled {φ C : Trace → Prop} {ψ : α → Trace → Prop} {E : Exc → Trace → Prop} {p : Action α}
    (h : Triple anyAnswer φ p ψ E C) :
    Triple (chronicling (persisting faults)) (fun w => φ (trace w)) p (fun a w => ψ a (trace w)) (fun x w => E x (trace w))
      fun w => C (trace w) := by
  intro w hw o w' hx
  have hpost := h (trace w) hw o (trace w') hx.chronicle_record.anyAnswer
  cases o <;> exact hpost

section Steps

variable {o : Option String} {φ : Trace → Prop}

theorem attested_of_steady {w w' : Chronicled} {op : Op} {answer : Except Exc op.Reply} (hop : Op.steady op)
    (h : chronicling (persisting faults) w op answer w') : Attested Γ config certificate w w' := by
  intro x hx
  rw [h.2] at hx
  obtain rfl : (w.1, (⟨op, answer⟩ : Event publisher Exc)) = x := by simpa using hx
  exact grounded_of_steady hop

/-- A program that completes no operation. -/
theorem plain_aside {p : Action α} (hp : p.Uses Op.steady) : Plain Γ config certificate faults p :=
  (Guarded.frame (I := fun _ => True) hp fun _ _ _ _ hop _ h => ⟨attested_of_steady hop h, trivial⟩).conseq (fun _ h => h)
    (fun _ _ h => h) fun _ _ _ => trivial

/-- The same, on behalf of an operation, with what it yields. -/
theorem bearing_spec {ψ : α → Trace → Prop} {p : Action α} (hp : p.Uses Op.steady)
    (ht : Triple anyAnswer φ p ψ (fun _ _ => True) fun _ => True) :
    Attests Γ config certificate faults (Bearing operationId operationType o φ) p
      fun a => Bearing operationId operationType o (ψ a) := by
  have hframe : Guarded (chronicling (persisting faults)) (Attested Γ config certificate)
      (fun w => Bears operationId operationType o w.1) p (fun _ w => Bears operationId operationType o w.1)
      fun _ w => Bears operationId operationType o w.1 :=
    Guarded.frame hp fun _ _ _ _ hop hw h => ⟨attested_of_steady hop h, bears_after (ocid_of_steady hop) h.1 hw⟩
  exact (hframe.of_triple (anyAnswer_of_chronicled ht)).conseq (fun _ h => h) (fun _ _ h => h) fun _ _ _ => trivial

theorem bearing_aside (hφ : Lasting φ) {p : Action α} (hp : p.Uses Op.steady) :
    Attests Γ config certificate faults (Bearing operationId operationType o φ) p
      fun _ => Bearing operationId operationType o φ :=
  bearing_spec hp ((hφ.triple p).conseq (fun _ h => h) (fun _ _ h => h) (fun _ _ _ => trivial) fun _ _ => trivial)

/-- One operation, which has happened where it is answered. -/
theorem bearing_performed (hφ : Lasting φ) (op : Op) (hop : Op.steady op) :
    Attests Γ config certificate faults (Bearing operationId operationType o φ) (perform op)
      fun a => Bearing operationId operationType o fun t => φ t ∧ (⟨op, .ok a⟩ : Event publisher Exc) ∈ t :=
  bearing_spec (Program.uses_perform.2 hop) ((hφ.beside (perform_mem (P := fun _ => True) op)).conseq
    (fun _ h => ⟨trivial, h⟩) (fun _ _ h => ⟨h.2, h.1⟩) (fun _ _ _ => trivial) fun _ _ => trivial)

theorem bearing_ofExcept {e : Except Exc β} :
    Attests Γ config certificate faults (Bearing operationId operationType o φ) (ofExcept e)
      fun b => Bearing operationId operationType o fun t => φ t ∧ e = .ok b := by
  cases e with
  | error x => exact Guarded.raise fun _ _ => trivial
  | ok b => exact Guarded.ret fun _ h => ⟨h.1, h.2, rfl⟩

/-- Before there is a row. -/
theorem happened_spec {ψ : α → Trace → Prop} {p : Action α} (hp : p.Uses Op.steady)
    (ht : Triple anyAnswer φ p ψ (fun _ _ => True) fun _ => True) :
    Attests Γ config certificate faults (fun w => φ (trace w)) p fun a w => ψ a (trace w) := by
  have hframe : Guarded (chronicling (persisting faults)) (Attested Γ config certificate) (fun _ => True) p
      (fun _ _ => True) fun _ _ => True :=
    Guarded.frame hp fun _ _ _ _ hop _ h => ⟨attested_of_steady hop h, trivial⟩
  exact (hframe.of_triple (anyAnswer_of_chronicled ht)).conseq (fun _ h => ⟨trivial, h⟩) (fun _ _ h => h.2)
    fun _ _ _ => trivial

theorem happened_aside (hφ : Lasting φ) {p : Action α} (hp : p.Uses Op.steady) :
    Attests Γ config certificate faults (fun w => φ (trace w)) p fun _ w => φ (trace w) :=
  happened_spec hp ((hφ.triple p).conseq (fun _ h => h) (fun _ _ h => h) (fun _ _ _ => trivial) fun _ _ => trivial)

theorem happened_performed (hφ : Lasting φ) (op : Op) (hop : Op.steady op) :
    Attests Γ config certificate faults (fun w => φ (trace w)) (perform op)
      fun a w => φ (trace w) ∧ (⟨op, .ok a⟩ : Event publisher Exc) ∈ trace w :=
  happened_spec (ψ := fun a t => φ t ∧ (⟨op, .ok a⟩ : Event publisher Exc) ∈ t) (Program.uses_perform.2 hop)
    ((hφ.beside (perform_mem (P := fun _ => True) op)).conseq (fun _ h => ⟨trivial, h⟩) (fun _ _ h => ⟨h.2, h.1⟩) (fun _ _ _ => trivial) fun _ _ => trivial)

theorem attests_ofExcept {P : Chronicled → Prop} {e : Except Exc β} :
    Attests Γ config certificate faults P (ofExcept e) fun b w => P w ∧ e = .ok b := by
  cases e with
  | error x => exact Guarded.raise fun _ _ => trivial
  | ok b => exact Guarded.ret fun _ h => ⟨h, rfl⟩

/-- The certificate of the run is found again. -/
theorem configured_bind {P : Chronicled → Prop} {Q : β → Chronicled → Prop} {certificateId : String}
    {f : CertificateConfig → Action β} (hc : configuredCertificate config certificateId = .ok certificate)
    (hf : Attests Γ config certificate faults P (f certificate) Q) :
    Attests Γ config certificate faults P ((ofExcept (configuredCertificate config certificateId)).bind f) Q := by
  rw [hc]
  exact hf

theorem uses_transition_steady {state : OperationState} (hs : state ≠ .completed) {fields : TransitionFields}
    (hf : fields.ociCertificateOcid = none) : (StateStore.transition operationId state fields).Uses Op.steady := by
  have hnow : Op.steady .now := trivial
  refine StateStore.uses_transition_to hnow fun t hstate hocid => ?_
  exact ⟨by rw [hstate]; exact hs, hocid.trans hf⟩

/-- The grounds of the own row are those of its OCID. -/
theorem grounds_of_bears {db : Database} {K : OperationType → String → Prop}
    (hb : Bears operationId operationType (some ocid) db) (hK : K operationType ocid) :
    ∀ row ∈ db.operations.rows, row.operationId = operationId → ∀ o, row.ociCertificateOcid = some o →
      K row.operationType o := by
  obtain ⟨own, hown, hid, htype, ho⟩ := hb
  intro row hrow hrid o hro
  obtain rfl : row = own := Table.eq_of_key_eq hrow hown (hrid.trans hid.symm)
  rw [ho] at hro
  cases hro
  rw [htype]
  exact hK

/-- A statement that completes operations, once CURRENT of the own OCID is confirmed. -/
theorem bearing_statement (hφ : Lasting φ) (hK : ∀ t, φ t → Confirmed Γ config certificate operationType ocid t)
    {s : Statement} (hs : ∀ id t, s = .updateOperation id t → t.ociCertificateOcid = none)
    (hgrounded : ∀ (K : OperationType → String → Prop) db, Bears operationId operationType (some ocid) db →
      K operationType ocid → (Op.sql s).Grounded K db) :
    Attests Γ config certificate faults (Bearing operationId operationType (some ocid) φ) (sql s)
      fun _ => Bearing operationId operationType (some ocid) φ := by
  refine Guarded.perform (fun w answer w' hw h x hx => ?_) (fun w reply w' hw h => ?_) fun _ _ _ _ _ => trivial
  · rw [h.2] at hx
    obtain rfl : (w.1, (⟨.sql s, answer⟩ : Event publisher Exc)) = x := by simpa using hx
    exact hgrounded _ _ hw.1 (hK _ hw.2)
  · refine ⟨bears_after (fun id t hid => hs id t (by cases hid; rfl)) h.1 hw.1, ?_⟩
    unfold trace
    rw [h.2, List.map_append]
    exact hφ _ _ hw.2

/-- The own row is completed. -/
theorem bearing_completed (hφ : Lasting φ) (hK : ∀ t, φ t → Confirmed Γ config certificate operationType ocid t)
    {fields : TransitionFields} (hf : fields.ociCertificateOcid = none) :
    Attests Γ config certificate faults (Bearing operationId operationType (some ocid) φ)
      (StateStore.transition operationId .completed fields) fun _ => Bearing operationId operationType (some ocid) φ := by
  have hnow : Op.steady .now := trivial
  refine Guarded.bind (bearing_aside hφ (StateStore.uses_completedAt hnow _)) fun completed => ?_
  refine Guarded.bind (bearing_aside hφ (StateStore.uses_utcNow hnow)) fun updated => ?_
  refine Guarded.bind (bearing_statement hφ hK ?_ ?_) fun count => ?_
  · intro id t hid
    cases hid
    exact hf
  · exact fun K db hb hk _ => ⟨hf, grounds_of_bears hb hk⟩
  · split
    · exact Guarded.ret fun _ h => h
    · exact Guarded.raise fun _ _ => trivial

theorem bearing_closed {certificateId : String} {version : Int} (hφ : Lasting φ)
    (hK : ∀ t, φ t → Confirmed Γ config certificate operationType ocid t) :
    Attests Γ config certificate faults (Bearing operationId operationType (some ocid) φ)
      (StateStore.completeReconciledOperations certificateId F version operationId)
      fun _ => Bearing operationId operationType (some ocid) φ :=
  Guarded.bind (bearing_aside hφ (StateStore.uses_utcNow (A := Op.steady) trivial)) fun _ =>
    bearing_statement hφ hK (fun _ _ h => by cases h) fun _ _ hb hk => grounds_of_bears hb hk

theorem bearing_swept {certificateId : String} (hφ : Lasting φ)
    (hK : ∀ t, φ t → Confirmed Γ config certificate operationType ocid t) :
    Attests Γ config certificate faults (Bearing operationId operationType (some ocid) φ)
      (StateStore.completeInterruptedAudits certificateId operationId) fun _ => Bearing operationId operationType (some ocid) φ :=
  Guarded.bind (bearing_aside hφ (StateStore.uses_utcNow (A := Op.steady) trivial)) fun _ =>
    bearing_statement hφ hK (fun _ _ h => by cases h) fun _ _ hb hk => grounds_of_bears hb hk

/-- A started operation bears the type and the OCID it is given. -/
theorem startOperation_bearing (hφ : Lasting φ) (certificateId : String) (operationType : OperationType)
    (localFingerprint : Option String) :
    Attests Γ config certificate faults (fun w => φ (trace w))
      (StateStore.startOperation certificateId operationType localFingerprint o)
      fun operation => Bearing operation.operationId operationType o φ := by
  refine Guarded.bind (happened_aside hφ (Program.uses_perform.2 trivial)) fun id => ?_
  refine Guarded.bind (happened_aside hφ (StateStore.uses_utcNow (A := Op.steady) trivial)) fun started => ?_
  refine Guarded.bind (R := fun _ => Bearing id operationType o φ) ?_ fun _ => Guarded.ret fun _ h => h
  refine Guarded.perform (fun w answer w' _ h => attested_of_steady (by
    show OperationState.discovered ≠ .completed
    decide) h) (fun w reply w' hw h => ?_)
    fun _ _ _ _ _ => trivial
  have hmatch : w.1.Step (.insertOperation _) reply w'.1 := h.1.2
  obtain ⟨t, ht, hdb⟩ := hmatch
  refine ⟨?_, ?_⟩
  · unfold Bears
    rw [hdb]
    show ∃ row ∈ t.rows, _
    rw [(Table.insert_eq_some_iff.1 ht).2]
    exact ⟨_, List.mem_append_right _ (List.mem_singleton_self _), rfl, rfl, rfl⟩
  · unfold trace
    rw [h.2, List.map_append]
    exact hφ _ _ hw

end Steps

/-! ## The grounds, as they are found -/

theorem lasting_read (f : String) : Lasting fun t => ReadCurrent Γ config certificate ocid f t := by
  rintro t e ⟨requestId, bundle, now, hmem, hok⟩
  exact ⟨requestId, bundle, now, List.mem_append_left _ hmem, hok⟩

theorem lasting_loaded (f : String) :
    Lasting fun t : Trace => ∃ material, (⟨.loadLineage certificate.id, .ok material⟩ : Event publisher Exc) ∈ t ∧
      f = certificateSha256 material.leaf :=
  Lasting.of_exists fun _ => (Lasting.mem _).and (Lasting.const _)

/-- A retried read answers what one of its reads answered. -/
theorem retryRead_mem (accepted : OciPublicBundle → Bool) (policy : ReadRetryPolicy) (requestId : String) :
    Triple anyAnswer (fun _ => True) (retryReadUntilSync (perform (.getPublicBundle ocid none requestId)) accepted policy)
      (fun bundle t => (⟨.getPublicBundle ocid none requestId, .ok bundle⟩ : Event publisher Exc) ∈ t) (fun _ _ => True)
      fun _ => True :=
  Triple.retryRead accepted policy (perform_mem _) (fun _ _ => Triple.unconstrained _) (fun _ _ => trivial) (fun _ _ _ => trivial)
    (fun _ _ _ => trivial) (fun _ _ _ => trivial) fun _ _ => trivial

theorem bearing_retryRead {o : Option String} {φ : Trace → Prop} (hφ : Lasting φ) (accepted : OciPublicBundle → Bool)
    (policy : ReadRetryPolicy) (requestId : String) :
    Attests Γ config certificate faults (Bearing operationId operationType o φ)
      (retryReadUntilSync (perform (.getPublicBundle ocid none requestId)) accepted policy)
      fun bundle => Bearing operationId operationType o fun t => φ t ∧
        (⟨.getPublicBundle ocid none requestId, .ok bundle⟩ : Event publisher Exc) ∈ t := by
  have hread : Op.steady (.getPublicBundle ocid none requestId) := trivial
  refine bearing_spec (uses_retryReadUntilSync (fun op h => steady_of_passive op (passive_of_pauses op h))
    (Program.uses_perform.2 hread) _ _) ?_
  exact (hφ.beside (retryRead_mem accepted policy requestId)).conseq (fun _ h => ⟨trivial, h⟩) (fun _ _ h => ⟨h.2, h.1⟩)
    (fun _ _ _ => trivial) fun _ _ => trivial

/-- The local generation has the fingerprint `f`. -/
def Loaded (certificate : CertificateConfig) (f : String) (t : Trace) : Prop :=
  ∃ material, (⟨.loadLineage certificate.id, .ok material⟩ : Event publisher Exc) ∈ t ∧ f = certificateSha256 material.leaf

/-- CURRENT is the local generation. -/
def Matched (Γ : Ctx) (config : AppConfig) (certificate : CertificateConfig) (ocid f : String) (t : Trace) : Prop :=
  Loaded certificate f t ∧ ReadCurrent Γ config certificate ocid f t

theorem lasting_matched (f : String) : Lasting (Matched Γ config certificate ocid f) :=
  (lasting_loaded f).and (lasting_read f)

/-- The operation is on the local generation. -/
def Local (operationType : OperationType) : Prop := operationType ≠ .audit ∧ operationType ≠ .rollback

theorem confirmed_of_matched {f : String} (hT : Local operationType) (t : Trace)
    (h : Matched Γ config certificate ocid f t) : Confirmed Γ config certificate operationType ocid t := by
  refine ⟨f, h.2, ?_⟩
  cases operationType with
  | audit => exact absurd rfl hT.1
  | rollback => exact absurd rfl hT.2
  | bootstrap | renew | publish | reconcile => exact h.1

namespace Publishing

open PublicationReconciler UploadAux

theorem complete_attests (hT : Local operationType) (ocid remoteFingerprint : String) (versionNumber : Int) (changed : Bool) :
    Attests Γ config certificate faults (Bearing operationId operationType (some ocid) (Matched Γ config certificate ocid F))
      (complete operationId certificate F remoteFingerprint versionNumber changed operationType) fun _ _ => True := by
  have hlast := @lasting_matched Γ config certificate ocid F
  refine Guarded.bind (bearing_aside hlast (StateStore.uses_recordFacts trivial fun _ => trivial)) fun _ => ?_
  refine Guarded.bind (bearing_closed hlast (confirmed_of_matched hT)) fun _ => ?_
  refine Guarded.bind (bearing_aside hlast (uses_recordRenewal fun op h => steady_of_idle op (idle_of_records op h)))
    fun _ => ?_
  exact Guarded.bind (bearing_completed hlast (confirmed_of_matched hT) rfl) fun _ => Guarded.ret fun _ _ => trivial

theorem obtainCandidate_bearing (etag : Option String) :
    Attests Γ config certificate faults (Bearing operationId operationType (some ocid) (Loaded certificate F))
      (obtainCandidate Γ config certificate material chain F now ocid operationId requestId etag)
      fun _ => Bearing operationId operationType (some ocid) (Loaded certificate F) := by
  have hlast : Lasting (Loaded certificate F) := lasting_loaded F
  refine Guarded.bind (bearing_aside hlast (uses_findMatchingPending steady_of_idle)) fun found => ?_
  split
  · exact Guarded.ret fun _ h => h
  · refine Guarded.bind (bearing_aside hlast uses_ofExcept) fun label => ?_
    refine Guarded.bind (bearing_aside hlast (Program.uses_perform.2 trivial)) fun _ => ?_
    refine Guarded.bind (bearing_aside hlast (uses_transition_steady (by decide) rfl)) fun _ => ?_
    refine Guarded.bind (bearing_aside hlast (Program.uses_perform.2 trivial)) fun _ => ?_
    refine Guarded.bind (bearing_aside hlast (uses_findMatchingPending steady_of_idle)) fun visible => ?_
    split
    · exact Guarded.ret fun _ h => h
    · exact Guarded.raise fun _ _ => trivial

theorem promoteAndConfirm_attests (hT : Local operationType) (candidate : OciCertificateVersion) :
    Attests Γ config certificate faults (Bearing operationId operationType (some ocid) (Loaded certificate F))
      (promoteAndConfirm Γ config certificate F now operationType ocid operationId requestId candidate)
      fun _ _ => True := by
  have hlast : Lasting (Loaded certificate F) := lasting_loaded F
  refine Guarded.bind (bearing_aside hlast (uses_transition_steady (by decide) rfl)) fun _ => ?_
  refine Guarded.bind (bearing_aside hlast (Program.uses_perform.2 trivial)) fun _ => ?_
  refine Guarded.bind (bearing_aside hlast (uses_promoteCurrent (fun op h => steady_of_passive op (passive_of_pauses op h))
    trivial (fun _ _ => trivial) _)) fun _ => ?_
  refine Guarded.bind (bearing_aside hlast (Program.uses_perform.2 trivial)) fun _ => ?_
  refine Guarded.bind (bearing_retryRead hlast _ _ _) fun confirmed => ?_
  refine Guarded.bind bearing_ofExcept fun f => ?_
  split
  · exact Guarded.raise fun _ _ => trivial
  · rename_i hne
    obtain rfl : f = F := Decidable.of_not_not hne
    have hmatched : Lasting (Matched Γ config certificate ocid f) := lasting_matched f
    refine Guarded.conseq (P := Bearing operationId operationType (some ocid) (Matched Γ config certificate ocid f)) ?_
      (fun w h => ⟨h.1, h.2.1.1, requestId, confirmed, now, h.2.1.2, verifyBundle_ok h.2.2⟩) (fun _ _ h => h)
        fun _ _ h => h
    refine Guarded.bind (bearing_aside hmatched (uses_transition_steady (by decide) rfl)) fun _ => ?_
    refine Guarded.bind (bearing_aside hmatched (Program.uses_perform.2 trivial)) fun _ => ?_
    exact complete_attests hT ocid _ _ _

theorem reconcile_attests (hT : Local operationType) :
    Attests Γ config certificate faults (Bearing operationId operationType (some ocid) (Loaded certificate F))
      (reconcile Γ config certificate material chain F now operationType ocid operationId) fun _ _ => True := by
  have hlast : Lasting (Loaded certificate F) := lasting_loaded F
  refine Guarded.bind (bearing_aside hlast (Program.uses_perform.2 trivial)) fun requestId => ?_
  refine Guarded.bind (bearing_aside hlast (Program.uses_perform.2 trivial)) fun remote => ?_
  refine Guarded.bind (bearing_performed hlast (.getPublicBundle ocid none requestId) trivial) fun current => ?_
  refine Guarded.bind bearing_ofExcept fun f => ?_
  have hmem : Lasting fun t : Trace => (Loaded certificate F t ∧
    (⟨.getPublicBundle ocid none requestId, .ok current⟩ : Event publisher Exc) ∈ t) ∧
      verifyBundle Γ current certificate config now = .ok f :=
    (hlast.and (Lasting.mem _)).and (Lasting.const _)
  refine Guarded.bind (bearing_aside hmem (uses_transition_steady (by decide) rfl)) fun _ => ?_
  split
  · rename_i hf
    subst hf
    refine Guarded.bind (bearing_aside hmem (Program.uses_perform.2 trivial)) fun _ => ?_
    refine (complete_attests hT ocid _ _ _).conseq (fun w h => ?_) (fun _ _ h => h) fun _ _ h => h
    exact ⟨h.1, h.2.1.1, requestId, current, now, h.2.1.2, verifyBundle_ok h.2.2⟩
  · refine Guarded.conseq (P := Bearing operationId operationType (some ocid) (Loaded certificate F)) ?_
      (fun w h => ⟨h.1, h.2.1.1⟩) (fun _ _ h => h) fun _ _ h => h
    exact Guarded.bind (obtainCandidate_bearing _) fun candidate => promoteAndConfirm_attests hT candidate

end Publishing

/-! ## The audit -/

theorem plain_transition {state : OperationState} (hs : state ≠ .completed) {fields : TransitionFields}
    (hf : fields.ociCertificateOcid = none) :
    Plain Γ config certificate faults (StateStore.transition operationId state fields) :=
  plain_aside (uses_transition_steady hs hf)

theorem uses_auditFailed_steady : (PublicationService.auditFailed Γ config certificate operationId).Uses Op.steady := by
  refine Program.uses_bind (uses_transition_steady (by decide) rfl) fun _ => ?_
  exact Program.uses_bind (PublicationService.uses_notifyAuditFailure steady_of_idle _) fun _ => Program.uses_perform.2 trivial

/-- What has been confirmed stays confirmed. -/
theorem lasting_confirmed : Lasting (Confirmed Γ config certificate operationType ocid) := by
  rintro t e ⟨f, hread, hexpected⟩
  refine ⟨f, lasting_read f t e hread, ?_⟩
  cases operationType with
  | audit => exact hexpected.imp id fun hall endpoint hmem => AuditService.lasting_seen t e (hall endpoint hmem)
  | rollback =>
    obtain ⟨version, requestId, bundle, now, hmem, hok⟩ := hexpected
    exact ⟨version, requestId, bundle, now, List.mem_append_left _ hmem, hok⟩
  | bootstrap | renew | publish | reconcile => exact lasting_loaded f t e hexpected

theorem auditCurrent_attests (requestId : String) :
    Attests Γ config certificate faults (Bearing operationId .audit (some ocid) fun _ => True)
      (PublicationService.auditCurrent Γ config passes certificate ocid operationId requestId) fun _ _ => True := by
  have htrue : Lasting fun _ : Trace => True := Lasting.const True
  refine Guarded.bind (bearing_performed htrue (.getPublicBundle ocid none requestId) trivial) fun bundle => ?_
  have hread := htrue.and (Lasting.mem (⟨.getPublicBundle ocid none requestId, .ok bundle⟩ : Event publisher Exc))
  refine Guarded.bind (bearing_aside hread (Program.uses_perform.2 trivial)) fun now => ?_
  refine Guarded.bind bearing_ofExcept fun f => ?_
  have hvalid := hread.and
    (Lasting.const (validatePublicCertificate Γ bundle.certificatePem certificate config.global now = .ok f))
  refine Guarded.bind (bearing_spec (PublicationService.uses_auditService steady_of_idle)
    (hvalid.beside (P := fun _ => True) (Q := fun configuration _ => configuration = certificate.audit) (C := fun _ => True)
      (E := fun _ _ => True) ?_ |>.conseq (fun _ h => ⟨trivial, h⟩) (fun _ _ h => h) (fun _ _ _ => trivial)
        fun _ _ => trivial)) fun configuration => ?_
  · intro t _ o t' hx
    cases o with
    | returned configuration => exact hx.yields AuditEvidenceAux.yields_auditService rfl
    | raised | crashed => trivial
  have hconf := (Lasting.const (configuration = certificate.audit)).and hvalid
  refine Guarded.bind (bearing_spec (AuditService.uses_audit (fun op h => steady_of_passive op (passive_of_observes op h)) _ _ _)
    ((hconf.beside (AuditService.audit_spec passes)).conseq (fun _ h => ⟨trivial, h⟩) (fun _ _ h => h) (fun _ _ _ => trivial)
      fun _ _ => trivial)) fun result => ?_
  split
  · exact Guarded.conseq (Guarded.bind (plain_aside uses_auditFailed_steady) fun _ => Guarded.ret fun _ _ => trivial)
      (fun _ _ => trivial) (fun _ _ h => h) fun _ _ h => h
  · rename_i hsuccess
    have hs : result.successful = true := by simpa using hsuccess
    have hlast : Lasting (Confirmed Γ config certificate .audit ocid) := lasting_confirmed
    refine Guarded.conseq (P := Bearing operationId .audit (some ocid) (Confirmed Γ config certificate .audit ocid)) ?_ ?_
      (fun _ _ h => h) fun _ _ h => h
    · refine Guarded.bind (bearing_aside hlast (uses_transition_steady (by decide) rfl)) fun _ => ?_
      refine Guarded.bind (bearing_aside hlast (StateStore.uses_recordFacts trivial fun _ => trivial)) fun _ => ?_
      refine Guarded.bind (bearing_completed hlast (fun _ h => h) rfl) fun _ => ?_
      refine Guarded.bind (bearing_swept hlast fun _ h => h) fun _ => ?_
      refine Guarded.bind (bearing_aside hlast (Program.uses_perform.2 trivial)) fun _ => ?_
      exact Guarded.ret fun _ _ => trivial
    · rintro w ⟨hbears, hseen, rfl, ⟨-, hmem⟩, hok⟩
      exact ⟨hbears, f, ⟨requestId, bundle, now, hmem, hok⟩, hseen hs⟩

theorem audit_attests (certificateId : String) (hc : configuredCertificate config certificateId = .ok certificate) :
    Plain Γ config certificate faults (PublicationService.audit Γ config passes certificateId) := by
  refine configured_bind hc ?_
  split
  · exact Guarded.raise fun _ _ => trivial
  · rename_i ocid _
    refine Guarded.bind (plain_aside (PublicationService.uses_openPorts steady_of_idle)) fun _ => ?_
    refine Guarded.bind (startOperation_bearing (Lasting.const True) _ .audit none) fun operation => ?_
    have htrue : Lasting fun _ : Trace => True := Lasting.const True
    refine Guarded.bind (bearing_aside htrue (Program.uses_perform.2 trivial)) fun requestId => ?_
    refine Guarded.bind (bearing_aside htrue (uses_transition_steady (by decide) rfl)) fun _ => ?_
    refine Guarded.handle (auditCurrent_attests requestId) fun x => ?_
    split
    · exact Guarded.bind (plain_aside uses_auditFailed_steady) fun _ => Guarded.raise fun _ _ => trivial
    · exact Guarded.raise fun _ _ => trivial

/-! ## The rollback -/

/-- The version to restore has the fingerprint `f`. -/
def Restores (Γ : Ctx) (config : AppConfig) (certificate : CertificateConfig) (ocid f : String) (t : Trace) : Prop :=
  ∃ version requestId bundle now,
    (⟨.getPublicBundle ocid (some version) requestId, .ok bundle⟩ : Event publisher Exc) ∈ t ∧
      validatePublicCertificate Γ bundle.certificatePem certificate config.global now = .ok f

theorem lasting_restores (f : String) : Lasting (Restores Γ config certificate ocid f) := by
  rintro t e ⟨version, requestId, bundle, now, hmem, hok⟩
  exact ⟨version, requestId, bundle, now, List.mem_append_left _ hmem, hok⟩

/-- The audit of a rollback completes nothing. -/
theorem auditRollback_bearing {o : Option String} {φ : Trace → Prop} (hφ : Lasting φ) (audit : Option AuditConfig) (f : String) :
    Attests Γ config certificate faults (Bearing operationId operationType o φ)
      (RollbackService.auditRollback Γ certificate operationId audit passes f)
      fun _ => Bearing operationId operationType o φ := by
  have hfailed : (RollbackService.auditFailed operationId certificate).Uses Op.steady := by
    refine Program.uses_bind (uses_transition_steady (by decide) rfl) fun _ => ?_
    exact Program.uses_bind (Program.uses_perform.2 trivial) fun _ => trivial
  refine bearing_aside hφ ?_
  unfold RollbackService.auditRollback
  split
  · trivial
  · refine Program.uses_bind (uses_transition_steady (by decide) rfl) fun _ => ?_
    refine Program.uses_bind (Program.uses_attempt (AuditService.uses_audit
      (fun op h => steady_of_passive op (passive_of_observes op h)) _ _ _)) fun result => ?_
    cases result with
    | error x =>
      simp only
      split
      · exact hfailed
      · trivial
    | ok result =>
      simp only
      split
      · exact hfailed
      · exact uses_transition_steady (by decide) rfl

theorem rollback_attests (audit : Option AuditConfig) :
    Plain Γ config certificate faults (RollbackService.rollback Γ config certificate now audit passes) := by
  unfold RollbackService.rollback
  split
  · exact Guarded.raise fun _ _ => trivial
  rename_i ocid _
  refine Guarded.bind (startOperation_bearing (Lasting.const True) _ .rollback none) fun operation => ?_
  have htrue : Lasting fun _ : Trace => True := Lasting.const True
  refine Guarded.bind (bearing_aside htrue (Program.uses_perform.2 trivial)) fun _ => ?_
  refine Guarded.bind (bearing_aside htrue (Program.uses_perform.2 trivial)) fun requestId => ?_
  refine Guarded.bind (bearing_aside htrue (RollbackService.uses_previousVersion steady_of_idle)) fun candidate => ?_
  refine Guarded.bind (bearing_performed htrue (.getPublicBundle ocid (some candidate.versionNumber) requestId) trivial)
    fun bundle => ?_
  refine Guarded.bind bearing_ofExcept fun f => ?_
  refine Guarded.conseq (P := Bearing operation.operationId .rollback (some ocid) (Restores Γ config certificate ocid f)) ?_
    (fun w h => ⟨h.1, candidate.versionNumber, requestId, bundle, now, h.2.1.2, RollbackService.validateBundle_ok h.2.2⟩)
    (fun _ _ h => h) fun _ _ h => h
  have hrestores : Lasting (Restores Γ config certificate ocid f) := lasting_restores f
  refine Guarded.bind (bearing_aside hrestores (Program.uses_perform.2 trivial)) fun remote => ?_
  refine Guarded.bind (bearing_aside hrestores (uses_transition_steady (by decide) rfl)) fun _ => ?_
  refine Guarded.bind (bearing_aside hrestores (Program.uses_perform.2 trivial)) fun _ => ?_
  refine Guarded.bind (bearing_retryRead hrestores _ _ _) fun confirmed => ?_
  refine Guarded.bind bearing_ofExcept fun g => ?_
  split
  · exact Guarded.raise fun _ _ => trivial
  · rename_i hsame
    obtain rfl : g = f := Decidable.of_not_not fun h => hsame (Or.inr h)
    have hlast : Lasting (Confirmed Γ config certificate .rollback ocid) := lasting_confirmed
    refine Guarded.conseq
      (P := Bearing operation.operationId .rollback (some ocid) (Confirmed Γ config certificate .rollback ocid)) ?_
      (fun w h => ⟨h.1, g, ⟨requestId, confirmed, now, h.2.1.2, RollbackService.validateBundle_ok h.2.2⟩, h.2.1.1⟩)
        (fun _ _ h => h) fun _ _ h => h
    refine Guarded.bind (bearing_aside hlast (uses_transition_steady (by decide) rfl)) fun _ => ?_
    refine Guarded.bind (bearing_aside hlast (StateStore.uses_recordFacts trivial fun _ => trivial)) fun _ => ?_
    refine Guarded.bind (auditRollback_bearing hlast _ _) fun _ => ?_
    refine Guarded.bind (bearing_completed hlast (fun _ h => h) rfl) fun _ => ?_
    refine Guarded.bind (bearing_aside hlast (Program.uses_perform.2 trivial)) fun _ => ?_
    exact Guarded.ret fun _ _ => trivial

theorem publication_rollback_attests (certificateId : String) (hc : configuredCertificate config certificateId = .ok certificate) :
    Plain Γ config certificate faults (PublicationService.rollback Γ config passes certificateId) := by
  refine configured_bind hc ?_
  refine Guarded.bind (plain_aside (PublicationService.uses_openPorts steady_of_idle)) fun _ => ?_
  refine Guarded.bind (plain_aside (Program.uses_perform.2 trivial)) fun now => ?_
  exact Guarded.bind (plain_aside (PublicationService.uses_auditService steady_of_idle)) fun _ => rollback_attests _

/-! ## The publication -/

theorem runPostPublicationAudit_attests (hc : configuredCertificate config certificate.id = .ok certificate) :
    Plain Γ config certificate faults (PublicationService.runPostPublicationAudit Γ config passes certificate) := by
  have haudit : Plain Γ config certificate faults (PublicationService.audit Γ config passes certificate.id) :=
    audit_attests _ hc
  unfold PublicationService.runPostPublicationAudit
  split
  · exact Guarded.ret fun _ _ => trivial
  · unfold PublicationService.enforcePostPublicationAudit
    split
    · exact Guarded.ret fun _ _ => trivial
    · refine Guarded.bind (R := fun _ _ => True) (Guarded.handle haudit fun x => ?_) fun successful => ?_
      · split
        · exact Guarded.ret fun _ _ => trivial
        · exact Guarded.raise fun _ _ => trivial
      · split
        · exact Guarded.ret fun _ _ => trivial
        · split
          · exact Guarded.raise fun _ _ => trivial
          · refine Guarded.bind (R := fun _ _ => True)
              ((Guarded.attempt (publication_rollback_attests _ hc)).conseq (fun _ h => h) (fun _ _ _ => trivial)
                fun _ _ h => h) fun outcome => ?_
            cases outcome with
            | ok _ => exact Guarded.ret fun _ _ => trivial
            | error x =>
              simp only
              split
              · exact Guarded.bind (plain_aside (Program.uses_perform.2 trivial)) fun _ => Guarded.raise fun _ _ => trivial
              · exact Guarded.raise fun _ _ => trivial
  · refine Guarded.handle (Guarded.bind haudit fun _ => Guarded.ret fun _ _ => trivial) fun x => ?_
    split
    · exact Guarded.ret fun _ _ => trivial
    · exact Guarded.raise fun _ _ => trivial

theorem publish_attests (hT : Local operationType) (certificateId : String)
    (hc : configuredCertificate config certificateId = .ok certificate) :
    Plain Γ config certificate faults (PublicationService.publish Γ config passes certificateId operationType) := by
  have hown : configuredCertificate config certificate.id = .ok certificate := by rw [configuredCertificate_id hc, hc]
  refine configured_bind hc ?_
  refine Guarded.bind (plain_aside (PublicationService.uses_requireProductionQualification steady_of_idle)) fun _ => ?_
  refine Guarded.bind (happened_performed (Lasting.const True) (.loadLineage certificate.id) trivial) fun material => ?_
  have hloaded : Lasting fun t : Trace =>
      True ∧ (⟨.loadLineage certificate.id, .ok material⟩ : Event publisher Exc) ∈ t :=
    (Lasting.const True).and (Lasting.mem _)
  refine Guarded.bind (happened_aside hloaded (Program.uses_perform.2 trivial)) fun validated => ?_
  refine Guarded.bind attests_ofExcept fun fingerprint => Guarded.assume fun hvalid => ?_
  refine Guarded.bind (happened_aside hloaded (uses_buildChain steady_of_idle)) fun chain => ?_
  refine Guarded.bind (happened_aside hloaded (Program.uses_perform.2 trivial)) fun _ => ?_
  refine Guarded.bind (happened_aside hloaded (PublicationService.uses_openPorts steady_of_idle)) fun _ => ?_
  refine Guarded.bind (happened_aside hloaded (Program.uses_perform.2 trivial)) fun now => ?_
  refine Guarded.bind (R := fun _ _ => True) ?_ fun result => ?_
  · unfold PublicationReconciler.publish
    split
    · exact Guarded.raise fun _ _ => trivial
    · refine Guarded.bind (startOperation_bearing hloaded _ operationType _) fun operation => ?_
      refine (Publishing.reconcile_attests hT).conseq (fun w h => ⟨h.1, material, h.2.2, ?_⟩) (fun _ _ h => h) fun _ _ h => h
      exact (validateCertificateMaterial_ok hvalid).2
  · refine Guarded.bind (plain_aside (Program.uses_perform.2 trivial)) fun _ => ?_
    refine Guarded.bind (runPostPublicationAudit_attests hown) fun _ => ?_
    refine Guarded.bind (plain_aside (PublicationService.uses_runPostPublicationRetention steady_of_idle
      fun _ _ _ _ _ => trivial)) fun _ => ?_
    exact Guarded.ret fun _ _ => trivial

theorem renew_attests {force : Bool} (certificateId : String)
    (hc : configuredCertificate config certificateId = .ok certificate) :
    Plain Γ config certificate faults (PublicationService.renew Γ config passes certificateId force) := by
  refine configured_bind hc ?_
  refine Guarded.bind (plain_aside (PublicationService.uses_requireProductionQualification steady_of_idle)) fun _ => ?_
  refine Guarded.bind (plain_aside (PublicationService.uses_runPreflight steady_of_idle)) fun _ => ?_
  refine Guarded.bind (plain_aside (PublicationService.uses_beforeFingerprint steady_of_idle)) fun _ => ?_
  refine Guarded.bind (plain_aside (Program.uses_perform.2 trivial)) fun _ => ?_
  refine Guarded.bind (plain_aside (NativeAcmeService.uses_issue steady_of_idle (fun _ _ => trivial) (fun _ _ => trivial)
    (fun _ => trivial) force)) fun _ => ?_
  refine Guarded.bind (plain_aside (Program.uses_perform.2 trivial)) fun _ => ?_
  exact publish_attests ⟨by decide, by decide⟩ certificateId hc

/-! ## The bootstrap -/

theorem readCreated_bearing {ocid mismatch : String} {f : String} (requestId : String) :
    Attests Γ config certificate faults (Bearing operationId operationType (some ocid) (Loaded certificate f))
      (PublicationService.readCreated Γ config certificate f ocid requestId mismatch)
      fun _ => Bearing operationId operationType (some ocid) (Matched Γ config certificate ocid f) := by
  have hloaded : Lasting (Loaded certificate f) := lasting_loaded f
  refine Guarded.bind (bearing_performed hloaded (.getPublicBundle ocid none requestId) trivial) fun bundle => ?_
  have hread := hloaded.and (Lasting.mem (⟨.getPublicBundle ocid none requestId, .ok bundle⟩ : Event publisher Exc))
  refine Guarded.bind (bearing_aside hread (Program.uses_perform.2 trivial)) fun now => ?_
  refine Guarded.bind bearing_ofExcept fun g => ?_
  split
  · exact Guarded.raise fun _ _ => trivial
  · rename_i hsame
    obtain rfl : g = f := Decidable.of_not_not hsame
    exact Guarded.ret fun w h => ⟨h.1, h.2.1.1, requestId, bundle, now, h.2.1.2, h.2.2⟩

theorem confirmCreated_attests {ocid f : String} (hT : Local operationType) (bundle : OciPublicBundle)
    (remoteFingerprint : String) (requestId : Option String) :
    Attests Γ config certificate faults (Bearing operationId operationType (some ocid) (Matched Γ config certificate ocid f))
      (PublicationService.confirmCreated certificate f operationId ocid bundle remoteFingerprint requestId)
      fun _ => Bearing operationId operationType (some ocid) (Matched Γ config certificate ocid f) := by
  have hlast : Lasting (Matched Γ config certificate ocid f) := lasting_matched f
  refine Guarded.bind (bearing_aside hlast (uses_transition_steady (by decide) rfl)) fun _ => ?_
  refine Guarded.bind (bearing_aside hlast (StateStore.uses_recordFacts trivial fun _ => trivial)) fun _ => ?_
  exact Guarded.bind (bearing_completed hlast (confirmed_of_matched hT) rfl) fun _ => Guarded.ret fun _ h => h

/-- The active operations are rows of the store. -/
theorem activeOperations_bear {f : String} :
    Attests Γ config certificate faults (fun w => Loaded certificate f (trace w))
      (StateStore.activeOperations certificate.id) fun active w => Loaded certificate f (trace w) ∧
        ∀ operation ∈ active,
          Bears operation.operationId operation.operationType operation.ociCertificateOcid w.1 := by
  refine Guarded.perform (fun w answer w' _ h => attested_of_steady (show Op.steady (.sql (.selectActive _)) from trivial) h)
    (fun w reply w' hw h => ?_) fun _ _ _ _ _ => trivial
  have hmatch : w.1.Step (.selectActive certificate.id) reply w'.1 := h.1.2
  obtain ⟨hdb, l, hperm, -, hreply⟩ := hmatch
  refine ⟨?_, fun operation hop => ?_⟩
  · unfold trace
    rw [h.2, List.map_append]
    exact lasting_loaded f _ _ hw
  · rw [hreply, List.mem_map] at hop
    obtain ⟨row, hrow, rfl⟩ := hop
    rw [hdb]
    exact ⟨row, List.mem_of_mem_filter ((hperm.mem_iff).1 hrow), rfl, rfl, rfl⟩

theorem recoverBootstrap_attests {f : String} :
    Attests Γ config certificate faults (fun w => Loaded certificate f (trace w))
      (PublicationService.recoverBootstrap Γ config certificate f) fun _ w => Loaded certificate f (trace w) := by
  refine Guarded.bind activeOperations_bear fun active => ?_
  split
  · exact Guarded.ret fun _ h => h.1
  · rename_i operation hfilter
    split
    · exact Guarded.raise fun _ _ => trivial
    · rename_i ocid hocid
      have hfound : operation ∈ active.filter (PublicationService.isRecoverable f) := by
        rw [hfilter]
        exact List.mem_singleton_self _
      obtain ⟨hmem, hrecoverable⟩ := List.mem_filter.1 hfound
      have htype : operation.operationType = .bootstrap := by
        simp only [PublicationService.isRecoverable, Bool.and_eq_true, decide_eq_true_eq] at hrecoverable
        exact hrecoverable.1.1
      have hloaded : Lasting (Loaded certificate f) := lasting_loaded f
      refine Guarded.conseq (P := Bearing operation.operationId .bootstrap (some ocid) (Loaded certificate f)) ?_
        (fun w h => ⟨?_, h.1⟩) (fun _ _ h => h) fun _ _ h => h
      · refine Guarded.bind (bearing_aside hloaded (Program.uses_perform.2 trivial)) fun requestId => ?_
        refine Guarded.bind (readCreated_bearing requestId) fun read => ?_
        obtain ⟨bundle, remote⟩ := read
        refine Guarded.bind (confirmCreated_attests ⟨by decide, by decide⟩ _ _ _) fun result => ?_
        refine Guarded.bind (bearing_aside (lasting_matched f) (Program.uses_perform.2 trivial)) fun _ => ?_
        exact Guarded.ret fun _ h => h.2.1
      · rw [← hocid, ← htype]
        exact h.2 operation hmem
  · exact Guarded.raise fun _ _ => trivial

/-- The row of a creation gets the OCID of the created certificate. -/
theorem bearing_created {o : Option String} {φ : Trace → Prop} (hφ : Lasting φ) {state : OperationState}
    (hs : state ≠ .completed) {fields : TransitionFields} (hf : fields.ociCertificateOcid = some ocid) :
    Attests Γ config certificate faults (Bearing operationId operationType o φ) (StateStore.transition operationId state fields)
      fun _ => Bearing operationId operationType (some ocid) φ := by
  have hnow : Op.steady .now := trivial
  refine Guarded.bind (bearing_aside hφ (StateStore.uses_completedAt hnow _)) fun completed => ?_
  refine Guarded.bind (bearing_aside hφ (StateStore.uses_utcNow hnow)) fun updated => ?_
  refine Guarded.bind (R := fun _ => Bearing operationId operationType (some ocid) φ)
    (Guarded.perform (fun w answer w' _ h x hx => ?_) (fun w reply w' hw h => ?_) fun _ _ _ _ _ => trivial) fun count => ?_
  · rw [h.2] at hx
    obtain rfl : (w.1, (⟨.sql (.updateOperation operationId _), answer⟩ : Event publisher Exc)) = x := by simpa using hx
    exact fun hstate => absurd hstate hs
  · have hmatch : w.1.Step (.updateOperation operationId _) reply w'.1 := h.1.2
    obtain ⟨row, hrow, hid, htype, -⟩ := hw.1
    refine ⟨?_, ?_⟩
    · rw [hmatch.2]
      refine ⟨row.transition _, mem_updateOperations.2 (Or.inl ⟨row, hrow, decide_eq_true hid, rfl⟩), hid, htype, ?_⟩
      show fields.ociCertificateOcid.or _ = _
      rw [hf]
      rfl
    · unfold trace
      rw [h.2, List.map_append]
      exact hφ _ _ hw.2
  · split
    · exact Guarded.ret fun _ h => h
    · exact Guarded.raise fun _ _ => trivial

theorem creationFailed_attests {created : Bool} (x : Exc) :
    Plain Γ config certificate faults (PublicationService.creationFailed operationId created x) := by
  unfold PublicationService.creationFailed
  split
  · refine Guarded.bind (plain_transition ?_ rfl) fun _ => Guarded.raise fun _ _ => trivial
    split <;> decide
  · split
    · exact Guarded.bind (plain_transition (by decide) rfl) fun _ => Guarded.raise fun _ _ => trivial
    · exact Guarded.raise fun _ _ => trivial

theorem createCertificate_attests {f : String} :
    Attests Γ config certificate faults (fun w => Loaded certificate f (trace w))
      (PublicationService.createCertificate Γ config certificate material chain f) fun _ _ => True := by
  have hloaded : Lasting (Loaded certificate f) := lasting_loaded f
  refine Guarded.bind (startOperation_bearing hloaded _ .bootstrap _) fun operation => ?_
  refine Guarded.bind (bearing_aside hloaded (uses_transition_steady (by decide) rfl)) fun _ => ?_
  refine Guarded.bind (bearing_aside hloaded ?_) fun attempt => ?_
  · refine Program.uses_attempt (Program.uses_bind (Program.uses_perform.2 trivial) fun requestId =>
      Program.uses_bind ?_ fun ocid => trivial)
    refine Program.uses_bind (Program.uses_perform.2 trivial) fun now => ?_
    exact Program.uses_bind uses_ofExcept fun label => Program.uses_perform.2 trivial
  cases attempt with
  | error x => exact (creationFailed_attests x).conseq (fun _ _ => trivial) (fun _ _ h => h) fun _ _ h => h
  | ok created =>
    obtain ⟨requestId, ocid⟩ := created
    refine Guarded.handle (R := fun _ _ => True) ?_ creationFailed_attests
    refine Guarded.bind (bearing_created hloaded (by decide) rfl) fun _ => ?_
    refine Guarded.bind (readCreated_bearing requestId) fun read => ?_
    obtain ⟨bundle, remote⟩ := read
    exact (confirmCreated_attests ⟨by decide, by decide⟩ _ _ _).conseq (fun _ h => h) (fun _ _ _ => trivial) fun _ _ h => h

theorem bootstrap_attests (certificateId : String) (hc : configuredCertificate config certificateId = .ok certificate) :
    Plain Γ config certificate faults (PublicationService.bootstrap Γ config certificateId) := by
  refine configured_bind hc ?_
  split
  · exact Guarded.raise fun _ _ => trivial
  refine Guarded.bind (plain_aside (PublicationService.uses_requireProductionQualification steady_of_idle)) fun _ => ?_
  refine Guarded.bind (plain_aside (PublicationService.uses_runPreflight steady_of_idle)) fun _ => ?_
  refine Guarded.bind (plain_aside (Program.uses_perform.2 trivial)) fun _ => ?_
  refine Guarded.bind (plain_aside (NativeAcmeService.uses_issue steady_of_idle (fun _ _ => trivial) (fun _ _ => trivial)
    (fun _ => trivial) false)) fun _ => ?_
  refine Guarded.bind (plain_aside (Program.uses_perform.2 trivial)) fun _ => ?_
  refine Guarded.bind (happened_performed (Lasting.const True) (.loadLineage certificate.id) trivial) fun material => ?_
  have hmem : Lasting fun t : Trace =>
      True ∧ (⟨.loadLineage certificate.id, .ok material⟩ : Event publisher Exc) ∈ t :=
    (Lasting.const True).and (Lasting.mem _)
  refine Guarded.bind (happened_aside hmem (Program.uses_perform.2 trivial)) fun now => ?_
  refine Guarded.bind attests_ofExcept fun f => Guarded.assume fun hvalid => ?_
  refine Guarded.conseq (P := fun w => Loaded certificate f (trace w)) ?_
    (fun w h => ⟨material, h.2, (validateCertificateMaterial_ok hvalid).2⟩) (fun _ _ h => h) fun _ _ h => h
  have hloaded : Lasting (Loaded certificate f) := lasting_loaded f
  refine Guarded.bind (happened_aside hloaded (uses_buildChain steady_of_idle)) fun chain => ?_
  refine Guarded.bind (happened_aside hloaded (PublicationService.uses_openPorts steady_of_idle)) fun _ => ?_
  refine Guarded.bind recoverBootstrap_attests fun recovered => ?_
  cases recovered with
  | some result => exact Guarded.ret fun _ _ => trivial
  | none => exact createCertificate_attests

/-- Every completion of a run is grounded. -/
theorem run_attests (s : ServiceRun) (hc : configuredCertificate s.config s.certificateId = .ok certificate) :
    Plain Γ s.config certificate faults (s.run Γ) := by
  have hret : ∀ {γ : Type} {p : Action γ}, Plain Γ s.config certificate faults p →
      Plain Γ s.config certificate faults (p.bind fun _ => .ret ()) :=
    fun hp => Guarded.bind hp fun _ => Guarded.ret fun _ _ => trivial
  unfold ServiceRun.run
  cases s.call with
  | bootstrap => exact hret (bootstrap_attests _ hc)
  | publish => exact hret (publish_attests ⟨by decide, by decide⟩ _ hc)
  | reconcile => exact hret (publish_attests ⟨by decide, by decide⟩ _ hc)
  | renew force => exact hret (renew_attests _ hc)
  | audit => exact hret (audit_attests _ hc)
  | rollback => exact hret (publication_rollback_attests _ hc)
  | retention =>
    exact hret (plain_aside (PublicationService.uses_retention steady_of_idle (fun _ _ _ _ _ => trivial) _))

/-! ## What a step makes of the completed rows -/

section Rows

variable {certificateId : String} {K : OperationType → String → Prop} {db db' : Database}

theorem mem_confirmedRows {row : OperationRow} :
    row ∈ db.confirmedRows certificateId ↔ row ∈ db.operations.rows ∧ row.certificateId = certificateId ∧
      row.state = .completed ∧ row.ociCertificateOcid.isSome = true := by
  simp [Database.confirmedRows, List.mem_filter, and_assoc]

/-- The operation closes an operation on the OCI certificate, for which it has grounds. -/
def Warranted (K : OperationType → String → Prop) (ocid : String) (db : Database) (op : Op) : Prop :=
  ∃ own ∈ db.operations.rows, op.Closes own.operationId ∧ own.ociCertificateOcid = some ocid ∧ K own.operationType ocid

/-- A row that a bulk update closes shares its OCID with the operation it is closed for. -/
theorem warranted_of_shares {op : Op} {id : String} {row : OperationRow} (hop : ∀ own, own = id → op.Closes own)
    (hK : ∀ own ∈ db.operations.rows, own.operationId = id → ∀ o, own.ociCertificateOcid = some o → K own.operationType o)
    (hshares : db.Shares id row) (hocid : row.ociCertificateOcid = some ocid) : Warranted K ocid db op := by
  rcases hshares with hnone | ⟨own, hown, hid, ho⟩
  · rw [hnone] at hocid
    cases hocid
  · exact ⟨own, hown, hop _ hid, ho.trans hocid, hK own hown hid ocid (ho.trans hocid)⟩

/-- A row that a statement completes is one it had grounds for. -/
theorem confirmed_of_step {s : Statement} {reply : s.Reply} (h : db.Step s reply db') (hg : (Op.sql s).Grounded K db)
    (ha : (Op.sql s).Attributed db) {row : OperationRow} (hrow : row ∈ db'.operations.rows) (hstate : row.state = .completed)
    (hocid : row.ociCertificateOcid = some ocid) : row ∈ db.operations.rows ∨ Warranted K ocid db (.sql s) := by
  cases s with
  | insertOperation new =>
    obtain ⟨t, ht, rfl⟩ := h
    have hmem : row ∈ t.rows := hrow
    rw [(Table.insert_eq_some_iff.1 ht).2, List.mem_append, List.mem_singleton] at hmem
    rcases hmem with hold | rfl
    · exact Or.inl hold
    · exact absurd hstate hg
  | updateOperation id t =>
    rw [h.2] at hrow
    rcases mem_updateOperations.1 hrow with ⟨r, hr, hid, rfl⟩ | ⟨hold, -⟩
    · obtain ⟨hnone, hK⟩ := hg hstate
      have hown : r.operationId = id := of_decide_eq_true hid
      have ho : r.ociCertificateOcid = some ocid := by
        rw [← hocid]
        show _ = t.ociCertificateOcid.or _
        rw [hnone]
        rfl
      exact Or.inr ⟨r, hr, ⟨hown.symm, hstate⟩, ho, hK r hr hown ocid ho⟩
    · exact Or.inl hold
  | completeReconciled =>
    rw [h.2] at hrow
    rcases mem_updateOperations.1 hrow with ⟨r, hr, hclosed, rfl⟩ | ⟨hold, -⟩
    · exact Or.inr (warranted_of_shares (fun _ hid => hid.symm) hg (ha r hr hclosed) hocid)
    · exact Or.inl hold
  | completeInterruptedAudits =>
    rw [h.2] at hrow
    rcases mem_updateOperations.1 hrow with ⟨r, hr, hclosed, rfl⟩ | ⟨hold, -⟩
    · exact Or.inr (warranted_of_shares (fun _ hid => hid.symm) hg (ha r hr hclosed) hocid)
    · exact Or.inl hold
  | selectActive | selectConfirmedOcid | selectAlert =>
    rw [h.1] at hrow
    exact Or.inl hrow
  | upsertFacts | upsertAlert =>
    rw [show db' = _ from h] at hrow
    exact Or.inl hrow

theorem confirmed_of_persisting {op : Op} {answer : Except Exc op.Reply} (h : persisting faults db op answer db')
    (hg : op.Grounded K db) (ha : op.Attributed db) {row : OperationRow} (hrow : row ∈ db'.operations.rows)
    (hstate : row.state = .completed) (hocid : row.ociCertificateOcid = some ocid) :
    row ∈ db.operations.rows ∨ Warranted K ocid db op := by
  cases op with
  | sql s =>
    have hmatch := h.2
    cases answer with
    | ok reply => exact confirmed_of_step hmatch hg ha hrow hstate hocid
    | error x =>
      rcases (show db' = db ∨ ∃ reply, db.Step s reply db' from hmatch) with rfl | ⟨reply, hstep⟩
      · exact Or.inl hrow
      · exact confirmed_of_step hstep hg ha hrow hstate hocid
  | _ =>
    rw [show db' = db from h.2] at hrow
    exact Or.inl hrow

/-- A completed row stays as it is. -/
theorem confirmed_kept (h : db.Orderly db') {row : OperationRow} (hrow : row ∈ db.confirmedRows certificateId) :
    row ∈ db'.confirmedRows certificateId := by
  obtain ⟨hmem, hc, hstate, ho⟩ := mem_confirmedRows.1 hrow
  obtain ⟨row', hmem', hevolves⟩ := LifecycleAux.Orderly.evolves h row hmem
  have hterminal : row.state.isTerminal = true := by
    rw [hstate]
    rfl
  rw [hevolves.ended hterminal] at hmem'
  exact mem_confirmedRows.2 ⟨hmem', hc, hstate, ho⟩

/-- Every completion of another OCID has left a row that was completed later. -/
def Superseded (certificateId ocid : String) (row : OperationRow) (db : Database) (x : Database × Event publisher Exc) : Prop :=
  ∀ other, other ≠ ocid → Completes certificateId other x →
    ∃ row' ∈ db.confirmedRows certificateId, row'.ociCertificateOcid = some other ∧ completedBefore row' row = false

theorem superseded_kept (h : db.Orderly db') {row : OperationRow} {x : Database × Event publisher Exc}
    (hx : Superseded certificateId ocid row db x) : Superseded certificateId ocid row db' x := by
  intro other hne hcompletes
  obtain ⟨row', hmem, ho, hbefore⟩ := hx other hne hcompletes
  exact ⟨row', confirmed_kept h hmem, ho, hbefore⟩

/-- A completion leaves its own row, completed later. -/
theorem superseded_new {op : Op} {answer : Except Exc op.Reply} (h : persisting faults db op answer db')
    (hg : op.Grounded K db) (ha : op.Attributed db) {row : OperationRow} (hrow : row ∈ db.confirmedRows certificateId)
    (hocid : row.ociCertificateOcid = some ocid) : Superseded certificateId ocid row db' (db, ⟨op, answer⟩) := by
  rintro other hne ⟨id, t, n, hevent, hstate, own, hown, hid, hc, ho⟩
  cases hevent
  have hstep : db.Step (.updateOperation id t) n db' := h.2
  have hnone : t.ociCertificateOcid = none := (hg hstate).1
  have hother : (own.transition t).ociCertificateOcid = some other := by
    show t.ociCertificateOcid.or _ = _
    rw [hnone, ho]
    rfl
  refine ⟨own.transition t, mem_confirmedRows.2 ⟨?_, hc, hstate, ?_⟩, hother, ?_⟩
  · rw [hstep.2]
    exact mem_updateOperations.2 (Or.inl ⟨own, hown, decide_eq_true hid, rfl⟩)
  · rw [hother]
    rfl
  · refine ha hstate own hown hid row ?_ ?_
    · rw [hc]
      exact hrow
    · rw [hocid, ho]
      exact fun h => hne (Option.some.inj h).symm

end Rows

/-! ## What a run makes of them -/

/-- Every completed row rests on a run that has confirmed its OCID, and a run that has completed another OCID since has left a row
that was completed later. -/
def Recoverable (Γ : Ctx) (certificateId : String) (l : List (ServiceRun × Chronicle publisher Exc Database)) (db : Database) :
    Prop :=
  ∀ row ∈ db.confirmedRows certificateId, ∀ ocid, row.ociCertificateOcid = some ocid →
    ∃ earlier s c later, l = earlier ++ (s, c) :: later ∧ s.Confirms Γ ocid c ∧
      ∀ x ∈ later, ∀ e ∈ x.2, Superseded certificateId ocid row db e

/-- The same while a run is on its way. -/
def Underway (Γ : Ctx) (config : AppConfig) (certificate : CertificateConfig) (certificateId : String)
    (l : List (ServiceRun × Chronicle publisher Exc Database)) (w : Chronicled) : Prop :=
  ∀ row ∈ w.1.confirmedRows certificateId, ∀ ocid, row.ociCertificateOcid = some ocid →
    Ratified Γ config certificate ocid w.2 ∨
      ∃ earlier s c later, l = earlier ++ (s, c) :: later ∧ s.Confirms Γ ocid c ∧
        (∀ x ∈ later, ∀ e ∈ x.2, Superseded certificateId ocid row w.1 e) ∧
          ∀ e ∈ w.2, Superseded certificateId ocid row w.1 e

variable {certificateId : String} {l : List (ServiceRun × Chronicle publisher Exc Database)}

theorem ratified_append {c : Chronicle publisher Exc Database} {x : Database × Event publisher Exc}
    (h : Ratified Γ config certificate ocid c) : Ratified Γ config certificate ocid (c ++ [x]) := by
  obtain ⟨before, db, e, after, rfl, hown⟩ := h
  exact ⟨before, db, e, after ++ [x], by rw [List.append_assoc]; rfl, hown⟩

theorem underway_step {w w' : Chronicled} {op : Op} {answer : Except Exc op.Reply}
    (h : chronicling (restricting (attributed faults) Database.Orderly) w op answer w')
    (hg : op.Grounded (fun T o => Confirmed Γ config certificate T o (trace w)) w.1)
    (hw : Underway Γ config certificate certificateId l w) : Underway Γ config certificate certificateId l w' := by
  obtain ⟨⟨⟨hpersisting, ha⟩, horderly⟩, hchronicle⟩ := h
  intro row hrow ocid hocid
  obtain ⟨hmem, hc, hstate, ho⟩ := mem_confirmedRows.1 hrow
  rcases confirmed_of_persisting hpersisting hg ha hmem hstate hocid with hold | ⟨own, hown, hcloses, hownocid, hconfirmed⟩
  · have hfound : row ∈ w.1.confirmedRows certificateId := mem_confirmedRows.2 ⟨hold, hc, hstate, ho⟩
    rcases hw row hfound ocid hocid with hratified | ⟨earlier, s, c, later, hl, hs, hlater, hsince⟩
    · rw [hchronicle]
      exact Or.inl (ratified_append hratified)
    · refine Or.inr ⟨earlier, s, c, later, hl, hs, fun x hx e he => superseded_kept horderly (hlater x hx e he),
        fun e he => ?_⟩
      rw [hchronicle, List.mem_append, List.mem_singleton] at he
      rcases he with he | rfl
      · exact superseded_kept horderly (hsince e he)
      · exact superseded_new hpersisting hg ha hfound hocid
  · exact Or.inl ⟨w.2, w.1, ⟨op, answer⟩, [], hchronicle, own, hown, hcloses, hownocid, hconfirmed⟩

/-- A run of a certificate that is not configured does nothing. -/
theorem run_unconfigured {s : ServiceRun} {x : Exc} (hc : configuredCertificate s.config s.certificateId = .error x) :
    s.run Γ = .raise x := by
  have hraise : ∀ {γ : Type} {f : CertificateConfig → Action γ},
      ((ofExcept (configuredCertificate s.config s.certificateId)).bind f).bind (fun _ => (.ret () : Action Unit)) =
        .raise x := by
    intro γ f
    rw [hc]
    rfl
  unfold ServiceRun.run
  cases s.call <;> exact hraise

/-- A run keeps the completed rows recoverable. -/
theorem run_recoverable (hf : faults.Honest) {s : ServiceRun} {db db' : Database} {o : Outcome Exc Unit}
    {c : Chronicle publisher Exc Database} (hdb : Recoverable Γ certificateId l db)
    (h : Exec (chronicling (attributed faults)) (s.run Γ) (db, []) o (db', c)) :
    Recoverable Γ certificateId (l ++ [(s, c)]) db' := by
  cases hc : configuredCertificate s.config s.certificateId with
  | error x =>
    rw [run_unconfigured hc] at h
    have hsame : db' = db ∧ c = [] := by
      cases h <;> exact ⟨rfl, rfl⟩
    obtain ⟨rfl, rfl⟩ := hsame
    intro row hrow ocid hocid
    obtain ⟨earlier, s', c, later, hl, hs, hlater⟩ := hdb row hrow ocid hocid
    refine ⟨earlier, s', c, later ++ [(s, [])], by rw [hl, List.append_assoc]; rfl, hs, fun x hx e he => ?_⟩
    rw [List.mem_append, List.mem_singleton] at hx
    rcases hx with hx | rfl
    · exact hlater x hx e he
    · cases he
  | ok certificate =>
    -- The run as one whose every step is orderly and grounded.
    have horderly := h.chronicle_guaranteed
      ((LifecycleAux.run_orderly (Γ := Γ) hf s db trivial).mono fun _ _ _ _ hstep => hstep.1)
    have hattests : (s.run Γ).Guarantees (chronicling (restricting (attributed faults) Database.Orderly))
        (Attested Γ s.config certificate) (fun _ _ => True) (fun _ _ => True) (db, []) :=
      Program.Guarantees.mono (fun w op answer w' hstep => ⟨hstep.1.1.1, hstep.2⟩) (run_attests s hc (db, []) trivial)
    have hrun := (horderly.guaranteed hattests).1
    have hstart : Underway Γ s.config certificate certificateId l (db, []) := by
      intro row hrow ocid hocid
      obtain ⟨earlier, s', c, later, hl, hs, hlater⟩ := hdb row hrow ocid hocid
      exact Or.inr ⟨earlier, s', c, later, hl, hs, hlater, fun e he => by cases he⟩
    have hend : Underway Γ s.config certificate certificateId l (db', c) := by
      refine hrun.invariant (fun w op answer w' hw hstep => ?_) hstart
      exact underway_step hstep.1 (hstep.2 _ hstep.1.2) hw
    intro row hrow ocid hocid
    rcases hend row hrow ocid hocid with hratified | ⟨earlier, s', c', later, hl, hs, hlater, hsince⟩
    · exact ⟨l, s, c, [], rfl, ⟨certificate, hc, hratified⟩, fun x hx => by cases hx⟩
    · refine ⟨earlier, s', c', later ++ [(s, c)], by rw [hl, List.append_assoc]; rfl, hs, fun x hx e he => ?_⟩
      rw [List.mem_append, List.mem_singleton] at hx
      rcases hx with hx | rfl
      · exact hlater x hx e he
      · exact hsince e he

end RecoveredOcidAux

open RecoveredOcidAux

/-- In a history of runs on one certificate, under any configurations, each cut, failing or returning: where the bulk updates close
no row of another OCID, and an operation completes in a later second than the rows of other OCIDs, the OCID that is recovered was
confirmed by a run on it, and no run has completed another OCID since. -/
theorem recovered_ocid_confirmed (Γ : Ctx) {faults : Faults} (hf : faults.Honest) {certificateId ocid : String}
    {start db db' : Database} {l : List (ServiceRun × Chronicle publisher Exc Database)}
    (hstart : start.confirmedRows certificateId = []) (h : Annals (attributed faults) (ServiceRun.run Γ) start l db)
    (hquery : db.Step (.selectConfirmedOcid certificateId) (some ocid) db') :
    ∃ earlier s c later, l = earlier ++ (s, c) :: later ∧ s.Confirms Γ ocid c ∧
      ∀ x ∈ later, ∀ e ∈ x.2, ∀ other, other ≠ ocid → ¬Completes certificateId other e := by
  have hrecoverable : Recoverable Γ certificateId l db := by
    refine h.keeps (I := Recoverable Γ certificateId) (fun _ _ _ _ _ _ hdb hx => run_recoverable hf hdb hx) ?_
    intro row hrow
    rw [hstart] at hrow
    cases hrow
  obtain ⟨-, ⟨hnone, -⟩ | ⟨row, hrow, hlast, hocid⟩⟩ := hquery
  · cases hnone
  obtain ⟨earlier, s, c, later, hl, hs, hlater⟩ := hrecoverable row hrow ocid hocid.symm
  refine ⟨earlier, s, c, later, hl, hs, fun x hx e he other hne hcompletes => ?_⟩
  -- The row of the other OCID would have been chosen.
  obtain ⟨row', hrow', -, hbefore⟩ := hlater x hx e he other hne hcompletes
  rw [hlast row' hrow'] at hbefore
  cases hbefore

namespace RecoveredOcidAux

open Sample

/-- A publication of the sample certificate to the OCI certificate, with its audits switched off. -/
def publicationTo (ocid : String) : ServiceRun where
  config := config {
    certificate with
    audit := { mode := .disabled }
    oci := { certificate.oci with certificateOcid := some ocid } }
  certificateId := "web"
  passes := 1
  call := .publish

/-- The chronicle, as the store sees it. -/
def stored (c : Chronicle publisher Exc World) : Chronicle publisher Exc Database := c.map fun x => (x.1.database, x.2)

/-- A run of the sample, cut before its operation number `n`, with its chronicle. -/
def chronicledRun (s : ServiceRun) (n : Nat) (w : World) : Outcome Exc Unit × World × Chronicle publisher Exc World :=
  (s.run ctx).runFor (simulate ctx script).chronicle n (w, [])

theorem chronicledRun_exec (s : ServiceRun) (n : Nat) (w : World) :
    Exec (chronicling (persisting noFaults.observing)) (s.run ctx) (w.database, []) (chronicledRun s n w).1
      ((chronicledRun s n w).2.1.database, stored (chronicledRun s n w).2.2) :=
  (exec_runFor (simulate_allowed ctx script noFaults).chronicle n (s.run ctx) (w, [])).chronicle_map World.database
    fun _ _ _ _ h => persisting_of_service h

/-- A publication to another OCI certificate, cut when its row is there. -/
def interrupted : Outcome Exc Unit × World × Chronicle publisher Exc World :=
  chronicledRun (publicationTo "other") 12 (world resource)

/-- The publication to the configured OCI certificate after it, cut when it has closed the interrupted rows. -/
def closing : Outcome Exc Unit × World × Chronicle publisher Exc World :=
  chronicledRun (publicationTo "ocid") 38 interrupted.2.1

/-- The operation reads CURRENT of the OCI certificate. -/
def readsCurrent (ocid : String) : Op → Bool
  | .getPublicBundle id none _ => id = ocid
  | _ => false

theorem not_confirms_of_unread {s : ServiceRun} {c : Chronicle publisher Exc Database}
    (h : ∀ x ∈ c, readsCurrent ocid x.2.op = false) : ¬s.Confirms Γ ocid c := by
  rintro ⟨certificate, -, before, db, e, after, rfl, own, -, -, -, f, ⟨requestId, bundle, now, hmem, -⟩, -⟩
  obtain ⟨x, hx, hevent⟩ := List.mem_map.1 hmem
  have hread := h x (List.mem_append_left _ hx)
  rw [hevent] at hread
  simp [readsCurrent] at hread

/-- A run of the sample that stops before a step that is not attributed. -/
def attributedRun (s : ServiceRun) (n : Nat) (w : World) : Outcome Exc Unit × World × Chronicle publisher Exc World :=
  (s.run ctx).runFor ((simulate ctx script).checked fun w op => decide (op.Attributed w.database)).chronicle n (w, [])

theorem attributedRun_exec (s : ServiceRun) (n : Nat) (w : World) :
    Exec (chronicling (attributed noFaults.observing)) (s.run ctx) (w.database, []) (attributedRun s n w).1
      ((attributedRun s n w).2.1.database, stored (attributedRun s n w).2.2) :=
  (exec_runFor ((simulate_allowed ctx script noFaults).checked).chronicle n (s.run ctx) (w, [])).chronicle_map
    World.database fun _ _ _ _ h => ⟨persisting_of_service h.1, of_decide_eq_true h.2⟩

/-- The publication to the configured OCI certificate, run to its end. -/
def completed : Outcome Exc Unit × World × Chronicle publisher Exc World :=
  attributedRun (publicationTo "ocid") 100 (world resource)

end RecoveredOcidAux

/-- A publication to another OCI certificate is cut before it reads anything. The next one, to the configured OCI certificate, closes
its row, and is cut: the other OCID is recovered, whose CURRENT no run has read. -/
theorem recovered_ocid_confirmed_false :
    Annals (persisting noFaults.observing) (ServiceRun.run Sample.ctx) {}
        ([(publicationTo "other", stored interrupted.2.2)] ++ [(publicationTo "ocid", stored closing.2.2)])
        closing.2.1.database ∧
      closing.2.1.database.Step (.selectConfirmedOcid "web") (some "other") closing.2.1.database ∧
        ∀ x ∈ [(publicationTo "other", stored interrupted.2.2)] ++ [(publicationTo "ocid", stored closing.2.2)],
          ¬x.1.Confirms Sample.ctx "other" x.2 := by
  have hfirst := chronicledRun_exec (publicationTo "other") 12 (Sample.world Sample.resource)
  have hsecond := chronicledRun_exec (publicationTo "ocid") 38 interrupted.2.1
  refine ⟨(Annals.snoc (.nil _) hfirst).snoc hsecond, ⟨rfl, Or.inr (by decide +kernel)⟩, fun x hx => ?_⟩
  refine not_confirms_of_unread ?_
  have hunread : ∀ x ∈ [(publicationTo "other", stored interrupted.2.2)] ++ [(publicationTo "ocid", stored closing.2.2)],
      ∀ e ∈ x.2, readsCurrent "other" e.2.op = false := by
    have hall : ∀ c ∈ [stored interrupted.2.2, stored closing.2.2], ∀ e ∈ c, readsCurrent "other" e.2.op = false := by
      decide +kernel
    intro x hx
    rw [List.mem_append, List.mem_singleton, List.mem_singleton] at hx
    rcases hx with rfl | rfl
    · exact hall _ (by simp)
    · exact hall _ (by simp)
  exact hunread x hx

/-- A publication from the empty store. -/
theorem recovered_ocid_confirmed_sample :
    completed.1 = .returned () ∧ ∃ earlier s c later,
      [] ++ [(publicationTo "ocid", stored completed.2.2)] = earlier ++ (s, c) :: later ∧ s.Confirms Sample.ctx "ocid" c ∧
        ∀ x ∈ later, ∀ e ∈ x.2, ∀ other, other ≠ "ocid" → ¬Completes "web" other e := by
  have hrun := attributedRun_exec (publicationTo "ocid") 100 (Sample.world Sample.resource)
  have hquery : completed.2.1.database.Step (.selectConfirmedOcid "web") (some "ocid") completed.2.1.database :=
    ⟨rfl, Or.inr (by decide +kernel)⟩
  exact ⟨by decide +kernel, recovered_ocid_confirmed Sample.ctx LifecycleAux.honest_observing rfl
    (Annals.snoc (.nil _) hrun) hquery⟩

end OciAcmePublisher
