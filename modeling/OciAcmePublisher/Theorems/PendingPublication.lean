import OciAcmePublisher.Theorems.RowLifecycle

/-!
# Pending publications

A publication closes the interrupted rows of the material it has made CURRENT. The rows of other material stay as they were left: a
run that was interrupted after its upload leaves its row pending when the next run publishes a renewed lineage.
-/

namespace OciAcmePublisher

open Effects Tables

/-- The runs that publish. -/
inductive PublicationCall where
  | publish | reconcile
  | renew (force : Bool)
  deriving DecidableEq, Repr

/-- A publication of a certificate: what is called, with which configuration. -/
structure PublicationRun where
  config : AppConfig
  passes : Nat
  call : PublicationCall

/-- The program of a publication. -/
def PublicationRun.run (Γ : Ctx) (certificateId : String) (s : PublicationRun) : Action PublicationResult :=
  match s.call with
  | .publish => PublicationService.publish Γ s.config s.passes certificateId .publish
  | .reconcile => PublicationService.publish Γ s.config s.passes certificateId .reconcile
  | .renew force => PublicationService.renew Γ s.config s.passes certificateId force

/-- No row of the certificate waits to be promoted. -/
def Database.NonePending (certificateId : String) (db : Database) : Prop :=
  ∀ row ∈ db.operations.rows, row.certificateId = certificateId →
    row.state ≠ .ociPendingUploaded ∧ row.state ≠ .ociPendingVerified

instance (certificateId : String) (db : Database) : Decidable (db.NonePending certificateId) :=
  inferInstanceAs (Decidable (∀ row ∈ db.operations.rows, _ → _))

namespace PendingPublicationAux

open LifecycleAux

variable {Γ : Ctx} {config : AppConfig} {certificate : CertificateConfig} {faults : Faults} {certificateId F : String}
  {α : Type}

/-- A row that is inserted carries no fingerprint. -/
def insertsNone : Op → Prop
  | .sql (.insertOperation row) => row.localFingerprint = none
  | _ => True

theorem insertsNone_of_quiet (certificateId operationId : String) (op : Op) (h : op.quiet certificateId operationId = true) :
    insertsNone op := by
  cases op with
  | sql statement => cases statement <;> trivial
  | _ => trivial

theorem insertsNone_of_recordsAudit (op : Op) (h : StateStore.recordsAudit op = true) : insertsNone op := by
  cases op with
  | sql statement => cases statement <;> trivial
  | _ => trivial

theorem insertsNone_of_observes (op : Op) (h : op.observes = true) : insertsNone op := by
  cases op <;> trivial

/-- The rows after a statement: they were there, or carry no fingerprint. -/
theorem mem_after {db db' : Database} {op : Op} {answer : Except Exc op.Reply} (hop : insertsNone op)
    (h : persisting faults db op answer db') {row : OperationRow} (hrow : row ∈ db'.operations.rows) :
    (∃ r ∈ db.operations.rows, r.operationId = row.operationId) ∨ row.localFingerprint = none := by
  have hsame : db'.operations = db.operations → ∃ r ∈ db.operations.rows, r.operationId = row.operationId :=
    fun heq => ⟨row, by rw [← heq]; exact hrow, rfl⟩
  have hupdate : ∀ {p f hf}, db' = db.updateOperations p f hf →
      ∃ r ∈ db.operations.rows, r.operationId = row.operationId := by
    rintro p f hf rfl
    rcases mem_updateOperations.1 hrow with ⟨r, hr, -, rfl⟩ | ⟨hr, -⟩
    · exact ⟨r, hr, (hf r).symm⟩
    · exact ⟨row, hr, rfl⟩
  by_cases hpassive : op.passive
  · exact Or.inl (hsame (operations_of_passive hpassive h))
  cases op with
  | sql s =>
    have hstep : ∀ reply, db.Step s reply db' →
        (∃ r ∈ db.operations.rows, r.operationId = row.operationId) ∨ row.localFingerprint = none := by
      intro reply hs
      cases s with
      | insertOperation new =>
        obtain ⟨t, ht, rfl⟩ := hs
        replace hrow : row ∈ t.rows := hrow
        rw [(Table.insert_eq_some_iff.1 ht).2] at hrow
        rcases List.mem_append.1 hrow with hmem | hnew
        · exact Or.inl ⟨row, hmem, rfl⟩
        · rw [List.mem_singleton.1 hnew]
          exact Or.inr hop
      | updateOperation | completeReconciled | completeInterruptedAudits => exact Or.inl (hupdate hs.2)
      | selectActive | selectConfirmedOcid | selectAlert | upsertFacts | upsertAlert => exact absurd rfl hpassive
    cases answer with
    | ok reply => exact hstep reply h.2
    | error x =>
      rcases (show db' = db ∨ ∃ reply, db.Step s reply db' from h.2) with rfl | ⟨reply, hs⟩
      · exact Or.inl (hsame rfl)
      · exact hstep reply hs
  | _ => exact absurd rfl hpassive

/-- An orderly program that inserts rows without a fingerprint only keeps closed what is closed. -/
theorem closed_frame {p : Action α} (hp : Plain faults p) (huses : p.Uses insertsNone) :
    Triple (persisting faults) (Closed certificateId F none) p (fun _ => Closed certificateId F none) (fun _ _ => True)
      fun _ => True := by
  intro db hdb o db' hx
  have hkept : Closed certificateId F none db' := by
    refine (hx.guaranteed (hp db trivial)).1.keeps (I := Closed certificateId F none) ?_ huses hdb
    rintro w op answer w' hop hclosed ⟨hstep, horderly⟩ row hrow hc hF hid
    rcases mem_after hop hstep hrow with ⟨r, hr, heq⟩ | hnone
    · obtain ⟨r', hr', hev⟩ := Orderly.evolves horderly r hr
      obtain rfl : r' = row := Table.eq_of_key_eq hr' hrow (hev.operationId.trans heq)
      have hinactive : r.active = false := hclosed r hr (hev.certificateId ▸ hc) (hev.localFingerprint ▸ hF) (by simp)
      rw [hev.ended (by simpa [OperationRow.active] using hinactive)]
      exact hinactive
    · rw [hnone] at hF
      cases hF
  cases o with
  | returned a => exact hkept
  | raised x => trivial
  | crashed => trivial

/-- A publication that returns leaves no active row of its certificate and fingerprint. -/
theorem publish_closes (hf : faults.Honest) (passes : Nat) (operationType : OperationType) :
    Triple (persisting faults) (fun _ => True) (PublicationService.publish Γ config passes certificateId operationType)
      (fun result => Closed certificateId result.localFingerprint none) (fun _ _ => True) fun _ => True := by
  refine Triple.bind (R := fun certificate _ => certificate.id = certificateId) ?_ fun certificate => ?_
  · exact Triple.ofExcept (fun _ _ h _ => configuredCertificate_id h) (fun _ _ _ => trivial) fun _ _ => trivial
  refine Triple.pre (P := fun _ => True ∧ certificate.id = certificateId) ?_ fun _ h => ⟨trivial, h⟩
  refine Triple.assume fun hid => ?_
  subst hid
  refine Triple.last _ fun _ => ?_
  refine Triple.last _ fun material => ?_
  refine Triple.last _ fun validated => ?_
  refine Triple.last _ fun fingerprint => ?_
  refine Triple.last _ fun chain => ?_
  refine Triple.last _ fun _ => ?_
  refine Triple.last _ fun _ => ?_
  refine Triple.last _ fun now => ?_
  have hkeep : ∀ {β : Type} {p : Action β}, Plain faults p → p.Uses insertsNone →
      Triple (persisting faults) (Closed certificate.id fingerprint none) p
        (fun _ => Closed certificate.id fingerprint none) (fun _ _ => True) fun _ => True := closed_frame
  refine Triple.bind (R := fun result db => Closed certificate.id fingerprint none db ∧
    result.localFingerprint = fingerprint) ?_ fun result => Triple.assume fun hresult => ?_
  · intro db hdb o db' hx
    have hclosed := PublicationReconciler.publish_closes db hdb o db' hx
    cases o with
    | returned result => exact ⟨hclosed, (hx.yields PublicationReconciler.yields_publish rfl).2⟩
    | raised x => trivial
    | crashed => trivial
  · rw [← hresult] at hkeep ⊢
    refine Triple.bind (hkeep (plain_frame (Program.uses_perform.2 rfl)) (Program.uses_perform.2 trivial)) fun _ => ?_
    refine Triple.bind (hkeep (LifecycleAux.PublicationService.runPostPublicationAudit_orderly hf) ?_) fun _ => ?_
    · exact PublicationService.uses_runPostPublicationAudit insertsNone_of_quiet insertsNone_of_observes
        (fun _ _ hF => hF) insertsNone_of_recordsAudit (fun _ _ _ _ => trivial) passes
    refine Triple.bind (hkeep (plain_frame
      (PublicationService.uses_runPostPublicationRetention passive_of_idle fun _ _ _ _ _ => rfl)) ?_) fun _ => ?_
    · exact PublicationService.uses_runPostPublicationRetention
        (fun op h => insertsNone_of_quiet "" "" op (quiet_of_idle op h)) fun _ _ _ _ _ => trivial
    exact Triple.ret (fun _ h => h) fun _ _ => trivial

theorem run_closes (hf : faults.Honest) (s : PublicationRun) :
    Triple (persisting faults) (fun _ => True) (s.run Γ certificateId)
      (fun result => Closed certificateId result.localFingerprint none) (fun _ _ => True) fun _ => True := by
  unfold PublicationRun.run
  cases s.call with
  | publish | reconcile => exact publish_closes hf s.passes _
  | renew force =>
    refine Triple.last _ fun _ => ?_
    refine Triple.last _ fun _ => ?_
    refine Triple.last _ fun _ => ?_
    refine Triple.last _ fun _ => ?_
    refine Triple.last _ fun _ => ?_
    refine Triple.last _ fun _ => ?_
    refine Triple.last _ fun _ => ?_
    exact publish_closes hf s.passes _

end PendingPublicationAux

open PendingPublicationAux

/-- After a history of publications of a certificate with any local material, each cut, failing or returning, a publication that
returns leaves no row of the certificate and of the published fingerprint active: none of them is pending, or keeps its version out
of retention. -/
theorem published_rows_ended (Γ : Ctx) {faults : Faults} (hf : faults.Honest) (certificateId : String)
    {start db : Database} {earlier : List (PublicationRun × Outcome Exc PublicationResult)} {s : PublicationRun}
    {result : PublicationResult}
    (h : History (persisting faults) (PublicationRun.run Γ certificateId) start (earlier ++ [(s, .returned result)]) db) :
    ∀ row ∈ db.operations.rows, row.certificateId = certificateId →
      row.localFingerprint = some result.localFingerprint → row.active = false := by
  obtain ⟨before, -, hx⟩ := h.split
  intro row hrow hc hF
  exact (run_closes hf s).returned trivial hx row hrow hc hF (by simp)

namespace PendingPublicationAux

open Sample

/-- The local generation whose leaf is `A`. -/
def renewed : LineageMaterial := { material with leaf := leaf 1, leafPem := [65] }

/-- A publication of the sample certificate, with its audits switched off. -/
def samplePublication : PublicationRun := ⟨config { certificate with audit := { mode := .disabled } }, 1, .publish⟩

/-- A sample publication, cut before its operation number `n`. -/
def publicationRun (n : Nat) (w : World) : Outcome Exc PublicationResult × World :=
  (samplePublication.run ctx "web").runFor (simulate ctx script) n w

/-- A publication of `B` that is cut before its operation number `n`. -/
def firstPublication (n : Nat) : Outcome Exc PublicationResult × World := publicationRun n (world resource)

/-- The world after it, where the local generation is `m` now. -/
def afterFirst (n : Nat) (m : LineageMaterial) : World := { (firstPublication n).2 with lineages := fun _ => some m }

/-- A publication of `m` after it. -/
def secondPublication (n : Nat) (m : LineageMaterial) : Outcome Exc PublicationResult × World :=
  publicationRun 100 (afterFirst n m)

theorem publications_history {n : Nat} {m : LineageMaterial} {result : PublicationResult}
    (hcut : (firstPublication n).1 = .crashed) (hret : (secondPublication n m).1 = .returned result) :
    History (persisting noFaults.observing) (PublicationRun.run ctx "web") {}
      ([(samplePublication, .crashed)] ++ [(samplePublication, .returned result)]) (secondPublication n m).2.database := by
  have hfirst : Exec (service ctx noFaults) (samplePublication.run ctx "web") (world resource) .crashed
      (firstPublication n).2 := exec_of_runFor (simulate_allowed ctx script noFaults) hcut
  have hsecond : Exec (service ctx noFaults) (samplePublication.run ctx "web") (afterFirst n m) (.returned result)
      (secondPublication n m).2 := exec_of_runFor (simulate_allowed ctx script noFaults) hret
  have hstart := History.snoc (.nil _) (i := samplePublication) (exec_persisting hfirst)
  have hthen : Exec (persisting noFaults.observing) (samplePublication.run ctx "web") (afterFirst n m).database
      (.returned result) (secondPublication n m).2.database := exec_persisting hsecond
  exact hstart.snoc hthen

/-- What the second publication returns. -/
def reused : PublicationResult := ⟨"web", 1, certificateSha256 (leaf 1), false⟩

def promoted : PublicationResult := ⟨"web", 2, certificateSha256 (leaf 2), true⟩

end PendingPublicationAux

/-- A publication of `B` is cut after its upload; the lineage goes back to `A`, whose publication returns. The row of `B` is still
pending. -/
theorem none_pending_false :
    History (persisting noFaults.observing) (PublicationRun.run Sample.ctx "web") {}
        ([(samplePublication, .crashed)] ++ [(samplePublication, .returned reused)])
        (secondPublication 20 renewed).2.database ∧
      ¬(secondPublication 20 renewed).2.database.NonePending "web" :=
  ⟨publications_history (by decide +kernel) (by decide +kernel), by decide +kernel⟩

/-- The same, where the second publication is of `B` again. -/
theorem published_rows_ended_sample :
    History (persisting noFaults.observing) (PublicationRun.run Sample.ctx "web") {}
        ([(samplePublication, .crashed)] ++ [(samplePublication, .returned promoted)])
        (secondPublication 20 Sample.material).2.database ∧
      ∀ row ∈ (secondPublication 20 Sample.material).2.database.operations.rows, row.certificateId = "web" →
        row.localFingerprint = some promoted.localFingerprint → row.active = false := by
  have hhistory : History (persisting noFaults.observing) (PublicationRun.run Sample.ctx "web") {}
      ([(samplePublication, .crashed)] ++ [(samplePublication, .returned promoted)])
      (secondPublication 20 Sample.material).2.database :=
    publications_history (by decide +kernel) (by decide +kernel)
  exact ⟨hhistory, published_rows_ended Sample.ctx LifecycleAux.honest_observing "web" hhistory⟩

end OciAcmePublisher
