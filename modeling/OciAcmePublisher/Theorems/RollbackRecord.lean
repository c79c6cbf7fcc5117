import OciAcmePublisher.Lemmas.AuditService
import OciAcmePublisher.Lemmas.OwnRow
import OciAcmePublisher.Simulation

/-!
# What a failed rollback records

A rollback that raises `RollbackError` after its audit has recorded `ROLLBACK_FAILED`. Where it raises earlier, from the selection of
the candidate to the confirmation of CURRENT, it records nothing: the row stays where the last transition left it, active.
-/

namespace OciAcmePublisher

open Effects Tables

/-- What a rollback has been shown: the listing, the bundle of a numbered version and the CURRENT bundle, each as last answered. -/
structure Shown where
  listing : Option (List OciCertificateVersion) := none
  numbered : Option OciPublicBundle := none
  current : Option OciPublicBundle := none

/-- The monitor of what is shown. -/
def seeing : Monitor publisher Exc Shown where
  start := {}
  step
    | s, ⟨.listVersions _ _, .ok versions⟩ => { s with listing := some versions }
    | s, ⟨.getPublicBundle _ (some _) _, .ok bundle⟩ => { s with numbered := some bundle }
    | s, ⟨.getPublicBundle _ none _, .ok bundle⟩ => { s with current := some bundle }
    | s, _ => s

/-- OCI has shown exactly one eligible PREVIOUS version, its bundle is valid, and CURRENT has become that version with that leaf. -/
def Shown.Restored (Γ : Ctx) (config : AppConfig) (certificate : CertificateConfig) (now : Instant) (s : Shown) : Prop :=
  ∃ versions candidate bundle current f, s.listing = some versions ∧
    versions.filter RollbackService.isEligiblePrevious = [candidate] ∧ s.numbered = some bundle ∧
      validatePublicCertificate Γ bundle.certificatePem certificate config.global now = .ok f ∧
        s.current = some current ∧ current.versionNumber = candidate.versionNumber ∧
          validatePublicCertificate Γ current.certificatePem certificate config.global now = .ok f

namespace RollbackRecordAux

open RollbackService

variable {Γ : Ctx} {faults : Faults} {config : AppConfig} {certificate : CertificateConfig} {now : Instant}
  {audit : Option AuditConfig} {passes : Nat} {ocid operationId requestId f : String} {rows : List OperationRow}
  {versions : List OciCertificateVersion} {candidate : OciCertificateVersion} {bundle confirmed : OciPublicBundle}
  {state earlier : OperationState} {φ ψ : Shown → Prop} {α β : Type}

/-- The operation writes no row, and shows nothing of the certificate's versions. -/
def apart (op : Op) : Prop :=
  op.passive ∧ match op with
    | .listVersions .. | .getPublicBundle .. => False
    | _ => True

/-- The exception is no `RollbackError`. -/
abbrev Foreign (x : Exc) : Prop := x.isInstance .rollbackError = false

theorem apart_of_pauses (op : Op) (h : pauses op = true) : apart op := by
  refine ⟨passive_of_pauses op h, ?_⟩
  cases op <;> trivial

theorem apart_of_observes (op : Op) (h : op.observes = true) : apart op := by
  refine ⟨passive_of_observes op h, ?_⟩
  cases op <;> trivial

/-- The operation shows nothing. -/
def unseen : Op → Prop
  | .listVersions .. | .getPublicBundle .. => False
  | _ => True

theorem step_unseen {op : Op} (hop : unseen op) (r : Except Exc op.Reply) (s : Shown) : seeing.step s ⟨op, r⟩ = s := by
  cases op <;> first | rfl | cases hop

theorem unseen_of_apart {op : Op} (hop : apart op) : unseen op := by
  cases op <;> first | trivial | exact hop.2

/-- What has been shown is as `φ` says. -/
def Known (φ : Shown → Prop) (t : Trace) : Prop := φ (seeing.after t)

theorem known_frame {p : Action α} (hp : p.Uses unseen) :
    Triple anyAnswer (Known φ) p (fun _ => Known φ) (fun _ => Known φ) (Known φ) := by
  refine Triple.frame hp ?_
  rintro t op r _ hop hknown rfl
  unfold Known at hknown ⊢
  rw [Monitor.after_snoc, step_unseen hop]
  exact hknown

/-- The run's row is in the state, and what has been shown is as `φ` says. -/
def Held (certificate : CertificateConfig) (rows : List OperationRow) (operationId : String) (state : OperationState)
    (φ : Shown → Prop) (w : Database × Trace) : Prop :=
  Owns operationId rows (OperationRow.Is certificate.id .rollback state) w.1 ∧ Known φ w.2

/-- The end of a rollback that raises `RollbackError`: its row is marked as failed exactly where OCI has shown the version restored. -/
def Marked (Γ : Ctx) (config : AppConfig) (certificate : CertificateConfig) (now : Instant) (rows : List OperationRow)
    (x : Exc) (w : Database × Trace) : Prop :=
  x.isInstance .rollbackError = true → ∃ operationId state, (∀ r ∈ rows, r.operationId ≠ operationId) ∧
    Held certificate rows operationId state
      (fun s => state = .rollbackFailed ↔ s.Restored Γ config certificate now) w

theorem marked_of_foreign {x : Exc} (h : Foreign x) (w : Database × Trace) :
    Marked Γ config certificate now rows x w := by
  intro hx
  rw [h] at hx
  cases hx

theorem raised_foreign (hfaults : ∀ op x, faults op x → Foreign x) {p : Action α} (hp : p.Raises Foreign) :
    Triple (persisting faults) (fun _ => True) p (fun _ _ => True) (fun x _ => Foreign x) fun _ => True :=
  Triple.raises (fun _ op x _ h => hfaults op x (h.1 x rfl)) hp

/-- A program apart: it leaves the row and what is known. -/
theorem held_apart (hfaults : ∀ op x, faults op x → Foreign x) {p : Action α} (hp : p.Uses apart)
    (hraises : p.Raises Foreign) :
    Triple (recording (persisting faults)) (Held certificate rows operationId state φ) p
      (fun _ => Held certificate rows operationId state φ)
      (fun x w => Foreign x ∧ Held certificate rows operationId state φ w) fun _ => True := by
  have hown :=
    (@owns_frame faults _ operationId rows (OperationRow.Is certificate.id .rollback state) _ (hp.mono fun _ h => h.1)).and
      (raised_foreign hfaults hraises)
  refine (Triple.recorded hown (known_frame (φ := φ) (hp.mono fun _ h => unseen_of_apart h))).conseq
    (fun w h => ⟨⟨h.1, trivial⟩, h.2⟩) (fun _ w h => ⟨h.1.1, h.2⟩) (fun x w h => ⟨h.1.2, h.1.1, h.2⟩) fun _ _ => trivial

/-- The same, where the exception ends the rollback. -/
theorem held_step (hfaults : ∀ op x, faults op x → Foreign x) {p : Action α} (hp : p.Uses apart)
    (hraises : p.Raises Foreign) :
    Triple (recording (persisting faults)) (Held certificate rows operationId state φ) p
      (fun _ => Held certificate rows operationId state φ) (Marked Γ config certificate now rows) fun _ => True :=
  (held_apart hfaults hp hraises).conseq (fun _ h => h) (fun _ _ h => h) (fun _ _ h => marked_of_foreign h.1 _)
    fun _ h => h

theorem held_perform (hfaults : ∀ op x, faults op x → Foreign x) {op : Op} (hop : apart op) :
    Triple (recording (persisting faults)) (Held certificate rows operationId state φ) (perform op)
      (fun _ => Held certificate rows operationId state φ) (Marked Γ config certificate now rows) fun _ => True :=
  held_step hfaults (Program.uses_perform.2 hop) (Program.raises_perform (S := publisher) op)

/-- A read that shows something. -/
theorem held_read (hfaults : ∀ op x, faults op x → Foreign x) {op : Op} (hop : op.passive)
    {ψ : op.Reply → Shown → Prop} (hok : ∀ s a, φ s → ψ a (seeing.step s ⟨op, .ok a⟩))
    (herr : ∀ s x, φ s → φ (seeing.step s ⟨op, .error x⟩)) :
    Triple (recording (persisting faults)) (Held certificate rows operationId state φ) (perform op)
      (fun a => Held certificate rows operationId state (ψ a))
      (fun x w => Foreign x ∧ Held certificate rows operationId state φ w) fun _ => True := by
  have hown :=
    (@owns_frame faults _ operationId rows (OperationRow.Is certificate.id .rollback state) (perform op)
      (Program.uses_perform.2 hop)).and
      (raised_foreign hfaults (Program.raises_perform (S := publisher) op))
  have hknown : Triple anyAnswer (Known φ) (perform op) (fun a => Known (ψ a)) (fun _ => Known φ) fun _ => True := by
    refine Triple.perform (fun _ _ => trivial) ?_ ?_
    · rintro t a _ ht rfl
      refine ⟨?_, trivial⟩
      unfold Known
      rw [Monitor.after_snoc]
      exact hok _ a ht
    · rintro t x _ ht rfl
      refine ⟨?_, trivial⟩
      unfold Known
      rw [Monitor.after_snoc]
      exact herr _ x ht
  exact (Triple.recorded hown hknown).conseq (fun w h => ⟨⟨h.1, trivial⟩, h.2⟩) (fun _ w h => ⟨h.1.1, h.2⟩)
    (fun x w h => ⟨h.1.2, h.1.1, h.2⟩) fun _ _ => trivial

theorem foreign_of_unmet (hfaults : ∀ op x, faults op x → Foreign x) {x : Exc} (h : Unmet faults x) : Foreign x := by
  rcases h with ⟨op, hx⟩ | rfl
  · exact hfaults op x hx
  · rfl

/-- A transition of the run's row. -/
theorem held_transition (hfaults : ∀ op x, faults op x → Foreign x) (fields : TransitionFields) :
    Triple (recording (persisting faults)) (Held certificate rows operationId earlier φ)
      (StateStore.transition operationId state fields) (fun _ => Held certificate rows operationId state φ)
      (Marked Γ config certificate now rows) fun _ => True := by
  have huses : (StateStore.transition operationId state fields).Uses unseen :=
    StateStore.uses_transition_row (by trivial) (fun _ => by trivial) state fields
  refine (Triple.recorded (transition_owns fields)
    (known_frame (φ := φ) huses)).conseq (fun _ h => h) (fun _ _ h => h) (fun x w h => ?_) fun _ _ => trivial
  exact marked_of_foreign (foreign_of_unmet hfaults h.1) w

/-- Where the row is not marked and the version not restored, a raise leaves it so. -/
theorem held_raise {x : Exc} {Q : α → Database × Trace → Prop} (hfresh : ∀ r ∈ rows, r.operationId ≠ operationId)
    (hφ : ∀ s, φ s → (state = .rollbackFailed ↔ s.Restored Γ config certificate now)) :
    Triple (recording (persisting faults)) (Held certificate rows operationId state φ) (.raise x : Action α)
      Q (Marked Γ config certificate now rows) fun _ => True :=
  Triple.raise (fun _ h _ => ⟨operationId, state, hfresh, h.1, hφ _ h.2⟩) fun _ _ => trivial

theorem validateBundle_error {pem : String} {x : Exc} (h : validateBundle Γ pem certificate config now = .error x) :
    ∀ f, validatePublicCertificate Γ pem certificate config.global now ≠ .ok f := by
  intro f hf
  unfold validateBundle at h
  rw [hf] at h
  cases h

/-! ## The steps of a rollback -/

/-- The listing has one eligible PREVIOUS version. -/
def Selected (candidate : OciCertificateVersion) (s : Shown) : Prop :=
  ∃ versions, s.listing = some versions ∧ versions.filter isEligiblePrevious = [candidate]

/-- And its bundle is valid. -/
def Validated (Γ : Ctx) (config : AppConfig) (certificate : CertificateConfig) (now : Instant)
    (candidate : OciCertificateVersion) (f : String) (s : Shown) : Prop :=
  Selected candidate s ∧ ∃ bundle, s.numbered = some bundle ∧
    validatePublicCertificate Γ bundle.certificatePem certificate config.global now = .ok f

theorem restored_cases {s : Shown} (h : s.Restored Γ config certificate now) (hs : Selected candidate s) :
    ∃ bundle current f, s.numbered = some bundle ∧
      validatePublicCertificate Γ bundle.certificatePem certificate config.global now = .ok f ∧
        s.current = some current ∧ current.versionNumber = candidate.versionNumber ∧
          validatePublicCertificate Γ current.certificatePem certificate config.global now = .ok f := by
  obtain ⟨versions, other, bundle, current, f, hlisting, hfilter, hbundle, hvalid, hcurrent, hnumber, hf⟩ := h
  obtain ⟨versions', hlisting', hfilter'⟩ := hs
  rw [hlisting] at hlisting'
  cases hlisting'
  rw [hfilter] at hfilter'
  cases hfilter'
  exact ⟨bundle, current, f, hbundle, hvalid, hcurrent, hnumber, hf⟩

/-- The candidate: the only eligible PREVIOUS version, or a raise. -/
theorem held_previousVersion (hfaults : ∀ op x, faults op x → Foreign x) (hfresh : ∀ r ∈ rows, r.operationId ≠ operationId)
    (hstate : state ≠ .rollbackFailed) :
    Triple (recording (persisting faults)) (Held certificate rows operationId state fun _ => True)
      (previousVersion ocid requestId) (fun candidate => Held certificate rows operationId state (Selected candidate))
      (Marked Γ config certificate now rows) fun _ => True := by
  have hlist : Triple (recording (persisting faults)) (Held certificate rows operationId state fun _ => True)
      (perform (.listVersions ocid requestId))
      (fun versions => Held certificate rows operationId state fun s => s.listing = some versions)
      (Marked Γ config certificate now rows) fun _ => True :=
    (held_read hfaults (by rfl) (fun _ _ _ => rfl) fun _ _ h => h).conseq (fun _ h => h) (fun _ _ h => h)
      (fun _ _ h => marked_of_foreign h.1 _) fun _ h => h
  refine Triple.bind hlist fun versions => ?_
  split
  · rename_i candidate hfilter
    exact Triple.ret (fun _ h => ⟨h.1, versions, h.2, hfilter⟩) fun _ _ => trivial
  · rename_i hnone
    refine held_raise hfresh fun s hs => ?_
    refine ⟨fun h => absurd h hstate, ?_⟩
    rintro ⟨versions', candidate, -, -, -, hlisting, hfilter, -⟩
    rw [show s.listing = some versions from hs] at hlisting
    cases hlisting
    exact absurd hfilter (hnone candidate)

/-- The bundle of the candidate: valid, or a raise. -/
theorem held_validate (hfresh : ∀ r ∈ rows, r.operationId ≠ operationId) (hstate : state ≠ .rollbackFailed)
    (bundle : OciPublicBundle) :
    Triple (recording (persisting faults))
      (Held certificate rows operationId state fun s => Selected candidate s ∧ s.numbered = some bundle)
      (ofExcept (validateBundle Γ bundle.certificatePem certificate config now))
      (fun f => Held certificate rows operationId state (Validated Γ config certificate now candidate f))
      (Marked Γ config certificate now rows) fun _ => True := by
  cases hvalid : validateBundle Γ bundle.certificatePem certificate config now with
  | ok f => exact Triple.ret (fun _ h => ⟨h.1, h.2.1, bundle, h.2.2, validateBundle_ok hvalid⟩) fun _ _ => trivial
  | error x =>
    refine held_raise hfresh fun s hs => ⟨fun h => absurd h hstate, fun hrestored => ?_⟩
    obtain ⟨bundle', current, f, hnumbered, hf, -⟩ := restored_cases hrestored hs.1
    rw [hs.2] at hnumbered
    cases hnumbered
    exact absurd hf (validateBundle_error hvalid f)

/-- The last read of a retried read of CURRENT. -/
theorem held_retryRead (hfaults : ∀ op x, faults op x → Foreign x) (accepted : OciPublicBundle → Bool)
    (policy : ReadRetryPolicy) :
    Triple (recording (persisting faults))
      (Held certificate rows operationId state (Validated Γ config certificate now candidate f))
      (retryReadUntilSync (perform (.getPublicBundle ocid none requestId)) accepted policy)
      (fun current => Held certificate rows operationId state
        fun s => Validated Γ config certificate now candidate f s ∧ s.current = some current)
      (Marked Γ config certificate now rows) fun _ => True := by
  have hread := @held_read faults certificate operationId rows state (Validated Γ config certificate now candidate f)
    hfaults (.getPublicBundle ocid none requestId) (by rfl)
      (fun current s => Validated Γ config certificate now candidate f s ∧ s.current = some current) (fun _ _ h => ⟨h, rfl⟩)
        fun _ _ h => h
  refine Triple.retryRead accepted policy hread ?_ (fun w _ => marked_of_foreign rfl w) (fun _ w h => marked_of_foreign h.1 w)
    (fun _ _ h => h.2) (fun _ _ h => ⟨h.1, h.2.1⟩) fun _ _ => trivial
  exact fun _ _ => held_step hfaults (uses_sleepFor apart_of_pauses _ _ _) (raises_sleepFor _ _ _)

/-- What the confirmation needs has been shown. -/
theorem restored_of_confirmed {s : Shown} (hs : Validated Γ config certificate now candidate f s)
    (hcurrent : s.current = some confirmed) (hnumber : confirmed.versionNumber = candidate.versionNumber)
    (hf : validatePublicCertificate Γ confirmed.certificatePem certificate config.global now = .ok f) :
    s.Restored Γ config certificate now := by
  obtain ⟨⟨versions, hlisting, hfilter⟩, bundle, hnumbered, hvalid⟩ := hs
  exact ⟨versions, candidate, bundle, confirmed, f, hlisting, hfilter, hnumbered, hvalid, hcurrent, hnumber, hf⟩

/-- What the confirmation needs has not been shown. -/
theorem not_restored {s : Shown} (hs : Validated Γ config certificate now candidate f s)
    (hcurrent : s.current = some confirmed)
    (h : confirmed.versionNumber = candidate.versionNumber →
      validatePublicCertificate Γ confirmed.certificatePem certificate config.global now ≠ .ok f) :
    ¬s.Restored Γ config certificate now := by
  intro hrestored
  obtain ⟨hselected, bundle, hnumbered, hvalid⟩ := hs
  obtain ⟨bundle', current, f', hnumbered', hvalid', hcurrent', hnumber, hf⟩ := restored_cases hrestored hselected
  rw [hnumbered] at hnumbered'
  cases hnumbered'
  rw [hvalid] at hvalid'
  cases hvalid'
  rw [hcurrent] at hcurrent'
  cases hcurrent'
  exact h hnumber hf

/-- The audit branch marks the row before it raises. -/
theorem held_auditFailed {Q : Unit → Database × Trace → Prop} (hfaults : ∀ op x, faults op x → Foreign x)
    (hfresh : ∀ r ∈ rows, r.operationId ≠ operationId) :
    Triple (recording (persisting faults))
      (Held certificate rows operationId state fun s => s.Restored Γ config certificate now)
      (RollbackService.auditFailed operationId certificate) Q (Marked Γ config certificate now rows) fun _ => True := by
  refine Triple.bind (held_transition hfaults {}) fun _ => ?_
  refine Triple.bind (held_perform hfaults ⟨rfl, trivial⟩) fun _ => ?_
  exact held_raise hfresh fun s hs => ⟨fun _ => hs, fun _ => rfl⟩

theorem held_auditRollback (hfaults : ∀ op x, faults op x → Foreign x) (hfresh : ∀ r ∈ rows, r.operationId ≠ operationId) :
    Triple (recording (persisting faults))
      (Held certificate rows operationId .ociCurrentConfirmed fun s => s.Restored Γ config certificate now)
      (auditRollback Γ certificate operationId audit passes f)
      (fun _ w => ∃ state, Held certificate rows operationId state (fun s => s.Restored Γ config certificate now) w)
      (Marked Γ config certificate now rows) fun _ => True := by
  cases audit with
  | none => exact Triple.ret (fun _ h => ⟨_, h⟩) fun _ _ => trivial
  | some configuration =>
    refine Triple.bind (held_transition hfaults {}) fun _ => ?_
    have haudit := @held_apart _ certificate operationId rows .auditPending (fun s => s.Restored Γ config certificate now) _
      hfaults _ (AuditService.uses_audit (Γ := Γ) apart_of_observes configuration passes f)
        (AuditService.raises_audit (fun _ => rfl) passes)
    refine Triple.bind (Triple.attempt haudit (fun _ _ _ => trivial) fun _ _ _ => trivial) ?_
    rintro (error | result)
    · simp only
      split
      · exact (held_auditFailed hfaults hfresh).pre fun _ h => h.2
      · exact Triple.raise (fun w h => marked_of_foreign h.1 w) fun _ _ => trivial
    · simp only
      split
      · exact held_auditFailed hfaults hfresh
      · exact (held_transition hfaults {}).post fun _ _ h => ⟨_, h⟩

theorem held_confirm (hfaults : ∀ op x, faults op x → Foreign x) (hfresh : ∀ r ∈ rows, r.operationId ≠ operationId) :
    Triple (recording (persisting faults))
      (Held certificate rows operationId .ociReconciled (Validated Γ config certificate now candidate f))
      (confirm Γ config certificate now audit passes ocid operationId requestId candidate f) (fun _ _ => True)
      (Marked Γ config certificate now rows) fun _ => True := by
  refine Triple.bind (held_retryRead hfaults _ _) fun confirmed => ?_
  have hstate : OperationState.ociReconciled ≠ .rollbackFailed := by decide
  cases hvalid : validateBundle Γ confirmed.certificatePem certificate config now with
  | error x =>
    refine held_raise hfresh fun s hs => ⟨fun h => absurd h hstate, fun hrestored => ?_⟩
    exact absurd hrestored (not_restored hs.1 hs.2 fun _ => validateBundle_error hvalid f)
  | ok confirmedFingerprint =>
    simp only [ofExcept, Program.bind_eq, Program.ret_bind]
    have hcf := validateBundle_ok hvalid
    split
    · rename_i hmismatch
      refine held_raise hfresh fun s hs => ⟨fun h => absurd h hstate, fun hrestored => ?_⟩
      refine absurd hrestored (not_restored hs.1 hs.2 fun hnumber hf => ?_)
      rw [hcf] at hf
      cases hf
      exact hmismatch.elim (fun h => h hnumber) fun h => h rfl
    · rename_i hmatch
      rw [not_or, not_not, not_not] at hmatch
      obtain ⟨hnumber, rfl⟩ := hmatch
      refine Triple.bind (R := fun _ => Held certificate rows operationId .ociCurrentConfirmed
        fun s => s.Restored Γ config certificate now) ((held_transition hfaults _).pre fun w h =>
          ⟨h.1, restored_of_confirmed h.2.1 h.2.2 hnumber hcf⟩) fun _ => ?_
      have hnow : apart .now := ⟨rfl, trivial⟩
      refine Triple.bind (held_step hfaults (StateStore.uses_recordFacts hnow fun _ => ⟨rfl, trivial⟩) ?_) fun _ => ?_
      · exact Program.raises_bind (Program.raises_bind (Program.raises_perform (S := publisher) Op.now) fun _ => trivial) fun _ =>
          Program.raises_perform _
      refine Triple.bind (held_auditRollback hfaults hfresh) fun _ => ?_
      refine Triple.of_exists fun state => ?_
      refine Triple.bind (held_transition hfaults _) fun _ => ?_
      refine Triple.bind (held_perform hfaults ⟨rfl, trivial⟩) fun _ => ?_
      exact Triple.ret (fun _ _ => trivial) fun _ _ => trivial

theorem held_restore (hfaults : ∀ op x, faults op x → Foreign x) (hfresh : ∀ r ∈ rows, r.operationId ≠ operationId) :
    Triple (recording (persisting faults)) (Held certificate rows operationId .discovered fun _ => True)
      (restore Γ config certificate now audit passes ocid operationId) (fun _ _ => True)
      (Marked Γ config certificate now rows) fun _ => True := by
  have hstate : OperationState.discovered ≠ .rollbackFailed := by decide
  refine Triple.bind (held_perform hfaults ⟨rfl, trivial⟩) fun _ => ?_
  refine Triple.bind (held_perform hfaults ⟨rfl, trivial⟩) fun requestId => ?_
  refine Triple.bind (held_previousVersion hfaults hfresh hstate) fun candidate => ?_
  have hread := @held_read faults certificate operationId rows .discovered (Selected candidate) hfaults
    (.getPublicBundle ocid (some candidate.versionNumber) requestId) (by rfl)
      (fun bundle s => Selected candidate s ∧ s.numbered = some bundle) (fun _ _ h => ⟨h, rfl⟩) fun _ _ h => h
  refine Triple.bind (hread.conseq (fun _ h => h) (fun _ _ h => h) (fun _ _ h => marked_of_foreign h.1 _) fun _ h => h)
    fun bundle => ?_
  refine Triple.bind (held_validate hfresh hstate bundle) fun f => ?_
  refine Triple.bind (held_perform hfaults ⟨rfl, trivial⟩) fun remote => ?_
  refine Triple.bind (held_transition hfaults _) fun _ => ?_
  refine Triple.bind (held_perform hfaults ⟨rfl, trivial⟩) fun _ => ?_
  exact held_confirm hfaults hfresh

/-- A rollback that raises, from its row on. -/
theorem rollback_marked (hfaults : ∀ op x, faults op x → Foreign x) (hocid : certificate.oci.certificateOcid = some ocid) :
    Triple (recording (persisting faults)) (fun w => w.1.operations.rows = rows ∧ w.2 = [])
      (RollbackService.rollback Γ config certificate now audit passes) (fun _ _ => True)
      (Marked Γ config certificate now rows) fun _ => True := by
  unfold RollbackService.rollback
  rw [hocid]
  have hknown : Triple anyAnswer (fun t : Trace => t = [])
      (StateStore.startOperation certificate.id .rollback none (some ocid)) (fun _ => Known fun _ => True)
      (fun _ _ => True) fun _ => True :=
    (Triple.unconstrained _).conseq (fun _ h => h) (fun _ _ _ => trivial) (fun _ _ _ => trivial) fun _ _ => trivial
  refine Triple.bind ((Triple.recorded startOperation_owns hknown).conseq (fun _ h => h) (fun _ _ h => h)
    (fun x w h => marked_of_foreign (foreign_of_unmet hfaults h.1) w) fun _ _ => trivial) fun operation => ?_
  intro w hw
  exact held_restore hfaults hw.1.2 w ⟨hw.1.1, hw.2⟩

end RollbackRecordAux

open RollbackRecordAux

/-- A failed rollback is recorded as failed where it has restored the version and its audit has failed, and nowhere else. From any
store, whatever the ports answer: the row of a rollback that raises `RollbackError` is ROLLBACK_FAILED, with the time of its
completion, if and only if OCI has shown exactly one eligible PREVIOUS version, with a valid bundle, and that version with that leaf
as CURRENT. No port raises `RollbackError` itself. -/
theorem rollback_recorded_iff (Γ : Ctx) (faults : Faults) (config : AppConfig) (certificate : CertificateConfig) (now : Instant)
    (audit : Option AuditConfig) (passes : Nat) {ocid : String} (hocid : certificate.oci.certificateOcid = some ocid)
    (hfaults : ∀ op x, faults op x → x.isInstance .rollbackError = false) {db db' : Database} {x : Exc} {t : Trace}
    (hx : x.isInstance .rollbackError = true)
    (h : Exec (recording (persisting faults)) (RollbackService.rollback Γ config certificate now audit passes) (db, [])
      (.raised x) (db', t)) :
    ∃ row ∈ db'.operations.rows, (∀ r ∈ db.operations.rows, r.operationId ≠ row.operationId) ∧
      db'.others row.operationId = db.operations.rows ∧ row.certificateId = certificate.id ∧ row.operationType = .rollback ∧
        ((row.state = .rollbackFailed ∧ row.completedAt.isSome = true) ↔
          (seeing.after t).Restored Γ config certificate now) := by
  have hmarked := rollback_marked (Γ := Γ) hfaults hocid
    (db, []) ⟨rfl, rfl⟩ (.raised x) (db', t) h
  obtain ⟨operationId, state, hfresh, ⟨hothers, row, hrow, rfl, his⟩, hstate⟩ := hmarked hx
  refine ⟨row, hrow, hfresh, hothers, his.certificate, his.type, ?_⟩
  rw [his.reached, his.dated]
  constructor
  · rintro ⟨hfailed, -⟩
    exact hstate.1 hfailed
  · intro hrestored
    obtain rfl := hstate.2 hrestored
    exact ⟨rfl, rfl⟩

namespace RollbackRecordAux

open Sample

/-- OCI has made version 1 CURRENT, and lists it as PREVIOUS or lists nothing; no endpoint has an address. -/
def offering (eligible : Bool) : Handler publisher Exc Database := fun db op =>
  match op with
  | .sql statement => (db.execute statement).map fun (reply, db') => (.ok reply, db')
  | .getCertificate ocid _ => some (.ok ⟨ocid, none, some 1⟩, db)
  | .getPublicBundle .. => some (.ok ⟨"A", "IR", 1, none, [.current]⟩, db)
  | .listVersions .. => some (.ok (if eligible then [{ versionNumber := 1, stages := [.previous] }] else []), db)
  | .promoteCurrent .. | .logEvent .. => some (.ok (), db)
  | .resolve _ => some (.ok [], db)
  | .monotonic => some (.ok 0, db)
  | .now => some (.ok (days 1), db)
  | .uuid4 => some (.ok "rollback", db)
  | _ => none

theorem offering_allowed (eligible : Bool) : (offering eligible).Allowed (persisting noFaults) := by
  intro db op answer db' h
  cases op with
  | sql statement =>
    obtain ⟨⟨reply, db₁⟩, hx, heq⟩ := Option.map_eq_some_iff.1 h
    cases heq
    exact ⟨fun _ h => (by cases h), Database.execute_step hx⟩
  | getCertificate | getPublicBundle | listVersions | promoteCurrent | logEvent | resolve | monotonic | now | uuid4 =>
    cases h
    exact ⟨fun _ h => (by cases h), rfl⟩
  | _ => cases h

/-- A rollback with one audited endpoint. -/
def sampleRollback : Action RollbackResult :=
  RollbackService.rollback ctx (config certificate) certificate (days 1)
    (some { propagationTimeoutSeconds := 0, endpoints := endpoints }) 1

/-- Its run, from an empty store. -/
def rollbackRun (eligible : Bool) : Outcome Exc RollbackResult × Database × Trace :=
  sampleRollback.runFor (offering eligible).record 100 ({}, [])

theorem rollbackRun_exec {eligible : Bool} {x : Exc} (hx : (rollbackRun eligible).1 = .raised x) :
    Exec (recording (persisting noFaults)) sampleRollback ({}, []) (.raised x) (rollbackRun eligible).2 := by
  rw [← hx]
  exact exec_runFor (offering_allowed eligible).record 100 _ _

end RollbackRecordAux

/-- Without an eligible PREVIOUS version the rollback raises, and its row stays DISCOVERED. -/
theorem rollback_recorded_false :
    Exec (recording (persisting noFaults)) sampleRollback ({}, [])
        (.raised (rollbackError "OCI does not expose exactly one eligible PREVIOUS version")) (rollbackRun false).2 ∧
      ∃ row ∈ (rollbackRun false).2.1.operations.rows, row.operationType = .rollback ∧ row.state = .discovered ∧
        row.completedAt = none ∧ row.active = true :=
  ⟨rollbackRun_exec (by decide +kernel), by decide +kernel⟩

/-- A rollback whose audit fails is recorded. -/
theorem rollback_recorded_iff_sample :
    ∃ row ∈ (rollbackRun true).2.1.operations.rows,
      (row.state = .rollbackFailed ∧ row.completedAt.isSome = true) ↔
        (seeing.after (rollbackRun true).2.2).Restored Sample.ctx (Sample.config Sample.certificate) Sample.certificate
          (days 1) := by
  have hexec := @rollbackRun_exec true (rollbackError "rollback completed but endpoint audit did not converge")
    (by decide +kernel)
  have hfaults : ∀ op x, noFaults op x → x.isInstance .rollbackError = false := by
    intro op x h
    cases h
  generalize (rollbackRun true).2 = last at hexec ⊢
  obtain ⟨row, hrow, -, -, -, -, hiff⟩ := rollback_recorded_iff Sample.ctx noFaults (Sample.config Sample.certificate)
    Sample.certificate (days 1) (some { propagationTimeoutSeconds := 0, endpoints := Sample.endpoints }) 1 rfl hfaults rfl
      hexec
  exact ⟨row, hrow, hiff⟩

end OciAcmePublisher
