import OciAcmePublisher.Effects.Guarantee
import OciAcmePublisher.Lemmas.OwnRow

/-!
# What the services write into `operations`

Every program inserts its row as DISCOVERED, transitions no row but its own, and its own only while it is active; besides, two bulk
updates close rows that are active. This is proved once, program by program, as a guarantee every statement keeps to; what the rows
keep to over a history follows from it without looking at a program again.
-/

namespace OciAcmePublisher

open Effects Tables

/-- What a program may execute: a new row is DISCOVERED and not completed, and carries no fingerprint where it is of an audit or of
a rollback; a transition is of an active row, and dates it exactly where it ends it. -/
def Statement.Orderly (db : Database) : Statement → Prop
  | .insertOperation row =>
    row.state = .discovered ∧ row.completedAt = none ∧
      (row.operationType = .audit ∨ row.operationType = .rollback → row.localFingerprint = none)
  | .updateOperation id t =>
    (∃ row ∈ db.operations.rows, row.operationId = id ∧ row.active = true) ∧ t.completedAt.isSome = t.state.isTerminal
  | _ => True

/-- One orderly statement, or none that writes operation rows. -/
def Database.Orderly (db db' : Database) : Prop :=
  db'.operations = db.operations ∨ ∃ (s : Statement) (reply : s.Reply), s.Orderly db ∧ db.Step s reply db'

/-- The row of the operation is active. -/
def Live (operationId : String) (db : Database) : Prop :=
  ∃ row ∈ db.operations.rows, row.operationId = operationId ∧ row.active = true

/-- Idling observes nothing. -/
theorem observes_of_idle {op : Op} (h : op.idle = true) : op.observes = false := by
  cases op <;> first | rfl | cases h

/-- What the store and the publisher's own code leave to each other: no port raises `AuditError`, the endpoints apart, and no
statement raises what `bootstrap` catches. -/
structure Faults.Honest (faults : Faults) : Prop where
  audit : ∀ op x, op.observes = false → faults op x → x.isInstance .auditError = false
  store : ∀ s x, faults (.sql s) x →
    x.isOneOf [.ociCertificateError, .certificateValidationError, .publicationServiceError] = false

namespace LifecycleAux

variable {Γ : Ctx} {config : AppConfig} {certificate : CertificateConfig} {material : LineageMaterial}
  {chain : OciCertificateChain} {now : Instant} {faults : Faults} {α : Type} {operationId requestId id F : String}

/-- The judgement of this module. -/
abbrev Orderly (faults : Faults) (P : Database → Prop) (p : Action α) (Q : α → Database → Prop)
    (E : Exc → Database → Prop) : Prop :=
  Guarded (persisting faults) Database.Orderly P p Q E

/-- Nothing is known, nothing is claimed. -/
abbrev Plain (faults : Faults) (p : Action α) : Prop :=
  Orderly faults (fun _ => True) p (fun _ _ => True) fun _ _ => True

/-- Whether a row is active is read from the operation rows. -/
theorem live_congr {db db' : Database} (h : db'.operations = db.operations) (hl : Live operationId db) :
    Live operationId db' := by
  unfold Live
  rw [h]
  exact hl

/-- A program that writes no operation row. -/
theorem passive_frame {I : Database → Prop} (hI : ∀ db db', db'.operations = db.operations → I db → I db') {p : Action α}
    (hp : p.Uses Op.passive) : Orderly faults I p (fun _ => I) fun _ => I :=
  Guarded.frame hp fun _ _ _ _ hop hw h =>
    ⟨Or.inl (operations_of_passive hop h), hI _ _ (operations_of_passive hop h) hw⟩

/-- An active row stays active. -/
theorem live_frame {p : Action α} (hp : p.Uses Op.passive) :
    Orderly faults (Live operationId) p (fun _ => Live operationId) fun _ => Live operationId :=
  passive_frame (fun _ _ => live_congr) hp

/-- What writes no operation row is orderly. -/
theorem plain_frame {p : Action α} (hp : p.Uses Op.passive) : Plain faults p :=
  passive_frame (fun _ _ _ h => h) hp

/-- A passive program before one whose row is active. -/
theorem live_bind {β : Type} {p : Action α} {f : α → Action β} {Q : β → Database → Prop} {E : Exc → Database → Prop}
    (hp : p.Uses Op.passive) (hE : ∀ x db, Live operationId db → E x db)
    (hf : ∀ a, Orderly faults (Live operationId) (f a) Q E) : Orderly faults (Live operationId) (p.bind f) Q E :=
  Guarded.bind ((live_frame hp).conseq (fun _ h => h) (fun _ _ h => h) hE) hf

/-- Orderly programs in sequence are orderly. -/
theorem plain_bind {β : Type} {p : Action α} {f : α → Action β} (hp : Plain faults p) (hf : ∀ a, Plain faults (f a)) :
    Plain faults (p.bind f) :=
  Guarded.bind hp hf

theorem plain_ofExcept {e : Except Exc α} : Plain faults (ofExcept e) :=
  plain_frame uses_ofExcept

/-- A statement. -/
theorem statement_orderly {P : Database → Prop} {s : Statement} {Q : s.Reply → Database → Prop}
    {E : Exc → Database → Prop} (hs : ∀ db, P db → s.Orderly db)
    (hQ : ∀ db reply db', P db → db.Step s reply db' → Q reply db')
    (hE : ∀ x db, faults (.sql s) x → E x db) : Orderly faults P (sql s) Q E := by
  refine Guarded.perform (fun db answer db' hdb h => ?_) (fun db reply db' hdb h => hQ db reply db' hdb h.2)
    fun db x db' hdb h => hE x db' (h.1 x rfl)
  cases answer with
  | ok reply => exact Or.inr ⟨s, reply, hs db hdb, h.2⟩
  | error x =>
    rcases (show db' = db ∨ ∃ reply, db.Step s reply db' from h.2) with rfl | ⟨reply, hstep⟩
    · exact Or.inl rfl
    · exact Or.inr ⟨s, reply, hs db hdb, hstep⟩

/-! ## The state store -/

/-- A new row is active. -/
theorem startOperation_orderly (certificateId : String) (operationType : OperationType) (localFingerprint ocid : Option String)
    (hF : operationType = .audit ∨ operationType = .rollback → localFingerprint = none) :
    Orderly faults (fun _ => True) (StateStore.startOperation certificateId operationType localFingerprint ocid)
      (fun operation => Live operation.operationId) fun _ _ => True := by
  refine Guarded.bind (plain_frame (Program.uses_perform.2 rfl)) fun operationId => ?_
  refine Guarded.bind (plain_frame (StateStore.uses_utcNow (A := Op.passive) rfl)) fun started => ?_
  refine Guarded.bind (statement_orderly (Q := fun _ => Live operationId) (fun _ _ => ⟨rfl, rfl, hF⟩) ?_
    fun _ _ _ => trivial) fun _ => Guarded.ret fun _ h => h
  rintro db reply db' - ⟨t, ht, rfl⟩
  unfold Live
  rw [(Table.insert_eq_some_iff.1 ht).2]
  exact ⟨_, List.mem_append_right _ (List.mem_singleton_self _), rfl, by rfl⟩

/-- What is known where the exception is one of the classes: the row is still active. -/
def Spared (classes : List ExcClass) (operationId : String) (x : Exc) (db : Database) : Prop :=
  x.isOneOf classes = true → Live operationId db

variable {classes : List ExcClass}

/-- A statement raises none of the classes, nor does a row that is not there. -/
structure Apart (faults : Faults) (classes : List ExcClass) : Prop where
  store : ∀ s x, faults (.sql s) x → x.isOneOf classes = false
  missing : (Exc.of .keyError "operation does not exist").isOneOf classes = false

theorem apart_nil : Apart faults [] := ⟨fun _ _ _ => rfl, rfl⟩

/-- No statement raises what the handler of an audit catches. -/
theorem Honest.apart_audit (h : faults.Honest) : Apart faults [.auditError] where
  store s x hx := by simp [Exc.isOneOf, h.audit (.sql s) x rfl hx]
  missing := by decide

/-- No statement raises what `bootstrap` catches. -/
theorem Honest.apart_create (h : faults.Honest) :
    Apart faults [.ociCertificateError, .certificateValidationError, .publicationServiceError] where
  store := h.store
  missing := by decide

/-- The transition of an active row: it stays active unless the new state is terminal. -/
theorem transition_orderly (hc : Apart faults classes) (state : OperationState) (fields : TransitionFields) :
    Orderly faults (Live operationId) (StateStore.transition operationId state fields)
      (fun _ db => state.isTerminal = false → Live operationId db) (Spared classes operationId) := by
  have hdated : Orderly faults (Live operationId) (StateStore.completedAt state)
      (fun completed db => Live operationId db ∧ completed.isSome = state.isTerminal) (Spared classes operationId) := by
    unfold StateStore.completedAt
    split
    · rename_i hterminal
      refine live_bind (StateStore.uses_utcNow (A := Op.passive) rfl) (fun _ _ h _ => h) fun _ => ?_
      exact Guarded.ret fun _ h => ⟨h, hterminal.symm⟩
    · rename_i hterminal
      exact Guarded.ret fun _ h => ⟨h, by simpa using hterminal⟩
  refine Guarded.bind hdated fun completed => ?_
  refine Guarded.bind (R := fun _ db => Live operationId db ∧ completed.isSome = state.isTerminal)
    ((passive_frame (fun _ _ heq h => ⟨live_congr heq h.1, h.2⟩)
      (StateStore.uses_utcNow (A := Op.passive) rfl)).conseq (fun _ h => h) (fun _ _ h => h) fun _ _ h _ => h.1)
    fun updated => ?_
  refine Guarded.bind (R := fun _ db => state.isTerminal = false → Live operationId db)
    (statement_orderly (fun _ h => ⟨h.1, h.2⟩) ?_ fun x db hx hmem => ?_) fun count => ?_
  · rintro db reply db' ⟨⟨row, hrow, hid, -⟩, -⟩ ⟨-, rfl⟩ hstate
    refine ⟨row.transition _, mem_updateOperations.2 (Or.inl ⟨row, hrow, decide_eq_true hid, rfl⟩), hid, ?_⟩
    simp [OperationRow.active, OperationRow.transition, hstate]
  · rw [hc.store _ _ hx] at hmem
    cases hmem
  · split
    · exact Guarded.ret fun _ h => h
    · refine Guarded.raise fun db _ hmem => ?_
      rw [hc.missing] at hmem
      cases hmem

/-- A transition that is not terminal leaves the row active, also where it raises what a handler catches. -/
theorem transition_live (hc : Apart faults classes) {state : OperationState} (hs : state.isTerminal = false)
    (fields : TransitionFields) :
    Orderly faults (Live operationId) (StateStore.transition operationId state fields) (fun _ => Live operationId)
      (Spared classes operationId) :=
  (transition_orderly hc state fields).conseq (fun _ h => h) (fun _ _ h => h hs) fun _ _ h => h

/-- A transition of an active row is orderly. -/
theorem transition_plain (state : OperationState) (fields : TransitionFields) :
    Orderly faults (Live operationId) (StateStore.transition operationId state fields) (fun _ _ => True)
      fun _ _ => True :=
  (transition_orderly apart_nil state fields).conseq (fun _ h => h)
    (fun _ _ _ => trivial) fun _ _ _ => trivial

/-- `transition_live`, where no handler asks for the row. -/
theorem transition_step {state : OperationState} (hs : state.isTerminal = false) (fields : TransitionFields) :
    Orderly faults (Live operationId) (StateStore.transition operationId state fields) (fun _ => Live operationId)
      fun _ _ => True :=
  (transition_live apart_nil hs fields).conseq (fun _ h => h) (fun _ _ h => h)
    fun _ _ _ => trivial

/-- Closing the rows of a fingerprint spares the own row. -/
theorem completeReconciled_orderly (certificateId : String) (version : Int) :
    Orderly faults (Live operationId) (StateStore.completeReconciledOperations certificateId F version operationId)
      (fun _ => Live operationId) fun _ _ => True := by
  refine live_bind (StateStore.uses_utcNow (A := Op.passive) rfl) (fun _ _ _ => trivial) fun _ => ?_
  refine statement_orderly (fun _ _ => trivial) ?_ fun _ _ _ => trivial
  rintro db reply db' ⟨row, hrow, hid, hactive⟩ ⟨-, rfl⟩
  refine ⟨row, mem_updateOperations.2 (Or.inr ⟨hrow, ?_⟩), hid, hactive⟩
  simp [OperationRow.closedBy, hid]

/-! ## Notifications raise no audit failure -/

/-- The program writes no operation row and does not raise `AuditError`. -/
abbrev Calm (faults : Faults) (p : Action α) : Prop :=
  Orderly faults (fun _ => True) p (fun _ _ => True) fun x _ => x.isInstance .auditError = false

section Calm

variable {β : Type}

theorem calm_ret (a : α) : Calm faults (.ret a) := Guarded.ret fun _ _ => trivial

theorem calm_raise {x : Exc} (hx : x.isInstance .auditError = false) : Calm faults (.raise x : Action α) :=
  Guarded.raise fun _ _ => hx

theorem calm_bind {p : Action α} {f : α → Action β} (hp : Calm faults p) (hf : ∀ a, Calm faults (f a)) :
    Calm faults (p.bind f) :=
  Guarded.bind hp hf

/-- An attempt is calm where both its continuations are. -/
theorem calm_attempt {p : Action α} {f : Except Exc α → Action β} (hp : Calm faults p)
    (hok : ∀ a, Calm faults (f (.ok a))) (herr : ∀ x, x.isInstance .auditError = false → Calm faults (f (.error x))) :
    Calm faults (p.attempt.bind f) := by
  refine Guarded.bind (Guarded.attempt hp) fun outcome => ?_
  cases outcome with
  | ok a => exact hok a
  | error x => exact fun db hx => herr x hx db trivial

/-- A computation that raises no `AuditError` is calm. -/
theorem calm_ofExcept {e : Except Exc α} (he : ∀ x, e = .error x → x.isInstance .auditError = false) :
    Calm faults (ofExcept e) := by
  cases e with
  | ok a => exact calm_ret a
  | error x => exact calm_raise (he x rfl)

/-- An idle operation is calm, as no port raises `AuditError`. -/
theorem calm_perform (hf : faults.Honest) {op : Op} (hop : op.idle = true) : Calm faults (perform op) :=
  Guarded.perform (fun _ _ _ _ h => Or.inl (operations_of_passive (passive_of_idle op hop) h)) (fun _ _ _ _ _ => trivial)
    fun _ x _ _ h => hf.audit op x (observes_of_idle hop) (h.1 x rfl)

theorem calm_utcNow (hf : faults.Honest) : Calm faults utcNow :=
  calm_bind (calm_perform hf rfl) fun _ => calm_ret _

/-- Reading the secret of a webhook is calm. -/
theorem calm_readSecret (hf : faults.Honest) (path : String) : Calm faults (NotificationService.readSecret path) := by
  refine calm_attempt (calm_perform hf rfl) (fun raw => ?_) fun x hx => ?_
  · simp only
    split
    · exact calm_raise rfl
    · exact calm_ret _
  · simp only
    split
    · exact calm_raise rfl
    · exact calm_raise hx

/-- So are the attempts of a delivery, whatever the webhook answers. -/
theorem calm_attempts (hf : faults.Honest) (url : String) (payload : Payload) (dedupKey status : String) (remaining : Nat) :
    Calm faults (NotificationService.attempts url payload dedupKey status remaining) := by
  have hdeliver : Calm faults (NotificationService.deliver url payload dedupKey status) := by
    refine calm_bind (calm_perform hf rfl) fun code => ?_
    split
    · exact calm_bind (calm_bind (calm_utcNow hf) fun _ => calm_perform hf rfl) fun _ => calm_ret _
    · split
      · exact calm_raise rfl
      · exact calm_ret _
  induction remaining with
  | zero =>
    unfold NotificationService.attempts
    exact calm_raise rfl
  | succ remaining ih =>
    have hagain : Calm faults
        (NotificationService.again remaining (NotificationService.attempts url payload dedupKey status remaining)) := by
      unfold NotificationService.again
      split
      · exact calm_bind (calm_perform hf rfl) fun _ => ih
      · exact ih
    unfold NotificationService.attempts
    refine calm_attempt hdeliver (fun delivered => ?_) fun x hx => ?_
    · cases delivered
      · exact hagain
      · exact calm_ret _
    · simp only
      split
      · split
        · exact calm_raise rfl
        · exact hagain
      · exact calm_raise hx

/-- So is a notification. -/
theorem calm_notify (hf : faults.Honest) (configuration : NotificationsConfig) (event : String)
    (fields : List (String × String)) : Calm faults (NotificationService.notify Γ configuration event fields) := by
  have hdue : ∀ dedupKey status minutes, Calm faults (StateStore.shouldSendAlert dedupKey status minutes) := by
    intro dedupKey status minutes
    refine calm_bind (calm_perform hf rfl) fun row => ?_
    rcases row with _ | ⟨lastSentAt, lastStatus⟩
    · exact calm_ret _
    · simp only
      split
      · exact calm_ret _
      · exact calm_bind (calm_perform hf rfl) fun _ => calm_ret _
  unfold NotificationService.notify
  split
  · exact calm_ret _
  · refine calm_bind (hdue _ _ _) fun due => ?_
    split
    · exact calm_ret _
    · split
      · exact calm_raise rfl
      · refine calm_bind (calm_ofExcept fun x hx => ?_) fun path => ?_
        · unfold credentialPath at hx
          split at hx
          · cases hx
            rfl
          · simp only at hx
            split at hx <;> cases hx
            rfl
        refine calm_bind (calm_readSecret hf path) fun secret => ?_
        refine calm_bind (calm_ofExcept fun x hx => ?_) fun url => calm_attempts hf _ _ _ _ _
        unfold webhookUrl at hx
        split at hx
        · cases hx
          rfl
        · split at hx
          · cases hx
            rfl
          · split at hx <;> cases hx
            rfl

/-- So is that of a failed audit. -/
theorem calm_notifyAuditFailure (hf : faults.Honest) (certificateId : String) :
    Calm faults (PublicationService.notifyAuditFailure Γ config certificateId) := by
  refine calm_attempt (calm_notify hf _ _ _) (fun _ => calm_ret _) fun x hx => ?_
  simp only
  split
  · exact calm_ret _
  · exact calm_raise hx

end Calm

/-! ## The services -/

namespace PublicationReconciler

/-- A reconciliation is completed from an active row. -/
theorem complete_orderly (remoteFingerprint : String) (versionNumber : Int) (changed : Bool)
    (operationType : OperationType) :
    Orderly faults (Live operationId)
      (PublicationReconciler.complete operationId certificate F remoteFingerprint versionNumber changed operationType)
      (fun _ _ => True) fun _ _ => True := by
  refine live_bind (StateStore.uses_recordFacts (A := Op.passive) rfl fun _ => rfl) (fun _ _ _ => trivial) fun _ => ?_
  refine Guarded.bind (completeReconciled_orderly _ _) fun _ => ?_
  refine live_bind (PublicationReconciler.uses_recordRenewal passive_of_records) (fun _ _ _ => trivial) fun _ => ?_
  exact Guarded.bind (transition_plain _ _) fun _ => Guarded.ret fun _ _ => trivial

/-- Obtaining a candidate leaves the row active. -/
theorem obtainCandidate_orderly (etag : Option String) :
    Orderly faults (Live operationId)
      (PublicationReconciler.obtainCandidate Γ config certificate material chain F now id operationId requestId etag)
      (fun _ => Live operationId) fun _ _ => True := by
  refine live_bind (PublicationReconciler.uses_findMatchingPending passive_of_idle) (fun _ _ _ => trivial) fun found => ?_
  cases found with
  | some c => exact Guarded.ret fun _ h => h
  | none =>
    refine live_bind uses_ofExcept (fun _ _ _ => trivial) fun _ => ?_
    refine live_bind (Program.uses_perform.2 rfl) (fun _ _ _ => trivial) fun _ => ?_
    refine Guarded.bind (transition_step rfl _) fun _ => ?_
    refine live_bind (Program.uses_perform.2 rfl) (fun _ _ _ => trivial) fun _ => ?_
    refine live_bind (PublicationReconciler.uses_findMatchingPending passive_of_idle) (fun _ _ _ => trivial) fun visible => ?_
    cases visible with
    | some c => exact Guarded.ret fun _ h => h
    | none => exact Guarded.raise fun _ _ => trivial

/-- A reconciliation transitions its active row. -/
theorem reconcile_orderly (operationType : OperationType) :
    Orderly faults (Live operationId)
      (PublicationReconciler.reconcile Γ config certificate material chain F now operationType id operationId)
      (fun _ _ => True) fun _ _ => True := by
  refine live_bind (Program.uses_perform.2 rfl) (fun _ _ _ => trivial) fun requestId => ?_
  refine live_bind (Program.uses_perform.2 rfl) (fun _ _ _ => trivial) fun remote => ?_
  refine live_bind (Program.uses_perform.2 rfl) (fun _ _ _ => trivial) fun bundle => ?_
  refine live_bind uses_ofExcept (fun _ _ _ => trivial) fun current => ?_
  refine Guarded.bind (transition_step rfl _) fun _ => ?_
  split
  · refine live_bind (Program.uses_perform.2 rfl) (fun _ _ _ => trivial) fun _ => ?_
    exact complete_orderly _ _ _ _
  · refine Guarded.bind (obtainCandidate_orderly _) fun candidate => ?_
    refine Guarded.bind (transition_step rfl _) fun _ => ?_
    refine live_bind (Program.uses_perform.2 rfl) (fun _ _ _ => trivial) fun _ => ?_
    refine live_bind (PublicationReconciler.uses_promoteCurrent passive_of_pauses rfl (fun _ _ => rfl) _)
      (fun _ _ _ => trivial) fun _ => ?_
    refine live_bind (Program.uses_perform.2 rfl) (fun _ _ _ => trivial) fun _ => ?_
    refine live_bind (uses_retryReadUntilSync passive_of_pauses (Program.uses_perform.2 (by rfl)) _ _) (fun _ _ _ => trivial)
      fun confirmed => ?_
    refine live_bind uses_ofExcept (fun _ _ _ => trivial) fun fingerprint => ?_
    split
    · exact Guarded.raise fun _ _ => trivial
    · refine Guarded.bind (transition_step rfl _) fun _ => ?_
      refine live_bind (Program.uses_perform.2 rfl) (fun _ _ _ => trivial) fun _ => ?_
      exact complete_orderly _ _ _ _

/-- A publication inserts its row and reconciles. -/
theorem publish_orderly {operationType : OperationType} (hop : operationType ≠ .audit ∧ operationType ≠ .rollback) :
    Plain faults
      (PublicationReconciler.publish Γ config certificate material chain F now operationType) := by
  unfold PublicationReconciler.publish
  split
  · exact Guarded.raise fun _ _ => trivial
  · exact Guarded.bind (startOperation_orderly _ _ _ _ fun h => (h.elim hop.1 hop.2).elim) fun _ => reconcile_orderly _

end PublicationReconciler

namespace RollbackService

variable {audit : Option AuditConfig} {passes : Nat}

/-- A failed audit of a rollback leaves the row for the rollback to end. -/
theorem auditFailed_orderly :
    Orderly faults (Live operationId) (RollbackService.auditFailed operationId certificate) (fun _ => Live operationId)
      fun _ _ => True := by
  refine Guarded.bind (transition_plain _ _) fun _ => ?_
  exact Guarded.bind (plain_frame (Program.uses_perform.2 rfl)) fun _ => Guarded.raise fun _ _ => trivial

/-- The audit of a rollback leaves the row active. -/
theorem auditRollback_orderly (f : String) :
    Orderly faults (Live operationId) (RollbackService.auditRollback Γ certificate operationId audit passes f)
      (fun _ => Live operationId) fun _ _ => True := by
  unfold RollbackService.auditRollback
  split
  · exact Guarded.ret fun _ h => h
  · refine Guarded.bind (transition_step rfl _) fun _ => ?_
    refine live_bind (Program.uses_attempt (AuditService.uses_audit passive_of_observes _ _ _)) (fun _ _ _ => trivial)
      fun outcome => ?_
    cases outcome with
    | error x =>
      simp only
      split
      · exact auditFailed_orderly
      · exact Guarded.raise fun _ _ => trivial
    | ok result =>
      simp only
      split
      · exact auditFailed_orderly
      · exact transition_step rfl _

/-- A rollback inserts its row, and transitions it while it is active. -/
theorem rollback_orderly : Plain faults (RollbackService.rollback Γ config certificate now audit passes) := by
  unfold RollbackService.rollback
  split
  · exact Guarded.raise fun _ _ => trivial
  · refine Guarded.bind (startOperation_orderly _ _ _ _ fun _ => rfl) fun operation => ?_
    refine live_bind (Program.uses_perform.2 rfl) (fun _ _ _ => trivial) fun _ => ?_
    refine live_bind (Program.uses_perform.2 rfl) (fun _ _ _ => trivial) fun requestId => ?_
    refine live_bind (RollbackService.uses_previousVersion passive_of_idle) (fun _ _ _ => trivial) fun candidate => ?_
    refine live_bind (Program.uses_perform.2 rfl) (fun _ _ _ => trivial) fun bundle => ?_
    refine live_bind uses_ofExcept (fun _ _ _ => trivial) fun fingerprint => ?_
    refine live_bind (Program.uses_perform.2 rfl) (fun _ _ _ => trivial) fun remote => ?_
    refine Guarded.bind (transition_step rfl _) fun _ => ?_
    refine live_bind (Program.uses_perform.2 rfl) (fun _ _ _ => trivial) fun _ => ?_
    refine live_bind (uses_retryReadUntilSync passive_of_pauses (Program.uses_perform.2 (by rfl)) _ _) (fun _ _ _ => trivial)
      fun confirmed => ?_
    refine live_bind uses_ofExcept (fun _ _ _ => trivial) fun confirmedFingerprint => ?_
    split
    · exact Guarded.raise fun _ _ => trivial
    · refine Guarded.bind (transition_step rfl _) fun _ => ?_
      refine live_bind (StateStore.uses_recordFacts (A := Op.passive) rfl fun _ => rfl) (fun _ _ _ => trivial) fun _ => ?_
      refine Guarded.bind (auditRollback_orderly _) fun _ => ?_
      refine Guarded.bind (transition_plain _ _) fun _ => ?_
      exact plain_bind (plain_frame (Program.uses_perform.2 rfl)) fun _ => Guarded.ret fun _ _ => trivial

end RollbackService

namespace PublicationService

variable {passes : Nat} {certificateId : String}

/-- A failed audit ends its row; it raises no second failure. -/
theorem auditFailed_orderly (hf : faults.Honest) :
    Orderly faults (Live operationId) (PublicationService.auditFailed Γ config certificate operationId) (fun _ _ => True)
      (Spared [.auditError] operationId) := by
  have hspared : ∀ (x : Exc) (db : Database), x.isInstance .auditError = false → Spared [.auditError] operationId x db := by
    intro x db hx hmem
    simp [Exc.isOneOf, hx] at hmem
  refine Guarded.bind ((transition_orderly (Honest.apart_audit hf) _ _).conseq (fun _ h => h) (fun _ _ _ => trivial)
    fun _ _ h => h) fun _ => ?_
  refine Guarded.conseq (P := fun _ => True) (Q := fun _ _ => True) ?_ (fun _ _ => trivial) (fun _ _ h => h) hspared
  exact calm_bind (calm_notifyAuditFailure hf _) fun _ => calm_perform hf rfl

/-- An audit transitions its active row, in its own handler too. -/
theorem auditStarted_orderly (hf : faults.Honest) (ocid : String) :
    Orderly faults (Live operationId) (PublicationService.auditStarted Γ config passes certificate ocid operationId)
      (fun _ _ => True) fun _ _ => True := by
  have hlive : ∀ (x : Exc) (db : Database), Live operationId db → Spared [.auditError] operationId x db := fun _ _ h _ => h
  refine live_bind (Program.uses_perform.2 rfl) (fun _ _ _ => trivial) fun requestId => ?_
  refine Guarded.bind (transition_step rfl _) fun _ => ?_
  refine Guarded.handle (R := Spared [.auditError] operationId) ?_ fun x => ?_
  · refine live_bind (Program.uses_perform.2 rfl) hlive fun bundle => ?_
    refine live_bind (Program.uses_perform.2 rfl) hlive fun now => ?_
    refine live_bind uses_ofExcept hlive fun expected => ?_
    refine live_bind (PublicationService.uses_auditService passive_of_idle) hlive fun configuration => ?_
    refine live_bind (AuditService.uses_audit passive_of_observes _ _ _) hlive fun result => ?_
    split
    · exact Guarded.bind (auditFailed_orderly hf) fun _ => Guarded.ret fun _ _ => trivial
    · refine Guarded.bind (transition_live (Honest.apart_audit hf) rfl _) fun _ => ?_
      refine live_bind (StateStore.uses_recordFacts (A := Op.passive) rfl fun _ => rfl) hlive fun _ => ?_
      refine Guarded.bind ((transition_orderly (Honest.apart_audit hf) _ _).conseq (fun _ h => h) (fun _ _ _ => trivial)
        fun _ _ h => h) fun _ => ?_
      refine Guarded.conseq (P := fun _ => True) (Q := fun _ _ => True) (E := fun x _ => x.isInstance .auditError = false)
        ?_ (fun _ _ => trivial) (fun _ _ h => h) fun x db hx hmem => by simp [Exc.isOneOf, hx] at hmem
      refine calm_bind ?_ fun _ => calm_bind (calm_perform hf rfl) fun _ => calm_ret _
      refine calm_bind (calm_utcNow hf) fun _ => ?_
      exact statement_orderly (fun _ _ => trivial) (fun _ _ _ _ _ => trivial) fun x _ hx => hf.audit _ x rfl hx
  · split
    · rename_i hx
      refine Guarded.bind (R := fun _ _ => True) ((auditFailed_orderly hf).conseq (fun db h => h ?_) (fun _ _ h => h)
        fun _ _ _ => trivial) fun _ => Guarded.raise fun _ _ => trivial
      simp [Exc.isOneOf, hx]
    · exact Guarded.raise fun _ _ => trivial

/-- An audit inserts its row, and transitions it while it is active. -/
theorem audit_orderly (hf : faults.Honest) : Plain faults (PublicationService.audit Γ config passes certificateId) := by
  refine plain_bind plain_ofExcept fun certificate => ?_
  split
  · exact Guarded.raise fun _ _ => trivial
  · refine plain_bind (plain_frame (PublicationService.uses_openPorts passive_of_idle)) fun _ => ?_
    exact Guarded.bind (startOperation_orderly _ _ _ _ fun _ => rfl) fun _ => auditStarted_orderly hf _

/-- So does the rollback of the service. -/
theorem rollback_orderly : Plain faults (PublicationService.rollback Γ config passes certificateId) := by
  refine plain_bind plain_ofExcept fun certificate => ?_
  refine plain_bind (plain_frame (PublicationService.uses_openPorts passive_of_idle)) fun _ => ?_
  refine plain_bind (plain_frame (Program.uses_perform.2 rfl)) fun _ => ?_
  refine plain_bind (plain_frame (PublicationService.uses_auditService passive_of_idle)) fun _ => ?_
  exact RollbackService.rollback_orderly

/-- Retention writes no operation row. -/
theorem retention_orderly : Plain faults (PublicationService.retention config certificateId) :=
  plain_frame (PublicationService.uses_retention passive_of_idle (fun _ _ _ _ _ => rfl) _)

/-- The audit after a publication is orderly, and so is the rollback it may ask for. -/
theorem runPostPublicationAudit_orderly (hf : faults.Honest) :
    Plain faults (PublicationService.runPostPublicationAudit Γ config passes certificate) := by
  unfold PublicationService.runPostPublicationAudit PublicationService.enforcePostPublicationAudit
  split
  · exact Guarded.ret fun _ _ => trivial
  · split
    · exact Guarded.ret fun _ _ => trivial
    · refine plain_bind (Guarded.handle (audit_orderly hf) fun x => ?_) fun successful => ?_
      · split
        · exact Guarded.ret fun _ _ => trivial
        · exact Guarded.raise fun _ _ => trivial
      · split
        · exact Guarded.ret fun _ _ => trivial
        · split
          · exact Guarded.raise fun _ _ => trivial
          · refine Guarded.bind (Guarded.attempt rollback_orderly) fun outcome => ?_
            cases outcome with
            | ok _ => exact Guarded.ret fun _ _ => trivial
            | error x =>
              simp only
              split
              · exact Guarded.bind (plain_frame (Program.uses_perform.2 rfl)) fun _ => Guarded.raise fun _ _ => trivial
              · exact Guarded.raise fun _ _ => trivial
  · refine Guarded.handle (plain_bind (audit_orderly hf) fun _ => Guarded.ret fun _ _ => trivial) fun x => ?_
    split
    · exact Guarded.ret fun _ _ => trivial
    · exact Guarded.raise fun _ _ => trivial

/-- A publication, the audit and the rollback behind it included, is orderly. -/
theorem publish_orderly (hf : faults.Honest) {operationType : OperationType}
    (hop : operationType ≠ .audit ∧ operationType ≠ .rollback) :
    Plain faults (PublicationService.publish Γ config passes certificateId operationType) := by
  refine plain_bind plain_ofExcept fun certificate => ?_
  refine plain_bind (plain_frame (PublicationService.uses_requireProductionQualification passive_of_idle)) fun _ => ?_
  refine plain_bind (plain_frame (Program.uses_perform.2 rfl)) fun material => ?_
  refine plain_bind (plain_frame (Program.uses_perform.2 rfl)) fun validated => ?_
  refine plain_bind plain_ofExcept fun fingerprint => ?_
  refine plain_bind (plain_frame (uses_buildChain passive_of_idle)) fun chain => ?_
  refine plain_bind (plain_frame (Program.uses_perform.2 rfl)) fun _ => ?_
  refine plain_bind (plain_frame (PublicationService.uses_openPorts passive_of_idle)) fun _ => ?_
  refine plain_bind (plain_frame (Program.uses_perform.2 rfl)) fun now => ?_
  refine plain_bind (LifecycleAux.PublicationReconciler.publish_orderly hop) fun result => ?_
  refine plain_bind (plain_frame (Program.uses_perform.2 rfl)) fun _ => ?_
  refine plain_bind (runPostPublicationAudit_orderly hf) fun _ => ?_
  refine plain_bind (plain_frame
    (PublicationService.uses_runPostPublicationRetention passive_of_idle fun _ _ _ _ _ => rfl)) fun _ => ?_
  exact Guarded.ret fun _ _ => trivial

/-- A renewal is an issuance and a publication. -/
theorem renew_orderly (hf : faults.Honest) (force : Bool) :
    Plain faults (PublicationService.renew Γ config passes certificateId force) := by
  refine plain_bind plain_ofExcept fun certificate => ?_
  refine plain_bind (plain_frame (PublicationService.uses_requireProductionQualification passive_of_idle)) fun _ => ?_
  refine plain_bind (plain_frame (PublicationService.uses_runPreflight passive_of_idle)) fun _ => ?_
  refine plain_bind (plain_frame (PublicationService.uses_beforeFingerprint passive_of_idle)) fun _ => ?_
  refine plain_bind (plain_frame (Program.uses_perform.2 rfl)) fun _ => ?_
  refine plain_bind (plain_frame (NativeAcmeService.uses_issue passive_of_idle (fun _ _ => rfl) (fun _ _ => rfl)
    (fun _ => rfl) _)) fun _ => ?_
  refine plain_bind (plain_frame (Program.uses_perform.2 rfl)) fun _ => ?_
  exact publish_orderly hf (by decide)

/-! ### Bootstrap -/

/-- A created certificate is confirmed from an active row. -/
theorem confirmCreated_orderly (hc : Apart faults classes) (ocid : String) (bundle : OciPublicBundle)
    (remoteFingerprint : String) (requestId : Option String) :
    Orderly faults (Live operationId)
      (PublicationService.confirmCreated certificate F operationId ocid bundle remoteFingerprint requestId)
      (fun _ _ => True) (Spared classes operationId) := by
  refine Guarded.bind (transition_live hc rfl _) fun _ => ?_
  refine live_bind (StateStore.uses_recordFacts (A := Op.passive) rfl fun _ => rfl) (fun _ _ h _ => h) fun _ => ?_
  refine Guarded.bind ((transition_orderly hc _ _).conseq (fun _ h => h) (fun _ _ _ => trivial) fun _ _ h => h) fun _ => ?_
  exact Guarded.ret fun _ _ => trivial

/-- Reading what was created idles. -/
theorem uses_readCreated {A : Op → Prop} (hA : ∀ op, op.idle = true → A op) (ocid mismatch : String) :
    (PublicationService.readCreated Γ config certificate F ocid requestId mismatch).Uses A := by
  refine Program.uses_bind (Program.uses_perform.2 (hA _ rfl)) fun _ => ?_
  refine Program.uses_bind (Program.uses_perform.2 (hA _ rfl)) fun _ => ?_
  refine Program.uses_bind uses_ofExcept fun _ => ?_
  split <;> trivial

/-- The recovery transitions an active row. -/
theorem recoverBootstrap_orderly :
    Plain faults (PublicationService.recoverBootstrap Γ config certificate F) := by
  have hactive : Orderly faults (fun _ => True) (StateStore.activeOperations certificate.id)
      (fun active db => ∀ operation ∈ active, Live operation.operationId db) fun _ _ => True := by
    refine statement_orderly (fun _ _ => trivial) ?_ fun _ _ _ => trivial
    rintro db reply db' - ⟨rfl, l, hl, -, rfl⟩ operation hmem
    obtain ⟨row, hrow, rfl⟩ := List.mem_map.1 hmem
    obtain ⟨hrows, hsel⟩ := List.mem_filter.1 (hl.mem_iff.1 hrow)
    exact ⟨row, hrows, rfl, by simpa using (Bool.and_eq_true _ _ ▸ hsel).2⟩
  refine Guarded.bind hactive fun active => ?_
  have hmem : ∀ operation, operation ∈ active.filter (PublicationService.isRecoverable F) → operation ∈ active :=
    fun operation h => (List.mem_filter.1 h).1
  split
  · exact Guarded.ret fun _ _ => trivial
  · rename_i operation hone
    have hin : operation ∈ active := hmem operation (by rw [hone]; exact List.mem_singleton_self _)
    split
    · exact Guarded.raise fun _ _ => trivial
    · refine Guarded.conseq (P := Live operation.operationId) (Q := fun _ _ => True) (E := fun _ _ => True) ?_
        (fun _ h => h operation hin) (fun _ _ h => h) fun _ _ h => h
      refine live_bind (Program.uses_perform.2 rfl) (fun _ _ _ => trivial) fun requestId => ?_
      refine live_bind (uses_readCreated passive_of_idle _ _) (fun _ _ _ => trivial) fun read => ?_
      refine Guarded.bind ((confirmCreated_orderly apart_nil _ _ _ _).conseq (fun _ h => h)
        (fun _ _ _ => trivial) fun _ _ _ => trivial) fun result => ?_
      exact plain_bind (plain_frame (Program.uses_perform.2 rfl)) fun _ => Guarded.ret fun _ _ => trivial
  · exact Guarded.raise fun _ _ => trivial

/-- A failed creation transitions its row where the error is one that left it active. -/
theorem creationFailed_orderly (created : Bool) (x : Exc) :
    Orderly faults
      (Spared [.ociCertificateError, .certificateValidationError, .publicationServiceError] operationId x)
      (PublicationService.creationFailed operationId created x) (fun _ _ => True) fun _ _ => True := by
  unfold PublicationService.creationFailed
  split
  · rename_i hx
    refine Guarded.bind ((transition_plain _ _).conseq (fun _ h => h ?_) (fun _ _ h => h) fun _ _ h => h) fun _ =>
      Guarded.raise fun _ _ => trivial
    simp [Exc.isOneOf, hx]
  · split
    · rename_i hx
      refine Guarded.bind ((transition_plain _ _).conseq (fun _ h => h ?_) (fun _ _ h => h) fun _ _ h => h) fun _ =>
        Guarded.raise fun _ _ => trivial
      simp only [Exc.isOneOf, List.any_cons, List.any_nil, Bool.or_eq_true] at hx ⊢
      exact Or.inr hx
    · exact Guarded.raise fun _ _ => trivial

/-- A creation transitions its active row, in its own handler too. -/
theorem createStarted_orderly (hf : faults.Honest) :
    Orderly faults (Live operationId)
      (PublicationService.createStarted Γ config certificate material chain F operationId) (fun _ _ => True)
      fun _ _ => True := by
  refine Guarded.bind (transition_step rfl _) fun _ => ?_
  refine Guarded.bind (Guarded.attempt (live_frame ?_)) fun outcome => ?_
  · refine Program.uses_bind (Program.uses_perform.2 rfl) fun requestId => ?_
    refine Program.uses_bind ?_ fun _ => trivial
    refine Program.uses_bind (Program.uses_perform.2 rfl) fun _ => ?_
    refine Program.uses_bind uses_ofExcept fun _ => ?_
    exact Program.uses_perform.2 rfl
  · cases outcome with
    | error x => exact (creationFailed_orderly false x).conseq (fun _ h _ => h) (fun _ _ h => h) fun _ _ h => h
    | ok created =>
      refine Guarded.handle (R := Spared _ operationId) ?_ fun x => creationFailed_orderly true x
      refine Guarded.bind (transition_live (Honest.apart_create hf) rfl _) fun _ => ?_
      refine live_bind (uses_readCreated passive_of_idle _ _) (fun _ _ h _ => h) fun read => ?_
      exact confirmCreated_orderly (Honest.apart_create hf) _ _ _ _

/-- A bootstrap recovers the rows of its fingerprint, or inserts one and creates. -/
theorem bootstrap_orderly (hf : faults.Honest) : Plain faults (PublicationService.bootstrap Γ config certificateId) := by
  refine plain_bind plain_ofExcept fun certificate => ?_
  split
  · exact Guarded.raise fun _ _ => trivial
  · refine plain_bind (plain_frame (PublicationService.uses_requireProductionQualification passive_of_idle)) fun _ => ?_
    refine plain_bind (plain_frame (PublicationService.uses_runPreflight passive_of_idle)) fun _ => ?_
    refine plain_bind (plain_frame (Program.uses_perform.2 rfl)) fun _ => ?_
    refine plain_bind (plain_frame (NativeAcmeService.uses_issue passive_of_idle (fun _ _ => rfl) (fun _ _ => rfl)
      (fun _ => rfl) _)) fun _ => ?_
    refine plain_bind (plain_frame (Program.uses_perform.2 rfl)) fun _ => ?_
    refine plain_bind (plain_frame (Program.uses_perform.2 rfl)) fun material => ?_
    refine plain_bind (plain_frame (Program.uses_perform.2 rfl)) fun now => ?_
    refine plain_bind plain_ofExcept fun fingerprint => ?_
    refine plain_bind (plain_frame (uses_buildChain passive_of_idle)) fun chain => ?_
    refine plain_bind (plain_frame (PublicationService.uses_openPorts passive_of_idle)) fun _ => ?_
    refine plain_bind recoverBootstrap_orderly fun recovered => ?_
    cases recovered with
    | some result => exact Guarded.ret fun _ _ => trivial
    | none =>
      refine Guarded.bind (startOperation_orderly _ _ _ _ fun h => ?_) fun _ => createStarted_orderly hf
      rcases h with h | h <;> cases h

end PublicationService

end LifecycleAux

end OciAcmePublisher
