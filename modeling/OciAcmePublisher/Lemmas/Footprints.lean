import OciAcmePublisher.PublicationService

/-!
# What the parts of the publisher may perform

The footprints of the reconciliation, the rollback, the notifications and the orchestration. Most of what a part does is quiet: it
reads, writes its own operation row, and neither changes OCI nor observes an endpoint. Each lemma names what the part does besides,
so that a property is framed over a part by looking at those operations alone.
-/

namespace OciAcmePublisher

open Effects

/-- Nothing is changed but alerts and facts, nothing is observed, and no operation row is written: the operations another lemma has
to name are the changes of OCI, the observations, the order and its end, the commit of a generation, the writes of operation rows
and the record of a successful audit. -/
def Op.idle : Op → Bool
  | .createImportedCertificate .. | .uploadPendingVersion .. | .promoteCurrent .. | .scheduleVersionDeletion .. => false
  | .resolve _ | .probe .. | .monotonic | .wait _ => false
  | .newOrder .. | .finalizeOrder .. | .commitLineage .. => false
  | .sql (.insertOperation _) | .sql (.updateOperation ..) | .sql (.completeReconciled ..)
  | .sql (.completeInterruptedAudits ..) | .sql (.upsertFacts _ .audit _) => false
  | _ => true

/-- What is done on behalf of one operation of a certificate: besides idling, its own row is written, and those its success
closes. -/
def Op.quiet (certificateId operationId : String) (op : Op) : Bool :=
  op.idle || StateStore.footprint certificateId operationId op

/-- The records of facts and alerts are idle. -/
theorem idle_of_records (op : Op) (h : StateStore.records op = true) : op.idle = true := by
  cases op with
  | sql statement =>
    cases statement with
    | upsertFacts id update now => cases update <;> first | rfl | cases h
    | _ => first | rfl | cases h
  | _ => first | rfl | cases h

/-- Pauses are idle. -/
theorem idle_of_pauses (op : Op) (h : pauses op = true) : op.idle = true := by
  cases op <;> first | rfl | cases h

/-- Idling is quiet. -/
theorem quiet_of_idle {certificateId operationId : String} (op : Op) (h : op.idle = true) :
    op.quiet certificateId operationId = true := by
  rw [Op.quiet, h, Bool.true_or]

/-- What is done to the own row is quiet. -/
theorem quiet_of_footprint {certificateId operationId : String} (op : Op)
    (h : StateStore.footprint certificateId operationId op = true) : op.quiet certificateId operationId = true := by
  rw [Op.quiet, h, Bool.or_true]

section

variable {Γ : Ctx} {config : AppConfig} {certificate : CertificateConfig} {material : LineageMaterial}
  {chain : OciCertificateChain} {now : Instant} {A : Op → Prop} {id certificateId operationId requestId F : String}

/-- Building a chain idles. -/
theorem uses_buildChain (hA : ∀ op, op.idle = true → A op) :
    (buildChain Γ config certificate material).Uses A := by
  refine Program.uses_bind ?_ fun _ => uses_ofExcept
  refine Program.uses_bind (Program.uses_attempt (Program.uses_perform.2 (hA _ rfl))) fun content => ?_
  cases content with
  | ok raw => trivial
  | error x =>
    simp only
    split <;> trivial

/-! ## Reconciliation -/

namespace PublicationReconciler

variable {operationType : OperationType}

/-- The time of a renewal is a fact. -/
theorem uses_recordRenewal (hA : ∀ op, StateStore.records op = true → A op) :
    (recordRenewal certificate operationType).Uses A := by
  unfold recordRenewal
  split
  · exact StateStore.uses_recordFacts (hA _ rfl) fun _ => hA _ rfl
  · trivial

/-- A completed reconciliation writes its own row, and the fact of a renewal. -/
theorem uses_complete (hrec : ∀ op, StateStore.records op = true → A op)
    (hA : ∀ op, StateStore.footprint certificate.id operationId op = true → A op)
    (remoteFingerprint : String) (versionNumber : Int) (changed : Bool) :
    (complete operationId certificate F remoteFingerprint versionNumber changed operationType).Uses A := by
  refine Program.uses_bind (StateStore.uses_recordFacts (hrec _ rfl) fun _ => hrec _ rfl) fun _ => ?_
  refine Program.uses_bind (StateStore.uses_completeReconciledOperations hA _ _ _) fun _ => ?_
  refine Program.uses_bind (uses_recordRenewal hrec) fun _ => ?_
  exact Program.uses_bind (StateStore.uses_transition hA _ _) fun _ => trivial

/-- A promotion reads the certificate, promotes and pauses. -/
theorem uses_promoteCurrent (hpause : ∀ op, pauses op = true → A op) (hget : A (.getCertificate id requestId))
    (hpr : ∀ n etag, A (.promoteCurrent id n etag requestId)) (n : Int) : (promoteCurrent config id n requestId).Uses A := by
  unfold promoteCurrent
  induction (promotionPolicy config).maxAttempts with
  | zero => trivial
  | succ remaining ih =>
    refine Program.uses_bind (Program.uses_perform.2 hget) fun _ => ?_
    split
    · trivial
    · refine Program.uses_bind (Program.uses_attempt (Program.uses_perform.2 (hpr _ _))) fun outcome => ?_
      cases outcome with
      | ok _ => trivial
      | error x =>
        simp only
        split
        · exact Program.uses_bind (uses_sleepFor hpause _ _ _) fun _ => ih
        · trivial

/-- From the candidate on nothing is listed, and no numbered bundle is read. -/
theorem uses_promoteAndConfirm (hfoot : ∀ op, StateStore.footprint certificate.id operationId op = true → A op)
    (hrec : ∀ op, StateStore.records op = true → A op) (hpause : ∀ op, pauses op = true → A op)
    (hlog : ∀ level event fields, A (.logEvent level event fields)) (hget : A (.getCertificate id requestId))
    (hread : A (.getPublicBundle id none requestId)) (hpr : ∀ n etag, A (.promoteCurrent id n etag requestId))
    (c : OciCertificateVersion) :
    (promoteAndConfirm Γ config certificate F now operationType id operationId requestId c).Uses A := by
  refine Program.uses_bind (StateStore.uses_transition hfoot _ _) fun _ => ?_
  refine Program.uses_bind (Program.uses_perform.2 (hlog _ _ _)) fun _ => ?_
  refine Program.uses_bind (uses_promoteCurrent hpause hget hpr _) fun _ => ?_
  refine Program.uses_bind (Program.uses_perform.2 (hlog _ _ _)) fun _ => ?_
  refine Program.uses_bind (uses_retryReadUntilSync hpause (Program.uses_perform.2 hread) _ _) fun _ => ?_
  refine Program.uses_bind uses_ofExcept fun _ => ?_
  split
  · trivial
  · refine Program.uses_bind (StateStore.uses_transition hfoot _ _) fun _ => ?_
    refine Program.uses_bind (Program.uses_perform.2 (hlog _ _ _)) fun _ => ?_
    exact uses_complete hrec hfoot _ _ _

/-! ### What a reconciliation returns -/

/-- A completed reconciliation names the certificate and the fingerprint. -/
theorem yields_complete (f : String) (n : Int) (changed : Bool) :
    (complete operationId certificate F f n changed operationType).Yields
      fun result => result.certificateId = certificate.id ∧ result.localFingerprint = F := by
  refine Program.yields_last _ fun _ => Program.yields_last _ fun _ => ?_
  exact Program.yields_last _ fun _ => Program.yields_last _ fun _ => ⟨rfl, rfl⟩

/-- So does one that promotes first. -/
theorem yields_promoteAndConfirm (candidate : OciCertificateVersion) :
    (promoteAndConfirm Γ config certificate F now operationType id operationId requestId candidate).Yields
      fun result => result.certificateId = certificate.id ∧ result.localFingerprint = F := by
  refine Program.yields_last _ fun _ => Program.yields_last _ fun _ => Program.yields_last _ fun _ => ?_
  refine Program.yields_last _ fun _ => Program.yields_last _ fun _ => Program.yields_last _ fun _ => ?_
  split
  · trivial
  · exact Program.yields_last _ fun _ => Program.yields_last _ fun _ => yields_complete _ _ _

/-- The result names the certificate and the fingerprint. -/
theorem yields_publish :
    (publish Γ config certificate material chain F now operationType).Yields
      fun result => result.certificateId = certificate.id ∧ result.localFingerprint = F := by
  unfold publish
  split
  · trivial
  · refine Program.yields_last _ fun _ => Program.yields_last _ fun _ => Program.yields_last _ fun _ => ?_
    refine Program.yields_last _ fun _ => Program.yields_last _ fun _ => Program.yields_last _ fun _ => ?_
    split
    · exact Program.yields_last _ fun _ => yields_complete _ _ _
    · exact Program.yields_last _ fun _ => yields_promoteAndConfirm _

section Idle

variable (hA : ∀ op, op.idle = true → A op)

include hA

/-- The search of a matching version idles. -/
theorem uses_firstMatching (l : List OciCertificateVersion) :
    (firstMatching Γ id certificate config F now requestId l).Uses A := by
  induction l with
  | nil => trivial
  | cons c rest ih =>
    unfold firstMatching
    split
    · refine Program.uses_bind (Program.uses_perform.2 (hA _ rfl)) fun _ => ?_
      refine Program.uses_bind uses_ofExcept fun _ => ?_
      split
      · trivial
      · exact ih
    · exact ih

theorem uses_findMatchingPending : (findMatchingPending Γ id certificate config F now requestId).Uses A :=
  Program.uses_bind (Program.uses_perform.2 (hA _ rfl)) fun l => uses_firstMatching hA l

end Idle

variable (hA : ∀ op, op.quiet certificate.id operationId = true → A op)

include hA

/-- Beside its own row, obtaining a candidate uploads. -/
theorem uses_obtainCandidate (hup : ∀ etag imported, A (.uploadPendingVersion id etag imported requestId))
    (etag : Option String) :
    (obtainCandidate Γ config certificate material chain F now id operationId requestId etag).Uses A := by
  have hidle : ∀ op, op.idle = true → A op := fun op h => hA op (quiet_of_idle op h)
  refine Program.uses_bind (uses_findMatchingPending hidle) fun found => ?_
  cases found with
  | some c => trivial
  | none =>
    refine Program.uses_bind uses_ofExcept fun _ => ?_
    refine Program.uses_bind (Program.uses_perform.2 (hup _ _)) fun _ => ?_
    refine Program.uses_bind (StateStore.uses_transition (fun op h => hA op (quiet_of_footprint op h)) _ _) fun _ => ?_
    refine Program.uses_bind (Program.uses_perform.2 (hA _ rfl)) fun _ => ?_
    refine Program.uses_bind (uses_findMatchingPending hidle) fun visible => ?_
    cases visible <;> trivial

/-- A reconciliation uploads and promotes. -/
theorem uses_reconcile (hup : ∀ etag imported requestId, A (.uploadPendingVersion id etag imported requestId))
    (hpr : ∀ n etag requestId, A (.promoteCurrent id n etag requestId)) :
    (reconcile Γ config certificate material chain F now operationType id operationId).Uses A := by
  have hfoot : ∀ op, StateStore.footprint certificate.id operationId op = true → A op :=
    fun op h => hA op (quiet_of_footprint op h)
  refine Program.uses_bind (Program.uses_perform.2 (hA _ rfl)) fun requestId => ?_
  refine Program.uses_bind (Program.uses_perform.2 (hA _ rfl)) fun _ => ?_
  refine Program.uses_bind (Program.uses_perform.2 (hA _ rfl)) fun _ => ?_
  refine Program.uses_bind uses_ofExcept fun _ => ?_
  refine Program.uses_bind (StateStore.uses_transition hfoot _ _) fun _ => ?_
  split
  · refine Program.uses_bind (Program.uses_perform.2 (hA _ rfl)) fun _ => ?_
    exact uses_complete (fun op h => hA op (quiet_of_idle op (idle_of_records op h))) hfoot _ _ _
  · refine Program.uses_bind (uses_obtainCandidate hA (fun _ _ => hup _ _ _) _) fun _ => ?_
    exact uses_promoteAndConfirm hfoot (fun op h => hA op (quiet_of_idle op (idle_of_records op h)))
      (fun op h => hA op (quiet_of_idle op (idle_of_pauses op h))) (fun _ _ _ => hA _ rfl) (hA _ rfl) (hA _ rfl)
      (fun _ _ => hpr _ _ _) _

end PublicationReconciler

/-! ## Rollback -/

namespace RollbackService

variable {audit : Option AuditConfig} {passes : Nat}

/-- A failed audit ends its own row. -/
theorem uses_auditFailed (hA : ∀ op, StateStore.footprint certificateId operationId op = true → A op)
    (hlog : ∀ level event fields, A (.logEvent level event fields)) : (auditFailed operationId certificate).Uses A := by
  refine Program.uses_bind (StateStore.uses_transition hA _ _) fun _ => ?_
  exact Program.uses_bind (Program.uses_perform.2 (hlog _ _ _)) fun _ => trivial

/-- The audit of a rollback observes, and writes its own row. -/
theorem uses_auditRollback (hA : ∀ op, StateStore.footprint certificateId operationId op = true → A op)
    (hlog : ∀ level event fields, A (.logEvent level event fields)) (hob : ∀ op, op.observes = true → A op) (f : String) :
    (auditRollback Γ certificate operationId audit passes f).Uses A := by
  unfold auditRollback
  split
  · trivial
  · refine Program.uses_bind (StateStore.uses_transition hA _ _) fun _ => ?_
    refine Program.uses_bind (Program.uses_attempt (AuditService.uses_audit hob _ _ _)) fun outcome => ?_
    cases outcome with
    | error error =>
      simp only
      split
      · exact uses_auditFailed hA hlog
      · trivial
    | ok result =>
      simp only
      split
      · exact uses_auditFailed hA hlog
      · exact StateStore.uses_transition hA _ _

/-- Confirming a rollback reads the bundle, observes, and writes its own row. -/
theorem uses_confirm (hrec : ∀ op, StateStore.records op = true → A op)
    (hA : ∀ op, StateStore.footprint certificateId operationId op = true → A op)
    (hlog : ∀ level event fields, A (.logEvent level event fields)) (hpause : ∀ op, pauses op = true → A op)
    (hbundle : A (.getPublicBundle id none requestId)) (hob : ∀ op, op.observes = true → A op)
    (c : OciCertificateVersion) (f : String) :
    (confirm Γ config certificate now audit passes id operationId requestId c f).Uses A := by
  refine Program.uses_bind (uses_retryReadUntilSync hpause (Program.uses_perform.2 hbundle) _ _) fun _ => ?_
  refine Program.uses_bind uses_ofExcept fun _ => ?_
  split
  · trivial
  · refine Program.uses_bind (StateStore.uses_transition hA _ _) fun _ => ?_
    refine Program.uses_bind (StateStore.uses_recordFacts (hrec _ rfl) fun _ => hrec _ rfl) fun _ => ?_
    refine Program.uses_bind (uses_auditRollback hA hlog hob _) fun _ => ?_
    refine Program.uses_bind (StateStore.uses_transition hA _ _) fun _ => ?_
    exact Program.uses_bind (Program.uses_perform.2 (hlog _ _ _)) fun _ => trivial

/-- The search of the previous version idles. -/
theorem uses_previousVersion (hA : ∀ op, op.idle = true → A op) :
    (previousVersion id requestId).Uses A := by
  refine Program.uses_bind (Program.uses_perform.2 (hA _ rfl)) fun l => ?_
  split <;> trivial

/-- A rollback promotes, and observes where it audits. -/
theorem uses_restore (hA : ∀ op, op.quiet certificateId operationId = true → A op)
    (hob : ∀ op, op.observes = true → A op) (hpr : ∀ n etag requestId, A (.promoteCurrent id n etag requestId)) :
    (restore Γ config certificate now audit passes id operationId).Uses A := by
  have hfoot : ∀ op, StateStore.footprint certificateId operationId op = true → A op :=
    fun op h => hA op (quiet_of_footprint op h)
  have hidle : ∀ op, op.idle = true → A op := fun op h => hA op (quiet_of_idle op h)
  refine Program.uses_bind (Program.uses_perform.2 (hA _ rfl)) fun _ => ?_
  refine Program.uses_bind (Program.uses_perform.2 (hA _ rfl)) fun requestId => ?_
  refine Program.uses_bind (uses_previousVersion hidle) fun _ => ?_
  refine Program.uses_bind (Program.uses_perform.2 (hA _ rfl)) fun _ => ?_
  refine Program.uses_bind uses_ofExcept fun _ => ?_
  refine Program.uses_bind (Program.uses_perform.2 (hA _ rfl)) fun _ => ?_
  refine Program.uses_bind (StateStore.uses_transition hfoot _ _) fun _ => ?_
  refine Program.uses_bind (Program.uses_perform.2 (hpr _ _ _)) fun _ => ?_
  exact uses_confirm (fun op h => hidle op (idle_of_records op h)) hfoot (fun _ _ _ => hA _ rfl)
    (fun op h => hidle op (idle_of_pauses op h)) (hA _ rfl) hob _ _

end RollbackService

/-! ## Notifications -/

namespace NotificationService

variable (hA : ∀ op, op.idle = true → A op)

include hA

/-- Reading the secret of a webhook idles. -/
theorem uses_readSecret (path : String) : (readSecret path).Uses A := by
  refine Program.uses_bind (Program.uses_attempt (Program.uses_perform.2 (hA _ rfl))) fun content => ?_
  cases content with
  | error x =>
    simp only
    split <;> trivial
  | ok raw =>
    simp only
    split <;> trivial

/-- A delivery idles, as an alert is no change of OCI. -/
theorem uses_deliver (url : String) (payload : Payload) (dedupKey status : String) :
    (deliver url payload dedupKey status).Uses A := by
  refine Program.uses_bind (Program.uses_perform.2 (hA _ rfl)) fun code => ?_
  split
  · exact Program.uses_bind (StateStore.uses_recordAlertSent (fun op h => hA op (idle_of_records op h)) _ _) fun _ => trivial
  · split <;> trivial

/-- So do the attempts that are left. -/
theorem uses_attempts (url : String) (payload : Payload) (dedupKey status : String) (remaining : Nat) :
    (attempts url payload dedupKey status remaining).Uses A := by
  induction remaining with
  | zero =>
    unfold attempts
    trivial
  | succ remaining ih =>
    have hagain : (again remaining (attempts url payload dedupKey status remaining)).Uses A := by
      unfold again
      split
      · exact Program.uses_bind (Program.uses_perform.2 (hA _ rfl)) fun _ => ih
      · exact ih
    unfold attempts
    refine Program.uses_bind (Program.uses_attempt (uses_deliver hA _ _ _ _)) fun outcome => ?_
    cases outcome with
    | ok delivered =>
      cases delivered
      · exact hagain
      · trivial
    | error x =>
      simp only
      split
      · split
        · trivial
        · exact hagain
      · trivial

/-- A notification idles. -/
theorem uses_notify (configuration : NotificationsConfig) (event : String) (fields : List (String × String)) :
    (notify Γ configuration event fields).Uses A := by
  unfold notify
  split
  · trivial
  · refine Program.uses_bind (StateStore.uses_shouldSendAlert (fun op h => hA op (idle_of_records op h)) _ _ _) fun due => ?_
    split
    · trivial
    · split
      · trivial
      · refine Program.uses_bind uses_ofExcept fun path => ?_
        refine Program.uses_bind (uses_readSecret hA path) fun secret => ?_
        refine Program.uses_bind uses_ofExcept fun url => ?_
        exact uses_attempts hA _ _ _ _ _

end NotificationService

/-! ## Issuance -/

namespace NativeAcmeService

/-- The current generation is loaded where it exists. -/
theorem uses_loadOptional (hexists : A (.lineageExists certificate.id)) (hload : A (.loadLineage certificate.id)) :
    (loadOptional certificate).Uses A := by
  refine Program.uses_bind (Program.uses_perform.2 hexists) fun found => ?_
  split
  · trivial
  · exact Program.uses_bind (Program.uses_perform.2 hload) fun _ => trivial

/-- Whether the current generation is reused depends on the clock. -/
theorem uses_reusable (hnow : A .now) (force : Bool) (current : Option LineageMaterial) :
    (issue.reusable config force current).Uses A := by
  cases current with
  | none => trivial
  | some material =>
    simp only [issue.reusable]
    split
    · trivial
    · exact Program.uses_bind (Program.uses_perform.2 hnow) fun _ => trivial

/-- Challenge files are removed one by one. -/
theorem uses_removeChallenges (hremove : ∀ path, A (.removeChallenge path)) (paths : List String) :
    (removeChallenges paths).Uses A := by
  induction paths with
  | nil => trivial
  | cons path rest ih => exact Program.uses_bind (Program.uses_perform.2 (hremove path)) fun _ => ih

section Idle

variable (hA : ∀ op, op.idle = true → A op)

include hA

/-- Obtaining the private key idles. -/
theorem uses_certificateKey (current : Option LineageMaterial) : (certificateKey config certificate current).Uses A := by
  unfold certificateKey
  split
  · split <;> trivial
  · exact Program.uses_perform.2 (hA _ rfl)

/-- Answering the challenges idles, as their files are no generation. -/
theorem uses_answerChallenges (order : Order) (l : List Authorization) (paths : List String) :
    (answerChallenges config certificate order l paths).Uses A := by
  induction l generalizing paths with
  | nil => trivial
  | cons authorization rest ih =>
    unfold answerChallenges
    split
    · trivial
    · refine Program.uses_bind (Program.uses_attempt (Program.uses_perform.2 (hA _ rfl))) fun written => ?_
      cases written with
      | error x => trivial
      | ok _ =>
        refine Program.uses_bind (Program.uses_attempt (Program.uses_perform.2 (hA _ rfl))) fun answered => ?_
        cases answered with
        | error x => trivial
        | ok _ => exact ih _

/-- The search of a chain idles. -/
theorem uses_selectChain (privateKey : PrivateKey) (privateKeyPem : Bytes) (l : List String) :
    (selectChain Γ config certificate privateKey privateKeyPem l).Uses A := by
  induction l with
  | nil => trivial
  | cons candidate rest ih =>
    have hcandidate : (selectCandidate Γ config certificate privateKey privateKeyPem candidate).Uses A := by
      unfold selectCandidate
      split
      · trivial
      · refine Program.uses_bind (Program.uses_perform.2 (hA _ rfl)) fun _ => ?_
        refine Program.uses_bind uses_ofExcept fun _ => ?_
        exact Program.uses_bind (uses_buildChain hA) fun _ => trivial
      · trivial
    unfold selectChain
    split
    · exact ih
    · refine Program.uses_bind (Program.uses_attempt hcandidate) fun outcome => ?_
      cases outcome with
      | ok _ => trivial
      | error x =>
        simp only
        split
        · exact ih
        · trivial

/-- Placing an order places one. -/
theorem uses_placeOrder (hnew : ∀ csr profile, A (.newOrder csr profile)) (privateKey : PrivateKey) :
    (placeOrder Γ config certificate privateKey).Uses A := by
  refine Program.uses_bind (Program.uses_perform.2 (hA _ rfl)) fun _ => ?_
  refine Program.uses_bind (Program.uses_perform.2 (hnew _ _)) fun order => ?_
  simp only
  split <;> trivial

/-- Finalizing an order ends it, and commits a generation of its certificate. -/
theorem uses_finalize (hfinal : ∀ order deadline, A (.finalizeOrder order deadline))
    (hcommit : ∀ generation, A (.commitLineage certificate.id generation)) (privateKey : PrivateKey) (order : Order) :
    (finalize Γ config certificate privateKey order).Uses A := by
  refine Program.uses_bind (Program.uses_perform.2 (hA _ rfl)) fun _ => ?_
  refine Program.uses_bind (Program.uses_perform.2 (hA _ rfl)) fun _ => ?_
  refine Program.uses_bind (Program.uses_perform.2 (hfinal _ _)) fun _ => ?_
  refine Program.uses_bind (uses_selectChain hA _ _ _) fun _ => ?_
  refine Program.uses_bind (Program.uses_perform.2 (hA _ rfl)) fun _ => ?_
  refine Program.uses_bind (Program.uses_perform.2 (hA _ rfl)) fun _ => ?_
  exact Program.uses_perform.2 (hcommit _)

/-- An issuance places and finalizes an order, and commits a generation of its certificate. -/
theorem uses_issue (hnew : ∀ csr profile, A (.newOrder csr profile))
    (hfinal : ∀ order deadline, A (.finalizeOrder order deadline))
    (hcommit : ∀ generation, A (.commitLineage certificate.id generation)) (force : Bool) :
    (issue Γ config certificate force).Uses A := by
  have horder : ∀ privateKey, (runOrder Γ config certificate privateKey).Uses A := by
    intro privateKey
    refine Program.uses_bind (Program.uses_attempt (uses_placeOrder hA hnew _)) fun placed => ?_
    cases placed with
    | error x => trivial
    | ok order =>
      refine Program.uses_bind (uses_answerChallenges hA _ _ _) fun answered => ?_
      obtain ⟨outcome, paths⟩ := answered
      cases outcome with
      | error x => trivial
      | ok _ => exact Program.uses_bind (Program.uses_attempt (uses_finalize hA hfinal hcommit _ _)) fun _ => trivial
  refine Program.uses_bind (uses_loadOptional (hA _ rfl) (hA _ rfl)) fun current => ?_
  refine Program.uses_bind (uses_reusable (hA _ rfl) force current) fun reused => ?_
  cases reused with
  | some material => trivial
  | none =>
    refine Program.uses_bind (uses_certificateKey hA current) fun privateKey => ?_
    refine Program.uses_bind (horder privateKey) fun outcome => ?_
    exact Program.uses_bind (uses_removeChallenges (fun _ => hA _ rfl) _) fun _ => uses_ofExcept

end Idle

end NativeAcmeService

/-! ## Orchestration -/

namespace PublicationService

section Idle

variable (hA : ∀ op, op.idle = true → A op)

include hA

theorem uses_openPorts : (openPorts config certificate).Uses A :=
  Program.uses_bind (Program.uses_perform.2 (hA _ rfl)) fun _ => Program.uses_perform.2 (hA _ rfl)

/-- The notification of a failed audit idles. -/
theorem uses_notifyAuditFailure (id : String) : (notifyAuditFailure Γ config id).Uses A := by
  refine Program.uses_bind (Program.uses_attempt (NotificationService.uses_notify hA _ _ _)) fun outcome => ?_
  cases outcome with
  | ok _ => trivial
  | error x =>
    simp only
    split <;> trivial

/-- The notification of an event idles. -/
theorem uses_notifyEvent (id event : String) : (notifyEvent Γ config id event).Uses A := by
  refine Program.uses_bind (Program.uses_attempt (Program.uses_perform.2 (hA _ rfl))) fun opened => ?_
  cases opened with
  | error x =>
    simp only
    split <;> trivial
  | ok _ =>
    refine Program.uses_bind (Program.uses_attempt (NotificationService.uses_notify hA _ _ _)) fun outcome => ?_
    cases outcome with
    | ok _ => trivial
    | error x =>
      simp only
      split <;> trivial

/-- The gate of production idles. -/
theorem uses_requireProductionQualification : (requireProductionQualification config certificate).Uses A := by
  unfold requireProductionQualification requireQualifiedProfile
  split
  · split
    · trivial
    · induction config.compatibility.liveEvidencePaths with
      | nil => trivial
      | cons path rest ih =>
        refine Program.uses_bind (Program.uses_perform.2 (hA _ rfl)) fun payload => ?_
        split
        · trivial
        · exact ih
  · trivial

/-- A preflight idles, as its challenge file is no generation. -/
theorem uses_runPreflight : (runPreflight certificate).Uses A := by
  refine Program.uses_bind (Program.uses_perform.2 (hA _ rfl)) fun _ => ?_
  refine Program.uses_bind (Program.uses_attempt (Program.uses_perform.2 (hA _ rfl))) fun outcome => ?_
  cases outcome with
  | ok _ => exact Program.uses_perform.2 (hA _ rfl)
  | error x =>
    simp only
    split
    · exact Program.uses_bind (Program.uses_perform.2 (hA _ rfl)) fun _ => trivial
    · trivial

theorem uses_auditService : (auditService config certificate).Uses A := by
  unfold auditService
  split
  · exact Program.uses_bind (Program.uses_perform.2 (hA _ rfl)) fun _ => trivial
  · trivial

/-- Reading the fingerprint of the current bundle idles. -/
theorem uses_beforeFingerprint : (beforeFingerprint Γ config certificate).Uses A := by
  refine Program.uses_bind (Program.uses_perform.2 (hA _ rfl)) fun found => ?_
  split
  · trivial
  · refine Program.uses_bind (Program.uses_perform.2 (hA _ rfl)) fun _ => ?_
    refine Program.uses_bind (Program.uses_perform.2 (hA _ rfl)) fun _ => ?_
    exact Program.uses_bind uses_ofExcept fun _ => trivial

/-- Retention schedules deletions. -/
theorem uses_retention (hdel : ∀ ocid n time etag requestId, A (.scheduleVersionDeletion ocid n time etag requestId))
    (certificateId : String) : (retention config certificateId).Uses A := by
  have hschedule : ∀ (c : CertificateConfig) ocid time l, (scheduleDeletions c ocid time l).Uses A := by
    intro c ocid time l
    induction l with
    | nil => trivial
    | cons n rest ih =>
      refine Program.uses_bind (Program.uses_perform.2 (hA _ rfl)) fun _ => ?_
      refine Program.uses_bind (Program.uses_perform.2 (hA _ rfl)) fun version => ?_
      split
      · trivial
      · refine Program.uses_bind (Program.uses_perform.2 (hdel _ _ _ _ _)) fun _ => ?_
        exact Program.uses_bind (Program.uses_perform.2 (hA _ rfl)) fun _ => ih
  refine Program.uses_bind uses_ofExcept fun c => ?_
  simp only
  split
  · trivial
  · refine Program.uses_bind (uses_openPorts hA) fun _ => ?_
    refine Program.uses_bind (Program.uses_perform.2 (hA _ rfl)) fun _ => ?_
    refine Program.uses_bind (Program.uses_perform.2 (hA _ rfl)) fun _ => ?_
    refine Program.uses_bind (Program.uses_perform.2 (hA _ rfl)) fun _ => ?_
    refine Program.uses_bind (Program.uses_perform.2 (hA _ rfl)) fun _ => ?_
    exact Program.uses_bind (hschedule _ _ _ _) fun _ => trivial

/-- So does the retention that follows a publication. -/
theorem uses_runPostPublicationRetention
    (hdel : ∀ ocid n time etag requestId, A (.scheduleVersionDeletion ocid n time etag requestId)) :
    (runPostPublicationRetention Γ config certificate).Uses A := by
  unfold runPostPublicationRetention
  split
  · trivial
  · refine Program.uses_bind (Program.uses_attempt (uses_retention hA hdel _)) fun outcome => ?_
    cases outcome with
    | error x =>
      simp only
      split
      · refine Program.uses_bind (Program.uses_perform.2 (hA _ rfl)) fun _ => ?_
        exact uses_notifyEvent hA _ _
      · trivial
    | ok result =>
      simp only
      split
      · exact Program.uses_perform.2 (hA _ rfl)
      · trivial

end Idle

section Quiet

variable (hA : ∀ op, op.quiet certificateId operationId = true → A op)

include hA

/-- A failed audit ends its own row, and notifies. -/
theorem uses_auditFailed : (auditFailed Γ config certificate operationId).Uses A := by
  refine Program.uses_bind (StateStore.uses_transition (fun op h => hA op (quiet_of_footprint op h)) _ _) fun _ => ?_
  refine Program.uses_bind (uses_notifyAuditFailure (fun op h => hA op (quiet_of_idle op h)) _) fun _ => ?_
  exact Program.uses_perform.2 (hA _ rfl)

/-- An audit observes, and records what it saw. -/
theorem uses_auditStarted (hob : ∀ op, op.observes = true → A op) (hrec : ∀ op, StateStore.recordsAudit op = true → A op)
    (passes : Nat) (ocid : String) :
    (auditStarted Γ config passes certificate ocid operationId).Uses A := by
  have hfoot : ∀ op, StateStore.footprint certificateId operationId op = true → A op :=
    fun op h => hA op (quiet_of_footprint op h)
  refine Program.uses_bind (Program.uses_perform.2 (hA _ rfl)) fun requestId => ?_
  refine Program.uses_bind (StateStore.uses_transition hfoot _ _) fun _ => ?_
  refine Program.uses_handle ?_ fun x => ?_
  · refine Program.uses_bind (Program.uses_perform.2 (hA _ rfl)) fun _ => ?_
    refine Program.uses_bind (Program.uses_perform.2 (hA _ rfl)) fun _ => ?_
    refine Program.uses_bind uses_ofExcept fun _ => ?_
    refine Program.uses_bind (uses_auditService fun op h => hA op (quiet_of_idle op h)) fun _ => ?_
    refine Program.uses_bind (AuditService.uses_audit hob _ _ _) fun _ => ?_
    split
    · exact Program.uses_bind (uses_auditFailed hA) fun _ => trivial
    · refine Program.uses_bind (StateStore.uses_transition hfoot _ _) fun _ => ?_
      refine Program.uses_bind (StateStore.uses_recordFacts (hA _ rfl) fun _ => hrec _ rfl) fun _ => ?_
      refine Program.uses_bind (StateStore.uses_transition hfoot _ _) fun _ => ?_
      refine Program.uses_bind (StateStore.uses_completeInterruptedAudits (hA _ rfl) fun _ => hrec _ rfl) fun _ => ?_
      exact Program.uses_bind (Program.uses_perform.2 (hA _ rfl)) fun _ => trivial
  · split
    · exact Program.uses_bind (uses_auditFailed hA) fun _ => trivial
    · trivial

end Quiet

/-! ### The audit and the rollback that may follow a publication -/

section After

variable (hA : ∀ certificateId operationId op, op.quiet certificateId operationId = true → A op)
  (hob : ∀ op, op.observes = true → A op)
  (hrow : ∀ row : OperationRow, row.operationType = .audit ∨ row.operationType = .rollback →
    row.localFingerprint = none → A (.sql (.insertOperation row)))

include hA hob hrow

/-- An audit inserts a row of its own, observes, and records what it saw. -/
theorem uses_audit (hrec : ∀ op, StateStore.recordsAudit op = true → A op) (passes : Nat) (certificateId : String) :
    (audit Γ config passes certificateId).Uses A := by
  refine Program.uses_bind uses_ofExcept fun certificate => ?_
  split
  · trivial
  · rename_i ocid _
    refine Program.uses_bind (uses_openPorts fun op h => hA "" "" op (quiet_of_idle op h)) fun _ => ?_
    refine Program.uses_bind (StateStore.uses_startOperation (hA "" "" _ rfl) (hA "" "" _ rfl) _ _ _ _
      fun row _ hty hF _ => hrow row (Or.inl hty) hF) fun operation => ?_
    exact uses_auditStarted (hA certificate.id operation.operationId) hob hrec passes ocid

/-- A rollback inserts a row of its own, promotes, and observes. -/
theorem uses_rollback (hpr : ∀ ocid n etag requestId, A (.promoteCurrent ocid n etag requestId)) (passes : Nat)
    (certificateId : String) : (rollback Γ config passes certificateId).Uses A := by
  have hidle : ∀ op, op.idle = true → A op := fun op h => hA "" "" op (quiet_of_idle op h)
  refine Program.uses_bind uses_ofExcept fun certificate => ?_
  refine Program.uses_bind (uses_openPorts hidle) fun _ => ?_
  refine Program.uses_bind (Program.uses_perform.2 (hidle _ rfl)) fun now => ?_
  refine Program.uses_bind (uses_auditService hidle) fun configuration => ?_
  unfold RollbackService.rollback
  split
  · trivial
  · rename_i ocid _
    refine Program.uses_bind (StateStore.uses_startOperation (hidle _ rfl) (hidle _ rfl) _ _ _ _
      fun row _ hty hF _ => hrow row (Or.inr hty) hF) fun operation => ?_
    exact RollbackService.uses_restore (hA certificate.id operation.operationId) hob fun _ _ _ => hpr _ _ _ _

/-- After a publication there may be an audit and a rollback. -/
theorem uses_runPostPublicationAudit (hrec : ∀ op, StateStore.recordsAudit op = true → A op)
    (hpr : ∀ ocid n etag requestId, A (.promoteCurrent ocid n etag requestId)) (passes : Nat) : (runPostPublicationAudit Γ config passes certificate).Uses A := by
  have hidle : ∀ op, op.idle = true → A op := fun op h => hA "" "" op (quiet_of_idle op h)
  have haudit : (audit Γ config passes certificate.id).Uses A := uses_audit hA hob hrow hrec passes certificate.id
  unfold runPostPublicationAudit enforcePostPublicationAudit
  split
  · trivial
  · split
    · trivial
    · refine Program.uses_bind (Program.uses_handle haudit fun x => ?_) fun successful => ?_
      · split <;> trivial
      · split
        · trivial
        · split
          · trivial
          · refine Program.uses_bind (Program.uses_attempt (uses_rollback hA hob hrow hpr passes _)) fun outcome => ?_
            cases outcome with
            | ok _ => trivial
            | error x =>
              simp only
              split
              · exact Program.uses_bind (Program.uses_perform.2 (hidle _ rfl)) fun _ => trivial
              · trivial
  · refine Program.uses_handle (Program.uses_bind haudit fun _ => trivial) fun x => ?_
    split <;> trivial

end After

end PublicationService

end

end OciAcmePublisher
