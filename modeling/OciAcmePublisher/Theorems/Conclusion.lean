import OciAcmePublisher.Effects.Monitor
import OciAcmePublisher.PublicationService
import OciAcmePublisher.Simulation

/-!
# How a confirmed publication concludes

Once the reconciler has returned, a publication records its completion, observes the endpoints and retires old versions. Outside
enforce mode it returns what the reconciler returned, exactly where none of these steps ends with an exception that is not caught:
the observation may end with `AuditError`, the retention with one of the five classes its handler names.
-/

namespace OciAcmePublisher

open Effects PublicationService

/-- The steps after the reconciler. -/
inductive ConclusionOp where
  | recordCompleted | observe | enforce | retain | recordRetentionFailed | notifyRetentionFailed | recordRetentionSkipped
  deriving DecidableEq

/-- The signature of a conclusion. -/
@[reducible] def conclusion : Signature where
  Op := ConclusionOp
  Reply
    | .observe => Bool
    | .retain => RetentionResult
    | _ => Unit

namespace PublicationService

variable (Γ : Ctx) (config : AppConfig)

/-- `publish`, up to the reconciler's return. -/
def reconciled (certificateId : String) (operationType : OperationType) :
    Action (CertificateConfig × PublicationResult) := do
  let certificate ← ofExcept (configuredCertificate config certificateId)
  requireProductionQualification config certificate
  let material ← perform (.loadLineage certificate.id)
  let validated ← perform .now
  let fingerprint ← ofExcept
    (validateCertificateMaterial Γ material certificate config.compatibility config.global validated)
  let chain ← buildChain Γ config certificate material
  logEvent .info "LOCAL_CERT_VALIDATED" [("certificate_id", .text certificate.id)]
  openPorts config certificate
  let now ← perform .now
  let result ← PublicationReconciler.publish Γ config certificate material chain fingerprint now operationType
  return (certificate, result)

/-- The audit after a publication. -/
def concludeAudit (mode : AuditMode) : Program conclusion Exc Unit :=
  match mode with
  | .disabled => return ()
  | .enforce => Program.perform (S := conclusion) .enforce
  | .observe =>
    Program.handle ((Program.perform (S := conclusion) .observe).bind fun _ => .ret ()) fun error =>
      if error.isInstance .auditError then return () else .raise error

/-- The retention after a publication. -/
def concludeRetention (enabled : Bool) : Program conclusion Exc Unit :=
  if enabled = false then return ()
  else do
    let outcome ← (Program.perform (S := conclusion) .retain).attempt
    match outcome with
    | .error error =>
      if error.isOneOf retentionFailures then do
        Program.perform (S := conclusion) .recordRetentionFailed
        Program.perform (S := conclusion) .notifyRetentionFailed
      else .raise error
    | .ok result =>
      if result.scheduledVersionNumbers = [] then Program.perform (S := conclusion) .recordRetentionSkipped
      else return ()

/-- `publish`, from the reconciler's return on. -/
def conclude (certificate : CertificateConfig) (result : PublicationResult) : Program conclusion Exc PublicationResult := do
  Program.perform (S := conclusion) .recordCompleted
  concludeAudit certificate.audit.mode
  concludeRetention certificate.retention.enabled
  return result

/-- What each step of a conclusion does. -/
def conclusionStep (passes : Nat) (operationType : OperationType) (certificate : CertificateConfig)
    (result : PublicationResult) : (op : conclusion.Op) → Action (conclusion.Reply op)
  | .recordCompleted => logEvent .info "OPERATION_COMPLETED"
      [("certificate_id", .text certificate.id), ("operation", .text operationType.lowerName),
        ("version_number", .number result.currentVersionNumber)]
  | .observe => audit Γ config passes certificate.id
  | .enforce => enforcePostPublicationAudit Γ config passes certificate
  | .retain => retention config certificate.id
  | .recordRetentionFailed => logEvent .error "RETENTION_FAILED" [("certificate_id", .text certificate.id)]
  | .notifyRetentionFailed => notifyEvent Γ config certificate.id "RETENTION_FAILED"
  | .recordRetentionSkipped => logEvent .info "RETENTION_SKIPPED" [("certificate_id", .text certificate.id)]

end PublicationService

/-- The step did not raise, or raised what the publication catches. -/
def Tolerated (e : Event conclusion Exc) : Prop :=
  ∀ x, e.answer = .error x → (e.op = .observe ∧ x.isInstance .auditError = true) ∨
    (e.op = .retain ∧ x.isOneOf retentionFailures = true)

namespace ConclusionAux

variable {Γ : Ctx} {config : AppConfig} {passes : Nat} {operationType : OperationType} {certificate : CertificateConfig}
  {result : PublicationResult} {certificateId : String}

/-! ## A publication is its reconciliation and its conclusion -/

theorem subst_concludeAudit :
    (concludeAudit certificate.audit.mode).subst (conclusionStep Γ config passes operationType certificate result) =
      runPostPublicationAudit Γ config passes certificate := by
  unfold concludeAudit runPostPublicationAudit
  cases certificate.audit.mode with
  | disabled => rfl
  | enforce => exact Program.subst_perform _
  | observe =>
    simp only
    rw [Program.subst_handle, Program.subst_bind, Program.subst_perform]
    congr 1
    funext error
    split <;> rfl

theorem subst_concludeRetention :
    (concludeRetention certificate.retention.enabled).subst
        (conclusionStep Γ config passes operationType certificate result) =
      runPostPublicationRetention Γ config certificate := by
  unfold concludeRetention runPostPublicationRetention
  split
  · rfl
  simp only [Program.bind_eq]
  rw [Program.subst_bind, Program.attempt, Program.subst_handle, Program.subst_bind, Program.subst_perform]
  congr 1
  funext outcome
  rcases outcome with error | retained
  · simp only
    split
    · rw [Program.subst_bind, Program.subst_perform, Program.subst_perform]
      rfl
    · rfl
  · simp only
    split
    · exact Program.subst_perform _
    · rfl

/-- A publication is its reconciliation, then its conclusion. -/
theorem publish_eq :
    publish Γ config passes certificateId operationType =
      (reconciled Γ config certificateId operationType).bind fun reached =>
        (conclude reached.1 reached.2).subst (conclusionStep Γ config passes operationType reached.1 reached.2) := by
  have hconclude : ∀ certificate result,
      (conclude certificate result).subst (conclusionStep Γ config passes operationType certificate result) =
        (logEvent .info "OPERATION_COMPLETED" [("certificate_id", .text certificate.id),
          ("operation", .text operationType.lowerName), ("version_number", .number result.currentVersionNumber)]).bind
            fun _ => (runPostPublicationAudit Γ config passes certificate).bind fun _ =>
              (runPostPublicationRetention Γ config certificate).bind fun _ => .ret result := by
    intro certificate result
    simp only [conclude, Program.bind_eq, Program.subst_bind, subst_concludeAudit, subst_concludeRetention]
    exact congrArg (Program.bind · _)
      (Program.subst_perform (σ := conclusionStep Γ config passes operationType certificate result) .recordCompleted)
  simp only [hconclude]
  simp only [publish, reconciled, Program.bind_eq, Program.pure_eq, Program.bind_assoc, Program.ret_bind]

/-! ## What a conclusion tolerates -/

/-- Every step so far was tolerated. -/
def AllTolerated (t : List (Event conclusion Exc)) : Prop := ∀ e ∈ t, Tolerated e

theorem allTolerated_snoc {t : List (Event conclusion Exc)} {e : Event conclusion Exc} (h : AllTolerated t)
    (he : Tolerated e) : AllTolerated (t ++ [e]) := by
  intro a ha
  rcases List.mem_append.1 ha with ha | ha
  · exact h a ha
  · rw [List.mem_singleton.1 ha]
    exact he

theorem tolerated_ok {op : ConclusionOp} {a : conclusion.Reply op} : Tolerated ⟨op, .ok a⟩ := fun x hx => by cases hx

/-- The runs of `p`: it returns where every step was tolerated, and raises where one was not. -/
abbrev Concludes {α : Type} (p : Program conclusion Exc α) (Q : α → Prop) : Prop :=
  Triple anyAnswer AllTolerated p (fun a t => AllTolerated t ∧ Q a) (fun _ t => ¬AllTolerated t) fun _ => True

/-- One step: its exceptions as they are judged. -/
theorem perform_judged (op : ConclusionOp) :
    Triple anyAnswer AllTolerated (Program.perform (S := conclusion) op) (fun _ => AllTolerated)
      (fun x t => AllTolerated t ↔ ((op = .observe ∧ x.isInstance .auditError = true) ∨
        (op = .retain ∧ x.isOneOf retentionFailures = true))) fun _ => True := by
  refine Triple.perform (fun _ _ => trivial) ?_ ?_
  · rintro t a _ ht rfl
    exact ⟨allTolerated_snoc ht tolerated_ok, trivial⟩
  · rintro t x _ ht rfl
    refine ⟨⟨fun h => h _ (List.mem_append_right _ (List.mem_singleton_self _)) x rfl, fun h => ?_⟩, trivial⟩
    refine allTolerated_snoc ht fun y hy => ?_
    cases hy
    exact h

/-- A step whose exceptions are not caught. -/
theorem perform_concludes {op : ConclusionOp} (hobserve : op ≠ .observe) (hretain : op ≠ .retain) :
    Concludes (Program.perform (S := conclusion) op) fun _ => True := by
  refine (perform_judged op).conseq (fun _ h => h) (fun _ _ h => ⟨h, trivial⟩) (fun x t h hall => ?_) fun _ h => h
  rcases h.1 hall with ⟨h, -⟩ | ⟨h, -⟩
  · exact hobserve h
  · exact hretain h

theorem concludeAudit_concludes {mode : AuditMode} (hmode : mode ≠ .enforce) :
    Concludes (concludeAudit mode) fun _ => True := by
  cases mode with
  | disabled => exact Triple.ret (fun _ h => ⟨h, trivial⟩) fun _ _ => trivial
  | enforce => exact absurd rfl hmode
  | observe =>
    refine Triple.handle (Triple.bind (perform_judged .observe) fun _ => Triple.ret (fun _ h => ⟨h, trivial⟩) fun _ _ => trivial)
      fun x => ?_
    by_cases hx : x.isInstance .auditError = true
    · rw [if_pos hx]
      exact Triple.ret (fun _ h => ⟨h.2 (Or.inl ⟨rfl, hx⟩), trivial⟩) fun _ _ => trivial
    · rw [if_neg hx]
      refine Triple.raise (fun t h hall => ?_) fun _ _ => trivial
      rcases h.1 hall with ⟨-, h⟩ | ⟨h, -⟩
      · exact hx h
      · cases h

theorem concludeRetention_concludes (enabled : Bool) : Concludes (concludeRetention enabled) fun _ => True := by
  unfold concludeRetention
  split
  · exact Triple.ret (fun _ h => ⟨h, trivial⟩) fun _ _ => trivial
  refine Triple.bind (Triple.attempt (perform_judged .retain) (fun _ _ _ => trivial) fun _ _ _ => trivial) ?_
  rintro (x | retained)
  · dsimp only
    split
    · rename_i hx
      refine Triple.bind ((perform_concludes (by decide) (by decide)).pre fun t h => h.2 (Or.inr ⟨rfl, hx⟩)) fun _ => ?_
      exact (perform_concludes (by decide) (by decide)).pre fun _ h => h.1
    · rename_i hx
      refine Triple.raise (fun t h hall => ?_) fun _ _ => trivial
      rcases h.1 hall with ⟨h, -⟩ | ⟨-, h⟩
      · cases h
      · exact hx h
  · simp only
    split
    · exact perform_concludes (by decide) (by decide)
    · exact Triple.ret (fun _ h => ⟨h, trivial⟩) fun _ _ => trivial

theorem conclude_concludes (hmode : certificate.audit.mode ≠ .enforce) :
    Concludes (conclude certificate result) fun a => a = result := by
  refine Triple.bind (perform_concludes (by decide) (by decide)) fun _ => ?_
  refine Triple.bind ((concludeAudit_concludes hmode).pre fun _ h => h.1) fun _ => ?_
  refine Triple.bind ((concludeRetention_concludes _).pre fun _ h => h.1) fun _ => ?_
  exact Triple.ret (fun _ h => ⟨h.1, rfl⟩) fun _ _ => trivial

end ConclusionAux

open ConclusionAux

/-- What may come after the reconciler. Whatever the ports answer, a finished publication either raised before its reconciler had
returned, or goes on from there with the steps of its conclusion; outside enforce mode it then returns what the reconciler returned
if and only if no step raised, but for an observation that raised `AuditError` and a retention that raised a class it names. -/
theorem publish_concludes_iff (Γ : Ctx) (config : AppConfig) (passes : Nat) (certificateId : String)
    (operationType : OperationType) {W : Type} {env : Env publisher Exc W} {w w' : W} {o : Outcome Exc PublicationResult}
    (h : Exec env (publish Γ config passes certificateId operationType) w o w') (ho : o ≠ .crashed) :
    (∃ x, o = .raised x ∧ Exec env (reconciled Γ config certificateId operationType) w (.raised x) w') ∨
      ∃ certificate result w₁ t,
        Exec env (reconciled Γ config certificateId operationType) w (.returned (certificate, result)) w₁ ∧
          Exec (recording (implementing env (conclusionStep Γ config passes operationType certificate result)))
            (conclude certificate result) (w₁, []) o (w', t) ∧
          (certificate.audit.mode ≠ .enforce → (o = .returned result ↔ ∀ e ∈ t, Tolerated e)) := by
  rw [publish_eq] at h
  rcases exec_bind_iff.1 h with ⟨⟨certificate, result⟩, w₁, hreconciled, hconclude⟩ | ⟨x, rfl, hx⟩ | ⟨hc, -⟩
  · obtain ⟨t, ht⟩ := (hconclude.abstract ho).record []
    refine Or.inr ⟨certificate, result, w₁, t, hreconciled, ht, fun hmode => ?_⟩
    have hstart : AllTolerated [] := fun e he => by cases he
    have hpost := conclude_concludes hmode [] hstart o t ht.anyAnswer
    cases o with
    | returned a =>
      obtain ⟨hall, rfl⟩ := hpost
      exact ⟨fun _ => hall, fun _ => rfl⟩
    | raised x => exact ⟨fun heq => (by cases heq), fun hall => absurd hall hpost⟩
    | crashed => exact absurd rfl ho
  · exact Or.inl ⟨x, rfl, hx⟩
  · exact absurd hc ho

namespace ConclusionAux

open Sample

/-- The sample certificate, observed at one endpoint. -/
def observed : CertificateConfig := { certificate with audit := { endpoints := endpoints } }

/-- CURRENT is `B`, and the name of the endpoint is resolved as told. -/
def resolving (answer : Except Exc (List String)) : World :=
  { world (.created (version 1 "B" [])) with
    network := fun _ op => match op with
      | .resolve _ => answer
      | .probe .. => .ok (certificateSha256 (leaf 2))
      | .monotonic => .ok 0
      | _ => .error (.of .osError "no network") }

/-- A publication of `B`. -/
def concludingRun (answer : Except Exc (List String)) : Outcome Exc PublicationResult × World :=
  (publish addressed (config observed) 1 "web" .publish).runFor (simulate addressed script) 100 (resolving answer)

theorem concludingRun_exec (answer : Except Exc (List String)) :
    Exec (service addressed noFaults) (publish addressed (config observed) 1 "web" .publish) (resolving answer)
      (concludingRun answer).1 (concludingRun answer).2 :=
  exec_runFor (simulate_allowed addressed script noFaults) 100 _ _

/-- What the reconciler returns. -/
def reconciledRun (answer : Except Exc (List String)) : Outcome Exc (CertificateConfig × PublicationResult) × World :=
  (reconciled addressed (config observed) "web" .publish).runFor (simulate addressed script) 100 (resolving answer)

end ConclusionAux

/-- In observe mode, with CURRENT confirmed, an endpoint whose name does not resolve turns the publication into an `OSError`. -/
theorem publish_concludes_false :
    ∃ w w', observed.audit.mode = .observe ∧
      Exec (service Sample.addressed noFaults) (reconciled Sample.addressed (Sample.config observed) "web" .publish)
        (resolving (.error (.of .osError "no such host")))
        (.returned (observed, ⟨"web", 1, certificateSha256 (Sample.leaf 2), false⟩)) w ∧
      Exec (service Sample.addressed noFaults) (publish Sample.addressed (Sample.config observed) 1 "web" .publish)
        (resolving (.error (.of .osError "no such host"))) (.raised (.of .osError "no such host")) w' := by
  have hreconciled : (reconciledRun (.error (.of .osError "no such host"))).1 =
      .returned (observed, ⟨"web", 1, certificateSha256 (Sample.leaf 2), false⟩) := by decide +kernel
  have hraised : (concludingRun (.error (.of .osError "no such host"))).1 = .raised (.of .osError "no such host") := by
    decide +kernel
  have hexec := concludingRun_exec (.error (.of .osError "no such host"))
  rw [hraised] at hexec
  exact ⟨_, _, rfl, exec_of_runFor (simulate_allowed Sample.addressed Sample.script noFaults) hreconciled, hexec⟩

/-- Where the endpoint presents `B`, the publication returns. -/
theorem publish_concludes_iff_sample :
    (concludingRun (.ok ["192.0.2.1"])).1 = .returned ⟨"web", 1, certificateSha256 (Sample.leaf 2), false⟩ ∧
      ∃ certificate result w₁ t w', Exec (recording (implementing (service Sample.addressed noFaults)
          (conclusionStep Sample.addressed (Sample.config observed) 1 .publish certificate result)))
        (conclude certificate result) (w₁, []) (.returned ⟨"web", 1, certificateSha256 (Sample.leaf 2), false⟩) (w', t) := by
  have hret : (concludingRun (.ok ["192.0.2.1"])).1 =
      .returned ⟨"web", 1, certificateSha256 (Sample.leaf 2), false⟩ := by decide +kernel
  have hexec := concludingRun_exec (.ok ["192.0.2.1"])
  rw [hret] at hexec
  refine ⟨hret, ?_⟩
  generalize (concludingRun (.ok ["192.0.2.1"])).2 = last at hexec
  rcases publish_concludes_iff Sample.addressed (Sample.config observed) 1 "web" .publish hexec nofun with
    ⟨x, hx, -⟩ | ⟨certificate, result, w₁, t, -, ht, -⟩
  · cases hx
  · exact ⟨certificate, result, w₁, t, last, ht⟩

end OciAcmePublisher
