import OciAcmePublisher.Lemmas.Publication
import OciAcmePublisher.Simulation
import OciAcmePublisher.Theorems.PendingPublication

/-!
# CURRENT at the end of a publication

The result of a publication is built before its audit. Where the audit times out and the automatic rollback is switched on, the
publication goes on to restore the PREVIOUS version, and returns the result it had built; everywhere else CURRENT is what the result
says.
-/

namespace OciAcmePublisher

open Effects Tables PublicationService
open PublicationReconciler (CurrentIs Confirmed Maintains)

namespace CurrentAux

variable {Γ : Ctx} {faults : Faults} {config : AppConfig} {certificate : CertificateConfig} {material : LineageMaterial}
  {chain : OciCertificateChain} {operationType : OperationType} {now : Instant} {passes : Nat}
  {certificateId id F : String} {v : Outlook} {α : Type}

theorem blind_of_idle (op : Op) (h : op.idle = true) : op.blind := (inward_of_idle op h).2

theorem blind_of_quiet (certificateId operationId : String) (op : Op) (h : op.quiet certificateId operationId = true) :
    op.blind := by
  unfold Op.quiet at h
  rw [Bool.or_eq_true] at h
  rcases h with h | h
  · exact blind_of_idle op h
  · exact (inward_of_footprint certificateId operationId op h).2

/-- The outlook is `v`; nothing is claimed of the runs that do not return. -/
abbrev Waits (Γ : Ctx) (faults : Faults) (v : Outlook) (p : Action α) (Q : α → World → Prop) : Prop :=
  Triple (service Γ faults) (fun w => w.outlook = v) p Q (fun _ _ => True) fun _ => True

theorem waits_frame {p : Action α} (hp : p.Uses Op.blind) : Waits Γ faults v p fun _ w => w.outlook = v :=
  (outlook_frame hp).conseq (fun _ h => h) (fun _ _ h => h) (fun _ _ _ => trivial) fun _ _ => trivial

/-- A reconciliation of a certificate that OCI does not have does not return. -/
theorem reconcile_absent {operationId : String} :
    Triple (service Γ faults) (fun w => w.certificates id = none)
      (PublicationReconciler.reconcile Γ config certificate material chain F now operationType id operationId)
      (fun _ _ => False) (fun _ _ => True) fun _ => True := by
  have hid : Triple (service Γ faults) (fun w => w.certificates id = none) (perform .uuid4)
      (fun _ w => w.certificates id = none) (fun _ _ => True) fun _ => True := by
    refine Triple.perform (fun _ _ => trivial) (fun w a w' hw h => ⟨?_, trivial⟩) fun _ _ _ _ _ => ⟨trivial, trivial⟩
    rw [(service_certificates h rfl).1]
    exact hw
  refine Triple.bind hid fun requestId => ?_
  refine Triple.bind (R := fun _ _ => False) ?_ fun _ _ hw => hw.elim
  refine Triple.perform (fun _ _ => trivial) (fun w a w' hw h => ⟨?_, trivial⟩) fun _ _ _ _ _ => ⟨trivial, trivial⟩
  unfold service at h
  rw [if_neg (by simp [Op.observes])] at h
  obtain ⟨-, r, hr, -⟩ := h
  rw [hw] at hr
  cases hr

/-- What a reconciler's result says is true, whatever there was before. -/
theorem reconciler_spec :
    Waits Γ faults v (PublicationReconciler.publish Γ config certificate material chain F now operationType)
      fun result w => w.outlook = v ∧ ∃ id, certificate.oci.certificateOcid = some id ∧
        On id (fun r _ => Confirmed Γ F certificate result r) w := by
  unfold PublicationReconciler.publish
  cases hocid : certificate.oci.certificateOcid with
  | none => exact Triple.raise (fun _ _ => trivial) fun _ _ => trivial
  | some id =>
    have hstart : (StateStore.startOperation certificate.id operationType (some F) (some id)).Uses Op.blind :=
      StateStore.uses_startOperation (A := Op.blind) rfl rfl _ _ _ _ fun _ _ _ _ _ => rfl
    refine Triple.bind (waits_frame hstart) fun operation => ?_
    have hblind : (PublicationReconciler.reconcile Γ config certificate material chain F now operationType id
        operation.operationId).Uses Op.blind :=
      PublicationReconciler.uses_reconcile (blind_of_quiet certificate.id operation.operationId) (fun _ _ _ => rfl)
        fun _ _ _ => rfl
    have hmaintains : Maintains Γ id F material.leafPem fun _ _ => True := ⟨fun _ _ _ _ _ => trivial, fun _ _ _ _ => trivial⟩
    intro w hw o w' hx
    have houtlook := outlook_frame (Γ := Γ) hblind w hw o w' hx
    cases o with
    | returned result =>
      refine ⟨houtlook, id, rfl, ?_⟩
      cases hr : w.certificates id with
      | none => exact (reconcile_absent w hr _ w' hx).elim
      | some r =>
        have hon : On id (fun _ _ => True) w := ⟨r, w.mutations, ⟨hr, rfl⟩, trivial⟩
        obtain ⟨r', m', hw', -, hconfirmed⟩ := PublicationReconciler.reconcile_spec hmaintains w hon _ w' hx
        exact ⟨r', m', hw', hconfirmed⟩
    | raised => trivial
    | crashed => trivial

/-- What the result of a publication says of CURRENT is true where no automatic rollback was due, and false where one was. -/
def Judged (Γ : Ctx) (config : AppConfig) (passes : Nat) (certificateId : String) (v : Outlook)
    (result : PublicationResult) (w : World) : Prop :=
  ∃ certificate id, configuredCertificate config certificateId = .ok certificate ∧
    certificate.oci.certificateOcid = some id ∧ On id (fun r _ =>
      (RollsBack Γ certificate passes result.localFingerprint v → r.current ≠ result.currentVersionNumber) ∧
        (¬RollsBack Γ certificate passes result.localFingerprint v →
          CurrentAs Γ result.currentVersionNumber result.localFingerprint r)) w

theorem publish_judged (hf : faults.Silent) :
    Waits Γ faults v (publish Γ config passes certificateId operationType) (Judged Γ config passes certificateId v) := by
  unfold publish
  cases hc : configuredCertificate config certificateId with
  | error x => exact Triple.raise (fun _ _ => trivial) fun _ _ => trivial
  | ok certificate =>
    simp only [ofExcept, Program.bind_eq, Program.ret_bind]
    have hperform : ∀ {op : Op}, op.blind → Waits Γ faults v (perform op) fun _ w => w.outlook = v :=
      fun hop => waits_frame (Program.uses_perform.2 hop)
    refine Triple.bind (waits_frame (uses_requireProductionQualification blind_of_idle)) fun _ => ?_
    refine Triple.bind (hperform rfl) fun material => ?_
    refine Triple.bind (hperform rfl) fun validated => ?_
    refine Triple.bind (waits_frame uses_ofExcept) fun fingerprint => ?_
    refine Triple.bind (waits_frame (uses_buildChain blind_of_idle)) fun chain => ?_
    refine Triple.bind (hperform rfl) fun _ => ?_
    refine Triple.bind (waits_frame (uses_openPorts blind_of_idle)) fun _ => ?_
    refine Triple.bind (hperform rfl) fun now => ?_
    refine Triple.bind reconciler_spec fun result => ?_
    rintro w ⟨hv, id, hocid, r, m, hw, hconfirmed⟩
    obtain ⟨hcur, -, hnumber, hF⟩ := hconfirmed
    obtain rfl := hF
    have hself : configuredCertificate config certificate.id = .ok certificate := by
      rw [configuredCertificate_id hc]
      exact hc
    have hafter : Triple (service Γ faults) (Facing id r m v)
        ((logEvent .info "OPERATION_COMPLETED" [("certificate_id", .text certificate.id),
          ("operation", .text operationType.lowerName), ("version_number", .number result.currentVersionNumber)]).bind
            fun _ => (runPostPublicationAudit Γ config passes certificate).bind fun _ =>
              (runPostPublicationRetention Γ config certificate).bind fun _ => .ret result)
        (Judged Γ config passes certificateId v) (fun _ _ => True) fun _ => True := by
      have hlog :=
        (@at_frame Γ faults id r m _ (logEvent .info "OPERATION_COMPLETED" [("certificate_id", .text certificate.id),
          ("operation", .text operationType.lowerName), ("version_number", .number result.currentVersionNumber)])
            (Program.uses_perform.2 rfl)).and (outlook_frame (v := v) (Program.uses_perform.2 rfl))
      refine Triple.bind (hlog.conseq (fun _ h => h) (fun _ _ h => h) (fun _ _ _ => trivial) fun _ _ => trivial) fun _ => ?_
      refine Triple.bind ((runPostPublicationAudit_spec hf hself hocid hcur).conseq (fun _ h => h) (fun _ _ h => h.1)
        (fun _ _ _ => trivial) fun _ _ => trivial) fun _ => ?_
      -- From here on only the retention acts, and it keeps CURRENT and what it carries.
      refine Triple.bind (R := fun _ => On id fun r' _ =>
        (RollsBack Γ certificate passes result.localFingerprint v → r'.current ≠ result.currentVersionNumber) ∧
          (¬RollsBack Γ certificate passes result.localFingerprint v →
            CurrentAs Γ result.currentVersionNumber result.localFingerprint r')) ?_ fun _ => ?_
      · refine ((retires_frame (P := fun r' =>
          (RollsBack Γ certificate passes result.localFingerprint v → r'.current ≠ result.currentVersionNumber) ∧
            (¬RollsBack Γ certificate passes result.localFingerprint v →
              CurrentAs Γ result.currentVersionNumber result.localFingerprint r')) ?_ uses_retires).pre ?_).conseq
            (fun _ h => h) (fun _ _ h => h) (fun _ _ _ => trivial) fun _ _ => trivial
        · rintro x n time ⟨hmoved, hstays⟩
          exact ⟨hmoved, fun h => ⟨(hstays h).1, undeleted_currentIs x n time (hstays h).2⟩⟩
        · rintro w₁ ⟨r', m', hw₁, hmoved, hstays⟩
          refine on_intro hw₁ ⟨fun h => ?_, fun h => ?_⟩
          · rw [hnumber]
            exact (hmoved h).1
          · rw [hstays h]
            exact ⟨hnumber.symm, hcur⟩
      · exact Triple.ret (fun w₁ h => ⟨certificate, id, hc, hocid, h⟩) fun _ _ => trivial
    exact hafter w ⟨hw, hv⟩

theorem run_judged (hf : faults.Silent) (s : PublicationRun) :
    Waits Γ faults v (s.run Γ certificateId) (Judged Γ s.config s.passes certificateId v) := by
  obtain ⟨config, passes, call⟩ := s
  cases call with
  | publish => exact publish_judged hf
  | reconcile => exact publish_judged hf
  | renew force =>
    show Waits Γ faults v (renew Γ config passes certificateId force) _
    unfold renew
    refine Triple.bind (waits_frame uses_ofExcept) fun certificate => ?_
    refine Triple.bind (waits_frame (uses_requireProductionQualification blind_of_idle)) fun _ => ?_
    refine Triple.bind (waits_frame (uses_runPreflight blind_of_idle)) fun _ => ?_
    refine Triple.bind (waits_frame (uses_beforeFingerprint blind_of_idle)) fun _ => ?_
    refine Triple.bind (waits_frame (Program.uses_perform.2 rfl)) fun _ => ?_
    refine Triple.bind (waits_frame (NativeAcmeService.uses_issue blind_of_idle (fun _ _ => rfl) (fun _ _ => rfl)
      (fun _ => rfl) force)) fun _ => ?_
    exact Triple.bind (waits_frame (Program.uses_perform.2 rfl)) fun _ => publish_judged hf

end CurrentAux

open CurrentAux

/-- A publication that returns tells the truth about CURRENT if and only if no automatic rollback was due: its result names the
CURRENT version, and that version carries the local leaf, exactly where the rollback is switched off or the audit of that leaf does
not time out under what the endpoints and the clock are going to answer. -/
theorem publication_truthful_iff (Γ : Ctx) {faults : Faults} (hf : faults.Silent) (certificateId : String)
    (s : PublicationRun) {w w' : World} {result : PublicationResult}
    (h : Exec (service Γ faults) (s.run Γ certificateId) w (.returned result) w') :
    ∃ certificate id r, configuredCertificate s.config certificateId = .ok certificate ∧
      certificate.oci.certificateOcid = some id ∧ w'.certificates id = some r ∧
        ((r.current = result.currentVersionNumber ∧ CurrentIs Γ result.localFingerprint r) ↔
          ¬RollsBack Γ certificate s.passes result.localFingerprint w.outlook) := by
  obtain ⟨certificate, id, hc, hocid, r, m, hw, hmoved, hstays⟩ := (run_judged hf s).returned rfl h
  refine ⟨certificate, id, r, hc, hocid, hw.1, ?_, hstays⟩
  intro hcur hrolls
  exact hmoved hrolls hcur.1

namespace CurrentAux

open Sample

/-- The sample certificate, with its endpoint audited once and the automatic rollback switched on. -/
def enforced : CertificateConfig :=
  { certificate with
    audit := {
      mode := .enforce
      automaticRollbackOnFailure := true
      propagationTimeoutSeconds := 0
      endpoints := endpoints
      rollback_enforced := fun _ => rfl } }

/-- A publication of `B`. -/
def enforcedPublication : PublicationRun := ⟨config enforced, 1, .publish⟩

/-- CURRENT is `A`, and the endpoint presents the leaf with this digit. -/
def presented (digit : Fin 10) : World :=
  { world resource with network := presenting (certificateSha256 (leaf digit)) }

/-- The run of the publication. -/
def enforcedRun (digit : Fin 10) : Outcome Exc PublicationResult × World :=
  (enforcedPublication.run addressed "web").runFor (simulate addressed script) 200 (presented digit)

/-- What it returns. -/
def promotedResult : PublicationResult := ⟨"web", 2, certificateSha256 (leaf 2), true⟩

theorem enforcedRun_exec {digit : Fin 10} (h : (enforcedRun digit).1 = .returned promotedResult) :
    Exec (service addressed noFaults) (enforcedPublication.run addressed "web") (presented digit) (.returned promotedResult)
      (enforcedRun digit).2 :=
  exec_of_runFor (simulate_allowed addressed script noFaults) h

theorem silent_noFaults : noFaults.Silent := fun _ _ _ h => by cases h

end CurrentAux

/-- The endpoint goes on to present `A`: version 2 is published and rolled back, and the publication returns version 2. -/
theorem publication_truthful_false :
    Exec (service Sample.addressed noFaults) (enforcedPublication.run Sample.addressed "web") (presented 1)
        (.returned promotedResult) (enforcedRun 1).2 ∧
      ((enforcedRun 1).2.certificates "ocid").map (·.current) = some 1 ∧ promotedResult.currentVersionNumber = 2 :=
  ⟨enforcedRun_exec (by decide +kernel), by decide +kernel, rfl⟩

/-- Where it presents `B`, the result is true. -/
theorem publication_truthful_iff_sample :
    (enforcedRun 2).1 = .returned promotedResult ∧
      ∃ certificate id r, configuredCertificate enforcedPublication.config "web" = .ok certificate ∧
        certificate.oci.certificateOcid = some id ∧ (enforcedRun 2).2.certificates id = some r ∧
          ((r.current = promotedResult.currentVersionNumber ∧
            CurrentIs Sample.addressed promotedResult.localFingerprint r) ↔
              ¬RollsBack Sample.addressed certificate enforcedPublication.passes promotedResult.localFingerprint
                (presented 2).outlook) :=
  ⟨by decide +kernel, publication_truthful_iff Sample.addressed silent_noFaults "web" enforcedPublication
    (enforcedRun_exec (by decide +kernel))⟩

end OciAcmePublisher
