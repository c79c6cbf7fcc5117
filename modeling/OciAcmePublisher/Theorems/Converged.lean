import OciAcmePublisher.Theorems.Current

/-!
# Publishing onto a converged certificate

Where CURRENT already carries the local leaf, a reconciliation mutates nothing. The audit after it does not know that: where it
times out and the automatic rollback is switched on, the PREVIOUS version replaces the CURRENT one that the run had only confirmed.
-/

namespace OciAcmePublisher

open Effects Tables PublicationService
open PublicationReconciler (CurrentIs Carries)

/-- A publication whose certificate is configured with this OCI certificate. -/
structure PublicationOf (certificateId id : String) extends PublicationRun where
  configured : ∀ certificate, configuredCertificate config certificateId = .ok certificate →
    certificate.oci.certificateOcid = some id

variable {certificateId id : String}

/-- The automatic rollback is due in this publication of the leaf. -/
def PublicationOf.RollsBack (Γ : Ctx) (s : PublicationOf certificateId id) (F : String) (v : Outlook) : Prop :=
  ∃ certificate, configuredCertificate s.config certificateId = .ok certificate ∧
    PublicationService.RollsBack Γ certificate s.passes F v

/-- The leaf of the local generation. -/
def Holds (certificateId F : String) (w : World) : Prop :=
  ∃ material, w.lineages certificateId = some material ∧ certificateSha256 material.leaf = F

/-- CURRENT carries the leaf. -/
def Published (Γ : Ctx) (id F : String) (w : World) : Prop := ∃ r, w.certificates id = some r ∧ CurrentIs Γ F r

/-- CURRENT is the same version. -/
def SameCurrent (id : String) (w w' : World) : Prop :=
  (w'.certificates id).map (·.current) = (w.certificates id).map (·.current)

/-- The service while the local generation stays as it is. -/
def unrenewed (Γ : Ctx) (faults : Faults) (certificateId : String) : Env publisher Exc World :=
  restricting (service Γ faults) fun w w' => w'.lineages certificateId = w.lineages certificateId

/-- Nobody touches the OCI certificate or the local generation. -/
def Untouched (certificateId id : String) (w w' : World) : Prop :=
  w'.certificates id = w.certificates id ∧ w'.lineages certificateId = w.lineages certificateId

namespace ConvergedAux

open CurrentAux

variable {Γ : Ctx} {faults : Faults} {config : AppConfig} {certificate : CertificateConfig} {material : LineageMaterial}
  {chain : OciCertificateChain} {operationType : OperationType} {now : Instant} {passes : Nat} {operationId F : String}
  {r : Resource} {m : List Mutation} {v : Outlook} {α : Type}

/-! ## Frames -/

/-- A program that neither observes nor mutates. -/
theorem facing_frame {p : Action α} (hp : p.Uses Op.inward) :
    Triple (service Γ faults) (Facing id r m v) p (fun _ => Facing id r m v) (fun _ => At id r m) (At id r m) := by
  have hat := @at_frame Γ faults id r m _ _ (hp.mono fun _ h => h.1)
  have hlook := @outlook_frame Γ faults v _ _ (hp.mono fun _ h => h.2)
  exact (hat.and hlook).conseq (fun _ h => h) (fun _ _ h => h) (fun _ _ h => h.1) fun _ h => h.1

/-- The operation keeps the local generations. -/
def keepsLineages (op : Op) : Prop := op.commits = false

theorem keepsLineages_of_quiet (certificateId operationId : String) (op : Op)
    (h : op.quiet certificateId operationId = true) : keepsLineages op := by
  cases op <;> first | rfl | cases h

theorem keepsLineages_of_idle (op : Op) (h : op.idle = true) : keepsLineages op := by
  cases op <;> first | rfl | cases h

/-- A publication commits no generation. -/
theorem uses_publish_keepsLineages :
    (publish Γ config passes certificateId operationType).Uses keepsLineages := by
  have hperform : ∀ op : Op, op.idle = true → (perform op).Uses keepsLineages :=
    fun op h => Program.uses_perform.2 (keepsLineages_of_idle op h)
  refine Program.uses_bind uses_ofExcept fun certificate => ?_
  refine Program.uses_bind (uses_requireProductionQualification keepsLineages_of_idle) fun _ => ?_
  refine Program.uses_bind (hperform _ rfl) fun _ => Program.uses_bind (hperform _ rfl) fun _ => ?_
  refine Program.uses_bind uses_ofExcept fun fingerprint => ?_
  refine Program.uses_bind (uses_buildChain keepsLineages_of_idle) fun _ => Program.uses_bind (hperform _ rfl) fun _ => ?_
  refine Program.uses_bind (uses_openPorts keepsLineages_of_idle) fun _ => Program.uses_bind (hperform _ rfl) fun _ => ?_
  refine Program.uses_bind ?_ fun _ => Program.uses_bind (hperform _ rfl) fun _ => ?_
  · unfold PublicationReconciler.publish
    split
    · trivial
    · refine Program.uses_bind (StateStore.uses_startOperation (A := keepsLineages) rfl rfl _ _ _ _
        fun _ _ _ _ _ => rfl) fun operation => ?_
      exact PublicationReconciler.uses_reconcile (keepsLineages_of_quiet certificate.id operation.operationId)
        (fun _ _ _ => rfl) fun _ _ _ => rfl
  · refine Program.uses_bind ?_ fun _ => Program.uses_bind ?_ fun _ => trivial
    · exact uses_runPostPublicationAudit keepsLineages_of_quiet (fun op h => by cases op <;> first | rfl | cases h)
        (fun _ _ _ => rfl) (fun op h => by cases op <;> first | rfl | cases h) (fun _ _ _ _ => rfl) passes
    · exact uses_runPostPublicationRetention keepsLineages_of_idle fun _ _ _ _ _ => rfl

/-! ## The reconciliation -/

/-- Where CURRENT carries the leaf, the reconciliation changes nothing. -/
theorem reconcile_converged (hcur : CurrentIs Γ F r) :
    Triple (service Γ faults) (At id r m)
      (PublicationReconciler.reconcile Γ config certificate material chain F now operationType id operationId)
      (fun result w => At id r m w ∧ result = ⟨certificate.id, r.current, F, false⟩) (fun _ => At id r m) (At id r m) := by
  refine Triple.bind (at_frame (Program.uses_perform.2 rfl)) fun requestId => ?_
  refine Triple.bind (at_frame (Program.uses_perform.2 rfl)) fun remote => ?_
  refine Triple.bind (getPublicBundle_spec none requestId) fun b => Triple.assume ?_
  rintro ⟨u, hu, hun, rfl⟩
  refine Triple.bind (R := fun f w => At id r m w ∧ Carries Γ f u)
    (Triple.ofExcept (fun f w hf hw => ⟨hw, PublicationReconciler.verifyBundle_fingerprint hf⟩) (fun _ _ hw => hw)
      fun _ hw => hw) fun f => Triple.assume fun hf => ?_
  have hF : f = F := by
    obtain ⟨x, hx, hxn, hcarries⟩ := hcur
    obtain rfl : u = x := PublicationReconciler.eq_of_number hu hx (hun.trans hxn.symm)
    exact Option.some.inj (hf.symm.trans hcarries)
  refine Triple.bind (at_frame (StateStore.uses_transition (footprint_reads certificate.id _) _ _)) fun _ => ?_
  rw [if_pos hF]
  refine Triple.bind (at_frame (Program.uses_perform.2 rfl)) fun _ => ?_
  refine (PublicationReconciler.complete_spec f _ false).post ?_
  rintro result w ⟨hw, rfl⟩
  exact ⟨hw, by rw [show (r.bundle u).versionNumber = r.current from hun]⟩

theorem reconciler_converged (hocid : certificate.oci.certificateOcid = some id) (hcur : CurrentIs Γ F r) :
    Triple (service Γ faults) (Facing id r m v)
      (PublicationReconciler.publish Γ config certificate material chain F now operationType)
      (fun result w => Facing id r m v w ∧ result = ⟨certificate.id, r.current, F, false⟩) (fun _ => At id r m)
      (At id r m) := by
  unfold PublicationReconciler.publish
  rw [hocid]
  refine Triple.bind (facing_frame (StateStore.uses_startOperation (A := Op.inward) ⟨rfl, rfl⟩ ⟨rfl, rfl⟩ _ _ _ _
    fun _ _ _ _ _ => ⟨rfl, rfl⟩)) fun operation => ?_
  have hblind : (PublicationReconciler.reconcile Γ config certificate material chain F now operationType id
      operation.operationId).Uses Op.blind :=
    PublicationReconciler.uses_reconcile (blind_of_quiet certificate.id operation.operationId) (fun _ _ _ => rfl)
      fun _ _ _ => rfl
  have hlook := @outlook_frame Γ faults v _ _ hblind
  exact ((reconcile_converged hcur).and hlook).conseq (fun _ h => h) (fun _ _ h => ⟨⟨h.1.1, h.2⟩, h.1.2⟩)
    (fun _ _ h => h.1) fun _ h => h.1

/-! ## The publication -/

/-- The same version is CURRENT and carries the leaf. -/
def Kept (Γ : Ctx) (F : String) (r r' : Resource) : Prop := CurrentAs Γ r.current F r'

/-- Where the local leaf is on CURRENT, a publication keeps CURRENT unless the automatic rollback is due; where it is due and the
publication returns, CURRENT has moved. -/
theorem publish_converged (hf : faults.Silent) (hc : configuredCertificate config certificateId = .ok certificate)
    (hocid : certificate.oci.certificateOcid = some id) (hcur : CurrentIs Γ (certificateSha256 material.leaf) r) :
    Triple (service Γ faults) (fun w => Facing id r m v w ∧ w.lineages certificateId = some material)
      (publish Γ config passes certificateId operationType)
      (fun result => On id fun r' _ => result.changed = false ∧
        (RollsBack Γ certificate passes (certificateSha256 material.leaf) v → r'.current ≠ r.current) ∧
          (¬RollsBack Γ certificate passes (certificateSha256 material.leaf) v →
            Kept Γ (certificateSha256 material.leaf) r r'))
      (fun _ => On id fun r' _ => ¬RollsBack Γ certificate passes (certificateSha256 material.leaf) v →
        Kept Γ (certificateSha256 material.leaf) r r')
      (On id fun r' _ => ¬RollsBack Γ certificate passes (certificateSha256 material.leaf) v →
        Kept Γ (certificateSha256 material.leaf) r r') := by
  have hkept : ∀ w, At id r m w → On id (fun r' _ =>
      ¬RollsBack Γ certificate passes (certificateSha256 material.leaf) v →
        Kept Γ (certificateSha256 material.leaf) r r') w := fun w hw => on_intro hw fun _ => ⟨rfl, hcur⟩
  have hstay : ∀ {β : Type} {p : Action β}, p.Uses Op.inward →
      Triple (service Γ faults) (Facing id r m v) p (fun _ => Facing id r m v)
        (fun _ => On id fun r' _ => ¬RollsBack Γ certificate passes (certificateSha256 material.leaf) v →
          Kept Γ (certificateSha256 material.leaf) r r')
        (On id fun r' _ => ¬RollsBack Γ certificate passes (certificateSha256 material.leaf) v →
          Kept Γ (certificateSha256 material.leaf) r r') :=
    fun hp => (facing_frame hp).conseq (fun _ h => h) (fun _ _ h => h) (fun _ => hkept) hkept
  have hperform : ∀ op : Op, op.idle = true → (perform op).Uses Op.inward :=
    fun op h => Program.uses_perform.2 (inward_of_idle op h)
  have hself : configuredCertificate config certificate.id = .ok certificate := by
    rw [configuredCertificate_id hc]
    exact hc
  unfold publish
  rw [hc]
  simp only [ofExcept, Program.bind_eq, Program.ret_bind]
  -- Up to the load nothing commits a generation.
  refine Triple.bind (R := fun _ w => Facing id r m v w ∧ w.lineages certificateId = some material) ?_ fun _ => ?_
  · have hlineage : Triple (service Γ faults) (fun w => w.lineages certificateId = some material)
        (requireProductionQualification config certificate) (fun _ w => w.lineages certificateId = some material)
        (fun _ _ => True) fun _ => True :=
      (Triple.frame (uses_requireProductionQualification keepsLineages_of_idle) fun w op answer w' hop hw h => by
        rw [service_lineages h hop]
        exact hw).conseq (fun _ h => h) (fun _ _ h => h) (fun _ _ _ => trivial) fun _ _ => trivial
    exact ((hstay (uses_requireProductionQualification inward_of_idle)).and hlineage).conseq (fun _ h => h)
      (fun _ _ h => h) (fun _ _ h => h.1) fun _ h => h.1
  refine Triple.bind (R := fun loaded w => Facing id r m v w ∧ loaded = material) ?_ fun loaded => Triple.assume ?_
  · have hload : Triple (service Γ faults) (fun w => w.lineages certificateId = some material)
        (perform (.loadLineage certificate.id)) (fun loaded _ => loaded = material) (fun _ _ => True) fun _ => True := by
      refine Triple.perform (fun _ _ => trivial) (fun w a w' hw h => ⟨?_, trivial⟩) fun _ _ _ _ _ => ⟨trivial, trivial⟩
      unfold service at h
      rw [if_neg (by simp [Op.observes])] at h
      rw [configuredCertificate_id hc] at h
      exact Option.some.inj (h.2.symm.trans hw)
    exact ((hstay (hperform _ rfl)).and hload).conseq (fun _ h => h) (fun _ _ h => h) (fun _ _ h => h.1) fun _ h => h.1
  rintro rfl
  refine Triple.bind (hstay (hperform _ rfl)) fun validated => ?_
  cases hvalid : validateCertificateMaterial Γ loaded certificate config.compatibility config.global validated with
  | error x => exact Triple.raise (fun w hw => hkept w hw.1) fun w hw => hkept w hw.1
  | ok fingerprint =>
    obtain rfl : fingerprint = certificateSha256 loaded.leaf := (validateCertificateMaterial_ok hvalid).2
    simp only [Program.ret_bind]
    refine Triple.bind (hstay (uses_buildChain inward_of_idle)) fun chain => ?_
    refine Triple.bind (hstay (hperform _ rfl)) fun _ => ?_
    refine Triple.bind (hstay (uses_openPorts inward_of_idle)) fun _ => ?_
    refine Triple.bind (hstay (hperform _ rfl)) fun now => ?_
    refine Triple.bind ((reconciler_converged hocid hcur).conseq (fun _ h => h) (fun _ _ h => h) (fun _ => hkept) hkept)
      fun result => Triple.assume ?_
    rintro rfl
    refine Triple.bind (hstay (hperform _ rfl)) fun _ => ?_
    -- What follows the confirmation: the audit, and with it the rollback, and the retention.
    have hor : ∀ w, On id (fun r' _ => r' = r ∨
        (RollsBack Γ certificate passes (certificateSha256 loaded.leaf) v ∧ Moved Γ config certificate r r')) w →
        On id (fun r' _ => ¬RollsBack Γ certificate passes (certificateSha256 loaded.leaf) v →
          Kept Γ (certificateSha256 loaded.leaf) r r') w := by
      rintro w ⟨r', m', hw, h⟩
      refine on_intro hw fun hno => ?_
      rcases h with h | h
      · rw [h]
        exact ⟨rfl, hcur⟩
      · exact absurd h.1 hno
    refine Triple.bind ((runPostPublicationAudit_spec hf hself hocid hcur).conseq (fun _ h => h) (fun _ _ h => h.1)
      (fun _ => hor) hor) fun _ => ?_
    refine Triple.bind (R := fun _ => On id fun r' _ =>
      (RollsBack Γ certificate passes (certificateSha256 loaded.leaf) v → r'.current ≠ r.current) ∧
        (¬RollsBack Γ certificate passes (certificateSha256 loaded.leaf) v →
          Kept Γ (certificateSha256 loaded.leaf) r r')) ?_ fun _ => ?_
    · refine ((retires_frame (P := fun r' =>
        (RollsBack Γ certificate passes (certificateSha256 loaded.leaf) v → r'.current ≠ r.current) ∧
          (¬RollsBack Γ certificate passes (certificateSha256 loaded.leaf) v →
            Kept Γ (certificateSha256 loaded.leaf) r r')) ?_ uses_retires).pre ?_).conseq (fun _ h => h)
          (fun _ _ h => h) (fun _ _ => ?_) ?_
      · rintro x n time ⟨hmoved, hstays⟩
        exact ⟨hmoved, fun h => ⟨(hstays h).1, undeleted_currentIs x n time (hstays h).2⟩⟩
      · rintro w ⟨r', m', hw, hmoved, hstays⟩
        refine on_intro hw ⟨fun h => (hmoved h).1, fun h => ?_⟩
        rw [hstays h]
        exact ⟨rfl, hcur⟩
      · rintro ⟨r', m', hw, h⟩
        exact on_intro hw h.2
      · rintro w ⟨r', m', hw, h⟩
        exact on_intro hw h.2
    · refine Triple.ret ?_ ?_
      · rintro w ⟨r', m', hw, h⟩
        exact on_intro hw ⟨rfl, h⟩
      · rintro w ⟨r', m', hw, h⟩
        exact on_intro hw h.2

/-! ## The runs -/

/-- Where the local leaf is on CURRENT, the certificate is left as `K` says. -/
def Leaves (Γ : Ctx) (certificateId id : String) (r : Resource) (K : String → Resource → Prop) (w : World) : Prop :=
  ∀ material, w.lineages certificateId = some material → CurrentIs Γ (certificateSha256 material.leaf) r →
    On id (fun r' _ => K (certificateSha256 material.leaf) r') w

variable {s : PublicationOf certificateId id}

theorem rollsBack_iff {F : String} {v : Outlook} (hc : configuredCertificate s.config certificateId = .ok certificate) :
    s.RollsBack Γ F v ↔ RollsBack Γ certificate s.passes F v := by
  constructor
  · rintro ⟨c, hc', h⟩
    rw [hc] at hc'
    cases hc'
    exact h
  · intro h
    exact ⟨certificate, hc, h⟩

/-- A run of this publication from here, which leaves CURRENT as the automatic rollback decides. -/
abbrev Decides (Γ : Ctx) (faults : Faults) (s : PublicationOf certificateId id) (r : Resource) (m : List Mutation)
    (v : Outlook) (p : Action PublicationResult) : Prop :=
  Triple (service Γ faults) (Facing id r m v) p
    (fun result => Leaves Γ certificateId id r fun F r' => result.changed = false ∧
      (s.RollsBack Γ F v → r'.current ≠ r.current) ∧ (¬s.RollsBack Γ F v → Kept Γ F r r'))
    (fun _ => Leaves Γ certificateId id r fun F r' => ¬s.RollsBack Γ F v → Kept Γ F r r')
    (Leaves Γ certificateId id r fun F r' => ¬s.RollsBack Γ F v → Kept Γ F r r')

theorem leaves_at {w : World} (hw : At id r m w) :
    Leaves Γ certificateId id r (fun F r' => ¬s.RollsBack Γ F v → Kept Γ F r r') w :=
  fun _ _ hcur => on_intro hw fun _ => ⟨rfl, hcur⟩

theorem publish_decides (hf : faults.Silent) :
    Decides Γ faults s r m v (publish Γ s.config s.passes certificateId operationType) := by
  cases hc : configuredCertificate s.config certificateId with
  | error x =>
    unfold publish
    rw [hc]
    exact Triple.raise (fun w hw => leaves_at hw.1) fun w hw => leaves_at hw.1
  | ok certificate =>
    intro w hw o w' hx
    have hlineages : w'.lineages = w.lineages :=
      Exec.keeps (A := keepsLineages) (I := fun x : World => x.lineages = w.lineages)
        (fun _ _ _ _ hop hi h => (service_lineages h hop).trans hi) hx uses_publish_keepsLineages rfl
    have hpost : ∀ material, w'.lineages certificateId = some material →
        CurrentIs Γ (certificateSha256 material.leaf) r → _ := fun material hmaterial hcur =>
      publish_converged (Γ := Γ) (v := v) (m := m) hf hc
        (s.configured certificate hc) hcur w ⟨hw, by rw [← hlineages]; exact hmaterial⟩ o w' hx
    cases o with
    | returned result =>
      intro material hmaterial hcur
      obtain ⟨r', m', hw', hchanged, hmoved, hstays⟩ := hpost material hmaterial hcur
      exact on_intro hw' ⟨hchanged, fun h => hmoved ((rollsBack_iff hc).1 h),
        fun h => hstays fun h' => h ((rollsBack_iff hc).2 h')⟩
    | raised x =>
      intro material hmaterial hcur
      obtain ⟨r', m', hw', hstays⟩ := hpost material hmaterial hcur
      exact on_intro hw' fun h => hstays fun h' => h ((rollsBack_iff hc).2 h')
    | crashed =>
      intro material hmaterial hcur
      obtain ⟨r', m', hw', hstays⟩ := hpost material hmaterial hcur
      exact on_intro hw' fun h => hstays fun h' => h ((rollsBack_iff hc).2 h')

theorem run_decides (hf : faults.Silent) : Decides Γ faults s r m v (s.run Γ certificateId) := by
  obtain ⟨⟨config, passes, call⟩, hconfigured⟩ := s
  cases call with
  | publish => exact publish_decides hf
  | reconcile => exact publish_decides hf
  | renew force =>
    show Decides Γ faults _ r m v (renew Γ config passes certificateId force)
    have hstay : ∀ {β : Type} {p : Action β} {K : World → Prop}, (∀ w, At id r m w → K w) → p.Uses Op.inward →
        Triple (service Γ faults) (Facing id r m v) p (fun _ => Facing id r m v) (fun _ => K) K :=
      fun hK hp => (facing_frame hp).conseq (fun _ h => h) (fun _ _ h => h) (fun _ => hK) hK
    unfold renew
    refine Triple.bind (hstay (fun _ => leaves_at) uses_ofExcept) fun certificate => ?_
    refine Triple.bind (hstay (fun _ => leaves_at) (uses_requireProductionQualification inward_of_idle)) fun _ => ?_
    refine Triple.bind (hstay (fun _ => leaves_at) (uses_runPreflight inward_of_idle)) fun _ => ?_
    refine Triple.bind (hstay (fun _ => leaves_at) (uses_beforeFingerprint inward_of_idle)) fun _ => ?_
    refine Triple.bind (hstay (fun _ => leaves_at) (Program.uses_perform.2 ⟨rfl, rfl⟩)) fun _ => ?_
    refine Triple.bind (hstay (fun _ => leaves_at) (NativeAcmeService.uses_issue inward_of_idle (fun _ _ => ⟨rfl, rfl⟩)
      (fun _ _ => ⟨rfl, rfl⟩) (fun _ => ⟨rfl, rfl⟩) force)) fun _ => ?_
    refine Triple.bind (hstay (fun _ => leaves_at) (Program.uses_perform.2 ⟨rfl, rfl⟩)) fun _ => ?_
    exact publish_decides (s := ⟨⟨config, passes, .renew force⟩, hconfigured⟩) hf

/-- What a run leaves, however it ends. -/
theorem run_kept (hf : faults.Silent) {w w' : World} {o : Outcome Exc PublicationResult}
    (hx : Exec (service Γ faults) (s.run Γ certificateId) w o w') (hF : Holds certificateId F w')
    (hr : w.certificates id = some r) (hcur : CurrentIs Γ F r) :
    ∃ r', w'.certificates id = some r' ∧ (¬s.RollsBack Γ F w.outlook → Kept Γ F r r') ∧
      ∀ result, o = .returned result → result.changed = false ∧ (s.RollsBack Γ F w.outlook → r'.current ≠ r.current) := by
  obtain ⟨material, hmaterial, rfl⟩ := hF
  have hpost := run_decides (Γ := Γ) (s := s) (r := r) (m := w.mutations) (v := w.outlook) hf w
    ⟨⟨hr, rfl⟩, rfl⟩ o w' hx
  cases o with
  | returned result =>
    obtain ⟨r', m', hw', hchanged, hmoved, hstays⟩ := hpost material hmaterial hcur
    refine ⟨r', hw'.1, hstays, fun result' hresult => ?_⟩
    cases hresult
    exact ⟨hchanged, hmoved⟩
  | raised x =>
    obtain ⟨r', m', hw', hstays⟩ := hpost material hmaterial hcur
    exact ⟨r', hw'.1, hstays, fun _ h => by cases h⟩
  | crashed =>
    obtain ⟨r', m', hw', hstays⟩ := hpost material hmaterial hcur
    exact ⟨r', hw'.1, hstays, fun _ h => by cases h⟩

/-- The local leaf is on CURRENT, which is version `n`. -/
def Settled (Γ : Ctx) (certificateId id F : String) (n : Int) (w : World) : Prop :=
  Holds certificateId F w ∧ ∃ r, w.certificates id = some r ∧ CurrentAs Γ n F r

theorem lineage_of_unrenewed {p : Action α} {w w' : World} {o : Outcome Exc α}
    (hx : Exec (unrenewed Γ faults certificateId) p w o w') : w'.lineages certificateId = w.lineages certificateId :=
  Exec.invariant (I := fun x => x.lineages certificateId = w.lineages certificateId)
    (fun _ _ _ _ hi h => h.2.trans hi) hx rfl

/-- A run that starts where no automatic rollback is due keeps what is settled. -/
theorem run_settled (hf : faults.Silent) {n : Int} {w w' : World} {o : Outcome Exc PublicationResult}
    (hw : Settled Γ certificateId id F n w) (hno : ¬s.RollsBack Γ F w.outlook)
    (hx : Exec (unrenewed Γ faults certificateId) (s.run Γ certificateId) w o w') : Settled Γ certificateId id F n w' := by
  obtain ⟨⟨material, hmaterial, hF⟩, r, hr, hn, hcur⟩ := hw
  have hholds : Holds certificateId F w' := ⟨material, by rw [lineage_of_unrenewed hx]; exact hmaterial, hF⟩
  obtain ⟨r', hr', hkept, -⟩ := run_kept hf hx.unrestrict hholds hr hcur
  obtain ⟨hn', hcur'⟩ := hkept hno
  exact ⟨hholds, r', hr', hn'.trans hn, hcur'⟩

theorem untouched_settled {n : Int} {w w' : World} (hw : Settled Γ certificateId id F n w)
    (h : Untouched certificateId id w w') : Settled Γ certificateId id F n w' := by
  obtain ⟨⟨material, hmaterial, hF⟩, r, hr, hcur⟩ := hw
  exact ⟨⟨material, by rw [h.2]; exact hmaterial, hF⟩, r, by rw [h.1]; exact hr, hcur⟩

end ConvergedAux

open ConvergedAux

/-- A publication onto a converged certificate, returned, failed or cut, leaves CURRENT on its version unless the automatic rollback
is due; where it is due, every such publication that returns has moved CURRENT. So any number of runs keep CURRENT where none of them
starts with the rollback due. -/
theorem converged_kept_iff (Γ : Ctx) {faults : Faults} (hf : faults.Silent) {certificateId id F : String} :
    (∀ (s : PublicationOf certificateId id) {w w' : World} {o : Outcome Exc PublicationResult},
      Exec (service Γ faults) (s.run Γ certificateId) w o w' → Published Γ id F w → Holds certificateId F w' →
        (¬s.RollsBack Γ F w.outlook → SameCurrent id w w') ∧
          ∀ result, o = .returned result →
            result.changed = false ∧ (SameCurrent id w w' ↔ ¬s.RollsBack Γ F w.outlook)) ∧
    ∀ {w w' : World} {l : List (PublicationOf certificateId id × World)},
      Timeline (unrenewed Γ faults certificateId) (Untouched certificateId id)
        (fun s : PublicationOf certificateId id => s.run Γ certificateId) w l w' →
      Holds certificateId F w → Published Γ id F w → (∀ x ∈ l, ¬x.1.RollsBack Γ F x.2.outlook) → SameCurrent id w w' := by
  constructor
  · rintro s w w' o hx ⟨r, hr, hcur⟩ hF
    obtain ⟨r', hr', hkept, hreturned⟩ := run_kept hf hx hF hr hcur
    have hsame : SameCurrent id w w' ↔ r'.current = r.current := by
      unfold SameCurrent
      rw [hr, hr']
      exact Option.some_inj
    refine ⟨fun h => hsame.2 (hkept h).1, fun result ho => ?_⟩
    obtain ⟨hchanged, hmoved⟩ := hreturned result ho
    exact ⟨hchanged, fun h hrolls => hmoved hrolls (hsame.1 h), fun h => hsame.2 (hkept h).1⟩
  · rintro w w' l h hF ⟨r, hr, hcur⟩ hl
    have hsettled : Settled Γ certificateId id F r.current w := ⟨hF, r, hr, rfl, hcur⟩
    obtain ⟨-, r', hr', hn, -⟩ := h.keeps
      (A := fun (s : PublicationOf certificateId id) (x : World) => ¬s.RollsBack Γ F x.outlook) (fun _ _ hx h => untouched_settled hx h)
      (fun _ _ _ _ hx hno hrun => run_settled hf hx hno hrun) hl hsettled
    unfold SameCurrent
    rw [hr, hr']
    exact congrArg some hn

namespace ConvergedAux

open CurrentAux Sample

/-- `B` is CURRENT as version 2, and `A` is PREVIOUS. -/
def promotedResource : Resource := ((resource.upload (version 2 "B" [])).bind fun r => r.promote 2).getD resource

/-- The local generation is `B`, and the endpoint presents the leaf with this digit. -/
def convergedWorld (digit : Fin 10) : World :=
  { world promotedResource with network := presenting (certificateSha256 (leaf digit)) }

/-- A publication with the automatic rollback switched on. -/
def enforcedOf : PublicationOf "web" "ocid" where
  toPublicationRun := enforcedPublication
  configured certificate h := by
    cases h
    rfl

def convergedRun (digit : Fin 10) : Outcome Exc PublicationResult × World :=
  (enforcedOf.run addressed "web").runFor (simulate addressed script) 200 (convergedWorld digit)

/-- What it returns. -/
def confirmedResult : PublicationResult := ⟨"web", 2, certificateSha256 (leaf 2), false⟩

theorem convergedRun_exec {digit : Fin 10} (h : (convergedRun digit).1 = .returned confirmedResult) :
    Exec (service addressed noFaults) (enforcedOf.run addressed "web") (convergedWorld digit) (.returned confirmedResult)
      (convergedRun digit).2 :=
  exec_of_runFor (simulate_allowed addressed script noFaults) h

theorem convergedWorld_published (digit : Fin 10) :
    Published addressed "ocid" (certificateSha256 (leaf 2)) (convergedWorld digit) :=
  ⟨promotedResource, rfl, by unfold CurrentIs Carries; decide +kernel⟩

end ConvergedAux

/-- The endpoint goes on to present `A`: the run uploads and promotes nothing, and CURRENT goes back to version 1. -/
theorem converged_kept_false :
    Exec (service Sample.addressed noFaults) (enforcedOf.run Sample.addressed "web") (convergedWorld 1)
        (.returned confirmedResult) (convergedRun 1).2 ∧
      Published Sample.addressed "ocid" confirmedResult.localFingerprint (convergedWorld 1) ∧
        (convergedRun 1).2.lineages "web" = some Sample.material ∧ confirmedResult.changed = false ∧
          ((convergedRun 1).2.certificates "ocid").map (·.current) = some 1 ∧ ¬SameCurrent "ocid" (convergedWorld 1) (convergedRun 1).2 :=
  ⟨convergedRun_exec (by decide +kernel), convergedWorld_published 1, by decide +kernel, rfl, by decide +kernel,
    by unfold SameCurrent; decide +kernel⟩

/-- Where it presents `B`, no rollback is due, and the same run keeps CURRENT, as does a run that is cut at once. -/
theorem converged_kept_iff_sample :
    (SameCurrent "ocid" (convergedWorld 2) (convergedRun 2).2 ↔
        ¬enforcedOf.RollsBack Sample.addressed confirmedResult.localFingerprint (convergedWorld 2).outlook) ∧
      SameCurrent "ocid" (convergedWorld 2) (convergedRun 2).2 ∧ SameCurrent "ocid" (convergedWorld 2) (convergedWorld 2) := by
  have hkept := @converged_kept_iff Sample.addressed _ CurrentAux.silent_noFaults "web" "ocid"
    confirmedResult.localFingerprint
  have hrun := ((hkept.1 enforcedOf (convergedRun_exec (by decide +kernel)) (convergedWorld_published 2)
    ⟨Sample.material, by decide +kernel, rfl⟩).2 confirmedResult rfl).2
  have hsame : SameCurrent "ocid" (convergedWorld 2) (convergedRun 2).2 := by
    unfold SameCurrent
    decide +kernel
  refine ⟨hrun, hsame, ?_⟩
  have hcut : Timeline (unrenewed Sample.addressed noFaults "web") (Untouched "web" "ocid")
      (fun s : PublicationOf "web" "ocid" => s.run Sample.addressed "web") (convergedWorld 2)
      ([] ++ [(enforcedOf, convergedWorld 2)]) (convergedWorld 2) :=
    (Timeline.nil _).snoc ⟨rfl, rfl⟩ (Exec.crash _ _)
  refine hkept.2 hcut ⟨Sample.material, rfl, rfl⟩ (convergedWorld_published 2) fun x hx => ?_
  obtain rfl := List.mem_singleton.1 hx
  exact hrun.1 hsame

end OciAcmePublisher
