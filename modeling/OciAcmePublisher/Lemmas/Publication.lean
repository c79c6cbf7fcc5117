import OciAcmePublisher.Lemmas.AuditService
import OciAcmePublisher.Lemmas.Reconciler
import OciAcmePublisher.PublicationService

/-!
# After the reconciler

What the audit, the automatic rollback and the retention after a reconciliation do to CURRENT. The audit's outcome is decided by what
the endpoints and the clock answer, counted from where the audit starts: nothing else a publication performs observes them.
-/

namespace OciAcmePublisher

open Effects Tables

/-- The endpoints and the clock, from the first observation not yet made. -/
abbrev Outlook := Network × Nat

/-- One observation. -/
def Outlook.observe (v : Outlook) (op : Op) : Except Exc op.Reply × Outlook := (v.1 v.2 op, (v.1, v.2 + 1))

/-- What a world will answer to observations. -/
def World.outlook (w : World) : Outlook := (w.network, w.observed)

/-- The audit of `f` under this outlook ends with `AuditError`. -/
def TimesOut (Γ : Ctx) (configuration : AuditConfig) (passes : Nat) (f : String) (v : Outlook) : Prop :=
  ∃ x, ((AuditService.audit Γ configuration passes f).eval Outlook.observe v).1 = .raised x ∧ x.isInstance .auditError = true

/-- What is left of the outlook after the audit of `f`. -/
def Outlook.afterAudit (Γ : Ctx) (configuration : AuditConfig) (passes : Nat) (f : String) (v : Outlook) : Outlook :=
  ((AuditService.audit Γ configuration passes f).eval Outlook.observe v).2

/-- No port raises `AuditError`, the endpoints and the clock apart. -/
def Faults.Silent (faults : Faults) : Prop :=
  ∀ op x, op.observes = false → faults op x → x.isInstance .auditError = false

/-- Exactly one version is PREVIOUS and undeleted, and its leaf passes the validation at some time. -/
def Restorable (Γ : Ctx) (config : AppConfig) (certificate : CertificateConfig) (r : Resource) : Prop :=
  ∃ v ∈ r.versions.rows, (r.versions.rows.map r.shown).filter RollbackService.isEligiblePrevious = [r.shown v] ∧
    ∃ now, v.valid Γ certificate config now

variable {Γ : Ctx} {faults : Faults} {config : AppConfig} {certificate : CertificateConfig} {passes : Nat}
  {certificateId id F : String} {r : Resource} {m : List Mutation} {v : Outlook} {α : Type}
  {K : Resource → List Mutation → Prop}

/-! ## Exceptions that are no audit failures -/

/-- The exception is no `AuditError`. -/
abbrev Calm (x : Exc) : Prop := x.isInstance .auditError = false

/-- What a pure computation raises is as `φ` says. -/
def Fails (φ : Exc → Prop) (e : Except Exc α) : Prop := ∀ x, e = .error x → φ x

variable {φ : Exc → Prop} {β : Type}

theorem fails_bind {e : Except Exc α} {f : α → Except Exc β} (he : Fails φ e) (hf : ∀ a, Fails φ (f a)) :
    Fails φ (e >>= f) := by
  cases e with
  | ok a => exact hf a
  | error x =>
    intro y hy
    cases hy
    exact he x rfl

theorem fails_ok {a : α} : Fails φ (.ok a : Except Exc α) := fun x h => by cases h

theorem fails_error {x : Exc} (hx : φ x) : Fails φ (.error x : Except Exc α) := by
  intro y hy
  cases hy
  exact hx

theorem fails_require {cond : Prop} [Decidable cond] {x : Exc} (hx : φ x) : Fails φ (require cond x) := by
  unfold require
  split
  · exact fails_ok
  · exact fails_error hx

/-- The validation of a public bundle raises `CertificateValidationError`. -/
theorem validatePublicCertificate_calm (pem : String) (now : Instant) :
    Fails Calm (validatePublicCertificate Γ pem certificate config.global now) := by
  unfold validatePublicCertificate
  split
  · exact fails_error rfl
  · rename_i leaf _
    refine fails_bind ?_ fun name => fails_bind (fails_require rfl) fun _ => fails_bind ?_ fun domains =>
      fails_bind (fails_require rfl) fun _ => fails_bind ?_ fun _ => fails_ok
    · unfold commonName
      split
      · split
        · exact fails_ok
        · exact fails_error rfl
      · exact fails_error rfl
      · exact fails_error rfl
    · unfold dnsSans
      split
      · exact fails_error rfl
      · simp only
        split
        · exact fails_ok
        · exact fails_error rfl
    · exact fails_bind (fails_require rfl) fun _ => fails_require rfl

/-! ## What is not observed -/

/-- The operation makes no observation. -/
def Op.blind (op : Op) : Prop := op.observes = false

/-- The operation neither observes nor mutates. -/
def Op.inward (op : Op) : Prop := op.reads ∧ op.blind

theorem inward_of_idle (op : Op) (h : op.idle = true) : op.inward := by
  cases op <;> first | exact ⟨rfl, rfl⟩ | cases h

theorem inward_of_footprint (certificateId operationId : String) (op : Op)
    (h : StateStore.footprint certificateId operationId op = true) : op.inward := by
  cases op <;> first | exact ⟨rfl, rfl⟩ | cases h

theorem outlook_of_blind {op : Op} {answer : Except Exc op.Reply} {w w' : World} (hop : op.blind)
    (h : service Γ faults w op answer w') : w'.outlook = w.outlook := by
  unfold World.outlook
  rw [service_network h, service_observed h hop]

/-- The outlook stays. -/
theorem outlook_frame {p : Action α} (hp : p.Uses Op.blind) :
    Triple (service Γ faults) (fun w => w.outlook = v) p (fun _ w => w.outlook = v) (fun _ w => w.outlook = v)
      fun w => w.outlook = v :=
  Triple.frame hp fun _ _ _ _ hop hw h => (outlook_of_blind hop h).trans hw

/-- The certificate is `r`, and the outlook is `v`. -/
def Facing (id : String) (r : Resource) (m : List Mutation) (v : Outlook) (w : World) : Prop := At id r m w ∧ w.outlook = v

/-- A program that neither observes nor mutates, and raises nothing that is an audit failure. -/
theorem facing_inward (hf : faults.Silent) {p : Action α} (hp : p.Uses Op.inward) (hr : p.Raises Calm) :
    Triple (service Γ faults) (Facing id r m v) p (fun _ => Facing id r m v) (fun x w => At id r m w ∧ Calm x) (At id r m) := by
  have hraises := @Triple.raises_of_uses _ _ _ _ (service Γ faults) Op.inward Calm (fun w op x w' hop h => by
    unfold service at h
    rw [if_neg (by simp [show op.observes = false from hop.2])] at h
    exact hf op x hop.2 h.1) _ hp hr
  have hframe := (@at_frame Γ faults id r m _ _ (hp.mono fun _ h => h.1)).and
    (outlook_frame (Γ := Γ) (v := v) (hp.mono fun _ h => h.2))
  exact (Triple.and hframe hraises).conseq (fun _ h => ⟨h, trivial⟩) (fun _ _ h => h.1) (fun _ _ h => ⟨h.1.1, h.2⟩)
    fun _ h => h.1.1

/-- The audit: what it comes to is decided by the outlook. -/
theorem auditService_spec (configuration : AuditConfig) (f : String) :
    Triple (service Γ faults) (Facing id r m v) (AuditService.audit Γ configuration passes f)
      (fun result w => At id r m w ∧
        (AuditService.audit Γ configuration passes f).eval Outlook.observe v = (.returned result, w.outlook))
      (fun x w => At id r m w ∧ (AuditService.audit Γ configuration passes f).eval Outlook.observe v = (.raised x, w.outlook))
      (At id r m) := by
  have hobserves : ∀ op : Op, op.observes = true → op.reads := by
    intro op h
    cases op <;> first | rfl | cases h
  have heval : ∀ w op answer w', op.observes = true → service Γ faults w op answer w' →
      Outlook.observe w.outlook op = (answer, w'.outlook) := by
    intro w op answer w' hop h
    unfold service at h
    rw [if_pos hop] at h
    obtain ⟨rfl, rfl⟩ := h
    rfl
  intro w hw o w' hx
  have hat := at_frame (Γ := Γ) (AuditService.uses_audit (Γ := Γ) hobserves configuration passes f) w hw.1 o w' hx
  have hfinished : o ≠ .crashed →
      (AuditService.audit Γ configuration passes f).eval Outlook.observe v = (o, w'.outlook) := by
    intro ho
    have h := hx.eval (π := World.outlook) (h := Outlook.observe) (A := fun op : Op => op.observes = true) heval
      (AuditService.uses_audit (fun _ h => h) configuration passes f) ho
    rwa [hw.2] at h
  cases o with
  | returned result => exact ⟨hat, hfinished nofun⟩
  | raised x => exact ⟨hat, hfinished nofun⟩
  | crashed => exact hat

/-- A read that is answered truly. -/
theorem facing_read (hf : faults.Silent) {op : Op} (hop : op.inward) {φ : op.Reply → Prop}
    (hφ : ∀ w reply w', At id r m w → w.Step Γ op reply w' → φ reply) :
    Triple (service Γ faults) (Facing id r m v) (perform op) (fun a w => Facing id r m v w ∧ φ a)
      (fun x w => At id r m w ∧ Calm x) (At id r m) := by
  have hread := @perform_read Γ faults id r m _ hop.1 hop.2 _ hφ
  have hframe := @facing_inward Γ _ id r m v _ hf (perform op) (Program.uses_perform.2 hop)
    (Program.raises_perform (S := publisher) op)
  exact (Triple.and hframe hread).conseq (fun _ h => ⟨h, h.1⟩) (fun _ _ h => ⟨h.1, h.2.2⟩) (fun _ _ h => h.1) fun _ h => h.1

/-! ## The exceptions of the state store -/

namespace StateStore

variable {operationId : String}

theorem raises_utcNow : utcNow.Raises φ :=
  Program.raises_bind (Program.raises_perform (S := publisher) Op.now) fun _ => trivial

theorem raises_startOperation (certificateId : String) (operationType : OperationType) (localFingerprint ocid : Option String) :
    (startOperation certificateId operationType localFingerprint ocid).Raises φ := by
  refine Program.raises_bind (Program.raises_perform (S := publisher) Op.uuid4) fun _ => ?_
  refine Program.raises_bind raises_utcNow fun _ => ?_
  exact Program.raises_bind (Program.raises_perform (S := publisher) (Op.sql _)) fun _ => trivial

/-- A transition raises that the row is missing, or what the store raises. -/
theorem raises_transition (hkey : φ (.of .keyError "operation does not exist")) (state : OperationState)
    (fields : TransitionFields) : (transition operationId state fields).Raises φ := by
  refine Program.raises_bind ?_ fun _ => ?_
  · unfold completedAt
    split
    · exact Program.raises_bind raises_utcNow fun _ => trivial
    · trivial
  · refine Program.raises_bind raises_utcNow fun _ => ?_
    refine Program.raises_bind (Program.raises_perform (S := publisher) (Op.sql _)) fun _ => ?_
    split
    · trivial
    · exact hkey

theorem raises_recordFacts (id : String) (update : FactUpdate) : (recordFacts id update).Raises φ :=
  Program.raises_bind raises_utcNow fun _ => Program.raises_perform (S := publisher) (Op.sql _)

theorem raises_completeInterruptedAudits (id excluding : String) : (completeInterruptedAudits id excluding).Raises φ :=
  Program.raises_bind raises_utcNow fun _ => Program.raises_perform (S := publisher) (Op.sql _)

end StateStore

/-! ## The audit -/

namespace PublicationService

open PublicationReconciler (CurrentIs Carries PromotedFrom promote_spec)

theorem raises_openPorts : (openPorts config certificate).Raises φ :=
  Program.raises_bind (Program.raises_perform (S := publisher) (Op.createAdapters _)) fun _ =>
    Program.raises_perform (S := publisher) (Op.openStore _)

/-- The fingerprint of a valid bundle of CURRENT. -/
theorem eq_of_validated {u : Version} {now : Instant} {f : String} (hcur : CurrentIs Γ F r) (hu : u ∈ r.versions.rows)
    (hun : u.number = r.current) (h : validatePublicCertificate Γ u.certificatePem certificate config.global now = .ok f) :
    f = F := by
  obtain ⟨x, hx, hxn, hcarries⟩ := hcur
  obtain rfl : u = x := PublicationReconciler.eq_of_number hu hx (hun.trans hxn.symm)
  obtain ⟨leaf, hleaf, rfl, -⟩ := validatePublicCertificate_ok h
  unfold Carries Version.fingerprint at hcarries
  rw [hleaf] at hcarries
  exact Option.some.inj hcarries

/-- Outside observe mode an audit that returns has succeeded and an `AuditError` is a time-out; and it leaves the certificate. -/
theorem audit_spec (hf : faults.Silent) (hc : configuredCertificate config certificateId = .ok certificate)
    (hocid : certificate.oci.certificateOcid = some id) (hmode : certificate.audit.mode ≠ .observe)
    (hcur : CurrentIs Γ F r) :
    Triple (service Γ faults) (Facing id r m v) (audit Γ config passes certificateId)
      (fun b w => Facing id r m (v.afterAudit Γ certificate.audit passes F) w ∧ b = true ∧
        ¬TimesOut Γ certificate.audit passes F v)
      (fun x w => At id r m w ∧ (x.isInstance .auditError = true → TimesOut Γ certificate.audit passes F v)) (At id r m) := by
  have hcalm : ∀ x w, At id r m w ∧ Calm x →
      At id r m w ∧ (x.isInstance .auditError = true → TimesOut Γ certificate.audit passes F v) := by
    rintro x w ⟨hw, hx⟩
    exact ⟨hw, fun h => by rw [hx] at h; cases h⟩
  have hin : ∀ {β : Type} {p : Action β}, p.Uses Op.inward → p.Raises Calm →
      Triple (service Γ faults) (Facing id r m v) p (fun _ => Facing id r m v)
        (fun x w => At id r m w ∧ (x.isInstance .auditError = true → TimesOut Γ certificate.audit passes F v))
        (At id r m) :=
    fun hp hr => (facing_inward hf hp hr).conseq (fun _ h => h) (fun _ _ h => h) hcalm fun _ h => h
  have hperform : ∀ {op : Op}, op.inward → Triple (service Γ faults) (Facing id r m v) (perform op)
      (fun _ => Facing id r m v)
      (fun x w => At id r m w ∧ (x.isInstance .auditError = true → TimesOut Γ certificate.audit passes F v)) (At id r m) :=
    fun hop => hin (Program.uses_perform.2 hop) (Program.raises_perform (S := publisher) _)
  have hinward : Op.inward .now := ⟨rfl, rfl⟩
  have htransition : ∀ operationId state fields, Triple (service Γ faults) (Facing id r m v)
      (StateStore.transition operationId state fields) (fun _ => Facing id r m v)
      (fun x w => At id r m w ∧ (x.isInstance .auditError = true → TimesOut Γ certificate.audit passes F v)) (At id r m) :=
    fun operationId state fields => hin (StateStore.uses_transition_row hinward (fun _ => ⟨rfl, rfl⟩) state fields)
      (StateStore.raises_transition (φ := Calm) rfl state fields)
  unfold audit
  rw [hc]
  simp only [ofExcept, Program.bind_eq, Program.ret_bind, hocid]
  refine Triple.bind (hin (uses_openPorts inward_of_idle) raises_openPorts) fun _ => ?_
  refine Triple.bind (hin (StateStore.uses_startOperation (A := Op.inward) ⟨rfl, rfl⟩ hinward _ _ _ _
    fun _ _ _ _ _ => ⟨rfl, rfl⟩) (StateStore.raises_startOperation _ _ _ _)) fun operation => ?_
  unfold auditStarted
  refine Triple.bind (hperform ⟨rfl, rfl⟩) fun requestId => ?_
  refine Triple.bind (htransition _ _ _) fun _ => ?_
  refine Triple.handle (R := fun x w => At id r m w ∧
    (x.isInstance .auditError = true → TimesOut Γ certificate.audit passes F v)) ?_ fun x => ?_
  · have hbundle := @facing_read Γ _ id r m v hf (.getPublicBundle id none requestId) ⟨rfl, rfl⟩
      (fun b => ∃ u ∈ r.versions.rows, u.number = r.current ∧ b = r.bundle u) (by
        rintro w c w' hw ⟨-, r', hr, hb⟩
        rw [hw.1] at hr
        cases hr
        exact hb)
    unfold auditCurrent
    refine Triple.bind (hbundle.conseq (fun _ h => h) (fun _ _ h => h) hcalm fun _ h => h) fun b => Triple.assume ?_
    rintro ⟨u, hu, hun, rfl⟩
    refine Triple.bind (hperform ⟨rfl, rfl⟩) fun now => ?_
    cases hvalid : validatePublicCertificate Γ (r.bundle u).certificatePem certificate config.global now with
    | error x =>
      have hx : Calm x := validatePublicCertificate_calm (r.bundle u).certificatePem now x hvalid
      exact Triple.raise (fun w hw => hcalm x w ⟨hw.1, hx⟩) fun _ hw => hw.1
    | ok f =>
      obtain rfl : f = F := eq_of_validated hcur hu hun hvalid
      simp only [ofExcept, Program.bind_eq, Program.ret_bind]
      refine Triple.bind (R := fun configuration w => Facing id r m v w ∧ configuration = certificate.audit) ?_
        fun configuration => Triple.assume ?_
      · unfold auditService
        split
        · exact Triple.bind (hperform ⟨rfl, rfl⟩) fun _ => Triple.ret (fun _ hw => ⟨hw, rfl⟩) fun _ hw => hw.1
        · exact Triple.ret (fun _ hw => ⟨hw, rfl⟩) fun _ hw => hw.1
      · rintro rfl
        refine Triple.bind (R := fun result w => Facing id r m (v.afterAudit Γ certificate.audit passes f) w ∧
          result.successful = true ∧ ¬TimesOut Γ certificate.audit passes f v) ?_ fun result => Triple.assume ?_
        · intro w hw o w' hx
          have hpost := auditService_spec (Γ := Γ) certificate.audit f w hw o w' hx
          cases o with
          | returned result =>
            have hleft : w'.outlook = v.afterAudit Γ certificate.audit passes f := by
              unfold Outlook.afterAudit
              rw [hpost.2]
            refine ⟨⟨hpost.1, hleft⟩, hx.yields (AuditService.yields_audit hmode passes) rfl, ?_⟩
            rintro ⟨x, heval, -⟩
            rw [hpost.2] at heval
            cases heval
          | raised x => exact ⟨hpost.1, fun hinst => ⟨x, by rw [hpost.2], hinst⟩⟩
          | crashed => exact hpost
        · rintro ⟨hsuccessful, htimely⟩
          have hafter : ∀ {β : Type} {p : Action β}, p.Uses Op.inward → p.Raises Calm →
              Triple (service Γ faults) (Facing id r m (v.afterAudit Γ certificate.audit passes f)) p
                (fun _ => Facing id r m (v.afterAudit Γ certificate.audit passes f))
                (fun x w => At id r m w ∧ (x.isInstance .auditError = true → TimesOut Γ certificate.audit passes f v))
                (At id r m) :=
            fun hp hr => (facing_inward hf hp hr).conseq (fun _ h => h) (fun _ _ h => h) hcalm fun _ h => h
          have hmove : ∀ state fields, Triple (service Γ faults)
              (Facing id r m (v.afterAudit Γ certificate.audit passes f))
              (StateStore.transition operation.operationId state fields)
              (fun _ => Facing id r m (v.afterAudit Γ certificate.audit passes f))
              (fun x w => At id r m w ∧ (x.isInstance .auditError = true → TimesOut Γ certificate.audit passes f v))
              (At id r m) :=
            fun state fields => hafter (StateStore.uses_transition_row hinward (fun _ => ⟨rfl, rfl⟩) state fields)
              (StateStore.raises_transition (φ := Calm) rfl state fields)
          rw [hsuccessful, if_neg (by decide)]
          refine Triple.bind (hmove _ _) fun _ => ?_
          refine Triple.bind (hafter (StateStore.uses_recordFacts hinward fun _ => ⟨rfl, rfl⟩)
            (StateStore.raises_recordFacts _ _)) fun _ => ?_
          refine Triple.bind (hmove _ _) fun _ => ?_
          refine Triple.bind (hafter (StateStore.uses_completeInterruptedAudits hinward fun _ => ⟨rfl, rfl⟩)
            (StateStore.raises_completeInterruptedAudits _ _)) fun _ => ?_
          refine Triple.bind (hafter (Program.uses_perform.2 ⟨rfl, rfl⟩)
            (Program.raises_perform (S := publisher) (Op.logEvent _ _ _))) fun _ => ?_
          exact Triple.ret (fun _ hw => ⟨hw, rfl, htimely⟩) fun _ hw => hw.1
  · split
    · rename_i hinst
      refine Triple.bind (R := fun _ w => At id r m w ∧ TimesOut Γ certificate.audit passes F v) ?_ fun _ =>
        Triple.raise (fun w hw => ⟨hw.1, fun _ => hw.2⟩) fun _ hw => hw.1
      have hreads : (auditFailed Γ config certificate operation.operationId).Uses Op.reads :=
        @uses_auditFailed Γ config certificate _ certificate.id operation.operationId fun op h => by
          unfold Op.quiet at h
          rw [Bool.or_eq_true] at h
          rcases h with h | h
          · exact (inward_of_idle op h).1
          · exact footprint_reads _ _ op h
      intro w hw o w' hx
      have hpost := at_frame (Γ := Γ) hreads w hw.1 o w' hx
      cases o with
      | returned => exact ⟨hpost, hw.2 hinst⟩
      | raised y => exact ⟨hpost, fun _ => hw.2 hinst⟩
      | crashed => exact hpost
    · rename_i hinst
      exact Triple.raise (fun w hw => ⟨hw.1, fun h => absurd h hinst⟩) fun _ hw => hw.1

/-! ## The rollback -/

/-- A PREVIOUS version has been promoted. -/
def Restores (r r' : Resource) : Prop :=
  ∃ v ∈ r.versions.rows, RollbackService.isEligiblePrevious (r.shown v) = true ∧ r.promote v.number = some r'

/-- CURRENT has moved to another version, which was restorable. -/
def Moved (Γ : Ctx) (config : AppConfig) (certificate : CertificateConfig) (r r' : Resource) : Prop :=
  r'.current ≠ r.current ∧ Restorable Γ config certificate r ∧ Restores r r'

theorem yields_confirm {now : Instant} {audit : Option AuditConfig} {ocid operationId requestId fingerprint : String}
    {candidate : OciCertificateVersion} :
    (RollbackService.confirm Γ config certificate now audit passes ocid operationId requestId candidate fingerprint).Yields
      fun result => result.versionNumber = candidate.versionNumber := by
  refine Program.yields_last _ fun confirmed => Program.yields_last _ fun confirmedFingerprint => ?_
  split
  · trivial
  · rename_i hmatch
    refine Program.yields_last _ fun _ => Program.yields_last _ fun _ => Program.yields_last _ fun _ => ?_
    refine Program.yields_last _ fun _ => Program.yields_last _ fun _ => ?_
    exact not_not.1 fun h => hmatch (Or.inl h)

/-- A version that is listed as eligible is not CURRENT. -/
theorem number_ne_current {u : Version} (hu : u ∈ r.versions.rows)
    (h : RollbackService.isEligiblePrevious (r.shown u) = true) : r.current ≠ u.number := by
  intro hn
  unfold RollbackService.isEligiblePrevious at h
  rw [Bool.and_eq_true, List.contains_iff_mem] at h
  have hmem : Stage.previous ∈ r.stagesOf u := h.1
  unfold Resource.stagesOf at hmem
  rw [if_pos hn.symm] at hmem
  rcases List.mem_cons.1 hmem with hc | hp
  · cases hc
  · exact r.current_not_previous u hu hn.symm hp

/-- A rollback moves CURRENT to the restorable version, or nothing; when it returns it has moved it. -/
theorem rollback_spec (hc : configuredCertificate config certificateId = .ok certificate)
    (hocid : certificate.oci.certificateOcid = some id) :
    Triple (service Γ faults) (At id r m) (rollback Γ config passes certificateId)
      (fun result => On id fun r' _ => r'.current = result.versionNumber ∧ Moved Γ config certificate r r')
      (fun _ => On id fun r' _ => r' = r ∨ Moved Γ config certificate r r')
      (On id fun r' _ => r' = r ∨ Moved Γ config certificate r r') := by
  have hsame : ∀ w, At id r m w → On id (fun r' _ => r' = r ∨ Moved Γ config certificate r r') w :=
    fun w hw => on_intro hw (Or.inl rfl)
  have hframe : ∀ {β : Type} {p : Action β}, p.Uses Op.reads →
      Triple (service Γ faults) (At id r m) p (fun _ => At id r m)
        (fun _ => On id fun r' _ => r' = r ∨ Moved Γ config certificate r r')
        (On id fun r' _ => r' = r ∨ Moved Γ config certificate r r') :=
    fun hp => (at_frame hp).conseq (fun _ hw => hw) (fun _ _ hw => hw) (fun _ => hsame) hsame
  have hidle : ∀ op : Op, op.idle = true → op.reads := fun op h => (inward_of_idle op h).1
  unfold rollback
  rw [hc]
  simp only [ofExcept, Program.bind_eq, Program.ret_bind]
  refine Triple.bind (hframe (uses_openPorts hidle)) fun _ => ?_
  refine Triple.bind (hframe (Program.uses_perform.2 rfl)) fun now => ?_
  refine Triple.bind (hframe (uses_auditService hidle)) fun configuration => ?_
  unfold RollbackService.rollback
  rw [hocid]
  refine Triple.bind (hframe (StateStore.uses_startOperation (A := Op.reads) rfl rfl _ _ _ _ fun _ _ _ _ _ => rfl))
    fun operation => ?_
  refine Triple.bind (hframe (Program.uses_perform.2 rfl)) fun _ => ?_
  refine Triple.bind (hframe (Program.uses_perform.2 rfl)) fun requestId => ?_
  refine Triple.bind (R := fun candidate w => At id r m w ∧ ∃ u ∈ r.versions.rows, r.shown u = candidate ∧
    (r.versions.rows.map r.shown).filter RollbackService.isEligiblePrevious = [r.shown u]) ?_
    fun candidate => Triple.assume ?_
  · refine Triple.bind ((listVersions_spec requestId).conseq (fun _ hw => hw) (fun _ _ hw => hw) (fun _ => hsame) hsame)
      fun versions => Triple.assume fun hperm => ?_
    split
    · rename_i candidate hfilter
      have hone := hperm.filter RollbackService.isEligiblePrevious
      rw [hfilter] at hone
      have hshown := (List.perm_singleton.1 hone.symm)
      have hmem : candidate ∈ (r.versions.rows.map r.shown).filter RollbackService.isEligiblePrevious := by
        rw [hshown]
        exact List.mem_singleton_self _
      obtain ⟨u, hu, rfl⟩ := List.mem_map.1 (List.mem_filter.1 hmem).1
      exact Triple.ret (fun _ hw => ⟨hw, u, hu, rfl, hshown⟩) hsame
    · exact Triple.raise hsame hsame
  · rintro ⟨u, hu, rfl, hone⟩
    have heligible : RollbackService.isEligiblePrevious (r.shown u) = true := by
      have hmem : r.shown u ∈ (r.versions.rows.map r.shown).filter RollbackService.isEligiblePrevious := by
        rw [hone]
        exact List.mem_singleton_self _
      exact (List.mem_filter.1 hmem).2
    have hne : r.current ≠ u.number := number_ne_current hu heligible
    refine Triple.bind ((getPublicBundle_spec (some u.number) requestId).conseq (fun _ hw => hw) (fun _ _ hw => hw)
      (fun _ => hsame) hsame) fun b => Triple.assume ?_
    rintro ⟨x, hx, hxn, rfl⟩
    obtain rfl : x = u := PublicationReconciler.eq_of_number hx hu hxn
    cases hvalid : RollbackService.validateBundle Γ (r.bundle x).certificatePem certificate config now with
    | error e => exact Triple.raise hsame hsame
    | ok f =>
      have hrestorable : Restorable Γ config certificate r := by
        refine ⟨x, hu, hone, now, f, ?_⟩
        unfold RollbackService.validateBundle at hvalid
        split at hvalid
        · rename_i g hg
          cases hvalid
          exact hg
        · cases hvalid
      simp only [ofExcept, Program.bind_eq, Program.ret_bind]
      refine Triple.bind (hframe (Program.uses_perform.2 rfl)) fun remote => ?_
      refine Triple.bind (hframe (StateStore.uses_transition_row (A := Op.reads) rfl (fun _ => rfl) _ _)) fun _ => ?_
      have hmoved : ∀ r' m', PromotedFrom id r m x.number r' m' → r'.current = x.number ∧ Moved Γ config certificate r r' :=
        fun r' m' h => by
          refine ⟨h.current, by rw [h.current]; exact hne.symm, hrestorable, x, hu, heligible, ?_⟩
          rcases h with ⟨rfl, -, hcurrent⟩ | ⟨-, hp, -⟩
          · exact absurd hcurrent hne
          · exact hp
      have hor : ∀ w, At id r m w ∨ On id (PromotedFrom id r m x.number) w →
          On id (fun r' _ => r' = r ∨ Moved Γ config certificate r r') w := by
        rintro w (hw | ⟨r', m', hw, h⟩)
        · exact hsame w hw
        · exact on_intro hw (Or.inr (hmoved r' m' h).2)
      refine Triple.bind ((promote_spec hne remote.etag requestId).conseq (fun _ hw => hw) (fun _ _ hw => hw) (fun _ => hor) hor)
        fun _ => Triple.on fun r' m' h => ?_
      have hafter : ∀ w, At id r' m' w → On id (fun r' _ => r' = r ∨ Moved Γ config certificate r r') w :=
        fun w hw => on_intro hw (Or.inr (hmoved r' m' h).2)
      have hreads := @RollbackService.uses_confirm Γ config certificate now Op.reads id certificate.id operation.operationId
        requestId (some configuration) passes records_reads (footprint_reads certificate.id operation.operationId)
          (fun _ _ _ => rfl) pauses_reads rfl (fun op h => by cases op <;> first | rfl | cases h) (r.shown x) f
      intro w hw o w' hx'
      have hpost := at_frame (Γ := Γ) hreads w hw o w' hx'
      cases o with
      | returned result =>
        have hnumber : result.versionNumber = x.number := hx'.yields yields_confirm rfl
        refine on_intro hpost ⟨?_, (hmoved r' m' h).2⟩
        rw [hnumber]
        exact (hmoved r' m' h).1
      | raised y => exact hafter _ hpost
      | crashed => exact hafter _ hpost

/-! ## The retention -/

/-- What a scheduled deletion keeps. -/
def Undeleted (P : Resource → Prop) : Prop := ∀ r n time, P r → P (r.scheduleDeletion n time)

/-- The operation mutates nothing, or schedules a deletion. -/
def retires (op : Op) : Prop := op.reads ∨ ∃ ocid n time etag requestId, op = .scheduleVersionDeletion ocid n time etag requestId

theorem retires_frame {P : Resource → Prop} (hP : Undeleted P) {p : Action α} (hp : p.Uses retires) :
    Triple (service Γ faults) (On id fun r _ => P r) p (fun _ => On id fun r _ => P r) (fun _ => On id fun r _ => P r)
      (On id fun r _ => P r) := by
  refine Triple.frame hp ?_
  rintro w op answer w' hop ⟨r, m, hw, hr⟩ h
  rcases hop with hop | ⟨ocid, n, time, etag, requestId, rfl⟩
  · exact on_intro (at_of_reads hop hw h) hr
  · rcases service_cases h with ⟨ho, -⟩ | rfl | ⟨reply, r₁, hr₁, rfl⟩
    · cases ho
    · exact on_intro hw hr
    · by_cases hid : id = ocid
      · subst hid
        rw [hw.1] at hr₁
        cases hr₁
        refine ⟨_, _, ⟨?_, rfl⟩, hP r n time hr⟩
        simp
      · refine ⟨r, _, ⟨?_, rfl⟩, hr⟩
        simp [Function.update_of_ne hid, hw.1]

/-- CURRENT is this version, and carries this fingerprint. -/
def CurrentAs (Γ : Ctx) (n : Int) (F : String) (r : Resource) : Prop := r.current = n ∧ CurrentIs Γ F r

theorem undeleted_currentIs : Undeleted (CurrentIs Γ F) := by
  rintro r n time ⟨u, hu, hun, hcarries⟩
  by_cases hn : u.number = n
  · refine ⟨{ u with timeOfDeletion := some time }, ?_, hun, hcarries⟩
    exact List.mem_map.2 ⟨u, hu, by simp [hn]⟩
  · exact ⟨u, List.mem_map.2 ⟨u, hu, by simp [hn]⟩, hun, hcarries⟩

theorem uses_retires : (runPostPublicationRetention Γ config certificate).Uses retires :=
  uses_runPostPublicationRetention (fun op h => Or.inl (inward_of_idle op h).1)
    fun ocid n time etag requestId => Or.inr ⟨ocid, n, time, etag, requestId, rfl⟩

/-! ## The audit after a publication -/

/-- The automatic rollback is due: it is switched on, and the audit times out. -/
def RollsBack (Γ : Ctx) (certificate : CertificateConfig) (passes : Nat) (F : String) (v : Outlook) : Prop :=
  certificate.audit.automaticRollbackOnFailure = true ∧ TimesOut Γ certificate.audit passes F v

theorem uses_audit_reads (certificateId : String) : (audit Γ config passes certificateId).Uses Op.reads := by
  refine uses_audit (fun certificateId operationId op h => ?_) (fun op h => by cases op <;> first | rfl | cases h)
    (fun _ _ _ => rfl) (fun op h => ?_) passes certificateId
  · unfold Op.quiet at h
    rw [Bool.or_eq_true] at h
    rcases h with h | h
    · exact (inward_of_idle op h).1
    · exact footprint_reads _ _ op h
  · cases op <;> first | rfl | cases h

/-- Only the automatic rollback moves CURRENT after a publication: where it is due and the run goes on, it has. -/
theorem runPostPublicationAudit_spec (hf : faults.Silent)
    (hc : configuredCertificate config certificate.id = .ok certificate)
    (hocid : certificate.oci.certificateOcid = some id) (hcur : CurrentIs Γ F r) :
    Triple (service Γ faults) (Facing id r m v) (runPostPublicationAudit Γ config passes certificate)
      (fun _ w => On id (fun r' _ => (RollsBack Γ certificate passes F v → Moved Γ config certificate r r') ∧
        (¬RollsBack Γ certificate passes F v → r' = r)) w ∧ (certificate.audit.mode = .enforce →
          ¬RollsBack Γ certificate passes F v → w.outlook = v.afterAudit Γ certificate.audit passes F))
      (fun _ => On id fun r' _ => r' = r ∨ (RollsBack Γ certificate passes F v ∧ Moved Γ config certificate r r'))
      (On id fun r' _ => r' = r ∨ (RollsBack Γ certificate passes F v ∧ Moved Γ config certificate r r')) := by
  have hsame : ∀ w, At id r m w →
      On id (fun r' _ => r' = r ∨ (RollsBack Γ certificate passes F v ∧ Moved Γ config certificate r r')) w :=
    fun w hw => on_intro hw (Or.inl rfl)
  have hstay : ¬RollsBack Γ certificate passes F v → ∀ w, At id r m w →
      On id (fun r' _ => (RollsBack Γ certificate passes F v → Moved Γ config certificate r r') ∧
        (¬RollsBack Γ certificate passes F v → r' = r)) w :=
    fun hno w hw => on_intro hw ⟨fun h => absurd h hno, fun _ => rfl⟩
  have hno : certificate.audit.mode ≠ .enforce → ¬RollsBack Γ certificate passes F v :=
    fun hmode h => hmode (certificate.audit.rollback_enforced h.1)
  unfold runPostPublicationAudit
  cases hmode : certificate.audit.mode with
  | disabled =>
    exact Triple.ret (fun w hw => ⟨hstay (hno (by rw [hmode]; decide)) w hw.1, nofun⟩) fun w hw => hsame w hw.1
  | observe =>
    have hblank := hno (by rw [hmode]; decide)
    refine Triple.handle (R := fun _ => At id r m) ?_ fun x => ?_
    · refine Triple.bind (((at_frame (uses_audit_reads certificate.id)).pre fun _ hw => hw.1).conseq (fun _ hw => hw)
        (fun _ _ hw => hw) (fun _ _ hw => hw) hsame) fun _ => ?_
      exact Triple.ret (fun w hw => ⟨hstay hblank w hw, nofun⟩) hsame
    · split
      · exact Triple.ret (fun w hw => ⟨hstay hblank w hw, nofun⟩) hsame
      · exact Triple.raise hsame hsame
  | enforce =>
    simp only
    unfold enforcePostPublicationAudit
    rw [if_neg (by rw [hmode]; decide)]
    have hobserve : certificate.audit.mode ≠ .observe := by rw [hmode]; decide
    refine Triple.bind (R := fun successful w => (At id r m w ∧
      (successful = true → w.outlook = v.afterAudit Γ certificate.audit passes F)) ∧
      ((successful = true ∧ ¬TimesOut Γ certificate.audit passes F v) ∨
        (successful = false ∧ TimesOut Γ certificate.audit passes F v))) ?_ fun successful => Triple.assume ?_
    · refine Triple.handle (((audit_spec hf hc hocid hobserve hcur)).conseq (fun _ h => h)
        (fun _ _ h => ⟨⟨h.1.1, fun _ => h.1.2⟩, Or.inl h.2⟩) (fun _ _ h => h) hsame) fun x => ?_
      split
      · rename_i hinst
        exact Triple.ret (fun w hw => ⟨⟨hw.1, nofun⟩, Or.inr ⟨rfl, hw.2 hinst⟩⟩) fun w hw => hsame w hw.1
      · exact Triple.raise (fun w hw => hsame w hw.1) fun w hw => hsame w hw.1
    · rintro (⟨rfl, htimely⟩ | ⟨rfl, hlate⟩)
      · rw [if_pos rfl]
        exact Triple.ret (fun w hw => ⟨hstay (fun h => htimely h.2) w hw.1, fun _ _ => hw.2 rfl⟩) fun w hw => hsame w hw.1
      · rw [if_neg (by decide)]
        split
        · exact Triple.raise (fun w hw => hsame w hw.1) fun w hw => hsame w hw.1
        · rename_i hauto
          have hrolls : RollsBack Γ certificate passes F v := ⟨by simpa using hauto, hlate⟩
          have hor : ∀ w, On id (fun r' _ => r' = r ∨ Moved Γ config certificate r r') w →
              On id (fun r' _ => r' = r ∨ (RollsBack Γ certificate passes F v ∧ Moved Γ config certificate r r')) w := by
            rintro w ⟨r', m', hw, h⟩
            exact on_intro hw (h.imp_right fun h => ⟨hrolls, h⟩)
          refine Triple.bind (Triple.attempt ((rollback_spec hc hocid).conseq (fun _ hw => hw.1) (fun _ _ hw => hw)
            (fun _ => hor) hor) (fun _ w hw => ?_) fun _ _ hw => hw) ?_
          · obtain ⟨r', m', hw, -, h⟩ := hw
            exact on_intro hw (Or.inr ⟨hrolls, h⟩)
          · rintro (x | result)
            · simp only
              split
              · refine Triple.bind (on_frame (Program.uses_perform.2 rfl)) fun _ => ?_
                exact Triple.raise (fun _ hw => hw) fun _ hw => hw
              · exact Triple.raise (fun _ hw => hw) fun _ hw => hw
            · refine Triple.ret ?_ ?_
              · rintro w ⟨r', m', hw, -, h⟩
                exact ⟨on_intro hw ⟨fun _ => h, fun h => absurd hrolls h⟩, fun _ hn => absurd hrolls hn⟩
              · rintro w ⟨r', m', hw, -, h⟩
                exact on_intro hw (Or.inr ⟨hrolls, h⟩)

end PublicationService

end OciAcmePublisher
