import OciAcmePublisher.CompatibilityProbe
import OciAcmePublisher.Effects.Chronicle
import OciAcmePublisher.Theorems.AuditEvidence
import OciAcmePublisher.Theorems.Converged

/-!
# What a live probe shows

A live probe chains a publication, a forced renewal, an audit, a rollback and an audit. Its evidence is genuine exactly where the
audits are not switched off and neither publication rolls back by itself: the versions it names are then the versions that were
CURRENT while the endpoints presented them.
-/

namespace OciAcmePublisher

open Effects Tables PublicationService
open PublicationReconciler (CurrentIs Carries Confirmed Maintains Matches Eligible eligible_iff eq_of_number)

/-- Version `n` carries the leaf. -/
def Has (Γ : Ctx) (n : Int) (F : String) (r : Resource) : Prop := ∃ v ∈ r.versions.rows, v.number = n ∧ Carries Γ F v

/-- The version is CURRENT. -/
def World.isCurrent (id : String) (n : Int) (w : World) : Bool := decide ((w.certificates id).map (·.current) = some n)

/-- While the version was CURRENT its leaf was seen at every configured endpoint. -/
def ShownAsCurrent (Γ : Ctx) (certificate : CertificateConfig) (id : String) (n : Int) (w' : World)
    (c : Chronicle publisher Exc World) : Prop :=
  ∃ F, (∃ r, w'.certificates id = some r ∧ Has Γ n F r) ∧ ∀ endpoint ∈ certificate.audit.endpoints,
    Seen certificate.audit endpoint F (c.within (World.isCurrent id n))

/-- The evidence of a live probe is genuine: it promoted another version and restored the initial one, and each was CURRENT while its
leaf was seen at every endpoint, the restored one after the promoted one. -/
structure Genuine (Γ : Ctx) (certificate : CertificateConfig) (result : LiveCompatibilityProbeResult) (w' : World)
    (log : Chronicle publisher Exc World) : Prop where
  promoted : result.promotedVersionNumber ≠ result.initialVersionNumber
  restored : result.rollbackVersionNumber = result.initialVersionNumber
  shown : ∃ first last, log = first ++ last ∧
    ShownAsCurrent Γ certificate result.ociCertificateOcid result.promotedVersionNumber w' first ∧
      ShownAsCurrent Γ certificate result.ociCertificateOcid result.rollbackVersionNumber w' last

/-- The renewed leaf is new: the stored generation does not hold it, and no version of the OCI certificate carries it. -/
def NewLeaf (Γ : Ctx) (certificate : CertificateConfig) (stored renewed : LineageMaterial) (w : World) : Prop :=
  (∀ leaf, Γ.loadPem stored.leafPem = some leaf → certificateSha256 leaf ≠ certificateSha256 renewed.leaf) ∧
    ∀ id r, certificate.oci.certificateOcid = some id → w.certificates id = some r →
      ∀ v ∈ r.versions.rows, ¬Carries Γ (certificateSha256 renewed.leaf) v

/-- The audits are not switched off, and neither publication is followed by an automatic rollback: not that of the stored leaf, and
not that of the renewed one under what the endpoints and the clock answer after the first audit. -/
def Steady (Γ : Ctx) (certificate : CertificateConfig) (passes : Nat) (stored renewed : LineageMaterial) (v : Outlook) : Prop :=
  certificate.audit.mode ≠ .disabled ∧ ¬RollsBack Γ certificate passes (certificateSha256 stored.leaf) v ∧
    ¬RollsBack Γ certificate passes (certificateSha256 renewed.leaf)
      (v.afterAudit Γ certificate.audit passes (certificateSha256 stored.leaf))

namespace ProbeAux

variable {Γ : Ctx} {faults : Faults} {config : AppConfig} {certificate : CertificateConfig} {material : LineageMaterial}
  {operationType : OperationType} {passes : Nat} {certificateId id F G : String} {n c : Int} {r r' : Resource}
  {m : List Mutation} {v : Outlook} {α : Type}

/-! ## The stages of the versions -/

/-- No version but `n` is PREVIOUS. -/
def PreviousIs (n : Int) (r : Resource) : Prop := ∀ v ∈ r.versions.rows, Stage.previous ∈ v.stages → v.number = n

theorem carries_unique {u : Version} (h : Carries Γ F u) (h' : Carries Γ G u) : F = G :=
  Option.some.inj (h.symm.trans h')

theorem has_unique (h : Has Γ n F r) (h' : Has Γ n G r) : F = G := by
  obtain ⟨u, hu, hun, hF⟩ := h
  obtain ⟨x, hx, hxn, hG⟩ := h'
  obtain rfl : u = x := eq_of_number hu hx (hun.trans hxn.symm)
  exact carries_unique hF hG

theorem carries_restage {u : Version} : Carries Γ F (r.restage n u) ↔ Carries Γ F u := by
  unfold Carries Version.fingerprint
  rw [Resource.restage_pem]

theorem carries_dropLatest {u : Version} : Carries Γ F (Resource.dropLatest u) ↔ Carries Γ F u := Iff.rfl

theorem undeleted_has : Undeleted (Has Γ n F) := by
  rintro r k time ⟨u, hu, hun, hcarries⟩
  by_cases hk : u.number = k
  · refine ⟨{ u with timeOfDeletion := some time }, ?_, hun, hcarries⟩
    exact List.mem_map.2 ⟨u, hu, by simp [hk]⟩
  · exact ⟨u, List.mem_map.2 ⟨u, hu, by simp [hk]⟩, hun, hcarries⟩

theorem undeleted_previousIs : Undeleted (PreviousIs n) := by
  intro r k time h u hu hprevious
  obtain ⟨x, hx, rfl⟩ := List.mem_map.1 hu
  by_cases hk : x.number = k
  · rw [if_pos (by simpa using hk)] at hprevious ⊢
    exact h x hx hprevious
  · rw [if_neg (by simpa using hk)] at hprevious ⊢
    exact h x hx hprevious

theorem undeleted_current : Undeleted fun r => r.current = n := fun _ _ _ h => h

theorem upload_has {u : Version} (h : r.upload u = some r') (hr : Has Γ n F r) : Has Γ n F r' := by
  obtain ⟨x, hx, hxn, hcarries⟩ := hr
  refine ⟨Resource.dropLatest x, ?_, hxn, hcarries⟩
  rw [(Resource.upload_eq_some h).2.1]
  exact List.mem_append_left _ (List.mem_map_of_mem hx)

theorem promote_has {k : Int} (h : r.promote k = some r') (hr : Has Γ n F r) : Has Γ n F r' := by
  obtain ⟨-, -, rfl | ⟨-, hrows⟩⟩ := Resource.promote_eq_some h
  · exact hr
  · obtain ⟨x, hx, hxn, hcarries⟩ := hr
    refine ⟨r.restage k x, ?_, (r.restage_number k x).trans hxn, carries_restage.2 hcarries⟩
    rw [hrows]
    exact List.mem_map_of_mem hx

/-- After a promotion only the version it replaced is PREVIOUS. -/
theorem promote_previousIs {k : Int} (hk : k ≠ r.current) (h : r.promote k = some r') : PreviousIs r.current r' := by
  obtain ⟨-, hcurrent, rfl | ⟨-, hrows⟩⟩ := Resource.promote_eq_some h
  · exact absurd hcurrent.symm hk
  · intro u hu hprevious
    rw [hrows] at hu
    obtain ⟨x, hx, rfl⟩ := List.mem_map.1 hu
    rw [Resource.restage_number]
    unfold Resource.restage at hprevious
    split at hprevious
    · exact absurd (List.mem_filter.1 hprevious).2 (by simp)
    · split at hprevious
      · rename_i hx'
        exact hx'
      · obtain ⟨s, -, hs⟩ := List.mem_map.1 hprevious
        split at hs
        · cases hs
        · rename_i hne
          exact absurd hs hne

/-- What is eligible for a rollback is PREVIOUS. -/
theorem previous_of_eligible {u : Version} (h : RollbackService.isEligiblePrevious (r.shown u) = true) :
    Stage.previous ∈ u.stages := by
  unfold RollbackService.isEligiblePrevious at h
  rw [Bool.and_eq_true, List.contains_iff_mem] at h
  have hmem : Stage.previous ∈ r.stagesOf u := h.1
  unfold Resource.stagesOf at hmem
  split at hmem
  · rcases List.mem_cons.1 hmem with hc | hp
    · cases hc
    · exact hp
  · exact hmem

/-- A rollback restores the only PREVIOUS version, and the version it replaces is the only PREVIOUS one afterwards. -/
theorem moved_previous (hp : PreviousIs n r) (h : Moved Γ config certificate r r') :
    r'.current = n ∧ PreviousIs r.current r' ∧ ∀ k G, Has Γ k G r → Has Γ k G r' := by
  obtain ⟨hne, -, u, hu, heligible, hpromote⟩ := h
  have hun : u.number = n := hp u hu (previous_of_eligible heligible)
  have hcurrent := (Resource.promote_eq_some hpromote).2.1
  refine ⟨hcurrent.trans hun, promote_previousIs ?_ hpromote, fun k G hk => promote_has hpromote hk⟩
  rw [← hcurrent]
  exact hne

/-! ## A publication of a new leaf -/

/-- The publication of a new leaf: one version at most carries it, a version that waits to be promoted or CURRENT; and where it is
CURRENT, only the version it replaced is PREVIOUS. -/
structure Renewing (Γ : Ctx) (c n : Int) (F G : String) (r : Resource) : Prop where
  unique : ∀ u ∈ r.versions.rows, ∀ x ∈ r.versions.rows, Carries Γ F u → Carries Γ F x → u.number = x.number
  waits : ∀ u ∈ r.versions.rows, Carries Γ F u → u.number = r.current ∨ Eligible r u
  stage : (r.current = c ∧ ¬CurrentIs Γ F r) ∨ (CurrentIs Γ F r ∧ PreviousIs c r)
  has : Has Γ n G r

theorem renewing_start (hnew : ∀ u ∈ r.versions.rows, ¬Carries Γ F u) (hr : Has Γ n G r) : Renewing Γ r.current n F G r where
  unique u hu _ _ h _ := absurd h (hnew u hu)
  waits u hu h := absurd h (hnew u hu)
  stage := Or.inl ⟨rfl, fun ⟨u, hu, _, h⟩ => hnew u hu h⟩
  has := hr

theorem renewing_maintains (leafPem : Bytes) : Maintains Γ id F leafPem fun r _ => Renewing Γ c n F G r where
  upload := by
    intro r m r' u h hcur hnone _ hup
    obtain ⟨hfresh, hrows, hcurrent⟩ := Resource.upload_eq_some hup
    have hold : ∀ x ∈ r.versions.rows, ¬Carries Γ F x := by
      intro x hx hcarries
      rcases h.waits x hx hcarries with hx' | hx'
      · exact hcur ⟨x, hx, hx', hcarries⟩
      · exact hnone x hx hx' hcarries
    have hmem : ∀ x ∈ r'.versions.rows, Carries Γ F x → x = { u with stages := Resource.uploadedStages } := by
      intro x hx hcarries
      rw [hrows, List.mem_append, List.mem_map, List.mem_singleton] at hx
      rcases hx with ⟨y, hy, rfl⟩ | rfl
      · exact absurd (carries_dropLatest.1 hcarries) (hold y hy)
      · rfl
    have hstays : r.current = c := by
      rcases h.stage with hs | hs
      · exact hs.1
      · exact absurd hs.1 hcur
    refine ⟨fun x hx y hy hcx hcy => ?_, fun x hx hcx => Or.inr ?_, Or.inl ⟨hcurrent.trans hstays, ?_⟩, upload_has hup h.has⟩
    · rw [hmem x hx hcx, hmem y hy hcy]
    · rw [hmem x hx hcx, eligible_iff]
      exact Or.inl (by simp [Resource.uploadedStages])
    · rintro ⟨x, hx, hxn, hcx⟩
      rw [hmem x hx hcx, hcurrent] at hxn
      obtain ⟨y, hy, hyn⟩ := r.current_mem
      exact hfresh y hy (hyn.trans hxn.symm)
  promote := by
    intro r m r' candidate h hmatches hne hpromote
    obtain ⟨x, hx, hxn, -, hcx⟩ := hmatches
    obtain ⟨-, hcurrent, hcases⟩ := Resource.promote_eq_some hpromote
    have hcur : ¬CurrentIs Γ F r := by
      rintro ⟨y, hy, hyn, hcy⟩
      exact hne (by rw [← hyn, hxn]; exact h.unique y hy x hx hcy hcx)
    have hstays : r.current = c := by
      rcases h.stage with hs | hs
      · exact hs.1
      · exact absurd hs.1 hcur
    rcases hcases with rfl | ⟨-, hrows⟩
    · exact absurd hcurrent hne
    · have hmem : ∀ y ∈ r'.versions.rows, Carries Γ F y → y.number = candidate.versionNumber := by
        intro y hy hcy
        rw [hrows] at hy
        obtain ⟨z, hz, rfl⟩ := List.mem_map.1 hy
        rw [Resource.restage_number, hxn]
        exact h.unique z hz x hx (carries_restage.1 hcy) hcx
      refine ⟨fun y hy z hz hcy hcz => ?_, fun y hy hcy => Or.inl ?_, Or.inr ⟨?_, ?_⟩, promote_has hpromote h.has⟩
      · rw [hmem y hy hcy, hmem z hz hcz]
      · rw [hmem y hy hcy, hcurrent]
      · refine ⟨r.restage candidate.versionNumber x, ?_, ?_, carries_restage.2 hcx⟩
        · rw [hrows]
          exact List.mem_map_of_mem hx
        · rw [Resource.restage_number, hcurrent, hxn]
      · rw [← hstays]
        exact promote_previousIs (fun hn => hne hn.symm) hpromote

/-- A publication of the stored leaf adds no version with another one. -/
theorem unheard_maintains (hleaf : ∀ leaf, Γ.loadPem material.leafPem = some leaf → certificateSha256 leaf ≠ G) :
    Maintains Γ id F material.leafPem fun r _ => ∀ u ∈ r.versions.rows, ¬Carries Γ G u where
  upload := by
    intro r m r' u h _ _ hpem hup x hx hcarries
    rw [(Resource.upload_eq_some hup).2.1, List.mem_append, List.mem_map, List.mem_singleton] at hx
    rcases hx with ⟨y, hy, rfl⟩ | rfl
    · exact h y hy (carries_dropLatest.1 hcarries)
    · unfold Carries Version.fingerprint at hcarries
      rw [encodeAscii_of_decodeAscii hpem] at hcarries
      obtain ⟨leaf, hload, hsha⟩ := Option.map_eq_some_iff.1 hcarries
      exact hleaf leaf hload hsha
  promote := by
    intro r m r' candidate h _ _ hpromote
    obtain ⟨-, -, rfl | ⟨-, hrows⟩⟩ := Resource.promote_eq_some hpromote
    · exact h
    · intro x hx hcarries
      rw [hrows] at hx
      obtain ⟨y, hy, rfl⟩ := List.mem_map.1 hx
      exact h y hy (carries_restage.1 hcarries)

/-! ## What a publication leaves -/

/-- `r'` has everything that scheduled deletions keep of `r`. -/
def Retires (r r' : Resource) : Prop := ∀ P, Undeleted P → P r → P r'

/-- After the reconciliation: `r` is restored or stays as the automatic rollback is due or not, and then versions are retired. -/
def Followed (Γ : Ctx) (config : AppConfig) (certificate : CertificateConfig) (passes : Nat) (F : String) (v : Outlook)
    (r r' : Resource) : Prop :=
  ∃ x, (RollsBack Γ certificate passes F v → Moved Γ config certificate r x) ∧
    (¬RollsBack Γ certificate passes F v → x = r) ∧ Retires x r'

theorem undeleted_followed : Undeleted (Followed Γ config certificate passes F v r) := by
  rintro x k time ⟨y, hmoved, hstays, hretires⟩
  exact ⟨y, hmoved, hstays, fun P hP hr => hP x k time (hretires P hP hr)⟩

/-- What holds after a publication of a leaf: the reconciler's result was true of a certificate that kept to `I`. -/
def Publishes (Γ : Ctx) (config : AppConfig) (certificate : CertificateConfig) (passes : Nat) (id F : String) (v : Outlook)
    (I : Resource → Prop) (result : PublicationResult) (w : World) : Prop :=
  (∃ r, I r ∧ CurrentAs Γ result.currentVersionNumber F r ∧
    On id (fun r' _ => Followed Γ config certificate passes F v r r') w) ∧
    (certificate.audit.mode = .enforce → ¬RollsBack Γ certificate passes F v →
      w.outlook = v.afterAudit Γ certificate.audit passes F)

open CurrentAux ConvergedAux

theorem retention_blind : (runPostPublicationRetention Γ config certificate).Uses Op.blind :=
  uses_runPostPublicationRetention blind_of_idle fun _ _ _ _ _ => rfl

/-- The invariant of the certificate, with the outlook and the local generation. -/
def Before (certificateId id : String) (material : LineageMaterial) (v : Outlook) (I : Resource → Prop) (w : World) : Prop :=
  (On id (fun r _ => I r) w ∧ w.outlook = v) ∧ w.lineages certificateId = some material

/-- A program that mutates nothing, observes nothing and commits nothing. -/
def still (op : Op) : Prop := op.inward ∧ keepsLineages op

theorem still_of_idle (op : Op) (h : op.idle = true) : still op := ⟨inward_of_idle op h, keepsLineages_of_idle op h⟩

/-- It says nothing of the runs that do not return. -/
abbrev Leads (Γ : Ctx) (faults : Faults) (P : World → Prop) (p : Action α) (Q : α → World → Prop) : Prop :=
  Triple (service Γ faults) P p Q (fun _ _ => True) fun _ => True

theorem before_frame {I : Resource → Prop} {p : Action α} (hp : p.Uses still) :
    Leads Γ faults (Before certificateId id material v I) p fun _ => Before certificateId id material v I := by
  refine (Triple.frame hp ?_).conseq (fun _ h => h) (fun _ _ h => h) (fun _ _ _ => trivial) fun _ _ => trivial
  rintro w op answer w' ⟨hop, hkeeps⟩ ⟨⟨⟨r, m, hw, hI⟩, hv⟩, hmaterial⟩ h
  refine ⟨⟨on_intro (at_of_reads hop.1 hw h) hI, (outlook_of_blind hop.2 h).trans hv⟩, ?_⟩
  rw [service_lineages h hkeeps]
  exact hmaterial

theorem reconciler_blind {chain : OciCertificateChain} {now : Instant} :
    (PublicationReconciler.publish Γ config certificate material chain F now operationType).Uses Op.blind := by
  unfold PublicationReconciler.publish
  split
  · trivial
  · refine Program.uses_bind (StateStore.uses_startOperation (A := Op.blind) rfl rfl _ _ _ _ fun _ _ _ _ _ => rfl)
      fun operation => ?_
    exact PublicationReconciler.uses_reconcile (blind_of_quiet certificate.id operation.operationId) (fun _ _ _ => rfl)
      fun _ _ _ => rfl

/-- The reconciler keeps the invariant and the outlook, and its result is true. -/
theorem reconciler_follows {I : Resource → Prop} {chain : OciCertificateChain} {now : Instant}
    (hocid : certificate.oci.certificateOcid = some id)
    (hI : Maintains Γ id F material.leafPem fun r _ => I r) :
    Leads Γ faults (Before certificateId id material v I)
      (PublicationReconciler.publish Γ config certificate material chain F now operationType)
      fun result w => w.outlook = v ∧ On id (fun r _ => I r ∧ CurrentAs Γ result.currentVersionNumber F r) w := by
  intro w hw o w' hx
  have hspec := PublicationReconciler.publish_spec (Γ := Γ) (F := F) hocid hI w hw.1.1 o w' hx
  have hlook := outlook_frame (Γ := Γ) reconciler_blind w hw.1.2 o w' hx
  cases o with
  | returned result =>
    obtain ⟨r, m, hat, hr, hcur, -, hnumber, -⟩ := hspec
    exact ⟨hlook, on_intro hat ⟨hr, hnumber.symm, hcur⟩⟩
  | raised | crashed => trivial

/-- What a publication of the stored leaf leaves. -/
theorem publish_follows (hf : faults.Silent) (hc : configuredCertificate config certificate.id = .ok certificate)
    (hocid : certificate.oci.certificateOcid = some id) {I : Resource → Prop}
    (hI : Maintains Γ id (certificateSha256 material.leaf) material.leafPem fun r _ => I r) :
    Leads Γ faults (Before certificate.id id material v I) (publish Γ config passes certificate.id operationType)
      (Publishes Γ config certificate passes id (certificateSha256 material.leaf) v I) := by
  have hstay : ∀ {β : Type} {p : Action β}, p.Uses still →
      Leads Γ faults (Before certificate.id id material v I) p fun _ => Before certificate.id id material v I :=
    fun hp => before_frame hp
  have hperform : ∀ op : Op, op.idle = true → (perform op).Uses still :=
    fun op h => Program.uses_perform.2 (still_of_idle op h)
  unfold publish
  rw [hc]
  simp only [ofExcept, Program.bind_eq, Program.ret_bind]
  refine Triple.bind (hstay (uses_requireProductionQualification still_of_idle)) fun _ => ?_
  refine Triple.bind (R := fun loaded w => Before certificate.id id material v I w ∧ loaded = material) ?_ fun loaded =>
    Triple.assume ?_
  · have hload : Leads Γ faults (Before certificate.id id material v I) (perform (.loadLineage certificate.id))
        fun loaded _ => loaded = material := by
      refine Triple.perform (fun _ _ => trivial) (fun w a w' hw h => ⟨?_, trivial⟩) fun _ _ _ _ _ => ⟨trivial, trivial⟩
      unfold service at h
      rw [if_neg (by simp [Op.observes])] at h
      exact Option.some.inj (h.2.symm.trans hw.2)
    exact ((hstay (hperform _ rfl)).and hload).conseq (fun _ h => ⟨h, h⟩) (fun _ _ h => h) (fun _ _ _ => trivial)
      fun _ _ => trivial
  rintro rfl
  refine Triple.bind (hstay (hperform _ rfl)) fun validated => ?_
  cases hvalid : validateCertificateMaterial Γ loaded certificate config.compatibility config.global validated with
  | error x => exact Triple.raise (fun _ _ => trivial) fun _ _ => trivial
  | ok fingerprint =>
    obtain rfl : fingerprint = certificateSha256 loaded.leaf := (validateCertificateMaterial_ok hvalid).2
    simp only [Program.ret_bind]
    refine Triple.bind (hstay (uses_buildChain still_of_idle)) fun chain => ?_
    refine Triple.bind (hstay (hperform _ rfl)) fun _ => ?_
    refine Triple.bind (hstay (uses_openPorts still_of_idle)) fun _ => ?_
    refine Triple.bind (hstay (hperform _ rfl)) fun now => ?_
    refine Triple.bind (reconciler_follows hocid hI) fun result => ?_
    rintro w ⟨hv, r, m, hat, hr, hcur⟩
    have hafter : Leads Γ faults (Facing id r m v)
        ((logEvent .info "OPERATION_COMPLETED" [("certificate_id", .text certificate.id),
          ("operation", .text operationType.lowerName), ("version_number", .number result.currentVersionNumber)]).bind
            fun _ => (runPostPublicationAudit Γ config passes certificate).bind fun _ =>
              (runPostPublicationRetention Γ config certificate).bind fun _ => .ret result)
        (Publishes Γ config certificate passes id (certificateSha256 loaded.leaf) v I) := by
      refine Triple.bind ((facing_frame (Program.uses_perform.2 (inward_of_idle _ rfl))).conseq (fun _ h => h)
        (fun _ _ h => h) (fun _ _ _ => trivial) fun _ _ => trivial) fun _ => ?_
      refine Triple.bind ((runPostPublicationAudit_spec hf hc hocid hcur.2).conseq (fun _ h => h) (fun _ _ h => h)
        (fun _ _ _ => trivial) fun _ _ => trivial) fun _ => ?_
      refine Triple.bind (R := fun _ => Publishes Γ config certificate passes id (certificateSha256 loaded.leaf) v I result)
        ?_ fun _ => Triple.ret (fun _ h => h) fun _ _ => trivial
      rintro w₁ ⟨⟨r₁, m₁, hw₁, hmoved, hstays⟩, hlook⟩ o w₂ hx
      have hfollowed := retires_frame (Γ := Γ) (undeleted_followed (Γ := Γ) (r := r))
        uses_retires w₁ (on_intro hw₁ ⟨r₁, hmoved, hstays, fun P _ h => h⟩) o w₂ hx
      have hsame := outlook_frame (Γ := Γ) retention_blind w₁ rfl o w₂ hx
      cases o with
      | returned => exact ⟨⟨r, hr, hcur, hfollowed⟩, fun hmode hno => Eq.trans hsame (hlook hmode hno)⟩
      | raised | crashed => trivial
    exact hafter w ⟨hat, hv⟩

/-- A certificate that OCI does not have is not published. -/
theorem publish_absent (hc : configuredCertificate config certificate.id = .ok certificate)
    (hocid : certificate.oci.certificateOcid = some id) :
    Leads Γ faults (fun w => w.certificates id = none) (publish Γ config passes certificate.id operationType)
      fun _ _ => False := by
  have hstay : ∀ {β : Type} {p : Action β}, p.Uses Op.inward →
      Leads Γ faults (fun w => w.certificates id = none) p fun _ w => w.certificates id = none := fun hp =>
    (Triple.frame hp fun w op answer w' hop hw h => by
      rw [(service_certificates h hop.1).1]
      exact hw).conseq (fun _ h => h) (fun _ _ h => h) (fun _ _ _ => trivial) fun _ _ => trivial
  have hperform : ∀ op : Op, op.idle = true → (perform op).Uses Op.inward :=
    fun op h => Program.uses_perform.2 (inward_of_idle op h)
  unfold publish
  rw [hc]
  simp only [ofExcept, Program.bind_eq, Program.ret_bind]
  refine Triple.bind (hstay (uses_requireProductionQualification inward_of_idle)) fun _ => ?_
  refine Triple.bind (hstay (hperform _ rfl)) fun loaded => ?_
  refine Triple.bind (hstay (hperform _ rfl)) fun validated => ?_
  refine Triple.bind (hstay uses_ofExcept) fun fingerprint => ?_
  refine Triple.bind (hstay (uses_buildChain inward_of_idle)) fun chain => ?_
  refine Triple.bind (hstay (hperform _ rfl)) fun _ => ?_
  refine Triple.bind (hstay (uses_openPorts inward_of_idle)) fun _ => ?_
  refine Triple.bind (hstay (hperform _ rfl)) fun now => ?_
  refine Triple.bind (R := fun _ _ => False) ?_ fun _ _ hw => hw.elim
  unfold PublicationReconciler.publish
  rw [hocid]
  refine Triple.bind (hstay (StateStore.uses_startOperation (A := Op.inward) ⟨rfl, rfl⟩ ⟨rfl, rfl⟩ _ _ _ _
    fun _ _ _ _ _ => ⟨rfl, rfl⟩)) fun operation => ?_
  exact reconcile_absent

/-- What a renewal leaves, where the generation it leaves is new. -/
theorem renew_follows (hf : faults.Silent) (hc : configuredCertificate config certificate.id = .ok certificate)
    (hocid : certificate.oci.certificateOcid = some id) {I : Resource → Prop} (force : Bool) :
    Leads Γ faults (fun w => On id (fun r _ => I r) w ∧ w.outlook = v) (renew Γ config passes certificate.id force)
      fun result w => ∀ material, w.lineages certificate.id = some material →
        (Maintains Γ id (certificateSha256 material.leaf) material.leafPem fun r _ => I r) →
          Publishes Γ config certificate passes id (certificateSha256 material.leaf) v I result w := by
  have hstay : ∀ {β : Type} {p : Action β}, p.Uses Op.inward →
      Leads Γ faults (fun w => On id (fun r _ => I r) w ∧ w.outlook = v) p
        fun _ w => On id (fun r _ => I r) w ∧ w.outlook = v := fun hp =>
    ((on_frame (hp.mono fun _ h => h.1)).and (outlook_frame (hp.mono fun _ h => h.2))).conseq (fun _ h => h) (fun _ _ h => h)
      (fun _ _ _ => trivial) fun _ _ => trivial
  unfold renew
  rw [hc]
  simp only [ofExcept, Program.bind_eq, Program.ret_bind]
  refine Triple.bind (hstay (uses_requireProductionQualification inward_of_idle)) fun _ => ?_
  refine Triple.bind (hstay (uses_runPreflight inward_of_idle)) fun _ => ?_
  refine Triple.bind (hstay (uses_beforeFingerprint inward_of_idle)) fun _ => ?_
  refine Triple.bind (hstay (Program.uses_perform.2 ⟨rfl, rfl⟩)) fun _ => ?_
  refine Triple.bind (hstay (NativeAcmeService.uses_issue inward_of_idle (fun _ _ => ⟨rfl, rfl⟩)
    (fun _ _ => ⟨rfl, rfl⟩) (fun _ => ⟨rfl, rfl⟩) force)) fun _ => ?_
  refine Triple.bind (hstay (Program.uses_perform.2 ⟨rfl, rfl⟩)) fun _ => ?_
  intro w hw o w' hx
  cases o with
  | raised | crashed => trivial
  | returned result =>
    intro material hmaterial hI
    have hlineages : w'.lineages = w.lineages :=
      Exec.keeps (A := keepsLineages) (I := fun x : World => x.lineages = w.lineages)
        (fun _ _ _ _ hop hi h => (service_lineages h hop).trans hi) hx uses_publish_keepsLineages rfl
    exact publish_follows hf hc hocid hI w ⟨hw, by rw [← hlineages]; exact hmaterial⟩ _ w' hx

/-! ## What an audit has seen -/

/-- What has been seen stays seen. -/
theorem seen_frame {φ : Trace → Prop} (hφ : Lasting φ) {p : Action α} {Q : α → Prop} (hp : p.Yields Q) :
    Triple (recording (service Γ faults)) (fun w => φ w.2) p (fun a w => Q a ∧ φ w.2) (fun _ _ => True) fun _ => True := by
  intro w hw o w' hx
  cases o with
  | raised | crashed => trivial
  | returned a =>
    refine ⟨hx.yields hp rfl, Exec.invariant (I := fun x => φ x.2) ?_ hx hw⟩
    rintro x op answer x' hx ⟨-, hlog⟩
    rw [hlog]
    exact hφ x.2 _ hx

/-- An audit that succeeds has seen the leaf of CURRENT at every endpoint, where it is not switched off. -/
theorem audit_shown (hc : configuredCertificate config certificate.id = .ok certificate)
    (hocid : certificate.oci.certificateOcid = some id) (hmode : certificate.audit.mode ≠ .disabled)
    (hcur : CurrentIs Γ F r) :
    Triple (recording (service Γ faults)) (fun w => At id r m w.1) (audit Γ config passes certificate.id)
      (fun b w => b = true → ∀ endpoint ∈ certificate.audit.endpoints, Seen certificate.audit endpoint F w.2)
      (fun _ _ => True) fun _ => True := by
  have hrec : ∀ {β : Type} {p : Action β} {Q : β → World → Prop},
      Triple (service Γ faults) (At id r m) p Q (fun _ => At id r m) (At id r m) →
        Triple (recording (service Γ faults)) (fun w => At id r m w.1) p (fun a w => Q a w.1) (fun _ _ => True)
          fun _ => True := fun hp =>
    (hp.recorded (Triple.unconstrained (P := fun _ => True) _)).conseq (fun _ h => ⟨h, trivial⟩) (fun _ _ h => h.1)
      (fun _ _ _ => trivial) fun _ _ => trivial
  have hstay : ∀ {β : Type} {p : Action β}, p.Uses Op.reads →
      Triple (recording (service Γ faults)) (fun w => At id r m w.1) p (fun _ w => At id r m w.1) (fun _ _ => True)
        fun _ => True := fun hp => hrec (at_frame hp)
  have hidle : ∀ op : Op, op.idle = true → op.reads := fun op h => (inward_of_idle op h).1
  unfold audit
  rw [hc]
  simp only [ofExcept, Program.bind_eq, Program.ret_bind, hocid]
  refine Triple.bind (hstay (uses_openPorts hidle)) fun _ => ?_
  refine Triple.bind (hstay (StateStore.uses_startOperation (A := Op.reads) rfl rfl _ _ _ _ fun _ _ _ _ _ => rfl))
    fun operation => ?_
  unfold auditStarted
  refine Triple.bind (hstay (Program.uses_perform.2 rfl)) fun requestId => ?_
  refine Triple.bind (hstay (StateStore.uses_transition_row (A := Op.reads) rfl (fun _ => rfl) _ _)) fun _ => ?_
  refine Triple.handle (R := fun _ _ => True) ?_ fun x => ?_
  · unfold auditCurrent
    refine Triple.bind (hrec (getPublicBundle_spec none requestId)) fun b => Triple.assume ?_
    rintro ⟨u, hu, hun, rfl⟩
    refine Triple.bind (hstay (Program.uses_perform.2 rfl)) fun now => ?_
    cases hvalid : validatePublicCertificate Γ (r.bundle u).certificatePem certificate config.global now with
    | error x => exact Triple.raise (fun _ _ => trivial) fun _ _ => trivial
    | ok f =>
      obtain rfl : f = F := eq_of_validated hcur hu hun hvalid
      simp only [ofExcept, Program.bind_eq, Program.ret_bind]
      refine Triple.bind (R := fun configuration _ => configuration = certificate.audit) ?_ fun configuration => ?_
      · intro w hw o w' hx
        cases o with
        | returned configuration => exact hx.yields AuditEvidenceAux.yields_auditService rfl
        | raised | crashed => trivial
      intro w hconfiguration
      subst hconfiguration
      have hseen : Triple (recording (service Γ faults)) (fun _ => True)
          (AuditService.audit Γ certificate.audit passes f)
          (fun result w => result.successful = true →
            ∀ endpoint ∈ certificate.audit.endpoints, Seen certificate.audit endpoint f w.2)
          (fun _ _ => True) fun _ => True := by
        refine ((Triple.unconstrained (P := fun _ => True) _).recorded
          (AuditService.audit_spec passes)).conseq (fun _ _ => ⟨trivial, trivial⟩) (fun result x h hs => ?_)
          (fun _ _ _ => trivial) fun _ _ => trivial
        exact (h.2 hs).resolve_left hmode
      refine Triple.bind hseen (fun result => ?_) w trivial
      split
      · refine Triple.last _ fun _ => Triple.ret (fun _ _ h => by cases h) fun _ _ => trivial
      · rename_i hsuccess
        have hs : result.successful = true := by simpa using hsuccess
        have hlasting : Lasting fun t : Trace =>
            ∀ endpoint ∈ certificate.audit.endpoints, Seen certificate.audit endpoint f t :=
          fun t e h endpoint hmem => AuditService.lasting_seen t e (h endpoint hmem)
        exact ((seen_frame hlasting (Program.yields_true _)).conseq (fun _ h => h hs) (fun _ _ h _ => h.2)
          (fun _ _ h => h) fun _ h => h)
  · split
    · exact Triple.last _ fun _ => Triple.raise (fun _ _ => trivial) fun _ _ => trivial
    · exact Triple.raise (fun _ _ => trivial) fun _ _ => trivial

/-! ## The runs of a probe -/

theorem exec_bind_returned {S : Signature} {X W β : Type} {env : Env S X W} {p : Program S X α} {f : α → Program S X β}
    {w w' : W} {b : β} (h : Exec env (p.bind f) w (.returned b) w') :
    ∃ a w₁, Exec env p w (.returned a) w₁ ∧ Exec env (f a) w₁ (.returned b) w' := by
  rcases exec_bind_iff.1 h with h | ⟨x, hx, -⟩ | ⟨hx, -⟩
  · exact h
  · cases hx
  · cases hx

/-- The run of an audit that a probe requires. -/
theorem requireAudit_returned {env : Env publisher Exc (World × Chronicle publisher Exc World)} {message : String}
    {w w' : World × Chronicle publisher Exc World}
    (h : Exec env (CompatibilityProbe.requireAudit Γ config passes certificate.id message) w (.returned ()) w') :
    Exec env (audit Γ config passes certificate.id) w (.returned true) w' := by
  obtain ⟨b, w₁, haudit, hrest⟩ := exec_bind_returned h
  cases b with
  | true =>
    obtain ⟨rfl, -⟩ := exec_ret_iff.1 hrest
    exact haudit
  | false =>
    obtain ⟨-, hx | hx⟩ := exec_raise_iff.1 hrest <;> cases hx

/-- The chain of runs of a probe that returns. -/
theorem liveProbe_returned {w w' : World} {log : Chronicle publisher Exc World} {result : LiveCompatibilityProbeResult}
    (h : Exec (chronicling (service Γ faults)) (CompatibilityProbe.liveProbe Γ config passes certificate) (w, [])
      (.returned result) (w', log)) :
    ∃ baseline offline published, ∃ rollbackResult : RollbackResult, ∃ w₁ w₂ w₃ w₄ w₅,
      certificate.audit.endpoints ≠ [] ∧ certificate.oci.certificateOcid = some result.ociCertificateOcid ∧
      result.initialVersionNumber = baseline.currentVersionNumber ∧
      result.promotedVersionNumber = published.currentVersionNumber ∧
      result.rollbackVersionNumber = rollbackResult.versionNumber ∧
      Exec (chronicling (service Γ faults)) (publish Γ config passes certificate.id .publish) (w, []) (.returned baseline) w₁ ∧
      Exec (chronicling (service Γ faults)) (CompatibilityProbe.offlineProbe Γ config certificate) w₁ (.returned offline) w₂ ∧
      Exec (chronicling (service Γ faults)) (renew Γ config passes certificate.id true) w₂ (.returned published) w₃ ∧
      Exec (chronicling (service Γ faults)) (audit Γ config passes certificate.id) w₃ (.returned true) w₄ ∧
      Exec (chronicling (service Γ faults)) (rollback Γ config passes certificate.id) w₄ (.returned rollbackResult) w₅ ∧
      Exec (chronicling (service Γ faults)) (audit Γ config passes certificate.id) w₅ (.returned true) (w', log) := by
  unfold CompatibilityProbe.liveProbe at h
  obtain ⟨_, w₀, hrequire, h⟩ := exec_bind_returned h
  have hallowed : certificate.audit.endpoints ≠ [] ∧ w₀ = (w, []) := by
    unfold CompatibilityProbe.requireLiveTestEnvironment at hrequire
    split at hrequire
    · obtain ⟨-, hx | hx⟩ := exec_raise_iff.1 hrequire <;> cases hx
    · split at hrequire
      · obtain ⟨-, hx | hx⟩ := exec_raise_iff.1 hrequire <;> cases hx
      · rename_i hendpoints
        split at hrequire
        · obtain ⟨-, hx | hx⟩ := exec_raise_iff.1 hrequire <;> cases hx
        · exact ⟨hendpoints, (exec_ret_iff.1 hrequire).1⟩
  obtain ⟨hendpoints, rfl⟩ := hallowed
  obtain ⟨baseline, w₁, hbaseline, h⟩ := exec_bind_returned h
  obtain ⟨offline, w₂, hoffline, h⟩ := exec_bind_returned h
  obtain ⟨published, w₃, hpublished, h⟩ := exec_bind_returned h
  obtain ⟨_, w₄, hfirst, h⟩ := exec_bind_returned h
  obtain ⟨rollbackResult, w₅, hrollback, h⟩ := exec_bind_returned h
  obtain ⟨_, w₆, hsecond, h⟩ := exec_bind_returned h
  cases hocid : certificate.oci.certificateOcid with
  | none =>
    rw [hocid] at h
    obtain ⟨-, hx | hx⟩ := exec_raise_iff.1 h <;> cases hx
  | some ocid =>
    rw [hocid] at h
    obtain ⟨hw, hx | hx⟩ := exec_ret_iff.1 h
    · cases hx
      subst hw
      exact ⟨baseline, offline, published, rollbackResult, w₁, w₂, w₃, w₄, w₅, hendpoints, rfl, rfl, rfl, rfl, hbaseline,
        hoffline, hpublished, requireAudit_returned hfirst, hrollback, requireAudit_returned hsecond⟩
    · cases hx

theorem seen_of_subset {configuration : AuditConfig} {endpoint : AuditEndpoint} {t t' : Trace} (h : t ⊆ t')
    (hseen : Seen configuration endpoint F t) : Seen configuration endpoint F t' := by
  obtain ⟨addresses, hresolve, hne, hall | ⟨hany, address, hmem, hp⟩⟩ := hseen
  · exact ⟨addresses, h hresolve, hne, Or.inl fun address hmem => h (hall address hmem)⟩
  · exact ⟨addresses, h hresolve, hne, Or.inr ⟨hany, address, hmem, h hp⟩⟩

/-- The chronicle of a successful audit shows the leaf of CURRENT. -/
theorem audit_chronicled (hc : configuredCertificate config certificate.id = .ok certificate)
    (hocid : certificate.oci.certificateOcid = some id) (hmode : certificate.audit.mode ≠ .disabled)
    {w w' : World × Chronicle publisher Exc World} (hr : w.1.certificates id = some r) (hcur : CurrentIs Γ F r)
    (h : Exec (chronicling (service Γ faults)) (audit Γ config passes certificate.id) w (.returned true) w') :
    ∃ c, w'.2 = w.2 ++ c ∧ ∀ endpoint ∈ certificate.audit.endpoints,
      Seen certificate.audit endpoint F (c.within (World.isCurrent id r.current)) := by
  obtain ⟨c, hc', hx⟩ := h.chronicled
  refine ⟨c, hc', ?_⟩
  have hwithin : c.within (World.isCurrent id r.current) = c.map (·.2) := by
    refine Chronicle.within_of_forall fun x hmem => ?_
    have hkept := hx.chronicle_keeps (A := Op.reads) (I := At id r w.1.mutations)
      (fun _ _ _ _ hop hi h => at_of_reads hop hi h) (uses_audit_reads certificate.id) ⟨hr, rfl⟩ x hmem
    rcases hkept with hnil | ⟨hat, -⟩
    · cases hnil
    · unfold World.isCurrent
      rw [hat.1]
      exact decide_eq_true rfl
  rw [hwithin]
  exact audit_shown (m := w.1.mutations) hc hocid hmode hcur _ ⟨hr, rfl⟩ _ _ hx.chronicle_record rfl

/-! ## The versions of a probe -/

/-- No version carries the leaf. -/
def Unheard (Γ : Ctx) (F : String) (r : Resource) : Prop := ∀ u ∈ r.versions.rows, ¬Carries Γ F u

theorem undeleted_unheard : Undeleted (Unheard Γ F) := by
  intro r k time h u hu hcarries
  obtain ⟨x, hx, rfl⟩ := List.mem_map.1 hu
  by_cases hk : x.number = k
  · rw [if_pos (by simpa using hk)] at hcarries
    exact h x hx hcarries
  · rw [if_neg (by simpa using hk)] at hcarries
    exact h x hx hcarries

theorem promote_unheard {k : Int} (h : r.promote k = some r') (hr : Unheard Γ F r) : Unheard Γ F r' := by
  obtain ⟨-, -, rfl | ⟨-, hrows⟩⟩ := Resource.promote_eq_some h
  · exact hr
  · intro u hu hcarries
    rw [hrows] at hu
    obtain ⟨x, hx, rfl⟩ := List.mem_map.1 hu
    exact hr x hx (carries_restage.1 hcarries)

theorem uses_offlineProbe {A : Op → Prop} (hA : ∀ op, op.idle = true → A op) :
    (CompatibilityProbe.offlineProbe Γ config certificate).Uses A := by
  refine Program.uses_bind (Program.uses_perform.2 (hA _ rfl)) fun material => ?_
  refine Program.uses_bind (Program.uses_handle ?_ fun x => ?_) fun _ => trivial
  · refine Program.uses_bind (Program.uses_perform.2 (hA _ rfl)) fun _ => ?_
    refine Program.uses_bind uses_ofExcept fun _ => ?_
    exact Program.uses_bind (uses_buildChain hA) fun _ => trivial
  · split <;> trivial

theorem lineages_of_keeps {p : Action α} (hp : p.Uses keepsLineages) {w w' : World} {o : Outcome Exc α}
    (hx : Exec (service Γ faults) p w o w') : w'.lineages = w.lineages :=
  Exec.keeps (A := keepsLineages) (I := fun x : World => x.lineages = w.lineages)
    (fun _ _ _ _ hop hi h => (service_lineages h hop).trans hi) hx hp rfl

theorem keepsLineages_of_observes (op : Op) (h : op.observes = true) : keepsLineages op := by
  cases op <;> first | rfl | cases h

theorem uses_audit_keepsLineages : (audit Γ config passes certificate.id).Uses keepsLineages :=
  uses_audit keepsLineages_of_quiet keepsLineages_of_observes (fun _ _ _ => rfl)
    (fun op h => by cases op <;> first | rfl | cases h) passes certificate.id

theorem uses_rollback_keepsLineages : (rollback Γ config passes certificate.id).Uses keepsLineages :=
  uses_rollback keepsLineages_of_quiet keepsLineages_of_observes (fun _ _ _ => rfl) (fun _ _ _ _ => rfl) passes
    certificate.id

section Versions

variable (hf : faults.Silent) (hc : configuredCertificate config certificate.id = .ok certificate)
  (hocid : certificate.oci.certificateOcid = some id)

include hf hc hocid

/-- What the baseline publication leaves: CURRENT is the version it names, unless it has rolled back. -/
theorem baseline_left {stored renewed : LineageMaterial} {w w₁ : World} {baseline : PublicationResult}
    (hstored : w.lineages certificate.id = some stored) (hnew : NewLeaf Γ certificate stored renewed w)
    (h : Exec (service Γ faults) (publish Γ config passes certificate.id .publish) w (.returned baseline) w₁) :
    ∃ r₁, w₁.certificates id = some r₁ ∧ Has Γ baseline.currentVersionNumber (certificateSha256 stored.leaf) r₁ ∧
      Unheard Γ (certificateSha256 renewed.leaf) r₁ ∧
        (r₁.current = baseline.currentVersionNumber ↔
          ¬RollsBack Γ certificate passes (certificateSha256 stored.leaf) w.outlook) ∧
        (certificate.audit.mode = .enforce → ¬RollsBack Γ certificate passes (certificateSha256 stored.leaf) w.outlook →
          w₁.outlook = w.outlook.afterAudit Γ certificate.audit passes (certificateSha256 stored.leaf)) := by
  cases hr₀ : w.certificates id with
  | none => exact (publish_absent hc hocid w hr₀ _ w₁ h).elim
  | some r₀ =>
    have hbefore : Before certificate.id id stored w.outlook (Unheard Γ (certificateSha256 renewed.leaf)) w :=
      ⟨⟨⟨r₀, w.mutations, ⟨hr₀, rfl⟩, hnew.2 id r₀ hocid hr₀⟩, rfl⟩, hstored⟩
    have hunheard := @unheard_maintains Γ stored id (certificateSha256 stored.leaf) (certificateSha256 renewed.leaf) hnew.1
    obtain ⟨⟨r, hI, ⟨hn, hcur⟩, r₁, m₁, hat, x, hmoved, hstays, hretires⟩, hlook⟩ :=
      publish_follows hf hc hocid hunheard w hbefore _ w₁ h
    have hhas : Has Γ baseline.currentVersionNumber (certificateSha256 stored.leaf) r := by
      rw [← hn]
      exact hcur
    refine ⟨r₁, hat.1, ?_⟩
    by_cases hrolls : RollsBack Γ certificate passes (certificateSha256 stored.leaf) w.outlook
    · obtain ⟨hne, -, u, -, -, hpromote⟩ := hmoved hrolls
      have hgone : r₁.current ≠ baseline.currentVersionNumber :=
        hretires (fun y => y.current ≠ baseline.currentVersionNumber) (fun _ _ _ hy => hy) (by rw [← hn]; exact hne)
      exact ⟨hretires _ undeleted_has (promote_has hpromote hhas), hretires _ undeleted_unheard (promote_unheard hpromote hI),
        ⟨fun hy => absurd hy hgone, fun hno => absurd hrolls hno⟩, hlook⟩
    · obtain rfl := hstays hrolls
      exact ⟨hretires _ undeleted_has hhas, hretires _ undeleted_unheard hI,
        ⟨fun _ => hrolls, fun _ => hretires (fun y => y.current = baseline.currentVersionNumber) undeleted_current hn⟩, hlook⟩

/-- What the renewal leaves: its version is CURRENT and the one before it PREVIOUS, or the other way round where it has rolled
back. -/
theorem renewal_left {renewed : LineageMaterial} {n₀ : Int} {F₀ : String} {w₂ w₃ : World} {published : PublicationResult}
    {r₁ : Resource} (hr₁ : w₂.certificates id = some r₁) (hhas : Has Γ n₀ F₀ r₁)
    (hunheard : Unheard Γ (certificateSha256 renewed.leaf) r₁) (hrenewed : w₃.lineages certificate.id = some renewed)
    (h : Exec (service Γ faults) (renew Γ config passes certificate.id true) w₂ (.returned published) w₃) :
    ∃ r₂, w₃.certificates id = some r₂ ∧ Has Γ n₀ F₀ r₂ ∧
      Has Γ published.currentVersionNumber (certificateSha256 renewed.leaf) r₂ ∧
        (RollsBack Γ certificate passes (certificateSha256 renewed.leaf) w₂.outlook →
          r₂.current = r₁.current ∧ PreviousIs published.currentVersionNumber r₂) ∧
        (¬RollsBack Γ certificate passes (certificateSha256 renewed.leaf) w₂.outlook →
          r₂.current = published.currentVersionNumber ∧ PreviousIs r₁.current r₂) := by
  have hstart : On id (fun r _ => Renewing Γ r₁.current n₀ (certificateSha256 renewed.leaf) F₀ r) w₂ :=
    ⟨r₁, w₂.mutations, ⟨hr₁, rfl⟩, renewing_start hunheard hhas⟩
  obtain ⟨⟨r, hI, ⟨hn, hcur⟩, r₂, m₂, hat, x, hmoved, hstays, hretires⟩, -⟩ :=
    renew_follows hf hc hocid true w₂ ⟨hstart, rfl⟩ _ w₃ h renewed hrenewed (renewing_maintains _)
  have hprevious : PreviousIs r₁.current r := by
    rcases hI.stage with ⟨-, hno⟩ | ⟨-, hp⟩
    · exact absurd hcur hno
    · exact hp
  have hown : Has Γ published.currentVersionNumber (certificateSha256 renewed.leaf) r := by
    rw [← hn]
    exact hcur
  refine ⟨r₂, hat.1, ?_⟩
  by_cases hrolls : RollsBack Γ certificate passes (certificateSha256 renewed.leaf) w₂.outlook
  · obtain ⟨hback, hleft, hkeeps⟩ := moved_previous hprevious (hmoved hrolls)
    rw [hn] at hleft
    exact ⟨hretires _ undeleted_has (hkeeps _ _ hI.has), hretires _ undeleted_has (hkeeps _ _ hown),
      fun _ => ⟨hretires (fun y => y.current = r₁.current) undeleted_current hback, hretires _ undeleted_previousIs hleft⟩,
      fun hno => absurd hrolls hno⟩
  · obtain rfl := hstays hrolls
    exact ⟨hretires _ undeleted_has hI.has, hretires _ undeleted_has hown, fun hy => absurd hy hrolls,
      fun _ => ⟨hretires (fun y => y.current = published.currentVersionNumber) undeleted_current hn,
        hretires _ undeleted_previousIs hprevious⟩⟩

end Versions

/-! ## Audits that are switched off -/

section Disabled

variable (hc : configuredCertificate config certificate.id = .ok certificate)
  (hmode : certificate.audit.mode = .disabled)

include hmode

theorem disabled_blind (f : String) : (AuditService.audit Γ certificate.audit passes f).Uses Op.blind := by
  unfold AuditService.audit AuditService.auditWith
  rw [if_pos hmode]
  trivial

omit hmode in
theorem uses_bind_auditService {f : AuditConfig → Action α} (hf : (f certificate.audit).Uses Op.blind) :
    ((auditService config certificate).bind f).Uses Op.blind := by
  unfold auditService
  split
  · rw [Program.bind_assoc]
    exact Program.uses_bind (Program.uses_perform.2 rfl) fun _ => hf
  · exact hf

include hc

theorem audit_blind : (audit Γ config passes certificate.id).Uses Op.blind := by
  unfold audit
  rw [hc]
  simp only [ofExcept, Program.bind_eq, Program.ret_bind]
  split
  · trivial
  · refine Program.uses_bind (uses_openPorts blind_of_idle) fun _ => ?_
    refine Program.uses_bind (StateStore.uses_startOperation (A := Op.blind) rfl rfl _ _ _ _ fun _ _ _ _ _ => rfl)
      fun operation => ?_
    have htransition : ∀ state fields, (StateStore.transition operation.operationId state fields).Uses Op.blind :=
      fun state fields => StateStore.uses_transition_row (A := Op.blind) rfl (fun _ => rfl) state fields
    have hfailed : (auditFailed Γ config certificate operation.operationId).Uses Op.blind :=
      uses_auditFailed (blind_of_quiet certificate.id operation.operationId)
    refine Program.uses_bind (Program.uses_perform.2 rfl) fun requestId => ?_
    refine Program.uses_bind (htransition _ _) fun _ => ?_
    refine Program.uses_handle ?_ fun x => ?_
    · refine Program.uses_bind (Program.uses_perform.2 rfl) fun bundle => ?_
      refine Program.uses_bind (Program.uses_perform.2 rfl) fun now => ?_
      refine Program.uses_bind uses_ofExcept fun expected => ?_
      refine uses_bind_auditService (Program.uses_bind (disabled_blind hmode expected) fun result => ?_)
      split
      · exact Program.uses_bind hfailed fun _ => trivial
      · refine Program.uses_bind (htransition _ _) fun _ => ?_
        refine Program.uses_bind (StateStore.uses_recordFacts (A := Op.blind) rfl fun _ => rfl) fun _ => ?_
        refine Program.uses_bind (htransition _ _) fun _ => ?_
        refine Program.uses_bind (StateStore.uses_completeInterruptedAudits (A := Op.blind) rfl fun _ => rfl) fun _ => ?_
        exact Program.uses_bind (Program.uses_perform.2 rfl) fun _ => trivial
    · split
      · exact Program.uses_bind hfailed fun _ => trivial
      · trivial

theorem rollback_blind : (rollback Γ config passes certificate.id).Uses Op.blind := by
  unfold rollback
  rw [hc]
  simp only [ofExcept, Program.bind_eq, Program.ret_bind]
  refine Program.uses_bind (uses_openPorts blind_of_idle) fun _ => ?_
  refine Program.uses_bind (Program.uses_perform.2 rfl) fun now => ?_
  refine uses_bind_auditService ?_
  unfold RollbackService.rollback
  split
  · trivial
  · rename_i ocid _
    refine Program.uses_bind (StateStore.uses_startOperation (A := Op.blind) rfl rfl _ _ _ _ fun _ _ _ _ _ => rfl)
      fun operation => ?_
    have htransition : ∀ state fields, (StateStore.transition operation.operationId state fields).Uses Op.blind :=
      fun state fields => StateStore.uses_transition_row (A := Op.blind) rfl (fun _ => rfl) state fields
    have hfailed : (RollbackService.auditFailed operation.operationId certificate).Uses Op.blind :=
      Program.uses_bind (htransition _ _) fun _ => Program.uses_bind (Program.uses_perform.2 rfl) fun _ => trivial
    refine Program.uses_bind (Program.uses_perform.2 rfl) fun _ => ?_
    refine Program.uses_bind (Program.uses_perform.2 rfl) fun requestId => ?_
    refine Program.uses_bind (RollbackService.uses_previousVersion blind_of_idle) fun candidate => ?_
    refine Program.uses_bind (Program.uses_perform.2 rfl) fun _ => ?_
    refine Program.uses_bind uses_ofExcept fun _ => ?_
    refine Program.uses_bind (Program.uses_perform.2 rfl) fun _ => ?_
    refine Program.uses_bind (htransition _ _) fun _ => ?_
    refine Program.uses_bind (Program.uses_perform.2 rfl) fun _ => ?_
    have hbundle : (perform (.getPublicBundle ocid none requestId)).Uses Op.blind := Program.uses_perform.2 rfl
    refine Program.uses_bind (uses_retryReadUntilSync (fun op h => blind_of_idle op (idle_of_pauses op h)) hbundle _ _)
      fun _ => ?_
    refine Program.uses_bind uses_ofExcept fun fingerprint => ?_
    split
    · trivial
    · refine Program.uses_bind (htransition _ _) fun _ => ?_
      refine Program.uses_bind (StateStore.uses_recordFacts (A := Op.blind) rfl fun _ => rfl) fun _ => ?_
      refine Program.uses_bind ?_ fun _ => ?_
      · refine Program.uses_bind (htransition _ _) fun _ => ?_
        refine Program.uses_bind (Program.uses_attempt (disabled_blind hmode fingerprint)) fun outcome => ?_
        cases outcome with
        | error error =>
          simp only
          split
          · exact hfailed
          · trivial
        | ok result =>
          simp only
          split
          · exact hfailed
          · exact htransition _ _
      · refine Program.uses_bind (htransition _ _) fun _ => ?_
        exact Program.uses_bind (Program.uses_perform.2 rfl) fun _ => trivial

theorem publish_blind (operationType : OperationType) :
    (publish Γ config passes certificate.id operationType).Uses Op.blind := by
  have hperform : ∀ op : Op, op.idle = true → (perform op).Uses Op.blind :=
    fun op h => Program.uses_perform.2 (blind_of_idle op h)
  unfold publish
  rw [hc]
  simp only [ofExcept, Program.bind_eq, Program.ret_bind]
  refine Program.uses_bind (uses_requireProductionQualification blind_of_idle) fun _ => ?_
  refine Program.uses_bind (hperform _ rfl) fun _ => Program.uses_bind (hperform _ rfl) fun _ => ?_
  refine Program.uses_bind uses_ofExcept fun fingerprint => ?_
  refine Program.uses_bind (uses_buildChain blind_of_idle) fun _ => Program.uses_bind (hperform _ rfl) fun _ => ?_
  refine Program.uses_bind (uses_openPorts blind_of_idle) fun _ => Program.uses_bind (hperform _ rfl) fun _ => ?_
  refine Program.uses_bind reconciler_blind fun _ => Program.uses_bind (hperform _ rfl) fun _ => ?_
  refine Program.uses_bind ?_ fun _ => Program.uses_bind retention_blind fun _ => trivial
  unfold runPostPublicationAudit
  rw [hmode]
  trivial

/-- A probe of a certificate with its audits switched off observes nothing. -/
theorem liveProbe_blind : (CompatibilityProbe.liveProbe Γ config passes certificate).Uses Op.blind := by
  have hrequire : ∀ message, (CompatibilityProbe.requireAudit Γ config passes certificate.id message).Uses Op.blind := by
    intro message
    refine Program.uses_bind (audit_blind hc hmode) fun successful => ?_
    split <;> trivial
  have hrenew : (renew Γ config passes certificate.id true).Uses Op.blind := by
    unfold renew
    refine Program.uses_bind uses_ofExcept fun configured => ?_
    refine Program.uses_bind (uses_requireProductionQualification blind_of_idle) fun _ => ?_
    refine Program.uses_bind (uses_runPreflight blind_of_idle) fun _ => ?_
    refine Program.uses_bind (uses_beforeFingerprint blind_of_idle) fun _ => ?_
    refine Program.uses_bind (Program.uses_perform.2 rfl) fun _ => ?_
    refine Program.uses_bind (NativeAcmeService.uses_issue blind_of_idle (fun _ _ => rfl) (fun _ _ => rfl) (fun _ => rfl)
      true) fun _ => ?_
    exact Program.uses_bind (Program.uses_perform.2 rfl) fun _ => publish_blind hc hmode _
  refine Program.uses_bind uses_ofExcept fun _ => ?_
  refine Program.uses_bind (publish_blind hc hmode _) fun _ => ?_
  refine Program.uses_bind (uses_offlineProbe blind_of_idle) fun _ => ?_
  refine Program.uses_bind hrenew fun _ => ?_
  refine Program.uses_bind (hrequire _) fun _ => ?_
  refine Program.uses_bind (rollback_blind hc hmode) fun _ => ?_
  refine Program.uses_bind (hrequire _) fun _ => ?_
  split <;> trivial

end Disabled

theorem not_mem_of_blind {w w' : World} {log : Chronicle publisher Exc World} {p : Action α} {o : Outcome Exc α}
    (hp : p.Uses Op.blind) (h : Exec (chronicling (service Γ faults)) p (w, []) o (w', log)) {φ : World → Bool}
    {hostname : String} {addresses : List String} :
    (⟨.resolve hostname, .ok addresses⟩ : Event publisher Exc) ∉ log.within φ := by
  intro hmem
  unfold Chronicle.within at hmem
  obtain ⟨x, hx, hevent⟩ := List.mem_map.1 hmem
  rcases h.chronicle_keeps (A := Op.blind) (I := fun _ => True) (fun _ _ _ _ _ _ _ => trivial) hp trivial x
    (List.mem_filter.1 hx).1 with hnil | ⟨-, hblind⟩
  · cases hnil
  · rw [hevent] at hblind
    cases hblind

/-- A rollback that returns has promoted the PREVIOUS version. -/
theorem rollback_left (hc : configuredCertificate config certificate.id = .ok certificate)
    (hocid : certificate.oci.certificateOcid = some id) {w w' : World} {result : RollbackResult}
    (hr : w.certificates id = some r)
    (h : Exec (service Γ faults) (rollback Γ config passes certificate.id) w (.returned result) w') :
    ∃ r', w'.certificates id = some r' ∧ r'.current = result.versionNumber ∧ Moved Γ config certificate r r' := by
  obtain ⟨r', m', hat, hcurrent, hmoved⟩ := rollback_spec hc hocid w ⟨hr, rfl⟩ _ w' h
  exact ⟨r', hat.1, hcurrent, hmoved⟩

theorem audit_left {w w' : World} {o : Outcome Exc Bool} (hr : w.certificates id = some r)
    (h : Exec (service Γ faults) (audit Γ config passes certificate.id) w o w') : w'.certificates id = some r :=
  (Exec.keeps (A := Op.reads) (I := At id r w.mutations) (fun _ _ _ _ hop hi h => at_of_reads hop hi h) h
    (uses_audit_reads certificate.id) ⟨hr, rfl⟩).1

/-- Outside enforce mode no automatic rollback is due. -/
theorem not_rollsBack (hmode : certificate.audit.mode ≠ .enforce) : ¬RollsBack Γ certificate passes F v :=
  fun h => hmode (certificate.audit.rollback_enforced h.1)

end ProbeAux

open ProbeAux

/-- The evidence of a live probe that returns is genuine if and only if its audits are not switched off and neither of its
publications was followed by an automatic rollback, whatever its other settings, where the renewed leaf is new. -/
theorem live_probe_genuine_iff (Γ : Ctx) {faults : Faults} (hf : faults.Silent) {config : AppConfig}
    {certificate : CertificateConfig} {passes : Nat} (hc : configuredCertificate config certificate.id = .ok certificate)
    {w w' : World} {log : Chronicle publisher Exc World} {result : LiveCompatibilityProbeResult}
    {stored renewed : LineageMaterial}
    (h : Exec (chronicling (service Γ faults)) (CompatibilityProbe.liveProbe Γ config passes certificate) (w, [])
      (.returned result) (w', log))
    (hstored : w.lineages certificate.id = some stored) (hrenewed : w'.lineages certificate.id = some renewed)
    (hnew : NewLeaf Γ certificate stored renewed w) :
    Genuine Γ certificate result w' log ↔ Steady Γ certificate passes stored renewed w.outlook := by
  obtain ⟨baseline, offline, published, rollbackResult, w₁, w₂, w₃, w₄, w₅, hendpoints, hocid, hinitial, hpromoted, hrestored,
    hbaseline, hoffline, hrenew, hfirst, hrollback, hsecond⟩ := liveProbe_returned h
  -- What the runs leave of the OCI certificate.
  obtain ⟨r₁, hr₁, hinit, hunheard, hcurrent₁, hlook₁⟩ := baseline_left hf hc hocid hstored hnew hbaseline.unchronicle
  have hidle : ∀ op : Op, op.idle = true → op.inward := inward_of_idle
  have hr₁' : w₂.1.certificates result.ociCertificateOcid = some r₁ :=
    (Exec.keeps (A := Op.reads) (I := At result.ociCertificateOcid r₁ w₁.1.mutations)
      (fun _ _ _ _ hop hi hs => at_of_reads hop hi hs) hoffline.unchronicle
      (uses_offlineProbe fun op hop => (hidle op hop).1) ⟨hr₁, rfl⟩).1
  have hlook₂ : w₂.1.outlook = w₁.1.outlook :=
    Exec.keeps (A := Op.blind) (I := fun x => x.outlook = w₁.1.outlook)
      (fun _ _ _ _ hop hi hs => (outlook_of_blind hop hs).trans hi) hoffline.unchronicle
      (uses_offlineProbe fun op hop => (hidle op hop).2) rfl
  have hrenewed₃ : w₃.1.lineages certificate.id = some renewed := by
    rw [← hrenewed, lineages_of_keeps uses_audit_keepsLineages hsecond.unchronicle,
      lineages_of_keeps uses_rollback_keepsLineages hrollback.unchronicle,
      lineages_of_keeps uses_audit_keepsLineages hfirst.unchronicle]
  obtain ⟨r₂, hr₂, hinit₂, hpublished, hback, hforth⟩ :=
    renewal_left hf hc hocid hr₁' hinit hunheard hrenewed₃ hrenew.unchronicle
  have hr₂' := audit_left hr₂ hfirst.unchronicle
  obtain ⟨r₃, hr₃, hrolled, hmoved⟩ := rollback_left hc hocid hr₂' hrollback.unchronicle
  have hr₃' := audit_left hr₃ hsecond.unchronicle
  have hdistinct : published.currentVersionNumber ≠ baseline.currentVersionNumber := by
    intro heq
    rw [heq] at hpublished
    obtain ⟨u, hu, -, hcarries⟩ := hinit
    rw [has_unique hinit₂ hpublished] at hcarries
    exact hunheard u hu hcarries
  -- The rollback restores the initial version where neither publication has rolled back, and only there.
  have hversions : rollbackResult.versionNumber = baseline.currentVersionNumber ↔
      ¬RollsBack Γ certificate passes (certificateSha256 stored.leaf) w.outlook ∧
        ¬RollsBack Γ certificate passes (certificateSha256 renewed.leaf) w₂.1.outlook := by
    rw [← hrolled]
    by_cases hrolls : RollsBack Γ certificate passes (certificateSha256 renewed.leaf) w₂.1.outlook
    · have hcur := (moved_previous (hback hrolls).2 hmoved).1
      rw [hcur]
      exact ⟨fun heq => absurd heq hdistinct, fun hno => absurd hrolls hno.2⟩
    · have hcur := (moved_previous (hforth hrolls).2 hmoved).1
      rw [hcur, hcurrent₁]
      exact ⟨fun hno => ⟨hno, hrolls⟩, fun hno => hno.1⟩
  -- What the second publication starts from is what the first audit leaves.
  have hsteady : ¬RollsBack Γ certificate passes (certificateSha256 stored.leaf) w.outlook →
      (RollsBack Γ certificate passes (certificateSha256 renewed.leaf) w₂.1.outlook ↔
        RollsBack Γ certificate passes (certificateSha256 renewed.leaf)
          (w.outlook.afterAudit Γ certificate.audit passes (certificateSha256 stored.leaf))) := by
    intro hno
    by_cases hmode : certificate.audit.mode = .enforce
    · rw [hlook₂, hlook₁ hmode hno]
    · exact ⟨fun hy => absurd hy (not_rollsBack hmode), fun hy => absurd hy (not_rollsBack hmode)⟩
  constructor
  · rintro ⟨-, hsame, first, last, hlog, hshown, -⟩
    have hno := hversions.1 (by rw [← hrestored, hsame, hinitial])
    refine ⟨fun hmode => ?_, hno.1, fun hy => hno.2 ((hsteady hno.1).2 hy)⟩
    obtain ⟨F, -, hseen⟩ := hshown
    obtain ⟨endpoint, hmem⟩ := List.exists_mem_of_ne_nil _ hendpoints
    obtain ⟨addresses, hresolve, -⟩ := hseen endpoint hmem
    have hevent : (⟨.resolve endpoint.hostname, .ok addresses⟩ : Event publisher Exc) ∈
        log.within (World.isCurrent result.ociCertificateOcid result.promotedVersionNumber) := by
      rw [hlog, Chronicle.within_append]
      exact List.mem_append_left _ hresolve
    exact not_mem_of_blind (liveProbe_blind hc hmode) h hevent
  · rintro ⟨hmode, hfirstNo, hsecondNo⟩
    have hno : ¬RollsBack Γ certificate passes (certificateSha256 renewed.leaf) w₂.1.outlook :=
      fun hy => hsecondNo ((hsteady hfirstNo).1 hy)
    obtain ⟨hcur₂, -⟩ := hforth hno
    have hsame := hversions.2 ⟨hfirstNo, hno⟩
    have hkept := (moved_previous (hforth hno).2 hmoved).2.2
    have hcurrentIs₂ : CurrentIs Γ (certificateSha256 renewed.leaf) r₂ := by
      rw [← hcur₂] at hpublished
      exact hpublished
    have hinit₃ : Has Γ rollbackResult.versionNumber (certificateSha256 stored.leaf) r₃ := by
      rw [hsame]
      exact hkept _ _ hinit₂
    have hcurrentIs₃ : CurrentIs Γ (certificateSha256 stored.leaf) r₃ := by
      rw [← hrolled] at hinit₃
      exact hinit₃
    obtain ⟨c₄, hc₄, hseen₄⟩ := audit_chronicled hc hocid hmode hr₂ hcurrentIs₂ hfirst
    obtain ⟨c₅, hc₅, -⟩ := hrollback.chronicled
    obtain ⟨c₆, hc₆, hseen₆⟩ := audit_chronicled hc hocid hmode hr₃ hcurrentIs₃ hsecond
    refine ⟨by rw [hpromoted, hinitial]; exact hdistinct, by rw [hrestored, hinitial]; exact hsame, w₄.2, c₅ ++ c₆, ?_, ?_, ?_⟩
    · rw [show log = w₅.2 ++ c₆ from hc₆, hc₅, List.append_assoc]
    · refine ⟨certificateSha256 renewed.leaf, ⟨r₃, hr₃', ?_⟩, fun endpoint hmem => ?_⟩
      · rw [hpromoted]
        exact hkept _ _ hpublished
      · rw [hc₄, Chronicle.within_append, hpromoted, ← hcur₂]
        exact seen_of_subset (List.subset_append_right _ _) (hseen₄ endpoint hmem)
    · refine ⟨certificateSha256 stored.leaf, ⟨r₃, hr₃', ?_⟩, fun endpoint hmem => ?_⟩
      · rw [hrestored]
        exact hinit₃
      · rw [Chronicle.within_append, hrestored, ← hrolled]
        exact seen_of_subset (List.subset_append_right _ _) (hseen₆ endpoint hmem)

namespace ProbeAux

open Sample

/-- The sample certificate with one endpoint, audited once in the given mode. -/
def probed (mode : AuditMode) : CertificateConfig :=
  { certificate with
    audit := {
      mode := mode
      propagationTimeoutSeconds := 0
      endpoints := endpoints } }

/-- The local generation whose leaf is `A`. -/
def storedMaterial : LineageMaterial := { material with leaf := leaf 1, leafPem := [65] }

/-- A CA that issues the leaf `B`. -/
def issuing : Script :=
  { script with
    order := ⟨"order", [⟨"a.example", [.http01 "token" "validation"]⟩]⟩
    finalized := ⟨"BI", []⟩ }

/-- The endpoint follows CURRENT: it presents `A`, then `B` while the renewal is audited, then `A`. -/
def following : Network := fun n => presenting (certificateSha256 (leaf (if n < 3 then 1 else if n < 9 then 2 else 1))) n

/-- The OCI certificate and the local generation hold `A`. -/
def probeWorld : World :=
  { world resource with network := following, lineages := fun id => if id = "web" then some storedMaterial else none }

def probeRun (mode : AuditMode) :
    Outcome Exc LiveCompatibilityProbeResult × World × Chronicle publisher Exc World :=
  (CompatibilityProbe.liveProbe addressed (config (probed mode)) 1 (probed mode)).runFor
    (simulate addressed issuing).chronicle 400 (probeWorld, [])

/-- The evidence it returns. -/
def probeResult : LiveCompatibilityProbeResult where
  certificateId := "web"
  ociCertificateOcid := "ocid"
  initialVersionNumber := 1
  promotedVersionNumber := 2
  rollbackVersionNumber := 1
  leafFingerprint := certificateSha256 (leaf 1)
  rootFingerprint := certificateSha256 root
  chainBytes := 2
  documentedSubjectCountryEnforced := false

theorem probeRun_exec {mode : AuditMode} (h : (probeRun mode).1 = .returned probeResult) :
    Exec (chronicling (service addressed noFaults))
      (CompatibilityProbe.liveProbe addressed (config (probed mode)) 1 (probed mode)) (probeWorld, []) (.returned probeResult)
      ((probeRun mode).2.1, (probeRun mode).2.2) := by
  rw [Prod.mk.eta]
  exact exec_of_runFor (simulate_allowed addressed issuing noFaults).chronicle h

theorem probeWorld_new (mode : AuditMode) : NewLeaf addressed (probed mode) storedMaterial material probeWorld := by
  constructor
  · intro leaf hleaf
    cases hleaf
    decide +kernel
  · intro id r hid hr v hv
    cases hid
    cases hr
    obtain rfl := List.mem_singleton.1 hv
    unfold Carries
    decide +kernel

end ProbeAux

/-- With the audits switched off the same evidence is returned, and nothing was observed. -/
theorem live_probe_genuine_false :
    CompatibilityProbe.requireLiveTestEnvironment (Sample.config (probed .disabled)) (probed .disabled) = .ok () ∧
      Exec (chronicling (service Sample.addressed noFaults))
        (CompatibilityProbe.liveProbe Sample.addressed (Sample.config (probed .disabled)) 1 (probed .disabled)) (probeWorld, [])
        (.returned probeResult) ((probeRun .disabled).2.1, (probeRun .disabled).2.2) ∧
      ¬Genuine Sample.addressed (probed .disabled) probeResult (probeRun .disabled).2.1 (probeRun .disabled).2.2 := by
  have hexec := @probeRun_exec .disabled (by decide +kernel)
  refine ⟨rfl, hexec, fun hgenuine => ?_⟩
  obtain ⟨first, last, hlog, ⟨F, -, hseen⟩, -⟩ := hgenuine.shown
  obtain ⟨addresses, hresolve, -⟩ := hseen ⟨"a.example", 443⟩ (List.mem_singleton_self _)
  have hevent : (⟨.resolve "a.example", .ok addresses⟩ : Event publisher Exc) ∈
      (probeRun .disabled).2.2.within (World.isCurrent probeResult.ociCertificateOcid probeResult.promotedVersionNumber) := by
    rw [hlog, Chronicle.within_append]
    exact List.mem_append_left _ hresolve
  exact not_mem_of_blind (liveProbe_blind rfl rfl) hexec hevent

/-- In observe mode the evidence is genuine. -/
theorem live_probe_genuine_iff_sample :
    Genuine Sample.addressed (probed .observe) probeResult (probeRun .observe).2.1 (probeRun .observe).2.2 := by
  have hexec := @probeRun_exec .observe (by decide +kernel)
  have hlineage : (probeRun .observe).2.1.lineages (probed .observe).id = some Sample.material := by decide +kernel
  have hno : ∀ F v, ¬PublicationService.RollsBack Sample.addressed (probed .observe) 1 F v := fun _ _ => not_rollsBack (by decide)
  exact (live_probe_genuine_iff Sample.addressed CurrentAux.silent_noFaults rfl hexec rfl hlineage
    (probeWorld_new .observe)).2 ⟨by decide, hno _ _, hno _ _⟩

end OciAcmePublisher
