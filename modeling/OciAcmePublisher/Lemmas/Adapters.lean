import OciAcmePublisher.SdkService

/-!
# What the adapters answer

One lemma for each adapter method: it answers, raises and is cut only where the operation it implements may.
-/

namespace OciAcmePublisher

open Effects VersionListingAux

namespace OciAdapters

/-- A retried read, with its own reads and pauses, answers as a read does. -/
theorem retryReadSync_spec {T : Signature} {α W : Type} {env : Env T Exc W} {P C : W → Prop} {Q : α → W → Prop}
    {R E : Exc → W → Prop}
    {σ : (step : (OciRetry.reading α).Op) → Program T Exc ((OciRetry.reading α).Reply step)} (policy : ReadRetryPolicy)
    (hread : Triple env P (σ .operation) Q R C)
    (hpause : ∀ attempt retryAfter, Triple env P ((OciRetry.sleepFor policy attempt retryAfter).subst σ) (fun _ => P) E C)
    (hnone : ∀ w, P w → E (.of .runtimeError "read retry policy has no attempts") w) (hraise : ∀ x w, R x w → E x w)
    (hretry : ∀ x w, R x w → P w) (hQ : ∀ a w, Q a w → C w) (hC : ∀ w, P w → C w) :
    Triple env P ((OciRetry.retryReadSync policy).subst σ) Q E C := by
  unfold OciRetry.retryReadSync
  induction policy.maxAttempts with
  | zero => exact Triple.raise hnone hC
  | succ remaining ih =>
    have hgives : ∀ error, Triple env (R error) (.raise error : Program T Exc α) Q E C :=
      fun error => Triple.raise (hraise error) fun w h => hC w (hretry error w h)
    have hagain : ∀ attempt retryAfter, Triple env P (((OciRetry.sleepFor policy attempt retryAfter).bind fun _ =>
        OciRetry.retryReadSync.attempts policy remaining).subst σ) Q E C := by
      intro attempt retryAfter
      rw [Program.subst_bind]
      exact Triple.bind (hpause attempt retryAfter) fun _ => ih
    refine (show Triple env P (((OciRetry.reads α .operation).attempt.bind _).subst σ) Q E C from ?_)
    rw [Program.subst_bind, Program.subst_attempt, Program.subst_perform]
    refine Triple.bind (Triple.attempt hread hQ fun x w h => hC w (hretry x w h)) ?_
    rintro (error | result)
    · simp only
      split
      · split
        · exact hgives error
        · split
          · exact hgives error
          · exact (hagain _ _).pre (hretry error)
      · exact hgives error
    · exact Triple.ret (fun _ h => h) (hQ result)

variable {Γ : Ctx} {faults : Faults} {sdkFaults : SdkFaults} {paging : (r : Resource) → Paging r} {oci : OciConfig} {passes : Nat}
  {w₀ : World}

/-- The exceptions of an adapter that makes requests. -/
def Allowed (faults : Faults) (sdkFaults : SdkFaults) (x : Exc) : Prop :=
  (∃ request, sdkFaults request x) ∨ (∃ pause, pauses pause = true ∧ faults pause x) ∨
    x.isOneOf [.ociCertificateError, .unicodeError, .runtimeError] = true

/-! ## Pauses -/

theorem service_pauses {op : Op} (hop : pauses op = true) {w w' : World} {answer : Except Exc op.Reply}
    (h : service Γ faults w op answer w') : w' = w ∧ ∀ x, answer = .error x → faults op x := by
  have hobserves : op.observes = false := by cases op <;> first | rfl | cases hop
  have hsame : ∀ reply : op.Reply, w.Step Γ op reply w' → w' = w := by
    intro reply hs
    cases op <;> first | exact hs | cases hop
  unfold service at h
  rw [hobserves] at h
  cases answer with
  | ok reply => exact ⟨hsame reply h, fun _ hx => by cases hx⟩
  | error x =>
    refine ⟨?_, fun y hy => by cases hy; exact h.1⟩
    rcases h.2 with hw | ⟨reply, hs⟩
    · exact hw
    · exact hsame reply hs

theorem pause_spec {op : Op} (hop : pauses op = true) :
    Triple (service Γ faults) (fun w => w = w₀) (perform op) (fun _ w => w = w₀) (fun x w => w = w₀ ∧ Allowed faults sdkFaults x)
      fun w => w = w₀ := by
  refine Triple.perform (fun _ h => h) ?_ ?_
  · rintro w reply w' rfl h
    exact ⟨(service_pauses hop h).1, (service_pauses hop h).1⟩
  · rintro w x w' rfl h
    obtain ⟨hw, hx⟩ := service_pauses hop h
    exact ⟨⟨hw, Or.inr (Or.inl ⟨op, hop, hx x rfl⟩)⟩, hw⟩

theorem sleepFor_spec (policy : ReadRetryPolicy) (attempt : Nat) (retryAfter : Option HeaderSeconds) :
    Triple (sdkService Γ faults sdkFaults paging) (fun w => w = w₀) (sleepFor policy attempt retryAfter).right (fun _ w => w = w₀)
      (fun x w => w = w₀ ∧ Allowed faults sdkFaults x) fun w => w = w₀ := by
  have hsleep : Triple (service Γ faults) (fun w => w = w₀) (sleepFor policy attempt retryAfter) (fun _ w => w = w₀)
      (fun x w => w = w₀ ∧ Allowed faults sdkFaults x) fun w => w = w₀ := by
    refine Triple.bind (R := fun _ w => w = w₀) ?_ fun seconds => pause_spec rfl
    have hret : ∀ seconds, Triple (service Γ faults) (fun w => w = w₀) (.ret seconds : Action Rat) (fun _ w => w = w₀)
        (fun x w => w = w₀ ∧ Allowed faults sdkFaults x) fun w => w = w₀ := fun _ => Triple.ret (fun _ h => h) fun _ h => h
    unfold ReadRetryPolicy.delay
    split
    · split
      · exact hret _
      · exact pause_spec rfl
    · exact hret _
    · exact pause_spec rfl
    · exact pause_spec rfl
  intro w hw o w' h
  exact hsleep w hw o w' ((exec_right_iff fun _ _ _ _ => Iff.rfl).1 h)

theorem right_perform (op : Op) : (perform op).right = (Program.perform (S := adapting) (.inr op) : Adapter op.Reply) := by
  unfold perform Program.perform Program.right
  congr 1
  funext r
  cases r <;> rfl

/-- The pause of a retried read is the one of every read. -/
theorem subst_sleepFor (op : SdkOp) (policy : ReadRetryPolicy) (attempt : Nat) (retryAfter : Option HeaderSeconds) :
    (OciRetry.sleepFor policy attempt retryAfter).subst (retrying op) = (sleepFor policy attempt retryAfter).right := by
  have hjitter : (OciRetry.jitter policy attempt).subst (retrying op) = (policy.jitter attempt).right :=
    (Program.subst_perform _).trans (right_perform _).symm
  have hdelay : (OciRetry.delay policy attempt retryAfter).subst (retrying op) = (policy.delay attempt retryAfter).right := by
    cases retryAfter with
    | none => exact hjitter
    | some value =>
      cases value with
      | finite seconds =>
        unfold OciRetry.delay ReadRetryPolicy.delay
        by_cases hnonneg : 0 ≤ seconds
        · simp only [if_pos hnonneg]
          rfl
        · simp only [if_neg hnonneg]
          exact hjitter
      | infinite => rfl
      | nan => exact hjitter
  refine (Program.subst_bind _ _).trans ((congrArg₂ Program.bind hdelay (funext fun seconds => ?_)).trans
    (Program.right_bind _ _).symm)
  exact (Program.subst_perform _).trans (right_perform _).symm

/-! ## Reads -/

/-- The request changes nothing. -/
def reads : SdkOp → Bool
  | .getCertificate .. | .listCertificateVersions .. | .getCertificateVersion .. | .getCertificateBundle .. => true
  | _ => false

theorem answers_reads {op : SdkOp} (hop : reads op = true) {w w' : World} {response : SdkResponse}
    (h : w.Answers paging op response w') : w' = w := by
  cases op <;> first | exact h.1 | cases hop

/-- A request that reads is answered truthfully, and leaves the world alone. -/
theorem request_spec {op : SdkOp} (hop : reads op = true) :
    Triple (sdkService Γ faults sdkFaults paging) (fun w => w = w₀) (request op)
    (fun response w => w = w₀ ∧ w₀.Answers paging op response w₀)
      (fun x w => w = w₀ ∧ Allowed faults sdkFaults x) fun w => w = w₀ := by
  refine Triple.perform (fun _ h => h) ?_ ?_
  · rintro w response w' rfl h
    have hw : w' = w := answers_reads hop h
    subst hw
    exact ⟨⟨rfl, h⟩, rfl⟩
  · rintro w x w' rfl ⟨hx, hw⟩
    have hw' : w' = w := hw.elim id fun ⟨_, h⟩ => answers_reads hop h
    exact ⟨⟨hw', Or.inl ⟨op, hx⟩⟩, hw'⟩

theorem noAttempts_allowed : Allowed faults sdkFaults (.of .runtimeError "read retry policy has no attempts") :=
  Or.inr (Or.inr rfl)

/-- A retried read is answered as its last request is. -/
theorem read_spec {op : SdkOp} (hop : reads op = true) :
    Triple (sdkService Γ faults sdkFaults paging) (fun w => w = w₀) (read oci op)
      (fun response w => w = w₀ ∧ w₀.Answers paging op response w₀) (fun x w => w = w₀ ∧ Allowed faults sdkFaults x) fun w =>
      w = w₀ := by
  refine retryReadSync_spec _ (request_spec hop) (fun attempt retryAfter => ?_) (fun _ h => ⟨h, noAttempts_allowed⟩)
    (fun _ _ h => h)
    (fun _ _ h => h.1) (fun _ _ h => h.1) fun _ h => h
  rw [subst_sleepFor]
  exact sleepFor_spec _ _ _

/-! ## What the responses are taken for -/

theorem version_of_response {data etag : SdkValue} {shown version : OciCertificateVersion} (hdata : ItemOf data shown)
    (h : versionFromData data etag = .ok version) : { version with etag := none } = shown := by
  have hplain : versionFromData data = .ok { version with etag := none } := by
    unfold versionFromData at h ⊢
    simp only [bind_eq_ok_iff] at h ⊢
    obtain ⟨number, hnumber, name, hname, stages, hstages, created, hcreated, deletion, hdeletion, tag, -, hversion⟩ := h
    cases hversion
    exact ⟨number, hnumber, name, hname, stages, hstages, created, hcreated, deletion, hdeletion, none, rfl, rfl⟩
  have hshown := versionFromData_iff.2 hdata
  rw [hplain] at hshown
  exact Except.ok.inj hshown

theorem bundle_of_response {data : SdkValue} {held bundle : OciPublicBundle} (hdata : BundleOf data held)
    (h : bundleFromData data = .ok bundle) : bundle = held := by
  obtain ⟨names, hnames, hstages⟩ := hdata.stages
  have hheld : bundleFromData data = .ok held := by
    unfold bundleFromData
    simp only [bind_eq_ok_iff, hdata.certificatePem, hdata.certChainPem, hdata.number, hdata.name, hnames, SdkValue.asInt_iff,
      SdkValue.asOptionalText_iff, asStages_iff]
    exact ⟨_, rfl, _, rfl, _, rfl, _, rfl, _, ⟨names, rfl, hstages⟩, rfl⟩
  rw [hheld] at h
  exact (Except.ok.inj h).symm

theorem certificate_of_response {ocid : String} {response : SdkResponse} {number : Int} {certificate : OciCertificate}
    (hnumber : (response.data.getattr "current_version" .none).getattr "version_number" .none = .int number)
    (h : certificateFromResponse ocid response = .ok certificate) :
    certificate.certificateId = ocid ∧ certificate.currentVersionNumber = some number := by
  unfold certificateFromResponse at h
  obtain ⟨_, -, h⟩ := bind_eq_ok_iff.1 h
  obtain ⟨current, hcurrent, h⟩ := bind_eq_ok_iff.1 h
  obtain ⟨etag, -, h⟩ := bind_eq_ok_iff.1 h
  rw [hnumber] at hcurrent
  cases hcurrent
  cases h
  exact ⟨rfl, rfl⟩

/-! ### What the checks raise -/

theorem refuses_asOptionalText (message : String) (value : SdkValue) : Refuses (value.asOptionalText message) := by
  cases value <;> first | exact raisesOnly_ok _ | exact refuses_error _

theorem refuses_asInt (message : String) (value : SdkValue) : Refuses (value.asInt message) := by
  cases value <;> first | exact raisesOnly_ok _ | exact refuses_error _

theorem refuses_asText (message : String) (value : SdkValue) : Refuses (asText message value) := by
  cases value <;> first | exact raisesOnly_ok _ | exact refuses_error _

theorem refuses_asStages (message : String) (value : SdkValue) : Refuses (value.asStages message) := by
  cases value with
  | list stages =>
    refine raisesOnly_mapM (fun stage => ?_) _
    cases stage <;> first | exact raisesOnly_ok _ | exact refuses_error _
  | _ => exact refuses_error _

theorem refuses_certificateFromResponse (ocid : String)
    (response : SdkResponse) : Refuses (certificateFromResponse ocid response) := by
  unfold certificateFromResponse
  refine RaisesOnly.bind ?_ fun _ => RaisesOnly.bind ?_ fun _ => (refuses_asOptionalText _ _).bind fun _ => raisesOnly_ok _
  · unfold requireId
    split
    · unfold require
      split
      · exact raisesOnly_ok _
      · exact refuses_error _
    · exact refuses_error _
  · cases (response.data.getattr "current_version" .none).getattr "version_number" .none <;>
      first | exact raisesOnly_ok _ | exact refuses_error _

theorem refuses_versionWithEtag (data etag : SdkValue) : Refuses (versionFromData data etag) := by
  have htime (message : String) (value : SdkValue) : Refuses (value.asOptionalTime message) := by
    cases value <;> first | exact raisesOnly_ok _ | exact refuses_error _
  unfold versionFromData
  refine (refuses_asInt _ _).bind fun _ => (refuses_asOptionalText _ _).bind fun _ => (refuses_asStages _ _).bind fun _ => ?_
  exact (htime _ _).bind fun _ => (htime _ _).bind fun _ => (refuses_asOptionalText _ _).bind fun _ => raisesOnly_ok _

theorem refuses_bundleFromData (data : SdkValue) : Refuses (bundleFromData data) := by
  unfold bundleFromData
  refine (refuses_asText _ _).bind fun _ => (refuses_asText _ _).bind fun _ => (refuses_asInt _ _).bind fun _ => ?_
  exact (refuses_asOptionalText _ _).bind fun _ => (refuses_asStages _ _).bind fun _ => raisesOnly_ok _

theorem allowed_refusal {x : Exc} (hx : x.isInstance .ociCertificateError = true) : Allowed faults sdkFaults x :=
  Or.inr (Or.inr (by simp [Exc.isOneOf, hx]))

/-! ## The adapters -/

/-- The adapter does no more than the operation may do, wherever it is cut. -/
abbrev Implements (Γ : Ctx) (faults : Faults) (sdkFaults : SdkFaults) (paging : (r : Resource) → Paging r) (op : Op)
    (p : Adapter op.Reply) : Prop :=
  ∀ w₀ : World, Triple (sdkService Γ faults sdkFaults paging) (fun w => w = w₀) p
    (fun a w => service Γ (adapterFaults faults sdkFaults) w₀ op (.ok a) w)
    (fun x w => service Γ (adapterFaults faults sdkFaults) w₀ op (.error x) w)
    fun w => w = w₀ ∨ ∃ answer, service Γ (adapterFaults faults sdkFaults) w₀ op answer w

/-- The operation is one of OCI. -/
def requests : Op → Bool
  | .getCertificate .. | .listVersions .. | .getVersion .. | .createImportedCertificate .. | .uploadPendingVersion .. |
    .promoteCurrent .. | .scheduleVersionDeletion .. | .getPublicBundle .. => true
  | _ => false

theorem service_ok {op : Op} (hop : requests op = true) {w w' : World} {a : op.Reply} (h : w.Step Γ op a w') :
    service Γ (adapterFaults faults sdkFaults) w op (.ok a) w' := by
  cases op <;> first | exact h | cases hop

theorem service_error {op : Op} (hop : requests op = true) {w w' : World} {x : Exc} (hx : Allowed faults sdkFaults x)
    (h : w' = w ∨ ∃ a, w.Step Γ op a w') : service Γ (adapterFaults faults sdkFaults) w op (.error x) w' := by
  cases op <;> first | exact ⟨hx, h⟩ | cases hop

/-- The world after a request that may have been cut: as before, or with its effect. -/
def After (paging : (r : Resource) → Paging r) (w₀ : World) (request : SdkOp) (w : World) : Prop :=
  w = w₀ ∨ ∃ response, w₀.Answers paging request response w

/-- An adapter that makes a request and checks the response. -/
theorem implements_response {op : Op} (hop : requests op = true) {request : SdkOp} {p : Adapter SdkResponse}
    (hp : ∀ w₀, Triple (sdkService Γ faults sdkFaults paging) (fun w => w = w₀) p
      (fun response w => w₀.Answers paging request response w)
      (fun x w => After paging w₀ request w ∧ Allowed faults sdkFaults x) (After paging w₀ request))
    {f : SdkResponse → Except Exc op.Reply}
    (hf : ∀ w response a w', World.Answers paging w request response w' → f response = .ok a → w.Step Γ op a w')
    (hdone : ∀ w w', After paging w request w' → w' = w ∨ ∃ a, w.Step Γ op a w') (hx : ∀ response, Refuses (f response)) :
    Implements Γ faults sdkFaults paging op (p.bind fun response => ofExcept (f response)) := by
  intro w₀
  have hcut : ∀ w, After paging w₀ request w → w = w₀ ∨ ∃ answer, service Γ (adapterFaults faults sdkFaults) w₀ op answer w :=
    fun w h => (hdone w₀ w h).imp id fun ⟨a, hs⟩ => ⟨.ok a, service_ok hop hs⟩
  refine Triple.bind ((hp w₀).conseq (fun _ h => h) (fun _ _ h => h) (fun x w h => ?_) hcut) fun response => ?_
  · exact service_error hop h.2 (hdone w₀ w h.1)
  · have hanswered : ∀ w, w₀.Answers paging request response w → After paging w₀ request w := fun w h => Or.inr ⟨response, h⟩
    cases he : f response with
    | ok a => exact Triple.ret (fun w h => service_ok hop (hf w₀ response a w h he)) fun w h => hcut w (hanswered w h)
    | error x =>
      refine Triple.raise (fun w h => ?_) fun w h => hcut w (hanswered w h)
      exact service_error hop (allowed_refusal (hx response x he)) (hdone w₀ w (hanswered w h))

/-- An adapter that reads and checks the response. -/
theorem implements_read {op : Op} (hop : requests op = true) {request : SdkOp} (hreads : reads request = true)
    {p : Adapter SdkResponse}
    (hp : ∀ w₀, Triple (sdkService Γ faults sdkFaults paging) (fun w => w = w₀) p
      (fun response w => w = w₀ ∧ w₀.Answers paging request response w₀) (fun x w => w = w₀ ∧ Allowed faults sdkFaults x)
        fun w => w = w₀) {f : SdkResponse → Except Exc op.Reply}
    (hf : ∀ w response a, World.Answers paging w request response w → f response = .ok a → w.Step Γ op a w)
    (hx : ∀ response, Refuses (f response)) :
    Implements Γ faults sdkFaults paging op (p.bind fun response => ofExcept (f response)) := by
  refine @implements_response Γ faults sdkFaults paging op hop request p (fun w₀ => ?_) f (fun w response a w' h hok => ?_)
    (fun w w' h => ?_) hx
  · refine (hp w₀).conseq (fun _ h => h) (fun response w h => ?_) (fun x w h => ⟨Or.inl h.1, h.2⟩) fun _ h => Or.inl h
    obtain ⟨rfl, hanswers⟩ := h
    exact hanswers
  · obtain rfl := answers_reads hreads h
    exact hf w' response a h hok
  · exact Or.inl (h.elim id fun ⟨_, hanswers⟩ => answers_reads hreads hanswers)

theorem implements_getCertificate (id requestId : String) :
    Implements Γ faults sdkFaults paging (.getCertificate id requestId) (getCertificate oci id requestId) := by
  refine implements_read rfl rfl (fun w₀ => read_spec rfl) (fun w response a h hok => ?_) fun _ =>
    refuses_certificateFromResponse _ _
  obtain ⟨-, r, hr, -, hnumber⟩ := h
  exact ⟨rfl, r, hr, certificate_of_response hnumber hok⟩

theorem implements_getVersion (id : String) (number : Int) (requestId : String) :
    Implements Γ faults sdkFaults paging (.getVersion id number requestId) (getVersion oci id number requestId) := by
  refine implements_read rfl rfl (fun w₀ => read_spec rfl) (fun w response a h hok => ?_) fun _ => refuses_versionWithEtag _ _
  obtain ⟨-, r, hr, v, hv, hnumber, hitem⟩ := h
  exact ⟨rfl, r, hr, v, hv, hnumber, version_of_response hitem hok⟩

theorem hiding_spec {α : Type} {message : String} {p : Adapter α} {P C : World → Prop} {Q : α → World → Prop}
    (hp : Triple (sdkService Γ faults sdkFaults paging) P p Q (fun x w => C w ∧ Allowed faults sdkFaults x) C) :
    Triple (sdkService Γ faults sdkFaults paging) P (hidingServiceError message p) Q
      (fun x w => C w ∧ Allowed faults sdkFaults x) C := by
  refine Triple.handle hp fun x => ?_
  split
  · exact Triple.raise (fun _ h => ⟨h.1, allowed_refusal rfl⟩) fun _ h => h.1
  · exact Triple.raise (fun _ h => h) fun _ h => h.1

theorem implements_getPublicBundle (id : String) (number : Option Int) (requestId : String) :
    Implements Γ faults sdkFaults paging (.getPublicBundle id number requestId) (getPublicBundle oci id number requestId) := by
  refine implements_read rfl rfl (fun w₀ => hiding_spec (read_spec rfl)) (fun w response a h hok => ?_)
    fun _ => refuses_bundleFromData _
  obtain ⟨-, -, r, hr, v, hv, hnumber, hbundle⟩ := h
  exact ⟨rfl, r, hr, v, hv, hnumber, bundle_of_response hbundle hok⟩

/-! ## The listing -/

/-- The retried page read of the listing is the retried read of the adapters. -/
theorem subst_retryReadSync (certificateId requestId : String) (page : Option String) :
    (OciAcmePublisher.retryReadSync (client (.listCertificateVersions certificateId requestId page))
      { maxAttempts := oci.maxReadAttempts }).subst (listing oci) =
      read oci (.listCertificateVersions certificateId requestId page) := by
  unfold OciAcmePublisher.retryReadSync read OciRetry.retryReadSync
  generalize ReadRetryPolicy.maxAttempts { maxAttempts := oci.maxReadAttempts } = attempts
  induction attempts with
  | zero => rfl
  | succ remaining ih =>
    refine (Program.subst_bind _ _).trans ((congrArg₂ Program.bind ?_ (funext fun outcome => ?_)).trans
      (Program.subst_bind _ _).symm)
    · rw [Program.subst_attempt, Program.subst_attempt, Program.subst_perform, Program.subst_perform]
      rfl
    · cases outcome with
      | ok response => rfl
      | error error =>
        by_cases htransport : error.isOneOf transportFailures = true
        · simp only [if_pos htransport]
          cases retryableException error with
          | none => rfl
          | some retryAfter =>
            by_cases hlast : remaining = 0
            · simp only [if_pos hlast]
              rfl
            · simp only [if_neg hlast]
              refine (Program.subst_bind _ _).trans (Eq.trans ?_ (Program.subst_bind _ _).symm)
              rw [Program.subst_perform, subst_sleepFor]
              exact congrArg₂ Program.bind rfl (funext fun _ => ih)
        · simp only [if_neg htransport]
          rfl

/-- A page of the listing, with its versions and the pages after it. -/
structure At {r : Resource} (p : Paging r) (page : Option String) (versions : List OciCertificateVersion)
    (after : List (String × List OciCertificateVersion)) : Prop where
  served : ∀ response, p.Serves page response → PageOf response versions ∧ response.nextToken = nextOf after
  follow : ∃ before, p.rest = before ++ after

theorem at_first {r : Resource} (p : Paging r) : At p none p.first p.rest where
  served := by
    rintro response ⟨hpage, hnext⟩
    exact ⟨hpage, hnext⟩
  follow := ⟨[], rfl⟩

/-- A token names one page. -/
theorem split_unique {before before' after after' : List (String × List OciCertificateVersion)} {token : String}
    {versions versions' : List OciCertificateVersion} (hdistinct : ((before ++ (token, versions) :: after).map Prod.fst).Nodup)
    (h : before ++ (token, versions) :: after = before' ++ (token, versions') :: after') : versions = versions' ∧
    after = after' := by
  induction before generalizing before' with
  | nil =>
    cases before' with
    | nil =>
      cases h
      exact ⟨rfl, rfl⟩
    | cons head tail =>
      obtain ⟨rfl, rfl⟩ := List.cons.inj h
      simp at hdistinct
  | cons head tail ih =>
    cases before' with
    | nil =>
      obtain ⟨rfl, h⟩ := List.cons.inj h
      simp at hdistinct
    | cons head' tail' =>
      obtain ⟨-, htail⟩ := List.cons.inj h
      exact ih (List.nodup_cons.1 hdistinct).2 htail

theorem At.next {r : Resource} {p : Paging r} {page : Option String} {versions later : List OciCertificateVersion}
    {token : String}
    {after : List (String × List OciCertificateVersion)} (h : At p page versions ((token, later) :: after)) :
    At p (some token) later after := by
  obtain ⟨before, hrest⟩ := h.follow
  refine ⟨?_, before ++ [(token, later)], by rw [hrest, List.append_assoc, List.singleton_append]⟩
  intro response hserved
  cases hserved with
  | next hsplit hpage hnext =>
    have hdistinct := p.distinct
    rw [hrest] at hdistinct hsplit
    obtain ⟨rfl, rfl⟩ := split_unique hdistinct hsplit
    exact ⟨hpage, hnext⟩

theorem page_spec {ocid requestId : String} {r : Resource} (hr : w₀.certificates ocid = some r) {page : Option String}
    {versions : List OciCertificateVersion} {after : List (String × List OciCertificateVersion)}
    (hat : At (paging r) page versions after) :
    Triple (sdkService Γ faults sdkFaults paging) (fun w => w = w₀) (read oci (.listCertificateVersions ocid requestId page))
      (fun response w => w = w₀ ∧ PageOf response versions ∧ response.nextToken = nextOf after)
      (fun x w => w = w₀ ∧ Allowed faults sdkFaults x) fun w => w = w₀ := by
  refine (read_spec rfl).post fun response w h => ?_
  obtain ⟨hw, -, r', hr', hserved⟩ := h
  cases hr.symm.trans hr'
  exact ⟨hw, hat.served response hserved⟩

/-- A check of a response that fails ends the run. -/
theorem refused_spec {α : Type} {x : Exc} (hx : x.isInstance .ociCertificateError = true) {Q : α → World → Prop} :
    Triple (sdkService Γ faults sdkFaults paging) (fun w => w = w₀) (.raise x : Adapter α) Q
      (fun x w => w = w₀ ∧ Allowed faults sdkFaults x) fun w => w = w₀ :=
  Triple.raise (fun _ h => ⟨h, allowed_refusal hx⟩) fun _ h => h

/-- From a page on, the loop lists what that page and those after it hold, or raises. -/
theorem loop_spec {ocid requestId : String} {r : Resource} (hr : w₀.certificates ocid = some r) (passes : Nat)
    (versions : List OciCertificateVersion) (page : Option String) (seenPages : List String) {listed : List OciCertificateVersion}
    {after : List (String × List OciCertificateVersion)} (hat : At (paging r) page listed after) :
    Triple (sdkService Γ faults sdkFaults paging) (fun w => w = w₀)
      ((listVersions.loop oci ocid requestId passes versions page seenPages).subst (listing oci))
      (fun all w => w = w₀ ∧ all = versions ++ listed ++ after.flatMap Prod.snd) (fun x w => w = w₀ ∧ Allowed faults sdkFaults x)
      fun w => w = w₀ := by
  induction passes generalizing versions page seenPages listed after with
  | zero => exact Triple.diverge fun _ h => h
  | succ passes ih =>
    refine (show Triple (sdkService Γ faults sdkFaults paging) (fun w => w = w₀)
      (((OciAcmePublisher.retryReadSync (client (.listCertificateVersions ocid requestId page))
        { maxAttempts := oci.maxReadAttempts }).bind _).subst (listing oci)) _ _ _ from ?_)
    rw [Program.subst_bind, subst_retryReadSync]
    refine Triple.bind (page_spec hr hat) fun response => Triple.assume fun ⟨hpage, htoken⟩ => ?_
    rw [pageVersions_iff.2 hpage]
    cases hnext : nextPage seenPages response with
    | error x => exact refused_spec (refuses_nextPage _ _ x hnext)
    | ok next =>
      cases next with
      | none =>
        have hlast : nextOf after = .none := htoken.symm.trans (nextPage_none_iff.1 hnext)
        cases after with
        | nil => exact Triple.ret (fun _ h => ⟨h, by simp⟩) fun _ h => h
        | cons next rest => cases hlast
      | some token =>
        have hmore : nextOf after = .str token := htoken.symm.trans (nextPage_some_iff.1 hnext).1
        cases after with
        | nil => cases hmore
        | cons next rest =>
          obtain ⟨token', later⟩ := next
          obtain rfl : token' = token := SdkValue.str.inj hmore
          refine (ih (versions ++ listed) (some token') (token' :: seenPages) hat.next).post fun all w h => ⟨h.1, ?_⟩
          rw [h.2, List.flatMap_cons, List.append_assoc _ later]

theorem implements_listVersions (id requestId : String) :
    Implements Γ faults sdkFaults paging (.listVersions id requestId) (list oci passes id requestId) := by
  intro w₀
  have hraised : ∀ (x : Exc) (w : World), w = w₀ ∧ Allowed faults sdkFaults x →
      service Γ (adapterFaults faults sdkFaults) w₀ (.listVersions id requestId) (.error x) w :=
    fun x w h => service_error rfl h.2 (Or.inl h.1)
  cases hr : w₀.certificates id with
  | none =>
    cases passes with
    | zero => exact Triple.diverge fun _ h => Or.inl h
    | succ passes =>
      -- the first page has nothing to be served from
      refine (show Triple (sdkService Γ faults sdkFaults paging) (fun w => w = w₀)
        (((OciAcmePublisher.retryReadSync (client (.listCertificateVersions id requestId none))
          { maxAttempts := oci.maxReadAttempts }).bind _).subst (listing oci)) _ _ _ from ?_)
      rw [Program.subst_bind, subst_retryReadSync]
      have hread : Triple (sdkService Γ faults sdkFaults paging) (fun w => w = w₀)
        (read oci (.listCertificateVersions id requestId none))
          _ _ _ := read_spec rfl
      refine Triple.bind (hread.conseq (fun _ h => h) (fun _ _ h => h) hraised fun _ h => Or.inl h) fun response => ?_
      rintro w ⟨-, -, r, hr', -⟩
      cases hr.symm.trans hr'
  | some r =>
    refine (loop_spec hr passes [] none [] (at_first (paging r))).conseq (fun _ h => h) (fun all w h => ?_) hraised fun _ h =>
      Or.inl h
    obtain ⟨rfl, rfl⟩ := h
    exact service_ok rfl ⟨rfl, r, hr, (paging r).listed⟩

/-! ## The changes -/

/-- A request takes effect, or raises before or after it has. -/
theorem change_spec (op : SdkOp) :
    Triple (sdkService Γ faults sdkFaults paging) (fun w => w = w₀) (request op)
    (fun response w => w₀.Answers paging op response w)
      (fun x w => After paging w₀ op w ∧ Allowed faults sdkFaults x) (After paging w₀ op) := by
  refine Triple.perform (fun _ h => Or.inl h) ?_ ?_
  · rintro w response w' rfl h
    exact ⟨h, Or.inr ⟨response, h⟩⟩
  · rintro w x w' rfl ⟨hx, hw⟩
    exact ⟨⟨hw, Or.inl ⟨op, hx⟩⟩, hw⟩

theorem decoded_iff {raw : Bytes} {text : String} : decoded raw = .ok text ↔ decodeAscii raw = some text := by
  unfold decoded
  cases decodeAscii raw <;> simp

theorem importing_raises (imported : ImportedVersion) (stage : Option String) : RaisesOnly .unicodeError
    (importing imported stage) := by
  have hdecoded (raw : Bytes) : RaisesOnly .unicodeError (decoded raw) := by
    unfold decoded
    cases decodeAscii raw with
    | some text => exact raisesOnly_ok _
    | none => exact raisesOnly_error rfl
  unfold importing
  exact (hdecoded _).bind fun _ => (hdecoded _).bind fun _ => (hdecoded _).bind fun _ => raisesOnly_ok _

/-- What is sent is what is to be imported. -/
theorem holds_of_importing {imported : ImportedVersion} {stage : Option String} {config : ImportingConfig}
    (h : importing imported stage = .ok config) {v : Version} (hv : Version.imports v config) : v.holds imported := by
  unfold importing at h
  simp only [bind_eq_ok_iff, decoded_iff] at h
  obtain ⟨certificatePem, hcertificate, chainPem, hchain, keyPem, hkey, hconfig⟩ := h
  cases hconfig
  obtain ⟨hv₁, hv₂, hname⟩ := hv
  refine ⟨hcertificate.trans (congrArg some hv₁.symm), hchain.trans (congrArg some hv₂.symm), ?_, hname⟩
  rw [hkey]
  rfl

/-- An adapter that decodes what it imports before its request. -/
theorem implements_importing {op : Op} (hop : requests op = true) {imported : ImportedVersion} {stage : Option String}
    {p : ImportingConfig → Adapter op.Reply}
    (hp : ∀ config, importing imported stage = .ok config → Implements Γ faults sdkFaults paging op (p config)) :
    Implements Γ faults sdkFaults paging op ((ofExcept (importing imported stage)).bind p) := by
  intro w₀
  cases he : importing imported stage with
  | ok config => exact hp config he w₀
  | error x =>
    have hallowed : Allowed faults sdkFaults x := by
      have hx := importing_raises imported stage x he
      exact Or.inr (Or.inr (by simp [Exc.isOneOf, hx]))
    exact Triple.raise (fun w h => service_error hop hallowed (Or.inl h)) fun w h => Or.inl h

theorem implements_create (compartment name : String) (imported : ImportedVersion) (requestId : String) :
    Implements Γ faults sdkFaults paging (.createImportedCertificate compartment name imported requestId)
      (createImportedCertificate compartment name imported requestId) := by
  refine implements_importing rfl fun config hconfig => ?_
  have hstep : ∀ {w w' : World} {response}, w.Answers paging (.createCertificate name compartment config requestId) response w' →
      ∃ ocid, response.data.getattr "id" .none = .str ocid ∧
        w.Step Γ (.createImportedCertificate compartment name imported requestId) ocid w' := by
    rintro w w' response ⟨ocid, v, hid, hnone, hv, hw'⟩
    exact ⟨ocid, hid, hnone, v, holds_of_importing hconfig hv, hw'⟩
  refine implements_response rfl (fun w₀ => change_spec _) (fun w response a w' h hok => ?_) (fun w w' h => ?_) fun response => ?_
  · obtain ⟨ocid, hid, hs⟩ := hstep h
    unfold createdId at hok
    rw [hid] at hok
    simp only at hok
    split at hok <;> cases hok
    exact hs
  · exact h.imp id fun ⟨response, hanswers⟩ => (hstep hanswers).imp fun _ hs => hs.2
  · unfold createdId
    split
    · split
      · exact refuses_error _
      · exact raisesOnly_ok _
    · exact refuses_error _

theorem implements_upload (id : String) (etag : Option String) (imported : ImportedVersion) (requestId : String) :
    Implements Γ faults sdkFaults paging (.uploadPendingVersion id etag imported requestId)
      (uploadPendingVersion id etag imported requestId) := by
  refine implements_importing rfl fun config hconfig => ?_
  have hstep : ∀ {w w' : World} {response},
      w.Answers paging (.updateCertificate id { certificateConfig := some config } etag requestId) response w' →
        w.Step Γ (.uploadPendingVersion id etag imported requestId) () w' := by
    rintro w w' response ⟨-, r, r', v, hr, hv, hupload, hw'⟩
    exact ⟨r, r', v, hr, holds_of_importing hconfig hv, hupload, hw'⟩
  exact implements_response rfl (f := fun _ => .ok ()) (fun w₀ => change_spec _) (fun w response a w' h _ => hstep h)
    (fun w w' h => h.imp (fun hw => hw) fun ⟨_, hanswers⟩ => ⟨(), hstep hanswers⟩) fun _ => raisesOnly_ok _

theorem implements_promote (id : String) (number : Int) (etag : Option String) (requestId : String) :
    Implements Γ faults sdkFaults paging (.promoteCurrent id number etag requestId) (promoteCurrent id number etag requestId) :=
  @implements_response Γ faults sdkFaults paging (.promoteCurrent id number etag requestId) rfl _ _ (fun _ => change_spec _)
    (fun _ => .ok ()) (fun _ _ _ _ h _ => h) (fun _ _ h => h.imp (fun hw => hw) fun ⟨_, hanswers⟩ => ⟨(), hanswers⟩) fun _ =>
    raisesOnly_ok _

theorem implements_schedule (id : String) (number : Int) (time : Instant) (etag : Option String) (requestId : String) :
    Implements Γ faults sdkFaults paging (.scheduleVersionDeletion id number time etag requestId)
      (scheduleVersionDeletion id number time etag requestId) :=
  @implements_response Γ faults sdkFaults paging (.scheduleVersionDeletion id number time etag requestId) rfl _ _
    (fun _ => hiding_spec (change_spec _)) (fun _ => .ok ()) (fun _ _ _ _ h _ => h)
    (fun _ _ h => h.imp (fun hw => hw) fun ⟨_, hanswers⟩ => ⟨(), hanswers⟩) fun _ => raisesOnly_ok _

/-- What is no operation of OCI is performed as it is. -/
theorem implements_others {op : Op} (hop : requests op = false) :
    Implements Γ faults sdkFaults paging op (Program.perform (S := adapting) (.inr op)) := by
  have hsame : ∀ {w w' : World} {answer : Except Exc op.Reply}, service Γ faults w op answer w' →
      service Γ (adapterFaults faults sdkFaults) w op answer w' := by
    intro w w' answer h
    cases op <;> first | exact h | cases hop
  intro w₀
  refine Triple.perform (fun _ h => Or.inl h) ?_ ?_
  · rintro w a w' rfl h
    exact ⟨hsame h, Or.inr ⟨.ok a, hsame h⟩⟩
  · rintro w x w' rfl h
    exact ⟨hsame h, Or.inr ⟨.error x, hsame h⟩⟩

/-- Every operation is implemented. -/
theorem implements (op : Op) : Implements Γ faults sdkFaults paging op (implement oci passes op) := by
  cases op with
  | getCertificate id requestId => exact implements_getCertificate id requestId
  | listVersions id requestId => exact implements_listVersions id requestId
  | getVersion id number requestId => exact implements_getVersion id number requestId
  | getPublicBundle id number requestId => exact implements_getPublicBundle id number requestId
  | createImportedCertificate compartment name imported requestId => exact implements_create compartment name imported requestId
  | uploadPendingVersion id etag imported requestId => exact implements_upload id etag imported requestId
  | promoteCurrent id number etag requestId => exact implements_promote id number etag requestId
  | scheduleVersionDeletion id number time etag requestId => exact implements_schedule id number time etag requestId
  | _ => exact implements_others rfl

end OciAdapters

end OciAcmePublisher
