import OciAcmePublisher.Lemmas.Footprints
import OciAcmePublisher.PublicationService
import OciAcmePublisher.Simulation

/-!
# Isolation of the sets of a timer run

`renew_all` attempts the sets one after the other. What it does is judged by how each attempt and each notification ended: a failure
stays with its set when its class is declared in `_RENEWABLE_CERTIFICATE_FAILURES` and the notifier does not raise.
-/

namespace OciAcmePublisher

open Effects PublicationService

/-- The sets a timer run attempted, in order. -/
def attempted (t : List (Event batch Exc)) : List CertificateConfig :=
  t.filterMap fun e => match e.op with
    | .attempt certificate => some certificate
    | _ => none

/-- The identifiers of the published sets. -/
def RenewalBatchResult.published (result : RenewalBatchResult) : List String :=
  result.publications.map (·.certificateId)

/-- The identifiers of the failed sets. -/
def RenewalBatchResult.failed (result : RenewalBatchResult) : List String :=
  result.failures.map (·.certificateId)

/-- The timer run returns, attempted every set once and in order, and its two lists name every set once, each of them in order. -/
def Isolated (config : AppConfig) (o : Outcome Exc RenewalBatchResult) (t : List (Event batch Exc)) : Prop :=
  ∃ result, o = .returned result ∧ attempted t = config.certificates ∧
    result.published.Sublist (config.certificates.map (·.id)) ∧ result.failed.Sublist (config.certificates.map (·.id)) ∧
      (result.published ++ result.failed).Perm (config.certificates.map (·.id))

/-- The step of the timer run keeps to its set: it did not raise, or it is an attempt that raised a declared failure. -/
def Contained (e : Event batch Exc) : Prop :=
  ∀ x, e.answer = .error x → (∃ certificate, e.op = .attempt certificate) ∧ x.isOneOf renewableCertificateFailures = true

namespace IsolationAux

/-! ## What an attempt returns -/

section Results

variable {Γ : Ctx} {config : AppConfig} {passes : Nat}

theorem yields_publish (id : String) (operationType : OperationType) :
    (publish Γ config passes id operationType).Yields (·.certificateId = id) := by
  refine Program.yields_bind (yields_ofExcept fun _ h => configuredCertificate_id h) fun certificate hid => ?_
  refine Program.yields_last _ fun _ => Program.yields_last _ fun _ => Program.yields_last _ fun _ => ?_
  refine Program.yields_last _ fun _ => Program.yields_last _ fun _ => Program.yields_last _ fun _ => ?_
  refine Program.yields_last _ fun _ => Program.yields_last _ fun _ => ?_
  refine Program.yields_bind PublicationReconciler.yields_publish fun result hresult => ?_
  refine Program.yields_last _ fun _ => Program.yields_last _ fun _ => Program.yields_last _ fun _ => ?_
  exact hresult.1.trans hid

theorem yields_renew (id : String) (force : Bool) :
    (renew Γ config passes id force).Yields (·.certificateId = id) := by
  refine Program.yields_last _ fun _ => Program.yields_last _ fun _ => Program.yields_last _ fun _ => ?_
  refine Program.yields_last _ fun _ => Program.yields_last _ fun _ => Program.yields_last _ fun _ => ?_
  exact Program.yields_last _ fun _ => yields_publish _ _

theorem yields_confirmCreated {certificate : CertificateConfig} (F operationId ocid : String) (b : OciPublicBundle)
    (f : String) (requestId : Option String) :
    (confirmCreated certificate F operationId ocid b f requestId).Yields (·.certificateId = certificate.id) :=
  Program.yields_last _ fun _ => Program.yields_last _ fun _ => Program.yields_last _ fun _ => rfl

theorem yields_creationFailed {φ : BootstrapResult → Prop} (operationId : String) (created : Bool) (x : Exc) :
    (creationFailed operationId created x).Yields φ := by
  unfold creationFailed
  split
  · exact Program.yields_last _ fun _ => trivial
  · split
    · exact Program.yields_last _ fun _ => trivial
    · trivial

theorem yields_createCertificate {certificate : CertificateConfig} (material : LineageMaterial)
    (chain : OciCertificateChain) (F : String) :
    (createCertificate Γ config certificate material chain F).Yields (·.certificateId = certificate.id) := by
  refine Program.yields_last _ fun operation => Program.yields_last _ fun _ => Program.yields_last _ fun attempt => ?_
  rcases attempt with error | ⟨requestId, ocid⟩
  · exact yields_creationFailed _ _ _
  · refine Program.yields_handle ?_ fun x => yields_creationFailed _ _ _
    exact Program.yields_last _ fun _ => Program.yields_last _ fun _ => yields_confirmCreated _ _ _ _ _ _

theorem yields_recoverBootstrap {certificate : CertificateConfig} (F : String) :
    (recoverBootstrap Γ config certificate F).Yields
      fun recovered => ∀ result, recovered = some result → result.certificateId = certificate.id := by
  refine Program.yields_last _ fun active => ?_
  split
  · exact fun result h => by cases h
  · split
    · trivial
    · refine Program.yields_last _ fun _ => Program.yields_last _ fun found => ?_
      refine Program.yields_bind (yields_confirmCreated _ _ _ _ _ _) fun created hcreated => ?_
      refine Program.yields_last _ fun _ => ?_
      intro result h
      cases h
      exact hcreated
  · trivial

theorem yields_bootstrap (id : String) : (bootstrap Γ config id).Yields (·.certificateId = id) := by
  refine Program.yields_bind (yields_ofExcept fun _ h => configuredCertificate_id h) fun certificate hid => ?_
  split
  · trivial
  · refine Program.yields_last _ fun _ => Program.yields_last _ fun _ => Program.yields_last _ fun _ => ?_
    refine Program.yields_last _ fun _ => Program.yields_last _ fun _ => Program.yields_last _ fun material => ?_
    refine Program.yields_last _ fun _ => Program.yields_last _ fun F => Program.yields_last _ fun chain => ?_
    refine Program.yields_last _ fun _ => ?_
    refine Program.yields_bind (yields_recoverBootstrap _) fun recovered hrecovered => ?_
    cases recovered with
    | some result => exact (hrecovered result rfl).trans hid
    | none =>
      subst hid
      exact yields_createCertificate _ _ _

/-- A publication or a creation that a set's attempt returns is the set's own. -/
theorem yields_attemptRenewal (certificate : CertificateConfig) :
    (attemptRenewal Γ config passes certificate).Yields (·.certificateId = certificate.id) := by
  unfold attemptRenewal
  split
  · exact yields_renew _ _
  · refine Program.yields_last _ fun _ => Program.yields_last _ fun recovered => ?_
    cases recovered with
    | none => exact Program.yields_bind (yields_bootstrap _) fun created h => h
    | some ocid => exact yields_renew _ _

end Results

/-! ## One set -/

section Sets

variable {W : Type} {env : Env batch Exc W} {config : AppConfig} {w w' : W} {t t' : List (Event batch Exc)}
  {certificate : CertificateConfig} {result : RenewalBatchResult} {o : Outcome Exc RenewalBatchResult}

/-- The sets a result names, with repetitions. -/
def total (result : RenewalBatchResult) : Nat := result.publications.length + result.failures.length

/-- The handler of a failed set raises, or keeps the failure and notifies it. -/
theorem keepFailure_cases {x : Exc}
    (h : Exec (recording env) (keepFailure certificate x result) (w, t) o (w', t')) (ho : o ≠ .crashed) :
    (o = .raised x ∧ t' = t ∧ x.isOneOf renewableCertificateFailures = false) ∨
      (∃ y, o = .raised y ∧ t' = t ++ [⟨.notifyFailure certificate x, .error y⟩]) ∨
        (o = .returned { result with failures := result.failures ++ [⟨certificate.id, x⟩] } ∧
          t' = t ++ [⟨.notifyFailure certificate x, .ok ()⟩] ∧ x.isOneOf renewableCertificateFailures = true) := by
  unfold keepFailure at h
  split at h
  · rename_i hx
    rcases exec_perform_bind h ho with ⟨a, ⟨w₁, t₁⟩, he, hret⟩ | ⟨y, he, rfl⟩
    · obtain ⟨heq, rfl | rfl⟩ := exec_ret_iff.1 hret
      · cases heq
        exact Or.inr (Or.inr ⟨rfl, he.2, hx⟩)
      · exact absurd rfl ho
    · exact Or.inr (Or.inl ⟨y, rfl, he.2⟩)
  · rename_i hx
    obtain ⟨heq, rfl | rfl⟩ := exec_raise_iff.1 h
    · cases heq
      exact Or.inl ⟨rfl, rfl, Bool.eq_false_iff.2 hx⟩
    · exact absurd rfl ho

/-- What the attempt of one set may come to: it is published; it failed and is kept; or some step was not contained, and then the
run raises or the set is named twice. -/
theorem attemptSet_cases (h : Exec (recording env) (attemptSet certificate result) (w, t) o (w', t'))
    (ho : o ≠ .crashed) :
    ∃ s, t' = t ++ s ∧ attempted s = [certificate] ∧
      ((∃ publication w₀ w₁, env w₀ (.attempt certificate) (.ok publication) w₁ ∧ (∀ e ∈ s, Contained e) ∧
          o = .returned { result with publications := result.publications ++ [publication] }) ∨
        (∃ x, (∀ e ∈ s, Contained e) ∧
          o = .returned { result with failures := result.failures ++ [⟨certificate.id, x⟩] }) ∨
        ((∃ e ∈ s, ¬Contained e) ∧ ∀ result', o = .returned result' → total result + 2 ≤ total result')) := by
  obtain ⟨r, ⟨w₁, t₁⟩, he, hk⟩ := exec_attempt_bind h ho
  obtain ⟨he, rfl⟩ := he
  have hok : ∀ {op : BatchOp} {a : batch.Reply op}, Contained ⟨op, .ok a⟩ := fun x hx => by cases hx
  cases r with
  | error x =>
    have hfirst : x.isOneOf renewableCertificateFailures = true → Contained ⟨.attempt certificate, .error x⟩ := by
      intro hx y hy
      cases hy
      exact ⟨⟨certificate, rfl⟩, hx⟩
    rcases keepFailure_cases hk ho with ⟨rfl, rfl, hx⟩ | ⟨y, rfl, rfl⟩ | ⟨rfl, rfl, hx⟩
    · refine ⟨[⟨.attempt certificate, .error x⟩], rfl, rfl, Or.inr (Or.inr ⟨⟨_, List.mem_singleton_self _, ?_⟩, ?_⟩)⟩
      · intro hc
        have hx' := (hc x rfl).2
        rw [hx] at hx'
        cases hx'
      · intro result' hr
        cases hr
    · refine ⟨[⟨.attempt certificate, .error x⟩, ⟨.notifyFailure certificate x, .error y⟩], by simp, rfl,
        Or.inr (Or.inr ⟨⟨⟨.notifyFailure certificate x, .error y⟩, by simp, ?_⟩, ?_⟩)⟩
      · intro hc
        obtain ⟨⟨c, hop⟩, -⟩ := hc y rfl
        cases hop
      · intro result' hr
        cases hr
    · refine ⟨[⟨.attempt certificate, .error x⟩, ⟨.notifyFailure certificate x, .ok ()⟩], by simp, rfl,
        Or.inr (Or.inl ⟨x, ?_, rfl⟩)⟩
      intro e hmem
      rcases List.mem_cons.1 hmem with rfl | hmem
      · exact hfirst hx
      · rw [List.mem_singleton.1 hmem]
        exact hok
  | ok publication =>
    obtain ⟨r₂, ⟨w₂, t₂⟩, he₂, hk₂⟩ := exec_attempt_bind hk ho
    obtain ⟨-, rfl⟩ := he₂
    cases r₂ with
    | ok a =>
      obtain ⟨heq, rfl | rfl⟩ := exec_ret_iff.1 hk₂
      · cases heq
        refine ⟨[⟨.attempt certificate, .ok publication⟩, ⟨.notifyExpiry certificate, .ok a⟩], by simp, rfl,
          Or.inl ⟨publication, w, w₁, he, ?_, rfl⟩⟩
        intro e hmem
        rcases List.mem_cons.1 hmem with rfl | hmem
        · exact hok
        · rw [List.mem_singleton.1 hmem]
          exact hok
      · exact absurd rfl ho
    | error x =>
      have hbad : ¬Contained ⟨.notifyExpiry certificate, .error x⟩ := by
        intro hc
        obtain ⟨⟨c, hop⟩, -⟩ := hc x rfl
        cases hop
      rcases keepFailure_cases hk₂ ho with ⟨rfl, rfl, -⟩ | ⟨y, rfl, rfl⟩ | ⟨rfl, rfl, -⟩
      · refine ⟨[⟨.attempt certificate, .ok publication⟩, ⟨.notifyExpiry certificate, .error x⟩], by simp, rfl,
          Or.inr (Or.inr ⟨⟨_, by simp, hbad⟩, ?_⟩)⟩
        intro result' hr
        cases hr
      · refine ⟨[⟨.attempt certificate, .ok publication⟩, ⟨.notifyExpiry certificate, .error x⟩,
          ⟨.notifyFailure certificate x, .error y⟩], by simp, rfl, Or.inr (Or.inr ⟨⟨_, by simp, hbad⟩, ?_⟩)⟩
        intro result' hr
        cases hr
      · refine ⟨[⟨.attempt certificate, .ok publication⟩, ⟨.notifyExpiry certificate, .error x⟩,
          ⟨.notifyFailure certificate x, .ok ()⟩], by simp, rfl, Or.inr (Or.inr ⟨⟨_, by simp, hbad⟩, ?_⟩)⟩
        intro result' hr
        cases hr
        simp only [total, List.length_append, List.length_singleton]
        omega

/-- The notification before a set: a run that goes on has contained it. -/
theorem warnUnverified_cases {o : Outcome Exc Unit}
    (h : Exec (recording env) (warnUnverified config certificate) (w, t) o (w', t')) (ho : o ≠ .crashed) :
    ∃ s, t' = t ++ s ∧ attempted s = [] ∧
      ((o = .returned () ∧ ∀ e ∈ s, Contained e) ∨ ((∃ x, o = .raised x) ∧ ∃ e ∈ s, ¬Contained e)) := by
  unfold warnUnverified at h
  split at h
  · rcases exec_perform_iff.1 h with ⟨hc, -⟩ | ⟨r, he, rfl | hc⟩
    · exact absurd hc ho
    · refine ⟨[⟨.notifyUnverified certificate, r⟩], he.2, rfl, ?_⟩
      cases r with
      | ok a =>
        refine Or.inl ⟨rfl, fun e hmem x hx => ?_⟩
        rw [List.mem_singleton.1 hmem] at hx
        cases hx
      | error x =>
        refine Or.inr ⟨⟨x, rfl⟩, _, List.mem_singleton_self _, fun hc => ?_⟩
        obtain ⟨⟨c, hop⟩, -⟩ := hc x rfl
        cases hop
    · exact absurd hc ho
  · obtain ⟨heq, rfl | hc⟩ := exec_ret_iff.1 h
    · cases heq
      exact ⟨[], by simp, rfl, Or.inl ⟨rfl, by simp⟩⟩
    · exact absurd hc ho

theorem attempted_append (s s' : List (Event batch Exc)) : attempted (s ++ s') = attempted s ++ attempted s' :=
  List.filterMap_append

/-- What a finished run over the sets that are left adds: where every step is contained it returns and names every one of them
once; it never names fewer, and it names more where it returns although some step is not contained. -/
structure Adds (certificates : List CertificateConfig) (result : RenewalBatchResult)
    (o : Outcome Exc RenewalBatchResult) (s : List (Event batch Exc)) : Prop where
  contained : (∀ e ∈ s, Contained e) → ∃ publications failures,
    o = .returned { publications := result.publications ++ publications, failures := result.failures ++ failures } ∧
      attempted s = certificates ∧
      (publications.map (·.certificateId)).Sublist (certificates.map (·.id)) ∧
      (failures.map (·.certificateId)).Sublist (certificates.map (·.id)) ∧
      (publications.map (·.certificateId) ++ failures.map (·.certificateId)).Perm (certificates.map (·.id))
  least : ∀ result', o = .returned result' → total result + certificates.length ≤ total result'
  more : (∃ e ∈ s, ¬Contained e) → ∀ result', o = .returned result' → total result + certificates.length < total result'

theorem Adds.nil : Adds [] result (.returned result) [] where
  contained _ := ⟨[], [], by simp, rfl, List.Sublist.refl _, List.Sublist.refl _, List.Perm.refl _⟩
  least result' h := by
    cases h
    exact Nat.le_refl _
  more h := by
    obtain ⟨e, he, -⟩ := h
    cases he

/-- Steps of which one is not contained, with a run that raises. -/
theorem Adds.raised {certificates : List CertificateConfig} {s : List (Event batch Exc)} {x : Exc}
    (hs : ∃ e ∈ s, ¬Contained e) : Adds certificates result (.raised x) s where
  contained h := by
    obtain ⟨e, he, hc⟩ := hs
    exact absurd (h e he) hc
  least result' h := by cases h
  more _ result' h := by cases h

/-- A published set, then the rest. -/
theorem Adds.published {rest : List CertificateConfig} {publication : PublicationResult} {s s' : List (Event batch Exc)}
    (hid : publication.certificateId = certificate.id) (hs : attempted s = [certificate])
    (h : Adds rest { result with publications := result.publications ++ [publication] } o s')
    (hcontained : ∀ e ∈ s, Contained e) : Adds (certificate :: rest) result o (s ++ s') where
  contained hall := by
    obtain ⟨publications, failures, rfl, hatt, hpub, hfail, hperm⟩ :=
      h.contained fun e he => hall e (List.mem_append_right _ he)
    refine ⟨publication :: publications, failures, by simp, ?_, ?_, ?_, ?_⟩
    · rw [attempted_append, hs, hatt]
      rfl
    · rw [List.map_cons, List.map_cons, hid]
      exact hpub.cons_cons _
    · rw [List.map_cons]
      exact hfail.cons _
    · rw [List.map_cons, List.map_cons, hid, List.cons_append]
      exact hperm.cons _
  least result' ho := by
    have hle := h.least result' ho
    simp only [total, List.length_append, List.length_cons, List.length_nil] at hle ⊢
    omega
  more hbad result' ho := by
    obtain ⟨e, he, hc⟩ := hbad
    rcases List.mem_append.1 he with he | he
    · exact absurd (hcontained e he) hc
    · have hlt := h.more ⟨e, he, hc⟩ result' ho
      simp only [total, List.length_append, List.length_cons, List.length_nil] at hlt ⊢
      omega

/-- A failed set that is kept, then the rest. -/
theorem Adds.failed {rest : List CertificateConfig} {x : Exc} {s s' : List (Event batch Exc)}
    (hs : attempted s = [certificate])
    (h : Adds rest { result with failures := result.failures ++ [⟨certificate.id, x⟩] } o s')
    (hcontained : ∀ e ∈ s, Contained e) : Adds (certificate :: rest) result o (s ++ s') where
  contained hall := by
    obtain ⟨publications, failures, rfl, hatt, hpub, hfail, hperm⟩ :=
      h.contained fun e he => hall e (List.mem_append_right _ he)
    refine ⟨publications, ⟨certificate.id, x⟩ :: failures, by simp, ?_, ?_, ?_, ?_⟩
    · rw [attempted_append, hs, hatt]
      rfl
    · rw [List.map_cons]
      exact hpub.cons _
    · rw [List.map_cons, List.map_cons]
      exact hfail.cons_cons _
    · rw [List.map_cons, List.map_cons]
      exact List.perm_middle.trans (hperm.cons _)
  least result' ho := by
    have hle := h.least result' ho
    simp only [total, List.length_append, List.length_cons, List.length_nil] at hle ⊢
    omega
  more hbad result' ho := by
    obtain ⟨e, he, hc⟩ := hbad
    rcases List.mem_append.1 he with he | he
    · exact absurd (hcontained e he) hc
    · have hlt := h.more ⟨e, he, hc⟩ result' ho
      simp only [total, List.length_append, List.length_cons, List.length_nil] at hlt ⊢
      omega

/-- A set named twice, then the rest. -/
theorem Adds.twice {rest : List CertificateConfig} {published : RenewalBatchResult} {s s' : List (Event batch Exc)}
    (hbad : ∃ e ∈ s, ¬Contained e) (htwo : total result + 2 ≤ total published) (h : Adds rest published o s') :
    Adds (certificate :: rest) result o (s ++ s') := by
  have hlt : ∀ result', o = .returned result' → total result + (certificate :: rest).length < total result' := by
    intro result' ho
    have hle := h.least result' ho
    rw [List.length_cons]
    omega
  refine ⟨fun hall => ?_, fun result' ho => (hlt result' ho).le, fun _ => hlt⟩
  obtain ⟨e, he, hc⟩ := hbad
  exact absurd (hall e (List.mem_append_left _ he)) hc

/-- Steps that are contained and attempt nothing, before the rest. -/
theorem Adds.prepend {certificates : List CertificateConfig} {s s' : List (Event batch Exc)} (hs : attempted s = [])
    (hcontained : ∀ e ∈ s, Contained e) (h : Adds certificates result o s') : Adds certificates result o (s ++ s') where
  contained hall := by
    obtain ⟨publications, failures, ho, hatt, hrest⟩ := h.contained fun e he => hall e (List.mem_append_right _ he)
    refine ⟨publications, failures, ho, ?_, hrest⟩
    rw [attempted_append, hs, hatt]
    rfl
  least := h.least
  more hbad := by
    obtain ⟨e, he, hc⟩ := hbad
    rcases List.mem_append.1 he with he | he
    · exact absurd (hcontained e he) hc
    · exact h.more ⟨e, he, hc⟩

/-- The whole loop, by induction on the sets that are left. -/
theorem renewSets_adds
    (hid : ∀ w certificate publication w', env w (.attempt certificate) (.ok publication) w' →
      publication.certificateId = certificate.id)
    (certificates : List CertificateConfig)
    (h : Exec (recording env) (renewSets config certificates result) (w, t) o (w', t')) (ho : o ≠ .crashed) :
    ∃ s, t' = t ++ s ∧ Adds certificates result o s := by
  induction certificates generalizing result w t with
  | nil =>
    obtain ⟨heq, rfl | rfl⟩ := exec_ret_iff.1 h
    · cases heq
      exact ⟨[], by simp, .nil⟩
    · exact absurd rfl ho
  | cons certificate rest ih =>
    rcases exec_bind_iff.1 h with ⟨u, ⟨w₁, t₁⟩, hgate, hset⟩ | ⟨x, rfl, hgate⟩ | ⟨hc, -⟩
    · obtain ⟨s, rfl, hatt, ⟨-, hs⟩ | ⟨⟨x, hx⟩, -⟩⟩ := warnUnverified_cases hgate (by simp)
      · rcases exec_bind_iff.1 hset with ⟨kept, ⟨w₂, t₂⟩, hkept, hrest⟩ | ⟨x, rfl, hkept⟩ | ⟨hc, -⟩
        · obtain ⟨s₁, rfl, hatt₁, hcases⟩ := attemptSet_cases hkept (by simp)
          obtain ⟨s₂, rfl, hadds⟩ := ih hrest
          refine ⟨s ++ (s₁ ++ s₂), by simp, .prepend hatt hs ?_⟩
          rcases hcases with ⟨publication, w₃, w₄, he, hs₁, hr⟩ | ⟨x, hs₁, hr⟩ | ⟨hbad, htwo⟩
          · cases hr
            exact .published (hid _ _ _ _ he) hatt₁ hadds hs₁
          · cases hr
            exact .failed hatt₁ hadds hs₁
          · exact .twice hbad (htwo kept rfl) hadds
        · obtain ⟨s₁, rfl, -, hcases⟩ := attemptSet_cases hkept (by simp)
          refine ⟨s ++ s₁, by simp, .prepend hatt hs (.raised ?_)⟩
          rcases hcases with ⟨publication, w₃, w₄, -, -, hr⟩ | ⟨x, -, hr⟩ | ⟨hbad, -⟩
          · cases hr
          · cases hr
          · exact hbad
        · exact absurd hc ho
      · cases hx
    · obtain ⟨s, rfl, -, ⟨hr, -⟩ | ⟨-, hbad⟩⟩ := warnUnverified_cases hgate (by simp)
      · cases hr
      · exact ⟨s, rfl, .raised hbad⟩
    · exact absurd hc ho

end Sets

end IsolationAux

open IsolationAux

/-- A timer run isolates its failures exactly where its steps are contained. In every environment and in every finished run of
`renew_all`, judged by the steps it took: it returns with every set attempted once, in order, and named once in its two lists, if
and only if every notification returned and every attempt returned or raised one of the declared failures. -/
theorem renew_all_isolates_iff (Γ : Ctx) (config : AppConfig) (passes : Nat) {W : Type} (env : Env publisher Exc W)
    {w w' : W} {o : Outcome Exc RenewalBatchResult} (h : Exec env (renewAll Γ config passes) w o w')
    (ho : o ≠ .crashed) :
    ∃ t, Exec (recording (implementing env (batchStep Γ config passes))) (renewSets config config.certificates {})
        (w, []) o (w', t) ∧
      (Isolated config o t ↔ ∀ e ∈ t, Contained e) := by
  obtain ⟨t, ht⟩ := (h.abstract ho).record []
  have hid : ∀ w certificate publication w', implementing env (batchStep Γ config passes) w (.attempt certificate)
      (.ok publication) w' → publication.certificateId = certificate.id := by
    intro w certificate publication w' he
    exact Exec.yields (yields_attemptRenewal certificate) he rfl
  obtain ⟨s, hs, hadds⟩ := renewSets_adds hid config.certificates ht ho
  obtain rfl : t = s := by simpa using hs
  refine ⟨t, ht, ?_, ?_⟩
  · rintro ⟨result, rfl, -, -, -, hperm⟩
    intro e he
    by_contra hc
    have hlt := hadds.more ⟨e, he, hc⟩ result rfl
    have hlen := hperm.length_eq
    simp only [RenewalBatchResult.published, RenewalBatchResult.failed, List.length_append, List.length_map] at hlen
    simp only [total, List.length_nil] at hlt
    omega
  · intro hall
    obtain ⟨publications, failures, rfl, hatt, hpub, hfail, hperm⟩ := hadds.contained hall
    exact ⟨_, rfl, hatt, hpub, hfail, hperm⟩

namespace IsolationAux

open Sample

/-- A second set, with its own OCI certificate. -/
def secondCertificate : CertificateConfig :=
  { certificate with
    id := "api"
    webrootId := "api"
    commonName := "b.example"
    domains := ["b.example"]
    oci := { certificate.oci with certificateOcid := some "second", certificateName := "api" } }

def twoSets : AppConfig := { config certificate with certificates := [certificate, secondCertificate] }

/-- What `getaddrinfo` raises where a name does not resolve. -/
def unresolved : Exc := .of .osError "Name or service not known"

/-- The preflight of the first set. -/
def firstPreflight : Op → Bool
  | .preflight webrootId _ => webrootId = "web"
  | _ => false

/-- Only the preflight of the first set fails, with the DNS error. -/
def dnsFaults : Faults := fun op x => firstPreflight op = true ∧ x = unresolved

/-- The timer run over the two sets. -/
def dnsRun : Outcome Exc RenewalBatchResult × World :=
  (renewAll ctx twoSets 1).runFor (simulateFailing ctx script firstPreflight unresolved) 200 (world resource)

theorem dnsRun_exec : Exec (service ctx dnsFaults) (renewAll ctx twoSets 1) (world resource) (.raised unresolved) dnsRun.2 :=
  exec_of_runFor (simulateFailing_allowed ctx script fun _ h => ⟨h, rfl⟩) (by decide +kernel)

end IsolationAux

/-- Failures are not isolated in general: where the name of the first set does not resolve, its preflight raises an `OSError`, and
so does the timer run, before the second set. -/
theorem renew_all_isolates_false :
    ∃ w', Exec (service Sample.ctx dnsFaults) (renewAll Sample.ctx twoSets 1) (Sample.world Sample.resource)
        (.raised unresolved) w' ∧
      unresolved.isInstance .osError = true ∧ ∀ t, ¬Isolated twoSets (.raised unresolved) t := by
  refine ⟨dnsRun.2, dnsRun_exec, rfl, fun t h => ?_⟩
  obtain ⟨result, hr, -⟩ := h
  cases hr

/-- In that run some step is not contained. -/
theorem renew_all_isolates_iff_sample :
    ∃ t, Exec (recording (implementing (service Sample.ctx dnsFaults) (batchStep Sample.ctx twoSets 1)))
        (renewSets twoSets twoSets.certificates {}) (Sample.world Sample.resource, []) (.raised unresolved)
        (dnsRun.2, t) ∧
      ¬∀ e ∈ t, Contained e := by
  obtain ⟨t, ht, hiff⟩ := renew_all_isolates_iff Sample.ctx twoSets 1 (service Sample.ctx dnsFaults) dnsRun_exec
    (by simp)
  refine ⟨t, ht, fun hall => ?_⟩
  obtain ⟨result, hr, -⟩ := hiff.2 hall
  cases hr

end OciAcmePublisher
