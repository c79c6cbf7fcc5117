import OciAcmePublisher.Effects.Eval
import OciAcmePublisher.Lemmas.AuditService
import OciAcmePublisher.Lemmas.Footprints
import OciAcmePublisher.Simulation

/-!
# Progress of a renewal

A renewal validates the stored generation before it looks whether it is due. A generation that has expired, or that the configuration
no longer matches, fails there, so the renewals that need it most never reach the CA.
-/

namespace OciAcmePublisher

open Effects PublicationService NativeAcmeService

/-- The outside while a certificate is renewed: the local generation is kept, everything else has one answer. -/
def attended (Γ : Ctx) (answers : (op : Op) → Except Exc op.Reply) : Answers publisher Exc LineageMaterial :=
  fun stored op =>
    match op with
    | .lineageExists _ => (.ok true, stored)
    | .loadLineage _ => (.ok stored, stored)
    | .commitLineage id g =>
      match parseMaterial Γ g.leafPem g.chainPem g.privateKeyPem with
      | some material => (.ok material, material)
      | none => (answers (.commitLineage id g), stored)
    | op => (answers op, stored)

/-- The preflight passes and the CA serves the order: what the parts of the issuance get, up to the chain `_select_chain` accepts and
the generation that is committed. -/
structure Cooperation (Γ : Ctx) (config : AppConfig) (certificate : CertificateConfig)
    (answers : (op : Op) → Except Exc op.Reply) (stored : LineageMaterial) where
  now : Instant
  clock : answers .now = .ok now
  logs : ∀ level event fields, answers (.logEvent level event fields) = .ok ()
  preflight : answers (.preflight certificate.webrootId certificate.domains) = .ok ()
  client : answers .acmeClient = .ok ()
  key : PrivateKey
  chooses : (certificateKey config certificate (some stored)).eval (attended Γ answers) stored = (.returned key, stored)
  order : Order
  orders : answers (.newOrder (Γ.csr certificate.commonName certificate.domains key) config.acme.preferredProfile) = .ok order
  identifiers : order.authorizations.map (·.identifier) ⊆ certificate.domains ∧
    certificate.domains ⊆ order.authorizations.map (·.identifier)
  paths : List String
  challenges : (answerChallenges config certificate order order.authorizations []).eval (attended Γ answers) stored =
    (.returned (.ok (), paths), stored)
  removes : ∀ path, answers (.removeChallenge path) = .ok ()
  authorizes : answers (.pollAuthorizations order.uri (now + seconds config.acme.operationTimeoutSeconds)) = .ok ()
  finalized : FinalizedOrder
  finalizes : answers (.finalizeOrder order.uri (now + seconds config.acme.operationTimeoutSeconds)) = .ok finalized
  material : LineageMaterial
  accepts : (selectChain Γ config certificate key (Γ.privateKeyPem key)
    (finalized.fullchainPem :: finalized.alternativeFullchainsPem)).eval (attended Γ answers) stored =
      (.returned material, stored)
  token : String
  tokens : answers (.tokenHex 4) = .ok token
  committed : LineageMaterial
  commits : parseMaterial Γ material.leafPem material.chainPem (Γ.privateKeyPem key) = some committed

/-- The run of a renewal, with the generation it leaves and what it performed. -/
def renewalRun (Γ : Ctx) (config : AppConfig) (passes : Nat) (certificateId : String) (force : Bool)
    (answers : (op : Op) → Except Exc op.Reply) (stored : LineageMaterial) :
    Outcome Exc PublicationResult × LineageMaterial × Trace :=
  (renew Γ config passes certificateId force).eval (attended Γ answers).record (stored, [])

/-- The renewal places an order, commits a generation, and goes on as the publication of it. -/
def Progresses (Γ : Ctx) (config : AppConfig) (passes : Nat) (certificateId : String) (force : Bool)
    (answers : (op : Op) → Except Exc op.Reply) (stored : LineageMaterial) : Prop :=
  (∃ csr profile order, (⟨.newOrder csr profile, .ok order⟩ : Event publisher Exc) ∈
    (renewalRun Γ config passes certificateId force answers stored).2.2) ∧
    ∃ g material t, (⟨.commitLineage certificateId g, .ok material⟩ : Event publisher Exc) ∈ t ∧
      renewalRun Γ config passes certificateId force answers stored =
        (publish Γ config passes certificateId .renew).eval (attended Γ answers).record (material, t)

namespace RenewalAux

variable {Γ : Ctx} {config : AppConfig} {certificate : CertificateConfig} {passes : Nat} {force : Bool}
  {answers : (op : Op) → Except Exc op.Reply} {stored : LineageMaterial} {α β : Type}

/-- A part that returns, in a run that is recorded. -/
theorem recorded_bind {p : Action α} {f : α → Action β} {a : α} {v v' : LineageMaterial}
    (hp : p.eval (attended Γ answers) v = (.returned a, v')) (t : Trace) :
    ∃ s, (p.bind f).eval (attended Γ answers).record (v, t) = (f a).eval (attended Γ answers).record (v', t ++ s) := by
  obtain ⟨s, hs⟩ := Program.eval_record_returned hp t
  exact ⟨s, Program.eval_bind_returned hs⟩

/-- An operation that is answered, in a run that is recorded. -/
theorem recorded_perform_bind {op : Op} {f : op.Reply → Action β} {r : op.Reply} {v v' : LineageMaterial}
    (hop : attended Γ answers v op = (.ok r, v')) (t : Trace) :
    ((perform op).bind f).eval (attended Γ answers).record (v, t) =
      (f r).eval (attended Γ answers).record (v', t ++ [⟨op, .ok r⟩]) :=
  Program.eval_perform_bind (Answers.record_eq hop t)

section Served

variable (c : Cooperation Γ config certificate answers stored)

include c

theorem attended_now (v : LineageMaterial) : attended Γ answers v .now = (.ok c.now, v) := by
  show (answers .now, v) = _
  rw [c.clock]

theorem attended_log (v : LineageMaterial) (level : LogLevel) (event : String) (fields : List (String × FieldValue)) :
    attended Γ answers v (.logEvent level event fields) = (.ok (), v) := by
  show (answers (.logEvent level event fields), v) = _
  rw [c.logs]

/-- The order that is placed. -/
abbrev ordered : Event publisher Exc :=
  ⟨.newOrder (Γ.csr certificate.commonName certificate.domains c.key) config.acme.preferredProfile, .ok c.order⟩

theorem placeOrder_eval (t : Trace) :
    ∃ s, (placeOrder Γ config certificate c.key).eval (attended Γ answers).record (stored, t) =
      (.returned c.order, (stored, t ++ s)) ∧ ordered c ∈ s := by
  have hclient : attended Γ answers stored .acmeClient = (.ok (), stored) := by
    show (answers .acmeClient, stored) = _
    rw [c.client]
  have horder : attended Γ answers stored (ordered c).op = (.ok c.order, stored) := by
    show (answers (ordered c).op, stored) = _
    rw [c.orders]
  refine ⟨[⟨.acmeClient, .ok ()⟩, ordered c], ?_, by simp⟩
  unfold placeOrder
  rw [Program.bind_eq, recorded_perform_bind hclient, Program.bind_eq, recorded_perform_bind horder, if_pos c.identifiers,
    List.append_assoc]
  rfl

theorem finalize_eval (t : Trace) :
    ∃ s g, (finalize Γ config certificate c.key c.order).eval (attended Γ answers).record (stored, t) =
      (.returned c.committed, (c.committed, t ++ s)) ∧
        (⟨.commitLineage certificate.id g, .ok c.committed⟩ : Event publisher Exc) ∈ s := by
  have hpoll : attended Γ answers stored
      (.pollAuthorizations c.order.uri (c.now + seconds config.acme.operationTimeoutSeconds)) = (.ok (), stored) := by
    show (answers _, stored) = _
    rw [c.authorizes]
  have hfinalize : attended Γ answers stored
      (.finalizeOrder c.order.uri (c.now + seconds config.acme.operationTimeoutSeconds)) = (.ok c.finalized, stored) := by
    show (answers _, stored) = _
    rw [c.finalizes]
  have htoken : attended Γ answers stored (.tokenHex 4) = (.ok c.token, stored) := by
    show (answers _, stored) = _
    rw [c.tokens]
  unfold finalize
  rw [Program.bind_eq, recorded_perform_bind (attended_now c stored), Program.bind_eq, recorded_perform_bind hpoll,
    Program.bind_eq, recorded_perform_bind hfinalize]
  obtain ⟨s, hs⟩ := recorded_bind (f := fun material => _) c.accepts
    (t ++ [⟨.now, .ok c.now⟩] ++ [⟨.pollAuthorizations c.order.uri (c.now + seconds config.acme.operationTimeoutSeconds), .ok ()⟩] ++
      [⟨.finalizeOrder c.order.uri (c.now + seconds config.acme.operationTimeoutSeconds), .ok c.finalized⟩])
  rw [Program.bind_eq, hs, Program.bind_eq, recorded_perform_bind (attended_now c stored), Program.bind_eq,
    recorded_perform_bind htoken]
  have hcommit : ∀ name, attended Γ answers stored (.commitLineage certificate.id
      { leafPem := c.material.leafPem
        chainPem := c.material.chainPem
        privateKeyPem := Γ.privateKeyPem c.key
        name := name }) = (.ok c.committed, c.committed) := by
    intro name
    unfold attended
    simp only [c.commits]
  rw [Program.eval_perform (Answers.record_eq (hcommit _) _)]
  simp only [List.append_assoc]
  refine ⟨_, {
    leafPem := c.material.leafPem
    chainPem := c.material.chainPem
    privateKeyPem := Γ.privateKeyPem c.key
    name := Γ.compactTimestamp c.now ++ "-" ++ String.ofList ((certificateSha256 c.material.leaf).toList.take 12) ++ "-" ++
      c.token }, rfl, ?_⟩
  simp only [List.mem_append]
  exact Or.inr (Or.inr (Or.inr (Or.inr (Or.inr (Or.inr (List.mem_singleton_self _))))))

theorem removeChallenges_eval (v : LineageMaterial) (paths : List String) :
    (removeChallenges paths).eval (attended Γ answers) v = (.returned (), v) := by
  induction paths with
  | nil => rfl
  | cons path rest ih =>
    have hremove : attended Γ answers v (.removeChallenge path) = (.ok (), v) := by
      show (answers _, v) = _
      rw [c.removes]
    unfold removeChallenges
    rw [Program.bind_eq, Program.eval_perform_bind hremove]
    exact ih

/-- The order runs to its end, and commits. -/
theorem runOrder_eval (t : Trace) :
    ∃ s g, (runOrder Γ config certificate c.key).eval (attended Γ answers).record (stored, t) =
      (.returned (.ok c.committed, c.paths), (c.committed, t ++ s)) ∧ ordered c ∈ s ∧
        (⟨.commitLineage certificate.id g, .ok c.committed⟩ : Event publisher Exc) ∈ s := by
  obtain ⟨s₁, hplace, hordered⟩ := placeOrder_eval c t
  obtain ⟨s₂, hanswer⟩ := Program.eval_record_returned c.challenges (t ++ s₁)
  obtain ⟨s₃, g, hfinal, hcommitted⟩ := finalize_eval c (t ++ s₁ ++ s₂)
  refine ⟨s₁ ++ s₂ ++ s₃, g, ?_, ?_, ?_⟩
  · unfold runOrder
    rw [Program.bind_eq, Program.eval_bind_returned (Program.eval_attempt_returned hplace)]
    simp only [Program.bind_eq]
    rw [Program.eval_bind_returned hanswer]
    simp only
    rw [Program.eval_bind_returned (Program.eval_attempt_returned hfinal)]
    simp only [List.append_assoc]
    rfl
  · exact List.mem_append_left _ (List.mem_append_left _ hordered)
  · exact List.mem_append_right _ hcommitted

/-- Where it is due or forced, the issuance places the order and commits the new generation. -/
theorem issue_eval (hdue : force = true ∨ renewalDue config stored c.now = true) (t : Trace) :
    ∃ s g, (issue Γ config certificate force).eval (attended Γ answers).record (stored, t) =
      (.returned c.committed, (c.committed, t ++ s)) ∧ ordered c ∈ s ∧
        (⟨.commitLineage certificate.id g, .ok c.committed⟩ : Event publisher Exc) ∈ s := by
  have hload : (loadOptional certificate).eval (attended Γ answers) stored = (.returned (some stored), stored) := rfl
  have hreuse : (issue.reusable config force (some stored)).eval (attended Γ answers) stored = (.returned none, stored) := by
    unfold issue.reusable
    simp only
    by_cases hforce : force = true
    · rw [if_pos hforce]
      rfl
    · have hdue' : renewalDue config stored c.now = true := hdue.resolve_left hforce
      rw [if_neg hforce, Program.bind_eq, Program.eval_perform_bind (attended_now c stored), if_pos hdue']
      rfl
  obtain ⟨s₁, h₁⟩ := Program.eval_record_returned hload t
  obtain ⟨s₂, h₂⟩ := Program.eval_record_returned hreuse (t ++ s₁)
  obtain ⟨s₃, h₃⟩ := Program.eval_record_returned c.chooses (t ++ s₁ ++ s₂)
  obtain ⟨s₄, g, h₄, hordered, hcommitted⟩ := runOrder_eval c (t ++ s₁ ++ s₂ ++ s₃)
  obtain ⟨s₅, h₅⟩ := Program.eval_record_returned (removeChallenges_eval c c.committed c.paths) (t ++ s₁ ++ s₂ ++ s₃ ++ s₄)
  refine ⟨s₁ ++ s₂ ++ s₃ ++ s₄ ++ s₅, g, ?_, ?_, ?_⟩
  · unfold issue
    rw [Program.bind_eq, Program.eval_bind_returned h₁, Program.bind_eq, Program.eval_bind_returned h₂]
    simp only [Program.bind_eq]
    rw [Program.eval_bind_returned h₃, Program.eval_bind_returned h₄]
    simp only
    rw [Program.eval_bind_returned h₅]
    simp only [List.append_assoc]
    rfl
  · exact List.mem_append_left _ (List.mem_append_right _ hordered)
  · exact List.mem_append_left _ (List.mem_append_right _ hcommitted)

/-! ## The renewal -/

theorem runPreflight_eval : (runPreflight certificate).eval (attended Γ answers) stored = (.returned (), stored) := by
  have hpreflight : attended Γ answers stored (.preflight certificate.webrootId certificate.domains) = (.ok (), stored) := by
    show (answers _, stored) = _
    rw [c.preflight]
  unfold runPreflight logEvent
  rw [Program.bind_eq, Program.eval_perform_bind (attended_log c stored _ _ _), Program.bind_eq,
    Program.eval_bind_returned (Program.eval_attempt_returned (Program.eval_perform hpreflight))]
  exact Program.eval_perform (attended_log c stored _ _ _)

/-- The validation of the stored generation decides how a renewal starts. -/
theorem beforeFingerprint_eval :
    (beforeFingerprint Γ config certificate).eval (attended Γ answers) stored =
      (match validateCertificateMaterial Γ stored certificate config.compatibility config.global c.now with
        | .ok f => (.returned (some f), stored)
        | .error x => (.raised x, stored)) := by
  have hexists : attended Γ answers stored (.lineageExists certificate.id) = (.ok true, stored) := rfl
  have hload : attended Γ answers stored (.loadLineage certificate.id) = (.ok stored, stored) := rfl
  unfold beforeFingerprint
  rw [Program.bind_eq, Program.eval_perform_bind hexists, if_neg (show ¬true = false from nofun), Program.bind_eq,
    Program.eval_perform_bind hload, Program.bind_eq, Program.eval_perform_bind (attended_now c stored)]
  cases validateCertificateMaterial Γ stored certificate config.compatibility config.global c.now with
  | ok f => rfl
  | error x => rfl

/-- Where it is allowed and the stored generation is valid, a renewal that is due or forced goes through. -/
theorem renew_progresses (hc : configuredCertificate config certificate.id = .ok certificate)
    (hdue : force = true ∨ renewalDue config stored c.now = true)
    (hqualified : (requireProductionQualification config certificate).eval (attended Γ answers) stored = (.returned (), stored))
    {f : String} (hvalid : validateCertificateMaterial Γ stored certificate config.compatibility config.global c.now = .ok f) :
    Progresses Γ config passes certificate.id force answers stored := by
  have hbefore : (beforeFingerprint Γ config certificate).eval (attended Γ answers) stored = (.returned (some f), stored) := by
    rw [beforeFingerprint_eval c, hvalid]
  obtain ⟨s₁, h₁⟩ := Program.eval_record_returned hqualified []
  obtain ⟨s₂, h₂⟩ := Program.eval_record_returned (runPreflight_eval c) ([] ++ s₁)
  obtain ⟨s₃, h₃⟩ := Program.eval_record_returned hbefore ([] ++ s₁ ++ s₂)
  obtain ⟨s₄, h₄⟩ := Program.eval_record_returned (Program.eval_perform (attended_log c stored .info "ACME_STARTED"
    [("certificate_id", .text certificate.id)])) ([] ++ s₁ ++ s₂ ++ s₃)
  obtain ⟨s₅, g, h₅, hordered, hcommitted⟩ := issue_eval c hdue ([] ++ s₁ ++ s₂ ++ s₃ ++ s₄)
  obtain ⟨s₆, h₆⟩ := Program.eval_record_returned (Program.eval_perform (attended_log c c.committed .info "ACME_COMPLETED"
    [("certificate_id", .text certificate.id)])) ([] ++ s₁ ++ s₂ ++ s₃ ++ s₄ ++ s₅)
  have hrun : renewalRun Γ config passes certificate.id force answers stored =
      (publish Γ config passes certificate.id .renew).eval (attended Γ answers).record
        (c.committed, [] ++ s₁ ++ s₂ ++ s₃ ++ s₄ ++ s₅ ++ s₆) := by
    unfold renewalRun renew logEvent
    rw [hc]
    simp only [ofExcept, Program.bind_eq, Program.ret_bind]
    rw [Program.eval_bind_returned h₁, Program.eval_bind_returned h₂, Program.eval_bind_returned h₃,
      Program.eval_bind_returned h₄, Program.eval_bind_returned h₅, Program.eval_bind_returned h₆]
  obtain ⟨s₇, h₇, -⟩ := Program.eval_record (attended Γ answers) (publish Γ config passes certificate.id .renew) c.committed
    ([] ++ s₁ ++ s₂ ++ s₃ ++ s₄ ++ s₅ ++ s₆)
  refine ⟨⟨Γ.csr certificate.commonName certificate.domains c.key, config.acme.preferredProfile, c.order, ?_⟩, g, c.committed,
    [] ++ s₁ ++ s₂ ++ s₃ ++ s₄ ++ s₅ ++ s₆, ?_, hrun⟩
  · rw [hrun, h₇]
    exact List.mem_append_left _ (List.mem_append_left _ (List.mem_append_right _ hordered))
  · exact List.mem_append_left _ (List.mem_append_right _ hcommitted)

end Served

/-- The operation places no order. -/
def ordersNone (op : Op) : Prop := ∀ csr profile, op ≠ .newOrder csr profile

theorem ordersNone_of_idle (op : Op) (h : op.idle = true) : ordersNone op := by
  intro csr profile hop
  rw [hop] at h
  cases h

/-- A part that raises, in a run that is recorded, where it places no order. -/
theorem not_ordered_of_raised {p : Action α} {x : Exc} {v v' : LineageMaterial} (hp : p.Uses ordersNone)
    (h : p.eval (attended Γ answers) v = (.raised x, v')) (t : Trace) :
    ∃ s, p.eval (attended Γ answers).record (v, t) = (.raised x, (v', t ++ s)) ∧ ∀ e ∈ s, ordersNone e.op := by
  obtain ⟨s, heval, huses⟩ := p.eval_record (attended Γ answers) v t
  rw [h] at heval
  exact ⟨s, heval, huses ordersNone hp⟩

/-- The search for qualifying evidence ends, and changes nothing. -/
theorem search_eval (profile : CertificateProfile) (paths : List String) :
    (requireQualifiedProfile.search profile paths).eval (attended Γ answers) stored = (.returned (), stored) ∨
      ∃ x, (requireQualifiedProfile.search profile paths).eval (attended Γ answers) stored = (.raised x, stored) := by
  induction paths with
  | nil => exact Or.inr ⟨_, rfl⟩
  | cons path rest ih =>
    unfold requireQualifiedProfile.search
    rw [Program.bind_eq]
    cases hread : answers (.readEvidence path) with
    | error x =>
      have hread' : attended Γ answers stored (.readEvidence path) = (.error x, stored) := by
        show (answers _, stored) = _
        rw [hread]
      exact Or.inr ⟨x, Program.eval_bind_raised (Program.eval_perform_raised hread')⟩
    | ok payload =>
      have hread' : attended Γ answers stored (.readEvidence path) = (.ok payload, stored) := by
        show (answers _, stored) = _
        rw [hread]
      rw [Program.eval_perform_bind hread']
      by_cases hqualifies : payload.qualifies profile = true
      · rw [if_pos hqualifies]
        exact Or.inl rfl
      · rw [if_neg hqualifies]
        exact ih

theorem qualification_eval :
    (requireProductionQualification config certificate).eval (attended Γ answers) stored = (.returned (), stored) ∨
      ∃ x, (requireProductionQualification config certificate).eval (attended Γ answers) stored = (.raised x, stored) := by
  unfold requireProductionQualification requireQualifiedProfile
  by_cases hproduction : config.global.environment = .production
  · rw [if_pos hproduction]
    by_cases hlive : config.compatibility.liveVerified = false
    · rw [if_pos hlive]
      exact Or.inr ⟨_, rfl⟩
    · rw [if_neg hlive]
      exact search_eval _ _
  · rw [if_neg hproduction]
    exact Or.inl rfl

/-- A renewal whose start raises places no order. -/
theorem not_progresses_of_raised {p : Action α} {f : α → Action PublicationResult} {x : Exc}
    (hc : renew Γ config passes certificate.id force = p.bind f) (hp : p.Uses ordersNone)
    (h : p.eval (attended Γ answers) stored = (.raised x, stored)) :
    ¬Progresses Γ config passes certificate.id force answers stored := by
  rintro ⟨⟨csr, profile, order, horder⟩, -⟩
  obtain ⟨s, hs, hnone⟩ := not_ordered_of_raised hp h []
  unfold renewalRun at horder
  rw [hc, Program.eval_bind_raised hs] at horder
  exact hnone _ horder csr profile rfl

/-- How a renewal starts. -/
theorem renew_eq (hc : configuredCertificate config certificate.id = .ok certificate) :
    renew Γ config passes certificate.id force = (requireProductionQualification config certificate).bind fun _ =>
      (runPreflight certificate).bind fun _ => (beforeFingerprint Γ config certificate).bind fun _ =>
        (logEvent .info "ACME_STARTED" [("certificate_id", .text certificate.id)]).bind fun _ =>
          (issue Γ config certificate force).bind fun _ =>
            (logEvent .info "ACME_COMPLETED" [("certificate_id", .text certificate.id)]).bind fun _ =>
              publish Γ config passes certificate.id .renew := by
  unfold renew
  rw [hc]
  rfl

/-- A stored generation that is refused ends the renewal before anything is ordered. -/
theorem not_progresses_of_invalid (c : Cooperation Γ config certificate answers stored)
    (hc : configuredCertificate config certificate.id = .ok certificate)
    (hqualified : (requireProductionQualification config certificate).eval (attended Γ answers) stored = (.returned (), stored))
    {x : Exc} (hinvalid : validateCertificateMaterial Γ stored certificate config.compatibility config.global c.now = .error x) :
    ¬Progresses Γ config passes certificate.id force answers stored := by
  have hbefore : (beforeFingerprint Γ config certificate).eval (attended Γ answers) stored = (.raised x, stored) := by
    rw [beforeFingerprint_eval c, hinvalid]
  have hstart : ((requireProductionQualification config certificate).bind fun _ =>
      (runPreflight certificate).bind fun _ => beforeFingerprint Γ config certificate).eval (attended Γ answers) stored =
        (.raised x, stored) := by
    rw [Program.eval_bind_returned hqualified, Program.eval_bind_returned (runPreflight_eval c)]
    exact hbefore
  refine not_progresses_of_raised (f := fun _ =>
    (logEvent .info "ACME_STARTED" [("certificate_id", .text certificate.id)]).bind fun _ =>
      (issue Γ config certificate force).bind fun _ =>
        (logEvent .info "ACME_COMPLETED" [("certificate_id", .text certificate.id)]).bind fun _ =>
          publish Γ config passes certificate.id .renew) ?_ ?_ hstart
  · rw [renew_eq hc]
    simp only [Program.bind_assoc]
  · exact Program.uses_bind (uses_requireProductionQualification ordersNone_of_idle) fun _ =>
      Program.uses_bind (uses_runPreflight ordersNone_of_idle) fun _ => uses_beforeFingerprint ordersNone_of_idle

end RenewalAux

open RenewalAux

/-- A renewal that needs to go through does so exactly where the certificate is qualified and the stored generation is still valid:
the clock is within its validity period, widened by the tolerated skew, and it is what the configuration asks for. -/
theorem renewal_progress_iff (Γ : Ctx) {config : AppConfig} {certificate : CertificateConfig} {passes : Nat} {force : Bool}
    {answers : (op : Op) → Except Exc op.Reply} {stored : LineageMaterial}
    (hc : configuredCertificate config certificate.id = .ok certificate)
    (c : Cooperation Γ config certificate answers stored)
    (hneed : renewalDue config stored c.now = true ∨ ¬MatchesConfiguration Γ stored.leaf certificate) :
    Progresses Γ config passes certificate.id force answers stored ↔
      (∃ v, (requireProductionQualification config certificate).eval (attended Γ answers) stored = (.returned (), v)) ∧
        ∃ f, validateCertificateMaterial Γ stored certificate config.compatibility config.global c.now = .ok f := by
  have hqualification := @qualification_eval Γ config certificate answers stored
  constructor
  · intro hprogress
    rcases hqualification with hqualified | ⟨x, hraised⟩
    · refine ⟨⟨_, hqualified⟩, ?_⟩
      cases hvalid : validateCertificateMaterial Γ stored certificate config.compatibility config.global c.now with
      | ok f => exact ⟨f, rfl⟩
      | error x => exact absurd hprogress (not_progresses_of_invalid c hc hqualified hvalid)
    · exact absurd hprogress (not_progresses_of_raised (renew_eq hc) (uses_requireProductionQualification ordersNone_of_idle)
        hraised)
  · rintro ⟨⟨v, hqualified⟩, f, hvalid⟩
    have hdue : renewalDue config stored c.now = true :=
      hneed.resolve_right fun hnot => hnot (validateCertificateMaterial_ok hvalid).1
    have hstill : (requireProductionQualification config certificate).eval (attended Γ answers) stored = (.returned (), stored) := by
      rcases hqualification with h | ⟨x, h⟩
      · exact h
      · rw [h] at hqualified
        cases hqualified
    exact renew_progresses c hc (Or.inr hdue) hstill hvalid

namespace RenewalAux

/-- The stored generation whose leaf is `A`, valid for ninety days. -/
def storedMaterial : LineageMaterial := { Sample.material with leaf := Sample.leaf 1, leafPem := [65] }

/-- The order of the certificate. -/
def order : Order := ⟨"order", [⟨"a.example", [.http01 "token" "validation"]⟩]⟩

/-- The CA serves an order with the leaf `B`, valid for one hundred and eighty days. -/
def served (now : Instant) : (op : Op) → Except Exc op.Reply
  | .now => .ok now
  | .logEvent .. | .preflight .. | .acmeClient | .writeChallenge .. | .answerChallenge .. | .removeChallenge _
  | .pollAuthorizations .. => .ok ()
  | .newOrder .. => .ok order
  | .finalizeOrder .. => .ok ⟨"BI", []⟩
  | .generateKey _ => .ok Sample.privateKey
  | .readFile _ => .ok [82]
  | .tokenHex _ => .ok "abcdabcd"
  | _ => .error (.of .osError "unreachable")

def sampleConfig : AppConfig := Sample.config Sample.certificate

/-- Everything the renewal asks for is there while the leaf `B` is valid. -/
def cooperation (now : Instant)
    (hchallenges : (answerChallenges sampleConfig Sample.certificate order order.authorizations []).eval
      (attended Sample.ctx (served now)) storedMaterial =
        (.returned (.ok (), ["/webroot/web/.well-known/acme-challenge/token"]), storedMaterial))
    (haccepts : (selectChain Sample.ctx sampleConfig Sample.certificate Sample.privateKey [75] ["BI"]).eval
      (attended Sample.ctx (served now)) storedMaterial = (.returned Sample.material, storedMaterial)) :
    Cooperation Sample.ctx sampleConfig Sample.certificate (served now) storedMaterial where
  now := now
  clock := rfl
  logs _ _ _ := rfl
  preflight := rfl
  client := rfl
  key := Sample.privateKey
  chooses := rfl
  order := order
  orders := rfl
  identifiers := by decide
  paths := ["/webroot/web/.well-known/acme-challenge/token"]
  challenges := hchallenges
  removes _ := rfl
  authorizes := rfl
  finalized := ⟨"BI", []⟩
  finalizes := rfl
  material := Sample.material
  accepts := haccepts
  token := "abcdabcd"
  tokens := rfl
  committed := Sample.material
  commits := by decide +kernel

def expired : Cooperation Sample.ctx sampleConfig Sample.certificate (served (days 100)) storedMaterial :=
  cooperation (days 100) (by decide +kernel) (by decide +kernel)

def due : Cooperation Sample.ctx sampleConfig Sample.certificate (served (days 80)) storedMaterial :=
  cooperation (days 80) (by decide +kernel) (by decide +kernel)

end RenewalAux

/-- Ten days after it expired the stored leaf is due, and the CA would serve the order, but the renewal raises before it places
one. -/
theorem renewal_progress_false :
    ∃ c : Cooperation Sample.ctx sampleConfig Sample.certificate (served (days 100)) storedMaterial,
      renewalDue sampleConfig storedMaterial c.now = true ∧
        ¬Progresses Sample.ctx sampleConfig 5 "web" false (served (days 100)) storedMaterial := by
  have hdue : renewalDue sampleConfig storedMaterial (days 100) = true := by decide +kernel
  have hinvalid : validateCertificateMaterial Sample.ctx storedMaterial Sample.certificate sampleConfig.compatibility
      sampleConfig.global (days 100) = .error (validationError "certificate is expired") := by
    decide +kernel
  exact ⟨expired, hdue, not_progresses_of_invalid expired rfl rfl hinvalid⟩

/-- Ten days before it expires the renewal goes through. -/
theorem renewal_progress_iff_sample :
    Progresses Sample.ctx sampleConfig 5 "web" false (served (days 80)) storedMaterial := by
  have hdue : renewalDue sampleConfig storedMaterial (days 80) = true := by decide +kernel
  have hvalid : validateCertificateMaterial Sample.ctx storedMaterial Sample.certificate sampleConfig.compatibility
      sampleConfig.global (days 80) = .ok (certificateSha256 (Sample.leaf 1)) := by
    decide +kernel
  exact (renewal_progress_iff Sample.ctx rfl due (Or.inl hdue)).2
    ⟨⟨storedMaterial, rfl⟩, _, hvalid⟩

end OciAcmePublisher
