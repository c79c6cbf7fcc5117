import OciAcmePublisher.Cli

/-!
# Exit codes of batches

A batch has the exit code of one of its failures where some failure of the class the batch reports is of no class that `main` tests
earlier.
-/

namespace OciAcmePublisher

open Effects PublicationService

/-- What a batch reports, in the order `_renewal_exit_code` looks for it. -/
inductive FailureKind where
  | preflight | acme | x509 | audit | rollback | oci
  deriving DecidableEq

namespace FailureKind

/-- The classes of the failures. -/
def classes : FailureKind → List ExcClass
  | preflight => [.preflightError]
  | acme => [.acmeOperationError]
  | x509 => x509Failures
  | audit => [.auditError]
  | rollback => [.rollbackError]
  | oci => ociFailures

/-- The classes `main` tests before these and the batch does not. -/
def shadows : FailureKind → List ExcClass
  | preflight | acme => x509Failures
  | x509 | audit | rollback => []
  | oci => [.compatibilityProbeError]

def exitCode : FailureKind → ExitCode
  | preflight => .http01PreflightFailed
  | acme => .acmeFailed
  | x509 => .x509ValidationFailed
  | audit => .auditEnforceFailed
  | rollback => .rollbackFailed
  | oci => .ociImportFailed

end FailureKind

/-- The first kind of which the batch has a failure. -/
def leadKind (errors : List RaisedError) : FailureKind :=
  if errors.any (·.isOneOf [.preflightError]) then .preflight
  else if errors.any (·.isOneOf [.acmeOperationError]) then .acme
  else if errors.any (·.isOneOf x509Failures) then .x509
  else if errors.any (·.isOneOf [.auditError]) then .audit
  else if errors.any (·.isOneOf [.rollbackError]) then .rollback
  else .oci

/-- Some failure of the leading kind is of no class `main` tests earlier; a `PublisherError` counts when it carries the code of that
kind. -/
def LeadReported (errors : List RaisedError) : Prop :=
  ∃ f ∈ errors, if f.isOneOf [.publisherError] then f.code = (leadKind errors).exitCode
    else f.isOneOf (leadKind errors).classes = true ∧ f.isOneOf (leadKind errors).shadows = false

/-- The failure derives from one of the declared classes alone and keeps its code. -/
def RaisedError.Plain (f : RaisedError) : Prop :=
  ∃ c ∈ renewableCertificateFailures, (∀ d, f.isInstance d = c.mro.contains d) ∧ f.code = c.code

namespace ExitCodesAux

variable {errors : List RaisedError} {f : RaisedError}

theorem renewalExitCode_lead (errors : List RaisedError) : renewalExitCode errors = (leadKind errors).exitCode := by
  unfold renewalExitCode leadKind
  split_ifs <;> rfl

theorem isOneOf_of_any {cs : List ExcClass} (h : ¬errors.any (·.isOneOf cs) = true) (hf : f ∈ errors) : f.isOneOf cs = false :=
  Bool.eq_false_iff.2 fun hcs => h (List.any_eq_true.2 ⟨f, hf, hcs⟩)

/-- A declared failure is a `ConfigurationError` or of one of the kinds. -/
theorem declared_cases (h : f.isOneOf renewableCertificateFailures = true) :
    f.isInstance .configurationError = true ∨ ∃ kind : FailureKind, f.isOneOf kind.classes = true := by
  obtain ⟨c, hc, hf⟩ := List.any_eq_true.1 h
  have hin : ∀ kind : FailureKind, c ∈ kind.classes → ∃ kind : FailureKind, f.isOneOf kind.classes = true :=
    fun kind hkind => ⟨kind, List.any_eq_true.2 ⟨c, hkind, hf⟩⟩
  simp only [renewableCertificateFailures, List.mem_cons, List.not_mem_nil, or_false] at hc
  rcases hc with rfl | rfl | rfl | rfl | rfl | rfl | rfl | rfl | rfl | rfl | rfl | rfl
  · exact Or.inr (hin .audit (by decide))
  · exact Or.inr (hin .x509 (by decide))
  · exact Or.inr (hin .x509 (by decide))
  · exact Or.inl hf
  · exact Or.inr (hin .oci (by decide))
  · exact Or.inr (hin .oci (by decide))
  · exact Or.inr (hin .acme (by decide))
  · exact Or.inr (hin .x509 (by decide))
  · exact Or.inr (hin .preflight (by decide))
  · exact Or.inr (hin .oci (by decide))
  · exact Or.inr (hin .oci (by decide))
  · exact Or.inr (hin .rollback (by decide))

/-- The kinds the batch looks for before a kind. -/
def earlier : FailureKind → List FailureKind
  | .preflight => []
  | .acme => [.preflight]
  | .x509 => [.preflight, .acme]
  | .audit => [.preflight, .acme, .x509]
  | .rollback => [.preflight, .acme, .x509, .audit]
  | .oci => [.preflight, .acme, .x509, .audit, .rollback]

/-- No failure of the batch is of a kind looked for before the leading one. -/
theorem not_earlier (hf : f ∈ errors) : ∀ kind ∈ earlier (leadKind errors), f.isOneOf kind.classes = false := by
  unfold leadKind
  split_ifs with h₁ h₂ h₃ h₄ h₅ <;>
    simp only [earlier, List.forall_mem_cons, List.not_mem_nil, FailureKind.classes, IsEmpty.forall_iff, implies_true, and_true]
  · exact isOneOf_of_any h₁ hf
  · exact ⟨isOneOf_of_any h₁ hf, isOneOf_of_any h₂ hf⟩
  · exact ⟨isOneOf_of_any h₁ hf, isOneOf_of_any h₂ hf, isOneOf_of_any h₃ hf⟩
  · exact ⟨isOneOf_of_any h₁ hf, isOneOf_of_any h₂ hf, isOneOf_of_any h₃ hf, isOneOf_of_any h₄ hf⟩
  · exact ⟨isOneOf_of_any h₁ hf, isOneOf_of_any h₂ hf, isOneOf_of_any h₃ hf, isOneOf_of_any h₄ hf, isOneOf_of_any h₅ hf⟩

/-- `main` reports a failure that is no `PublisherError` as the batch does, where it is of the leading kind and not shadowed. -/
theorem mainExitCode_lead (hf : f ∈ errors) (hpublisher : f.isOneOf [.publisherError] = false) :
    mainExitCode f = some (leadKind errors).exitCode ↔
      f.isOneOf (leadKind errors).classes = true ∧ f.isOneOf (leadKind errors).shadows = false := by
  have hearlier := not_earlier hf
  have hempty : f.isOneOf [] = false := rfl
  unfold mainExitCode
  generalize leadKind errors = kind at hearlier
  cases kind <;> simp only [earlier, List.forall_mem_cons, List.not_mem_nil, FailureKind.classes, IsEmpty.forall_iff, implies_true,
    and_true] at hearlier <;>
    simp only [FailureKind.exitCode, FailureKind.classes, FailureKind.shadows, hempty, hpublisher, hearlier] <;>
    grind

/-- A plain failure of some kind is no `PublisherError`, and of no class that shadows the kind. -/
theorem Plain.kind (h : f.Plain) {kind : FailureKind} (hkind : f.isOneOf kind.classes = true) :
    f.isOneOf [.publisherError] = false ∧ f.isOneOf kind.shadows = false := by
  obtain ⟨c, hc, hinstance, -⟩ := h
  have hof : ∀ cs, f.isOneOf cs = cs.any c.mro.contains := fun cs => congrArg cs.any (funext hinstance)
  have hcases : ∀ c ∈ renewableCertificateFailures, kind.classes.any c.mro.contains = true →
      [ExcClass.publisherError].any c.mro.contains = false ∧ kind.shadows.any c.mro.contains = false := by
    cases kind <;> decide
  rw [hof] at hkind
  rw [hof, hof]
  exact hcases c hc hkind

theorem Plain.declared (h : f.Plain) : f.isOneOf renewableCertificateFailures = true := by
  obtain ⟨c, hc, hinstance, -⟩ := h
  refine List.any_eq_true.2 ⟨c, hc, (hinstance c).trans ?_⟩
  cases c <;> rfl

/-- A plain `PublisherError` has the code of an invalid configuration. -/
theorem Plain.code (h : f.Plain) : f.code = .configurationInvalid := by
  obtain ⟨c, hc, -, hcode⟩ := h
  have hall : ∀ c ∈ renewableCertificateFailures, c.code = .configurationInvalid := by decide
  rw [hcode, hall c hc]

/-- The batch has a failure of the leading kind, where some failure is no `ConfigurationError`. -/
theorem exists_lead (hf : f ∈ errors) (hdeclared : f.isOneOf renewableCertificateFailures = true)
    (hconfiguration : f.isInstance .configurationError = false) : ∃ g ∈ errors, g.isOneOf (leadKind errors).classes = true := by
  rcases declared_cases hdeclared with hc | ⟨kind, hkind⟩
  · rw [hconfiguration] at hc
    cases hc
  · have hnot := not_earlier hf kind
    rw [hkind] at hnot
    revert hnot
    unfold leadKind
    split_ifs with h₁ h₂ h₃ h₄ h₅ <;> intro hnot
    · exact List.any_eq_true.1 h₁
    · exact List.any_eq_true.1 h₂
    · exact List.any_eq_true.1 h₃
    · exact List.any_eq_true.1 h₄
    · exact List.any_eq_true.1 h₅
    · -- the kinds before `oci` are all the others
      refine ⟨f, hf, ?_⟩
      cases kind <;> first | exact hkind | exact absurd (hnot (by decide)) (by decide)

/-- `main` has another code for a `ConfigurationError` than the batch for any kind. -/
theorem plain_publisher (h : f.Plain) (kind : FailureKind) : f.code ≠ kind.exitCode := by
  rw [Plain.code h]
  cases kind <;> decide

theorem leadReported_plain (hplain : ∀ f ∈ errors, f.Plain) :
    LeadReported errors ↔ ∃ f ∈ errors, f.isInstance .configurationError = false := by
  constructor
  · rintro ⟨f, hf, h⟩
    split_ifs at h with hpublisher
    · exact absurd h (plain_publisher (hplain f hf) _)
    · refine ⟨f, hf, Bool.eq_false_iff.2 fun hconfiguration => hpublisher ?_⟩
      exact List.any_eq_true.2 ⟨_, List.mem_singleton_self _, f.inherits rfl hconfiguration⟩
  · rintro ⟨f, hf, hconfiguration⟩
    obtain ⟨g, hg, hlead⟩ := exists_lead hf (Plain.declared (hplain f hf)) hconfiguration
    obtain ⟨hpublisher, hshadows⟩ := Plain.kind (hplain g hg) hlead
    refine ⟨g, hg, ?_⟩
    rw [hpublisher]
    exact ⟨hlead, hshadows⟩

theorem reported_iff (errors : List RaisedError) :
    (∃ f ∈ errors, mainExitCode f = some (renewalExitCode errors)) ↔ LeadReported errors := by
  refine exists_congr fun f => and_congr_right fun hf => ?_
  rw [renewalExitCode_lead]
  split_ifs with hpublisher
  · rw [mainExitCode, if_pos hpublisher, Option.some_inj]
  · exact mainExitCode_lead hf (Bool.eq_false_iff.2 hpublisher)

/-! ## The failures of a timer run -/

theorem yields_subst {S B : Signature} {X α : Type} {σ : (op : B.Op) → Program S X (B.Reply op)} {φ : α → Prop}
    {p : Program B X α} (hp : p.Yields φ) : (p.subst σ).Yields φ := by
  induction p with
  | ret a => exact hp
  | raise | diverge => trivial
  | call op k ih => exact Program.yields_last _ fun r => ih r (hp r)

/-- The failures that were collected are declared ones. -/
def AllDeclared (result : RenewalBatchResult) : Prop :=
  ∀ failure ∈ result.failures, failure.error.isOneOf renewableCertificateFailures = true

variable {config : AppConfig} {certificate : CertificateConfig} {result : RenewalBatchResult}

theorem yields_keepFailure (h : AllDeclared result) (x : Exc) : (keepFailure certificate x result).Yields AllDeclared := by
  unfold keepFailure
  split_ifs with hx
  · refine Program.yields_last _ fun _ => ?_
    intro failure hmem
    rcases List.mem_append.1 hmem with hmem | hmem
    · exact h failure hmem
    · rw [List.mem_singleton.1 hmem]
      exact hx
  · trivial

theorem yields_attemptSet (h : AllDeclared result) : (attemptSet certificate result).Yields AllDeclared := by
  refine Program.yields_last _ fun outcome => ?_
  cases outcome with
  | error x => exact yields_keepFailure h x
  | ok publication =>
    refine Program.yields_last _ fun notified => ?_
    cases notified with
    | error x =>
      have hpublished : AllDeclared { result with publications := result.publications ++ [publication] } := h
      exact yields_keepFailure hpublished x
    | ok => exact h

theorem yields_renewSets (certificates : List CertificateConfig) (h : AllDeclared result) :
    (renewSets config certificates result).Yields AllDeclared := by
  induction certificates generalizing result with
  | nil => exact h
  | cons certificate rest ih =>
    exact Program.yields_last _ fun _ => Program.yields_bind (yields_attemptSet h) fun _ => ih

/-- A declared failure raised by the publisher itself is plain. -/
theorem raised_plain {x : Exc} (h : x.isOneOf renewableCertificateFailures = true) : x.raised.Plain := by
  refine ⟨x.cls, ?_, fun _ => rfl, rfl⟩
  have hmem : ∀ c : ExcClass, renewableCertificateFailures.any c.mro.contains = true → c ∈ renewableCertificateFailures := by
    intro c hc
    cases c <;> first | decide | exact absurd hc (by decide)
  exact hmem x.cls h

end ExitCodesAux

open ExitCodesAux

/-- A batch has the exit code `main` gives one of its failures exactly where a failure of its leading kind is reported as such; where
every failure derives from one declared class, that is where some failure is no `ConfigurationError`. -/
theorem renewal_exit_code_iff (errors : List RaisedError) :
    ((∃ f ∈ errors, mainExitCode f = some (renewalExitCode errors)) ↔ LeadReported errors) ∧
      ((∀ f ∈ errors, f.Plain) → (LeadReported errors ↔ ∃ f ∈ errors, f.isInstance .configurationError = false)) :=
  ⟨reported_iff errors, leadReported_plain⟩

theorem renewal_exit_code_iff_sample :
    LeadReported [(Exc.of .configurationError "x").raised, (Exc.of .preflightError "y").raised] ↔
      ∃ f ∈ [(Exc.of .configurationError "x").raised, (Exc.of .preflightError "y").raised], f.isInstance .configurationError = false :=
  (renewal_exit_code_iff _).2 (List.forall_mem_cons.2 ⟨raised_plain rfl, List.forall_mem_singleton.2 (raised_plain rfl)⟩)

/-- A batch of one `ConfigurationError` has the code of a failed import, the command for that set the code of an invalid
configuration. -/
theorem renewal_exit_code_false : ¬∀ errors : List RaisedError, errors ≠ [] →
    (∀ f ∈ errors, f.isOneOf renewableCertificateFailures = true) →
      ∃ f ∈ errors, mainExitCode f = some (renewalExitCode errors) := by
  intro h
  obtain ⟨f, hf, hcode⟩ := h [(Exc.of .configurationError "x").raised] (List.cons_ne_nil _ _) (List.forall_mem_singleton.2 rfl)
  rw [List.mem_singleton.1 hf] at hcode
  cases hcode

/-- What the timer run ends with: the status of a batch is the code of one of its failures unless all of them are configuration
errors. -/
theorem renewStatus_iff {W : Type} {env : Env publisher Exc W} {Γ : Ctx} {config : AppConfig} {passes : Nat} {w w' : W}
    {result : RenewalBatchResult} (h : Exec env (renewAll Γ config passes) w (.returned result) w') (hne : result.failures ≠ []) :
    (∃ failure ∈ result.failures, mainExitCode failure.error.raised = some (renewStatus result)) ↔
      ∃ failure ∈ result.failures, failure.error.isInstance .configurationError = false := by
  have hdeclared : AllDeclared result :=
    Exec.yields (yields_subst (yields_renewSets config.certificates fun _ hmem => absurd hmem List.not_mem_nil)) h rfl
  have hplain : ∀ f ∈ result.failures.map (·.error.raised), f.Plain :=
    List.forall_mem_map.2 fun failure hmem => raised_plain (hdeclared failure hmem)
  have hiff := (reported_iff _).trans (leadReported_plain hplain)
  rw [renewStatus, if_neg hne]
  simp only [List.mem_map, exists_exists_and_eq_and] at hiff
  exact hiff

end OciAcmePublisher
