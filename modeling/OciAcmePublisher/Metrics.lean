import Mathlib.Algebra.Order.Field.Rat
import Mathlib.Algebra.BigOperators.Group.List.Lemmas
import Mathlib.Data.List.Dedup
import OciAcmePublisher.ConfigValidation
import OciAcmePublisher.PublicationService

/-!
# Metrics

`collect_metrics`: the samples of a scrape, from the state database and from the days the public leaves are still valid for. A sample
without a value is not a number. `Metric.render`: the line of a sample.
-/

namespace OciAcmePublisher

/-- One already-sanitized Prometheus sample. -/
structure Metric where
  name : String
  value : Option Rat
  labels : List (String × String) := []
  deriving DecidableEq, Repr

/-! ## The line of a sample -/

/-- The characters of `str` of an `int` or a `float`. -/
def numberCharacters : List Char := "+-.0123456789aefin".toList

/-- What `str` makes of an `int` or a `float`. -/
abbrev NumberText := {text : String // text ≠ "" ∧ text.toList.all (· ∈ numberCharacters) = true}

/-- `text.replace(old, new)`, for an `old` of one character. -/
def replaceCharacter (text : String) (old : Char) (new : String) : String :=
  String.ofList (text.toList.flatMap fun c => if c = old then new.toList else [c])

/-- `_escape_label_value`. -/
def escapeLabelValue (value : String) : String :=
  replaceCharacter (replaceCharacter (replaceCharacter value '\\' "\\\\") '"' "\\\"") '\n' "\\n"

/-- The text of one label. -/
def renderLabel (label : String × String) : String := label.1 ++ "=\"" ++ escapeLabelValue label.2 ++ "\""

/-- `label_text`. -/
def labelText (labels : List (String × String)) : String :=
  if labels = [] then "" else "\x7b" ++ ",".intercalate (labels.map renderLabel) ++ "\x7d"

/-- `Metric.render`: a conservative Prometheus sample line. The text of the value is `str(self.value)`, which tells an `int` from a
`float`. -/
def Metric.render (str : Metric → NumberText) (self : Metric) : Except Exc String :=
  if startsWith self.name "oci_acme_" then .ok (self.name ++ labelText self.labels ++ " " ++ (str self).1 ++ "\n")
  else .error (.of .valueError "metric name must use the oci_acme_ namespace")

/-! ## What is read from the state store -/

/-- `operation_counts`: aggregate operation facts suitable for metrics, never operation payloads. -/
def Database.operationCounts (db : Database) (certificateId : String) : List (OperationType × OperationState × Nat) :=
  let groups := (db.operations.rows.filter (·.certificateId = certificateId)).map fun r => (r.operationType, r.state)
  groups.dedup.map fun group => (group.1, group.2, groups.countP fun g => decide (g = group))

/-- `known_oci_versions`: the distinct OCI version numbers observed by this publisher. -/
def Database.knownOciVersions (db : Database) (certificateId : String) : Nat :=
  ((db.operations.rows.filter (·.certificateId = certificateId)).filterMap (·.ociVersionNumber)).dedup.length

/-- `average_completed_operation_durations`, in seconds. -/
def Database.averageCompletedOperationDurations (db : Database) (certificateId : String) : List (OperationType × Rat) :=
  let completed := db.operations.rows.filter fun r => r.certificateId = certificateId && r.completedAt.isSome
  (completed.map (·.operationType)).dedup.map fun operationType =>
    let durations := (completed.filter (·.operationType = operationType)).filterMap fun r =>
      r.completedAt.map fun completedAt => ((completedAt - r.startedAt : Int) : Rat)
    (operationType, durations.sum / durations.length)

/-- `certificate_state`. -/
def Database.certificateState (db : Database) (certificateId : String) : Option CertificateState :=
  db.certificateStates.rows.find? (·.certificateId = certificateId)

/-! ## The samples -/

namespace Metrics

/-- `_FAILURE_STATES`. -/
def failureStates : List OperationState :=
  [.configFailed, .http01PreflightFailed, .acmeFailed, .localValidationFailed, .ociUploadFailed, .ociVersionFailed,
    .ociPromotionFailed, .auditFailed, .rollbackFailed, .manualInterventionRequired]

/-- `_timestamp`. -/
def timestamp (value : Option Timestamp) : Rat :=
  match value with
  | none => 0
  | some value => (value : Int)

/-- The dictionary `failures`, and `rollbacks`. -/
structure Tally where
  renewal : Nat := 0
  publication : Nat := 0
  audit : Nat := 0
  preflight : Nat := 0
  rollback : Nat := 0
  rollbacks : Nat := 0
  deriving DecidableEq, Repr

/-- One round of the loop over the operation counts. -/
def Tally.add (tally : Tally) : OperationType × OperationState × Nat → Tally
  | (operationType, state, count) =>
    let tally :=
      if operationType = .rollback ∧ state = .completed then { tally with rollbacks := tally.rollbacks + count } else tally
    if state ∉ failureStates then tally
    else
      let tally :=
        if state = .http01PreflightFailed then { tally with preflight := tally.preflight + count } else tally
      match operationType with
      | .renew => { tally with renewal := tally.renewal + count }
      | .bootstrap | .publish | .reconcile => { tally with publication := tally.publication + count }
      | .audit => { tally with audit := tally.audit + count }
      | .rollback => { tally with rollback := tally.rollback + count }

/-- The tally of a certificate. -/
def tally (db : Database) (certificateId : String) : Tally := (db.operationCounts certificateId).foldl Tally.add {}

/-- The samples of one certificate. -/
def certificateSamples (db : Database) (certificate : CertificateConfig) (daysRemaining : Option Rat) : List Metric :=
  let labels := [("certificate_id", certificate.id)]
  let state := db.certificateState certificate.id
  let failures := tally db certificate.id
  [⟨"oci_acme_certificate_days_remaining", daysRemaining, labels⟩,
    ⟨"oci_acme_last_renewal_success_timestamp", some (timestamp (state.bind (·.lastSuccessfulRenewalAt))), labels⟩,
    ⟨"oci_acme_last_publication_success_timestamp", some (timestamp (state.bind (·.lastSuccessfulPublicationAt))), labels⟩,
    ⟨"oci_acme_last_audit_success_timestamp", some (timestamp (state.bind (·.lastSuccessfulAuditAt))), labels⟩,
    ⟨"oci_acme_oci_versions", some (db.knownOciVersions certificate.id), labels⟩,
    ⟨"oci_acme_renewal_failures_total", some failures.renewal, labels⟩,
    ⟨"oci_acme_publication_failures_total", some failures.publication, labels⟩,
    ⟨"oci_acme_audit_failures_total", some failures.audit, labels⟩,
    ⟨"oci_acme_rollbacks_total", some failures.rollbacks, labels⟩,
    ⟨"oci_acme_http01_preflight_failures_total", some failures.preflight, labels⟩] ++
  (db.averageCompletedOperationDurations certificate.id).map fun (operationType, duration) =>
    ⟨"oci_acme_operation_duration_seconds", some duration, labels ++ [("operation", operationType.lowerName)]⟩

/-- `collect_metrics`: every required metric, from safe local state and public certificate metadata. -/
def collectMetrics (config : AppConfig) (db : Database) (daysRemaining : CertificateConfig → Option Rat) : List Metric :=
  ⟨"oci_acme_compatibility_gate", some (if config.compatibility.liveVerified then 1 else 0), []⟩ ::
    config.certificates.flatMap fun certificate => certificateSamples db certificate (daysRemaining certificate)

/-! ## What the tally counts -/

/-- The failure states of the operation types `types`. -/
def failed (certificateId : String) (types : OperationType → Bool) (r : OperationRow) : Bool :=
  r.certificateId = certificateId && types r.operationType && decide (r.state ∈ failureStates)

/-- The rows of these types in a failure state. -/
def failures (db : Database) (certificateId : String) (types : OperationType → Bool) : Nat :=
  db.operations.rows.countP (failed certificateId types)

/-- One of the three failure counters. -/
inductive Counter where
  | renewal | publication | audit
  deriving DecidableEq

/-- The operation types it counts. -/
def Counter.types : Counter → OperationType → Bool
  | .renewal, .renew => true
  | .publication, .bootstrap | .publication, .publish | .publication, .reconcile => true
  | .audit, .audit => true
  | _, _ => false

/-- The name of its sample. -/
def Counter.name : Counter → String
  | .renewal => "oci_acme_renewal_failures_total"
  | .publication => "oci_acme_publication_failures_total"
  | .audit => "oci_acme_audit_failures_total"

/-- Its entry in the tally. -/
def Counter.entry : Counter → Tally → Nat
  | .renewal, tally => tally.renewal
  | .publication, tally => tally.publication
  | .audit, tally => tally.audit

/-- One round adds the count of a failure state of its types. -/
theorem entry_add (c : Counter) (t : Tally) (operationType : OperationType) (state : OperationState) (count : Nat) :
    c.entry (t.add (operationType, state, count)) =
      c.entry t + if c.types operationType = true ∧ state ∈ failureStates then count else 0 := by
  by_cases hstate : state ∈ failureStates
  · have hne : state ≠ .completed := by
      intro heq
      rw [heq] at hstate
      exact absurd hstate (by decide)
    by_cases hpreflight : state = .http01PreflightFailed
    · cases c <;> cases operationType <;> simp [Tally.add, Counter.entry, Counter.types, hstate, hne, if_pos hpreflight]
    · cases c <;> cases operationType <;> simp [Tally.add, Counter.entry, Counter.types, hstate, hne, hpreflight]
  · have hadd : c.entry (t.add (operationType, state, count)) = c.entry t := by
      simp only [Tally.add, hstate, not_false_eq_true, if_true]
      split <;> cases c <;> rfl
    rw [hadd, if_neg fun h => hstate h.2, Nat.add_zero]

theorem entry_foldl (c : Counter) (counts : List (OperationType × OperationState × Nat)) (t : Tally) :
    c.entry (counts.foldl Tally.add t) = c.entry t +
      ((counts.filter fun x => c.types x.1 && decide (x.2.1 ∈ failureStates)).map (·.2.2)).sum := by
  induction counts generalizing t with
  | nil => rfl
  | cons x counts ih =>
    obtain ⟨operationType, state, count⟩ := x
    rw [List.foldl_cons, ih, entry_add, List.filter_cons]
    by_cases h : c.types operationType = true ∧ state ∈ failureStates
    · have htest : (c.types operationType && decide (state ∈ failureStates)) = true := by simp [h]
      rw [if_pos h, if_pos htest, List.map_cons, List.sum_cons, Nat.add_assoc]
    · have htest : ¬(c.types operationType && decide (state ∈ failureStates)) = true := by
        simpa using h
      rw [if_neg h, if_neg htest, Nat.add_zero]

/-- A failure counter counts the rows of its types in a failure state. -/
theorem entry_tally (c : Counter) (db : Database) (certificateId : String) :
    c.entry (tally db certificateId) = failures db certificateId c.types := by
  have hzero : c.entry {} = 0 := by cases c <;> rfl
  unfold tally
  rw [entry_foldl, hzero, Nat.zero_add]
  unfold Database.operationCounts failures
  simp only [List.filter_map, List.map_map, Function.comp_def]
  refine (List.sum_map_count_dedup_filter_eq_countP (fun g : OperationType × OperationState =>
    c.types g.1 && decide (g.2 ∈ failureStates)) _).trans ?_
  rw [List.countP_map, List.countP_filter]
  refine List.countP_congr fun r _ => ?_
  simp only [Function.comp, failed, Bool.and_eq_true, decide_eq_true_eq]
  tauto

end Metrics

end OciAcmePublisher
