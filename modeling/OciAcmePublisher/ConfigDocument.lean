import OciAcmePublisher.ConfigLoader

/-!
# The document of a configuration

`AppConfig.model_validate` of a parsed document: the models of the service settings, each with its bounds and its validators, and the
certificates. Fields that no modelled function reads are checked and not kept.
-/

namespace OciAcmePublisher

namespace Yaml

/-- `Literal[..]` of texts. -/
def oneOf (texts : List String) (value : Yaml) : Option String :=
  match value.text with
  | some text => if text ∈ texts then some text else none
  | none => none

/-- `Literal[True]`. -/
def isTrue (value : Yaml) : Option Unit :=
  match value.flag with
  | some true => some ()
  | _ => none

/-- `yaml_environment`. -/
def environment (value : Yaml) : Option Environment :=
  match value.text with
  | some "production" => some .production
  | some "staging" => some .staging
  | _ => none

/-- `GlobalConfig`. -/
def globalConfig (value : Yaml) : Option GlobalConfig := do
  let fields ← value.fields ["environment", "state_dir", "log_level", "json_logging", "max_parallel_certificates",
    "clock_skew_tolerance_seconds"]
  let environment ← required fields "environment" environment
  let stateDir ← required fields "state_dir" absolutePath
  let _ ← defaulted fields "log_level" "INFO" (oneOf ["DEBUG", "INFO", "WARNING", "ERROR"])
  let _ ← defaulted fields "json_logging" true flag
  let _ ← defaulted fields "max_parallel_certificates" 1 (between 1 16)
  let clockSkewToleranceSeconds ← defaulted fields "clock_skew_tolerance_seconds" 300 (between 0 3600)
  some { environment, stateDir, clockSkewToleranceSeconds }

/-- `live_evidence_paths`: a list of absolute paths. -/
def absolutePaths : Yaml → Option (List String)
  | .seq items => items.mapM absolutePath
  | _ => none

/-- `CompatibilityConfig`, with `verified_requires_retained_evidence`. -/
def compatibilityConfig (value : Yaml) : Option CompatibilityConfig := do
  let fields ← value.fields ["live_verified", "live_evidence_paths", "enforce_documented_subject_country",
    "require_complete_chain_to_root", "reject_mixed_algorithm_chain"]
  let liveVerified ← defaulted fields "live_verified" false flag
  let liveEvidencePaths ← defaulted fields "live_evidence_paths" [] absolutePaths
  let enforceDocumentedSubjectCountry ← defaulted fields "enforce_documented_subject_country" true flag
  let _ ← defaulted fields "require_complete_chain_to_root" true flag
  let rejectMixedAlgorithmChain ← defaulted fields "reject_mixed_algorithm_chain" true flag
  if liveVerified = false ∧ liveEvidencePaths ≠ [] then none
  else if ¬liveEvidencePaths.Nodup then none
  else some { liveVerified, liveEvidencePaths, enforceDocumentedSubjectCountry, rejectMixedAlgorithmChain }

/-- `email_is_present`. -/
def email (value : Yaml) : Option String :=
  match value.text with
  | some text => if text = "" ∨ '@' ∉ text.toList ∨ text.toList.any isSpace then none else some text
  | none => none

/-- `directory_is_https`. -/
def httpsUrl (value : Yaml) : Option String :=
  match value.text with
  | some text => if startsWith text "https://" then some text else none
  | none => none

/-- `AcmeConfig`. -/
def acmeConfig (value : Yaml) : Option AcmeConfig := do
  let fields ← value.fields ["email", "agree_to_terms", "directory_url", "account_key_path", "certificates_dir",
    "operation_timeout_seconds", "renew_before_days", "rotate_private_key_on_renewal", "preferred_profile"]
  let email ← required fields "email" email
  let agreeToTerms ← required fields "agree_to_terms" flag
  let directoryUrl ← required fields "directory_url" httpsUrl
  let accountKeyPath ← required fields "account_key_path" absolutePath
  let certificatesDir ← required fields "certificates_dir" absolutePath
  let operationTimeoutSeconds ← defaulted fields "operation_timeout_seconds" 1800 (between 30 7200)
  let renewBeforeDays ← defaulted fields "renew_before_days" 30 (between 1 90)
  let rotatePrivateKeyOnRenewal ← defaulted fields "rotate_private_key_on_renewal" true flag
  let preferredProfile ← defaulted fields "preferred_profile" none (nullable (oneOf ["shortlived"]))
  some {
    email, agreeToTerms, directoryUrl, accountKeyPath, certificatesDir, operationTimeoutSeconds, renewBeforeDays,
    rotatePrivateKeyOnRenewal, preferredProfile }

/-- `ResponderConfig`. -/
def responderConfig (value : Yaml) : Option ResponderConfig := do
  let fields ← value.fields ["bind_address", "bind_port", "health_path", "readiness_path", "max_request_body_bytes",
    "max_challenge_file_bytes", "max_concurrent_requests", "request_timeout_seconds", "keepalive_timeout_seconds", "backlog"]
  let bindAddress ← required fields "bind_address" text
  let bindPort ← required fields "bind_port" (between 1 65535)
  let _ ← defaulted fields "health_path" "/healthz" (oneOf ["/healthz"])
  let _ ← defaulted fields "readiness_path" "/readyz" (oneOf ["/readyz"])
  let _ ← defaulted fields "max_request_body_bytes" 1024 (between 0 1024)
  let maxChallengeFileBytes ← defaulted fields "max_challenge_file_bytes" 4096 (between 1 4096)
  let _ ← defaulted fields "max_concurrent_requests" 128 (between 1 1024)
  let _ ← defaulted fields "request_timeout_seconds" 5 (between 1 60)
  let _ ← defaulted fields "keepalive_timeout_seconds" 5 (between 1 60)
  let _ ← defaulted fields "backlog" 128 (between 1 1024)
  if h : 0 < maxChallengeFileBytes ∧ maxChallengeFileBytes ≤ 4096 then
    some {
      bindAddress, bindPort, maxChallengeFileBytes, maxChallengeFileBytes_pos := h.1, maxChallengeFileBytes_le := h.2 }
  else none

/-- `SelfCheckConfig`. -/
def selfCheckConfig (value : Yaml) : Option Unit := do
  let fields ← value.fields ["enabled", "require_all_domains", "require_all_addresses", "allow_redirects",
    "reject_non_global_addresses", "connect_timeout_seconds", "response_timeout_seconds", "total_timeout_seconds"]
  let _ ← defaulted fields "enabled" true flag
  let _ ← defaulted fields "require_all_domains" true flag
  let _ ← defaulted fields "require_all_addresses" true flag
  let _ ← defaulted fields "allow_redirects" false flag
  let _ ← defaulted fields "reject_non_global_addresses" true flag
  let _ ← defaulted fields "connect_timeout_seconds" 3 (between 1 60)
  let _ ← defaulted fields "response_timeout_seconds" 5 (between 1 60)
  let _ ← defaulted fields "total_timeout_seconds" 90 (between 1 600)
  some ()

/-- `Http01Config`. -/
def http01Config (value : Yaml) : Option Http01Config := do
  let fields ← value.fields ["webroot_base", "responder", "self_check"]
  let webrootBase ← required fields "webroot_base" absolutePath
  let responder ← required fields "responder" responderConfig
  let _ ← required fields "self_check" selfCheckConfig
  some { webrootBase, responder }

/-- `OciConfig`. -/
def ociConfig (value : Yaml) : Option OciConfig := do
  let fields ← value.fields ["authentication", "connect_timeout_seconds", "read_timeout_seconds", "max_read_attempts",
    "mutation_reconciliation_attempts", "operation_timeout_seconds", "use_etag"]
  let _ ← required fields "authentication" (oneOf ["instance_principal"])
  let _ ← defaulted fields "connect_timeout_seconds" 10 (between 1 60)
  let _ ← defaulted fields "read_timeout_seconds" 60 (between 1 300)
  let maxReadAttempts ← defaulted fields "max_read_attempts" 5 (between 1 30)
  let mutationReconciliationAttempts ← defaulted fields "mutation_reconciliation_attempts" 5 (between 1 10)
  let _ ← defaulted fields "operation_timeout_seconds" 1200 (between 30 3600)
  let _ ← defaulted fields "use_etag" () isTrue
  if h : 0 < maxReadAttempts ∧ 0 < mutationReconciliationAttempts then
    some { maxReadAttempts, mutationReconciliationAttempts, maxReadAttempts_pos := h.1, mutationReconciliationAttempts_pos := h.2 }
  else none

/-- `NotificationsConfig`, with `enabled_notifier_requires_credential_and_allowlist`. -/
def notificationsConfig (value : Yaml) : Option NotificationsConfig := do
  let fields ← value.fields ["enabled", "provider", "credential_ref", "allowed_hosts", "minimum_repeat_interval_minutes",
    "connect_timeout_seconds", "total_timeout_seconds"]
  let enabled ← defaulted fields "enabled" false flag
  let provider ← defaulted fields "provider" "slack" (oneOf ["slack", "webhook"])
  let credentialRef ← defaulted fields "credential_ref" none (nullable text)
  let allowedHosts ← defaulted fields "allowed_hosts" [] texts
  let minimumRepeatIntervalMinutes ← defaulted fields "minimum_repeat_interval_minutes" 60 (between 1 1440)
  let _ ← defaulted fields "connect_timeout_seconds" 5 (between 1 60)
  let _ ← defaulted fields "total_timeout_seconds" 10 (between 1 120)
  if enabled = true ∧ (credentialRef.all (fun reference => !startsWith reference "systemd-credential:") ∨ allowedHosts = []) then none
  else some { enabled, provider, credentialRef, allowedHosts, minimumRepeatIntervalMinutes }

/-- `MetricsTextfileConfig`. -/
def metricsTextfileConfig (value : Yaml) : Option Unit := do
  let fields ← value.fields ["enabled", "path"]
  let _ ← defaulted fields "enabled" false flag
  let _ ← defaulted fields "path" "/var/lib/oci-acme-publisher/metrics/oci_acme.prom" absolutePath
  some ()

/-- `MonitoringConfig`, with `thresholds_are_ordered`. -/
def monitoringConfig (value : Yaml) : Option MonitoringConfig := do
  let fields ← value.fields ["warning_days", "critical_days", "metrics_textfile"]
  let warningDays ← defaulted fields "warning_days" 20 (between 1 3650)
  let criticalDays ← defaulted fields "critical_days" 7 (between 0 3650)
  let _ ← defaulted fields "metrics_textfile" () metricsTextfileConfig
  if warningDays < criticalDays then none else some { warningDays, criticalDays }

/-- `certificate_list_is_immutable`. -/
def certificates (Γ : Ctx) : Yaml → Option (List CertificateConfig)
  | .seq items => items.mapM (certificateConfig Γ)
  | _ => none

/-- `Literal[4]`. -/
def schemaVersion : Yaml → Option Unit
  | .int 4 => some ()
  | _ => none

/-- `AppConfig`, with `cross_field_invariants`. -/
def appConfig (Γ : Ctx) (value : Yaml) : Option AppConfig := do
  let fields ← value.fields ["schema_version", "global", "compatibility", "acme", "http01", "oci", "notifications", "monitoring",
    "certificates"]
  let _ ← required fields "schema_version" schemaVersion
  let global ← required fields "global" globalConfig
  let compatibility ← required fields "compatibility" compatibilityConfig
  let acme ← required fields "acme" acmeConfig
  let http01 ← required fields "http01" http01Config
  let oci ← required fields "oci" ociConfig
  let notifications ← defaulted fields "notifications" {} notificationsConfig
  let monitoring ← defaulted fields "monitoring" {} monitoringConfig
  let certificates ← required fields "certificates" (certificates Γ)
  let config : AppConfig := { global, compatibility, acme, http01, oci, notifications, monitoring, certificates }
  match config.crossFieldInvariants with
  | .ok () => some config
  | .error _ => none

end Yaml

end OciAcmePublisher
