import OciAcmePublisher.Lemmas.AuditService
import OciAcmePublisher.Theorems.RowLifecycle

/-!
# What a recorded audit rests on

The time of the last successful audit is set, and stale audits are closed, by two statements. Before either of them the run has read
CURRENT and has seen its leaf at every configured endpoint, unless the audit of the certificate is switched off: then it succeeds at
once and is recorded as well.
-/

namespace OciAcmePublisher

open Effects Tables

/-- The run has read CURRENT of the configured OCI certificate, and its endpoints presented the leaf. -/
def Observed (Γ : Ctx) (config : AppConfig) (certificate : CertificateConfig) (t : Trace) : Prop :=
  ∃ ocid requestId bundle now f, certificate.oci.certificateOcid = some ocid ∧
    (⟨.getPublicBundle ocid none requestId, .ok bundle⟩ : Event publisher Exc) ∈ t ∧
      validatePublicCertificate Γ bundle.certificatePem certificate config.global now = .ok f ∧
        ∀ endpoint ∈ certificate.audit.endpoints, Seen certificate.audit endpoint f t

/-- The audit of the certificate is switched off, or the run has observed it. -/
def Backed (Γ : Ctx) (config : AppConfig) (id : String) (t : Trace) : Prop :=
  ∃ certificate, configuredCertificate config id = .ok certificate ∧
    (certificate.audit.mode = .disabled ∨ Observed Γ config certificate t)

namespace AuditEvidenceAux

variable {Γ : Ctx} {config : AppConfig} {certificate : CertificateConfig} {material : LineageMaterial}
  {chain : OciCertificateChain} {faults : Faults} {α : Type} {operationId : String} {passes : Nat}

theorem yields_auditService : (PublicationService.auditService config certificate).Yields (· = certificate.audit) := by
  unfold PublicationService.auditService
  split
  · exact Program.yields_last _ fun _ => rfl
  · rfl

end AuditEvidenceAux

open AuditEvidenceAux

namespace AuditEvidenceAux

open Sample

/-- An audit of the sample certificate with one endpoint, in the given mode. -/
def sampleAudit (mode : AuditMode) : ServiceRun :=
  ⟨config { certificate with audit := { mode := mode, endpoints := endpoints } }, "web", 1, .audit⟩

/-- The endpoint presents the leaf of CURRENT. -/
def sampleWorld : World := { world resource with network := presenting (certificateSha256 (leaf 1)) }

/-- The sample audit, with what it performs. -/
def auditRun (mode : AuditMode) : Outcome Exc Unit × World × Trace :=
  ((sampleAudit mode).run addressed).runFor (simulate addressed script).record 100
    (sampleWorld, [])

end AuditEvidenceAux

end OciAcmePublisher
