import OciAcmePublisher.Lemmas.Adapters
import OciAcmePublisher.Reconciler
import OciAcmePublisher.SdkSimulation

/-!
# The adapters refine the ports

Every program of the publisher, over the adapters, does only what it may do where each operation is one step of the service: the
retries, the pages and the shapes of the responses show in no run.
-/

namespace OciAcmePublisher

open Effects OciAdapters

/-- A run over the adapters is a run over the ports. The requests may fail before or after their effect, and reads are
repeated; the service may fail with what the requests, the pauses and the adapters raise. -/
theorem adapters_refine_ports {α : Type} {Γ : Ctx} {faults : Faults} {sdkFaults : SdkFaults} {paging : (r : Resource) → Paging r}
    {oci : OciConfig} {passes : Nat} {p : Action α} {w w' : World} {o : Outcome Exc α}
    (h : Exec (sdkService Γ faults sdkFaults paging) (p.subst (implement oci passes)) w o w') :
    Exec (service Γ (adapterFaults faults sdkFaults)) p w o w' :=
  h.refined fun w₀ op => OciAdapters.implements op w₀

namespace AdaptersSample

open Sample

/-- The publication of the sample material, which uploads and promotes. -/
def publication : Action PublicationResult :=
  PublicationReconciler.publish ctx (config certificate) certificate material chain (certificateSha256 (leaf 2)) (days 1) .publish

/-- The publication over the adapters, where every listing comes in two pages. -/
def adapted : Outcome Exc PublicationResult × World :=
  (publication.subst (implement (config certificate).oci 3)).runFor (simulateSdk ctx script) 500 (world resource)

/-- What a returned result says is CURRENT. -/
def currentOf : Outcome Exc PublicationResult → Option Int
  | .returned result => some result.currentVersionNumber
  | _ => none

end AdaptersSample

open Sample AdaptersSample in
/-- The publication over the adapters ends with the uploaded version CURRENT, as a run over the ports does. -/
theorem adapters_refine_ports_publication :
    currentOf adapted.1 = some 2 ∧ adapted.2.mutations = [.uploaded "ocid" 2, .promoted "ocid" 2] ∧
      Exec (service ctx (adapterFaults noFaults fun _ _ => False)) publication (world resource) adapted.1 adapted.2 :=
  ⟨by decide +kernel, by decide +kernel,
    adapters_refine_ports (exec_runFor (simulateSdk_allowed ctx script noFaults fun _ _ => False) _ _ _)⟩

end OciAcmePublisher
