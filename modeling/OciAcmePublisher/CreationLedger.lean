import OciAcmePublisher.Effects.Chronicle
import OciAcmePublisher.Lemmas.AuditService
import OciAcmePublisher.OciService
import OciAcmePublisher.PublicationService

/-!
# The OCI certificates created for a set

Bootstrap calls and timer runs one after the other, with the OCI certificates they create for one set, and what makes them go as they
should: an OCI certificate that was created is recorded in the row of its operation, where the next bootstrap finds it.
-/

namespace OciAcmePublisher

open Effects Tables

/-- The operation asks OCI to create a certificate. -/
def Op.creates : Op → Bool
  | .createImportedCertificate .. => true
  | _ => false

/-- The OCID of a mutation that created an OCI certificate. -/
def Mutation.createdOcid : Mutation → Option String
  | .created ocid => some ocid
  | _ => none

namespace World

/-- The OCI certificates that were created, in order. -/
def creations (w : World) : List String := w.mutations.filterMap Mutation.createdOcid

/-- The set whose operation was started last. -/
def lastStarted (w : World) : Option String := w.database.operations.rows.getLast?.map (·.certificateId)

end World

namespace OneCreation

/-- A bootstrap call or a timer run, on a configuration. -/
inductive Invocation where
  | bootstrap (config : AppConfig) (certificateId : String)
  | renewAll (config : AppConfig) (passes : Nat)

def Invocation.config : Invocation → AppConfig
  | .bootstrap config _ => config
  | .renewAll config _ => config

/-- `bootstrap` is called for the set. -/
def Invocation.bootstraps (certificateId : String) : Invocation → Bool
  | .bootstrap _ id => id = certificateId
  | .renewAll .. => false

/-- The program of a call, without its result. -/
def Invocation.run (Γ : Ctx) : Invocation → Action Unit
  | .bootstrap config certificateId => (PublicationService.bootstrap Γ config certificateId).bind fun _ => .ret ()
  | .renewAll config passes => (PublicationService.renewAll Γ config passes).bind fun _ => .ret ()

/-- A world, and the OCI certificates created for one set. -/
structure Ledger where
  world : World
  created : List String := []

/-- What is created is entered where the operation that was started last is of the set. -/
def entering (certificateId : String) (env : Env publisher Exc World) : Env publisher Exc Ledger := fun l op answer l' =>
  env l.world op answer l'.world ∧
    l'.created = l.created ++
      if l.world.lastStarted = some certificateId then l'.world.creations.drop l.world.creations.length else []

/-- A creation for the set that is reported as an error has not taken effect. -/
def truthful (certificateId : String) (env : Env publisher Exc Ledger) : Env publisher Exc Ledger := fun l op answer l' =>
  env l op answer l' ∧
    (op.creates = true → l.world.lastStarted = some certificateId → ∀ x, answer = .error x → l'.world = l.world)

/-- What was performed, each with the ledger before it. -/
abbrev Performed := Chronicle publisher Exc Ledger

/-- The exception an operation raised. -/
def raisedBy (e : Event publisher Exc) : Option Exc :=
  match e.answer with
  | .error x => some x
  | .ok _ => none

/-- The CURRENT bundle that was read. -/
def readBundle : Event publisher Exc → Option OciPublicBundle
  | ⟨.getPublicBundle _ none _, .ok bundle⟩ => some bundle
  | _ => none

/-- The instant that was read. -/
def readClock : Event publisher Exc → Option Instant
  | ⟨.now, .ok now⟩ => some now
  | _ => none

/-- The generation that was loaded for the set. -/
def loadedLineage (certificateId : String) : Event publisher Exc → Option LineageMaterial
  | ⟨.loadLineage id, .ok material⟩ => if id = certificateId then some material else none
  | _ => none

/-- The exceptions after which `bootstrap` closes its operation. -/
def creationFailures : List ExcClass := [.ociCertificateError, .certificateValidationError, .publicationServiceError]

/-- An OCI certificate was created for the set, and its OCID answered. -/
def Created (certificateId : String) (x : Ledger × Event publisher Exc) : Prop :=
  x.1.world.lastStarted = some certificateId ∧ x.2.op.creates = true ∧ raisedBy x.2 = none

/-- What follows a creation: the clock and the record of the OCID are answered, CURRENT can be read, and holds the local leaf. -/
structure Followed (Γ : Ctx) (config : AppConfig) (certificateId F : String) (t : Trace) : Prop where
  recorded : ∀ e ∈ t.take 2, raisedBy e = none
  read : ∀ x ∈ t[2]?.bind raisedBy, x.isOneOf creationFailures = false
  current : ∀ bundle ∈ t[2]?.bind readBundle, ∀ now ∈ t[3]?.bind readClock,
    ∀ certificate ∈ (configuredCertificate config certificateId).toOption,
      validatePublicCertificate Γ bundle.certificatePem certificate config.global now = .ok F

/-- A call as it should go, as far as it went: the local leaf is the one with the fingerprint `F`, no completed operation of the set
bears an OCID when `bootstrap` is called for it, and a creation for the set is followed as it should be. -/
structure Invocation.Sound (Γ : Ctx) (certificateId F : String) (s : Invocation) (es : Performed) : Prop where
  lineage : ∀ x ∈ es, ∀ material ∈ loadedLineage certificateId x.2, certificateSha256 material.leaf = F
  due : ∀ x ∈ es.head?, s.bootstraps certificateId = true → x.1.world.database.confirmedRows certificateId = []
  followed : ∀ n < es.length, ∀ x ∈ es[n]?, Created certificateId x →
    Followed Γ s.config certificateId F ((es.drop (n + 1)).map (·.2))

/-- The call was not cut between a creation for the set and its record. -/
def Settled (certificateId : String) (es : Performed) : Prop :=
  ∀ n < es.length, ∀ x ∈ es[n]?, Created certificateId x → n + 2 < es.length

section Decidable

variable {Γ : Ctx} {config : AppConfig} {certificateId F : String}

instance {x : Ledger × Event publisher Exc} : Decidable (Created certificateId x) := inferInstanceAs (Decidable (_ ∧ _ ∧ _))

instance {t : Trace} : Decidable (Followed Γ config certificateId F t) :=
  decidable_of_iff ((∀ e ∈ t.take 2, raisedBy e = none) ∧
      (∀ x ∈ t[2]?.bind raisedBy, x.isOneOf creationFailures = false) ∧
        ∀ bundle ∈ t[2]?.bind readBundle, ∀ now ∈ t[3]?.bind readClock,
          ∀ certificate ∈ (configuredCertificate config certificateId).toOption,
            validatePublicCertificate Γ bundle.certificatePem certificate config.global now = .ok F)
    ⟨fun h => ⟨h.1, h.2.1, h.2.2⟩, fun h => ⟨h.recorded, h.read, h.current⟩⟩

instance {s : Invocation} {es : Performed} : Decidable (s.Sound Γ certificateId F es) :=
  decidable_of_iff ((∀ x ∈ es, ∀ material ∈ loadedLineage certificateId x.2, certificateSha256 material.leaf = F) ∧
      (∀ x ∈ es.head?, s.bootstraps certificateId = true → x.1.world.database.confirmedRows certificateId = []) ∧
        ∀ n < es.length, ∀ x ∈ es[n]?, Created certificateId x →
          Followed Γ s.config certificateId F ((es.drop (n + 1)).map (·.2)))
    ⟨fun h => ⟨h.1, h.2.1, h.2.2⟩, fun h => ⟨h.lineage, h.due, h.followed⟩⟩

instance {es : Performed} : Decidable (Settled certificateId es) :=
  inferInstanceAs (Decidable (∀ n < es.length, ∀ x ∈ es[n]?, Created certificateId x → n + 2 < es.length))

end Decidable

end OneCreation

end OciAcmePublisher
