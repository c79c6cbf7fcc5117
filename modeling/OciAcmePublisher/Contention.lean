import OciAcmePublisher.Effects.Tags
import OciAcmePublisher.Persistence
import OciAcmePublisher.PublicationService

/-!
# An OCI certificate with another writer

The certificate as several writers see it: the certificate and each of its versions carry an ETag. Between any two calls of the
publisher another writer may change what it likes, each change renewing the ETags of the certificate and of the versions it touches.
OCI accepts a mutation only where its ETag is still the current one; an accepted mutation may be reported as an error. There is one
certificate; what OCI served is kept, with the state in which it served it.
-/

namespace OciAcmePublisher

open Effects Tables

/-- A version as the two OCI services show it, with its ETag. -/
structure TaggedVersion where
  record : OciCertificateVersion
  bundle : OciPublicBundle
  etag : String
  deriving DecidableEq, Repr

/-- The number of the version. -/
def TaggedVersion.number (v : TaggedVersion) : Int := v.record.versionNumber

/-- The certificate with its versions. -/
abbrev Contested := Tagged TaggedVersion Int String TaggedVersion.number TaggedVersion.etag

/-- A call that OCI served: in which state, whether it accepted a mutation, and what the state database held then. -/
structure Served where
  event : Event publisher Exc
  state : Contested
  accepted : Bool
  database : Database

/-- The state database, the certificate and what was served. -/
structure Arena where
  database : Database
  oci : Contested
  served : List Served := []

/-- How OCI serves a call. -/
def Contested.Serves (c : Contested) (op : Op) (answer : Except Exc op.Reply) (accepted : Bool) (c' : Contested) : Prop :=
  match op, answer with
  | .getCertificate .., .ok certificate => accepted = false ∧ c' = c ∧ certificate.etag = some c.whole
  | .listVersions .., .ok versions => accepted = false ∧ c' = c ∧ versions = c.table.rows.map (·.record)
  | .getVersion _ n _, .ok version =>
    accepted = false ∧ c' = c ∧ ∃ v ∈ c.table.rows, v.number = n ∧ version = { v.record with etag := some v.etag }
  | .getPublicBundle _ (some n) _, .ok bundle =>
    accepted = false ∧ c' = c ∧ ∃ v ∈ c.table.rows, v.number = n ∧ bundle = v.bundle
  | .getPublicBundle _ none _, .ok bundle =>
    accepted = false ∧ c' = c ∧ ∃ v ∈ c.table.rows, Stage.current ∈ v.record.stages ∧ bundle = v.bundle
  | .scheduleVersionDeletion _ n time etag _, answer =>
    (accepted = true ∧ (∃ v ∈ c.table.rows, v.number = n ∧ etag = some v.etag) ∧ Tagged.Moves c c' ∧
      ∀ v ∈ c'.table.rows, v.number = n → v.record.timeOfDeletion = some time) ∨
    (accepted = false ∧ c' = c ∧ ∃ x, answer = .error x)
  | .promoteCurrent _ n etag _, answer =>
    (accepted = true ∧ (∃ v ∈ c.table.rows, v.number = n) ∧ etag = some c.whole ∧ Tagged.Moves c c' ∧
      ∀ v ∈ c'.table.rows, v.number = n → Stage.current ∈ v.record.stages) ∨
    (accepted = false ∧ c' = c ∧ ∃ x, answer = .error x)
  | _, _ => accepted = false ∧ c' = c

/-- The environment: the state database is the publisher's alone, and the other writer acts before and after every call. -/
def contended (faults : Faults) : Env publisher Exc Arena := fun w op answer w' =>
  persisting faults w.database op answer w'.database ∧ ∃ c₁ c₂ accepted, Tagged.Moves w.oci c₁ ∧
    Contested.Serves c₁ op answer accepted c₂ ∧ Tagged.Moves c₂ w'.oci ∧
      w'.served = w.served ++ [⟨⟨op, answer⟩, c₁, accepted, w.database⟩]

/-- What changes an OCI certificate by its ETag alone: the retention, and the rollback. -/
inductive Contender where
  | retention (config : AppConfig) (certificateId : String)
  | rollback (config : AppConfig) (certificate : CertificateConfig) (now : Instant) (audit : Option AuditConfig)
    (passes : Nat)

/-- The program. -/
def Contender.run (Γ : Ctx) : Contender → Action Unit
  | .retention config certificateId => (PublicationService.retention config certificateId).bind fun _ => .ret ()
  | .rollback config certificate now audit passes =>
    (RollbackService.rollback Γ config certificate now audit passes).bind fun _ => .ret ()

/-- The predicate a version is selected by: for the retention it is DEPRECATED, unprotected, undeleted and unreferenced; for the
rollback it is PREVIOUS and undeleted. -/
def Contender.Selects (contender : Contender) (n : Int) (s : Served) : Prop :=
  match contender with
  | .retention _ certificateId =>
    (∃ v ∈ s.state.table.rows, v.number = n ∧ Stage.deprecated ∈ v.record.stages ∧
      (∀ stage ∈ protectedStages, stage ∉ v.record.stages) ∧ v.record.timeOfDeletion = none) ∧
    ∀ row ∈ s.database.operations.rows, row.certificateId = certificateId → row.active = true →
      row.ociVersionNumber ≠ some n
  | .rollback .. =>
    ∃ v ∈ s.state.table.rows, v.number = n ∧ Stage.previous ∈ v.record.stages ∧ v.record.timeOfDeletion = none

/-- The version a mutation of these is about. -/
def Op.target : Op → Option Int
  | .scheduleVersionDeletion _ n _ _ _ | .promoteCurrent _ n _ _ => some n
  | _ => none

/-- The ETag a mutation is sent with. -/
def Op.ifMatch : Op → Option String
  | .scheduleVersionDeletion _ _ _ etag _ | .promoteCurrent _ _ etag _ => etag
  | _ => none

/-- The call listed the versions. -/
def Served.lists (s : Served) : Bool :=
  match s.event with
  | ⟨.listVersions .., .ok _⟩ => true
  | _ => false

/-- The ETag a read was answered with. -/
def Served.etag (s : Served) : Option String :=
  match s.event with
  | ⟨.getCertificate .., .ok certificate⟩ => certificate.etag
  | ⟨.getVersion .., .ok version⟩ => version.etag
  | _ => none

end OciAcmePublisher
