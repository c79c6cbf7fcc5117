import OciAcmePublisher.SdkService
import OciAcmePublisher.Simulation

/-!
# An SDK that can be run

The requests of the adapters are answered from the world, so that a program can be run over the adapters. A listing comes in two
pages, of which the first is empty.
-/

namespace OciAcmePublisher

open Effects

/-- The name of a stage. -/
def Stage.name : Stage → String
  | .current => "CURRENT"
  | .pending => "PENDING"
  | .latest => "LATEST"
  | .previous => "PREVIOUS"
  | .deprecated => "DEPRECATED"
  | .pendingActivation => "PENDING_ACTIVATION"
  | .other name => name

/-- No unknown stage has the name of a known one. -/
def Named (stages : List Stage) : Prop := stages.map (fun stage => Stage.ofName stage.name) = stages

instance (stages : List Stage) : Decidable (Named stages) := inferInstanceAs (Decidable (_ = _))

/-- A version as an item of a page. -/
def itemOf (version : OciCertificateVersion) : SdkValue :=
  .object [
    ("version_number", .int version.versionNumber),
    ("version_name", version.versionName.elim .none .str),
    ("stages", .list ((version.stages.map Stage.name).map .str)),
    ("time_created", version.timeCreated.elim .none .datetime),
    ("time_of_deletion", version.timeOfDeletion.elim .none .datetime)]

theorem itemOf_spec {version : OciCertificateVersion} (hstages : Named version.stages) (hetag : version.etag = none) :
    ItemOf (itemOf version) version where
  number := rfl
  name := rfl
  stages := ⟨_, rfl, by rw [List.map_map]; exact hstages.symm⟩
  created := rfl
  deletion := rfl
  etag := hetag

/-- A bundle as the data of a response. -/
def bundleData (bundle : OciPublicBundle) : SdkValue :=
  .object [
    ("certificate_pem", .str bundle.certificatePem),
    ("cert_chain_pem", .str bundle.certChainPem),
    ("version_number", .int bundle.versionNumber),
    ("version_name", bundle.versionName.elim .none .str),
    ("stages", .list ((bundle.stages.map Stage.name).map .str))]

theorem bundleData_spec {bundle : OciPublicBundle} (hstages : Named bundle.stages) : BundleOf (bundleData bundle) bundle where
  certificatePem := rfl
  certChainPem := rfl
  number := rfl
  name := rfl
  stages := ⟨_, rfl, by rw [List.map_map]; exact hstages.symm⟩

/-- An empty page, and one with all versions. -/
def twoPages (r : Resource) : Paging r where
  first := []
  rest := [("2", r.versions.rows.map r.shown)]
  distinct := List.nodup_singleton _
  named := by simp
  listed := by simp

/-- The version an import makes. -/
def ImportingConfig.version (config : ImportingConfig) (number : Int) : Version where
  number := number
  certificatePem := config.certificatePem
  certChainPem := config.certChainPem
  name := some config.versionName
  stages := []
  timeCreated := none
  timeOfDeletion := none

namespace World

/-- The response to a request that takes effect and the world it leaves; none where it cannot take effect. -/
def answer (w : World) : SdkOp → Option (SdkResponse × World)
  | .getCertificate ocid _ => do
    let r ← w.certificates ocid
    return (⟨.object [("id", .str ocid), ("current_version", .object [("version_number", .int r.current)])], []⟩, w)
  | .listCertificateVersions ocid _ none => do
    let _ ← w.certificates ocid
    return (⟨.list [], [("opc-next-page", .str "2")]⟩, w)
  | .listCertificateVersions ocid _ (some token) => do
    let r ← w.certificates ocid
    if token = "2" ∧ ∀ v ∈ r.versions.rows, Named (r.shown v).stages then
      return (⟨.object [("items", .list ((r.versions.rows.map r.shown).map itemOf))], []⟩, w)
    else none
  | .getCertificateVersion ocid number _ => do
    let r ← w.certificates ocid
    let v ← r.versions.rows.find? (·.number = number)
    if Named (r.shown v).stages then return (⟨itemOf (r.shown v), []⟩, w) else none
  | .createCertificate name _ config _ =>
    if w.certificates (name ++ config.versionName) = none then
      some (⟨.object [("id", .str (name ++ config.versionName))], []⟩,
        w.mutate (name ++ config.versionName) (.created (config.version 1)) (.created (name ++ config.versionName)))
    else none
  | .updateCertificate ocid ⟨some config, none⟩ _ _ => do
    let r ← w.certificates ocid
    let r' ← r.upload (config.version (nextNumber r))
    if config.stage = some "PENDING" then return (⟨.none, []⟩, w.mutate ocid r' (.uploaded ocid (nextNumber r))) else none
  | .updateCertificate ocid ⟨none, some number⟩ _ _ => do
    let r ← w.certificates ocid
    let r' ← r.promote number
    return (⟨.none, []⟩, w.mutate ocid r' (.promoted ocid number))
  | .updateCertificate .. => none
  | .scheduleCertificateVersionDeletion ocid number time _ _ => do
    let r ← w.certificates ocid
    return (⟨.none, []⟩, w.mutate ocid (r.scheduleDeletion number time) (.deletionScheduled ocid number))
  | .getCertificateBundle ocid _ bundleType number => do
    let r ← w.certificates ocid
    let v ← r.versions.rows.find? (·.number = number.getD r.current)
    if bundleType = "CERTIFICATE_CONTENT_PUBLIC_ONLY" ∧ Named (r.bundle v).stages then
    return (⟨bundleData (r.bundle v), []⟩, w) else none

theorem answer_answers {w w' : World} {op : SdkOp} {response : SdkResponse} (h : w.answer op = some (response, w')) :
    w.Answers twoPages op response w' := by
  cases op with
  | getCertificate ocid _ =>
    obtain ⟨r, hr, hret⟩ := Option.bind_eq_some_iff.1 h
    cases hret
    exact ⟨rfl, r, hr, rfl, rfl⟩
  | listCertificateVersions ocid _ page =>
    obtain _ | token := page
    · obtain ⟨r, hr, hret⟩ := Option.bind_eq_some_iff.1 h
      cases hret
      exact ⟨rfl, r, hr, .first ⟨[], rfl, .nil⟩ rfl⟩
    · obtain ⟨r, hr, hpage⟩ := Option.bind_eq_some_iff.1 h
      split at hpage
      · rename_i hall
        obtain ⟨rfl, hnamed⟩ := hall
        cases hpage
        have hrest : (twoPages r).rest = [] ++ ("2", r.versions.rows.map r.shown) :: [] := rfl
        refine ⟨rfl, r, hr, .next hrest ⟨_, rfl, ?_⟩ rfl⟩
        refine List.forall₂_map_left_iff.2 (List.forall₂_same.2 fun version hversion => ?_)
        obtain ⟨v, hv, rfl⟩ := List.mem_map.1 hversion
        exact itemOf_spec (hnamed v hv) rfl
      · cases hpage
  | getCertificateVersion ocid number _ =>
    obtain ⟨r, hr, h⟩ := Option.bind_eq_some_iff.1 h
    obtain ⟨v, hv, h⟩ := Option.bind_eq_some_iff.1 h
    split at h
    · rename_i hnamed
      cases h
      exact ⟨rfl, r, hr, v, List.mem_of_find?_eq_some hv, by simpa using List.find?_some hv, itemOf_spec hnamed rfl⟩
    · cases h
  | createCertificate name _ config _ =>
    simp only [answer] at h
    split at h
    · rename_i hnone
      cases h
      exact ⟨_, config.version 1, rfl, hnone, ⟨rfl, rfl, rfl⟩, rfl⟩
    · cases h
  | updateCertificate ocid details _ _ =>
    obtain ⟨config, number⟩ := details
    cases config with
    | some config =>
      cases number with
      | some number => cases h
      | none =>
        obtain ⟨r, hr, h⟩ := Option.bind_eq_some_iff.1 h
        obtain ⟨r', hr', h⟩ := Option.bind_eq_some_iff.1 h
        split at h
        · rename_i hpending
          cases h
          exact ⟨hpending, r, r', config.version (nextNumber r), hr, ⟨rfl, rfl, rfl⟩, hr', rfl⟩
        · cases h
    | none =>
      cases number with
      | some number =>
        obtain ⟨r, hr, h⟩ := Option.bind_eq_some_iff.1 h
        obtain ⟨r', hr', hret⟩ := Option.bind_eq_some_iff.1 h
        cases hret
        exact ⟨r, r', hr, hr', rfl⟩
      | none => cases h
  | scheduleCertificateVersionDeletion ocid number time _ _ =>
    obtain ⟨r, hr, hret⟩ := Option.bind_eq_some_iff.1 h
    cases hret
    exact ⟨r, hr, rfl⟩
  | getCertificateBundle ocid _ bundleType number =>
    obtain ⟨r, hr, h⟩ := Option.bind_eq_some_iff.1 h
    obtain ⟨v, hv, h⟩ := Option.bind_eq_some_iff.1 h
    split at h
    · rename_i hpublic
      cases h
      refine ⟨rfl, hpublic.1, r, hr, v, List.mem_of_find?_eq_some hv, by simpa using List.find?_some hv, ?_⟩
      exact bundleData_spec hpublic.2
    · cases h

end World

/-- The requests are answered from the world, what the adapters do besides is simulated. -/
def simulateSdk (Γ : Ctx) (script : Script) : Handler adapting Exc World := fun w op =>
  match op with
  | .inl op => (w.answer op).map fun (response, w') => (.ok response, w')
  | .inr op => simulate Γ script w op

theorem simulateSdk_allowed (Γ : Ctx) (script : Script) (faults : Faults) (sdkFaults : SdkFaults) :
    (simulateSdk Γ script).Allowed (sdkService Γ faults sdkFaults twoPages) := by
  intro w op answer w' h
  cases op with
  | inl op =>
    obtain ⟨⟨response, w₁⟩, hx, heq⟩ := Option.map_eq_some_iff.1 h
    cases heq
    exact World.answer_answers hx
  | inr op => exact simulate_allowed Γ script faults w op answer w' h

end OciAcmePublisher
