import OciAcmePublisher.Effects.Triple
import OciAcmePublisher.Ports

/-!
# The OCI certificate service

What the publisher talks to, with no other writer: an OCI certificate is a table of numbered versions, one of which is CURRENT.
Reads see every accepted mutation; a mutation may be accepted and still be reported as an error. The environment also holds the
state database, the local lineages and the observations the audited endpoints and the monotonic clock will answer.
-/

namespace OciAcmePublisher

open Effects Tables

/-- A version of an OCI certificate. CURRENT is not among its stages: the certificate points to its CURRENT version. -/
structure Version where
  number : Int
  certificatePem : String
  certChainPem : String
  name : Option String
  stages : List Stage
  timeCreated : Option Instant
  timeOfDeletion : Option Instant
  deriving DecidableEq, Repr

/-- The SHA-256 fingerprint of the version's leaf, none where the PEM does not parse. -/
def Version.fingerprint (Γ : Ctx) (v : Version) : Option String :=
  ((encodeAscii v.certificatePem).bind Γ.loadPem).map certificateSha256

/-- The version's leaf passes `validate_public_certificate`. -/
def Version.valid (Γ : Ctx) (certificate : CertificateConfig) (config : AppConfig) (now : Instant) (v : Version) : Prop :=
  ∃ f, validatePublicCertificate Γ v.certificatePem certificate config.global now = .ok f

/-- An OCI certificate: numbered versions, the number of the CURRENT one, and what their stages keep to. -/
structure Resource where
  versions : Table Version Int (·.number)
  current : Int
  current_mem : ∃ v ∈ versions.rows, v.number = current
  stages_ne_current : ∀ v ∈ versions.rows, Stage.current ∉ v.stages
  current_not_previous : ∀ v ∈ versions.rows, v.number = current → Stage.previous ∉ v.stages

namespace Resource

/-- The stages OCI reports of a version. -/
def stagesOf (r : Resource) (v : Version) : List Stage :=
  if v.number = r.current then .current :: v.stages else v.stages

/-- A version as the management API lists it. -/
def shown (r : Resource) (v : Version) : OciCertificateVersion where
  versionNumber := v.number
  versionName := v.name
  stages := r.stagesOf v
  timeCreated := v.timeCreated
  timeOfDeletion := v.timeOfDeletion

/-- A version as the retrieval API returns it. -/
def bundle (r : Resource) (v : Version) : OciPublicBundle where
  certificatePem := v.certificatePem
  certChainPem := v.certChainPem
  versionNumber := v.number
  versionName := v.name
  stages := r.stagesOf v

/-- LATEST leaves its previous holder. -/
def dropLatest (v : Version) : Version := { v with stages := v.stages.filter (· ≠ .latest) }

/-- The stages of an uploaded version. -/
def uploadedStages : List Stage := [.pending, .latest]

/-- An accepted upload: the new version is PENDING and LATEST, CURRENT stays. None where the number is taken. -/
def upload (r : Resource) (v : Version) : Option Resource :=
  match h : (r.versions.updateWhere (fun _ => true) dropLatest (fun _ => rfl)).insert { v with stages := uploadedStages } with
  | none => none
  | some t =>
    have hrows : t.rows = r.versions.rows.map dropLatest ++ [{ v with stages := uploadedStages }] :=
      (Table.insert_eq_some_iff.1 h).2
    have hmem : ∀ u ∈ t.rows, (∃ x ∈ r.versions.rows, u = dropLatest x) ∨ u = { v with stages := uploadedStages } := by
      intro u hu
      rw [hrows, List.mem_append, List.mem_map, List.mem_singleton] at hu
      rcases hu with ⟨x, hx, rfl⟩ | rfl
      · exact Or.inl ⟨x, hx, rfl⟩
      · exact Or.inr rfl
    some {
      versions := t
      current := r.current
      current_mem := by
        obtain ⟨x, hx, hn⟩ := r.current_mem
        exact ⟨dropLatest x, by rw [hrows]; exact List.mem_append_left _ (List.mem_map_of_mem hx), hn⟩
      stages_ne_current := by
        intro u hu
        rcases hmem u hu with ⟨x, hx, rfl⟩ | rfl
        · exact fun h => r.stages_ne_current x hx (List.mem_filter.1 h).1
        · simp [uploadedStages]
      current_not_previous := by
        intro u hu hn
        rcases hmem u hu with ⟨x, hx, rfl⟩ | rfl
        · exact fun h => r.current_not_previous x hx hn (List.mem_filter.1 h).1
        · simp [uploadedStages] }

/-- The stages after the promotion of version `n`: the old CURRENT becomes PREVIOUS and the old PREVIOUS DEPRECATED. -/
def restage (r : Resource) (n : Int) (v : Version) : Version :=
  if v.number = n then { v with stages := v.stages.filter (fun s => s ∉ [Stage.pending, .previous, .deprecated]) }
  else if v.number = r.current then { v with stages := .previous :: v.stages }
  else { v with stages := v.stages.map fun s => if s = .previous then .deprecated else s }

theorem restage_number (r : Resource) (n : Int) (v : Version) : (r.restage n v).number = v.number := by
  unfold restage
  split
  · rfl
  · split <;> rfl

theorem restage_pem (r : Resource) (n : Int) (v : Version) : (r.restage n v).certificatePem = v.certificatePem := by
  unfold restage
  split
  · rfl
  · split <;> rfl

theorem restage_not_current {r : Resource} {n : Int} {v : Version} (h : Stage.current ∉ v.stages) :
    Stage.current ∉ (r.restage n v).stages := by
  unfold restage
  split
  · exact fun hs => h (List.mem_filter.1 hs).1
  · split
    · simpa using h
    · simp only [List.mem_map, not_exists, not_and]
      intro s hs
      split
      · simp
      · rintro rfl
        exact h hs

/-- An accepted promotion of version `n`. None where there is no such version. -/
def promote (r : Resource) (n : Int) : Option Resource :=
  if h : ∃ v ∈ r.versions.rows, v.number = n then
    if n = r.current then some r
    else some {
      versions := r.versions.updateWhere (fun _ => true) (r.restage n) (r.restage_number n)
      current := n
      current_mem := by
        obtain ⟨v, hv, hn⟩ := h
        refine ⟨r.restage n v, ?_, (r.restage_number n v).trans hn⟩
        exact Table.mem_updateWhere.2 (Or.inl ⟨v, hv, rfl, rfl⟩)
      stages_ne_current := by
        intro u hu
        rcases Table.mem_updateWhere.1 hu with ⟨v, hv, -, rfl⟩ | ⟨-, hf⟩
        · exact restage_not_current (r.stages_ne_current v hv)
        · cases hf
      current_not_previous := by
        intro u hu hn
        rcases Table.mem_updateWhere.1 hu with ⟨v, hv, -, rfl⟩ | ⟨-, hf⟩
        · rw [restage_number] at hn
          unfold restage
          rw [if_pos hn]
          simp
        · cases hf }
  else none

/-- Scheduling the deletion of version `n`. -/
def scheduleDeletion (r : Resource) (n : Int) (time : Instant) : Resource where
  versions := r.versions.updateWhere (fun v => v.number = n) (fun v => { v with timeOfDeletion := some time })
    (fun _ => rfl)
  current := r.current
  current_mem := by
    obtain ⟨v, hv, hn⟩ := r.current_mem
    by_cases h : v.number = n
    · exact ⟨{ v with timeOfDeletion := some time }, Table.mem_updateWhere.2 (Or.inl ⟨v, hv, by simpa using h, rfl⟩), hn⟩
    · exact ⟨v, Table.mem_updateWhere.2 (Or.inr ⟨hv, by simpa using h⟩), hn⟩
  stages_ne_current := by
    intro u hu
    rcases Table.mem_updateWhere.1 hu with ⟨v, hv, -, rfl⟩ | ⟨hv, -⟩
    · exact r.stages_ne_current v hv
    · exact r.stages_ne_current u hv
  current_not_previous := by
    intro u hu hn
    rcases Table.mem_updateWhere.1 hu with ⟨v, hv, -, rfl⟩ | ⟨hv, -⟩
    · exact r.current_not_previous v hv hn
    · exact r.current_not_previous u hv hn

/-- A new OCI certificate has one version, which is CURRENT. -/
def created (v : Version) : Resource where
  versions := ⟨[{ v with stages := [.latest] }], List.nodup_singleton _⟩
  current := v.number
  current_mem := ⟨_, List.mem_singleton_self _, rfl⟩
  stages_ne_current := by simp
  current_not_previous := by simp

theorem upload_eq_some {r r' : Resource} {v : Version} (h : r.upload v = some r') :
    (∀ x ∈ r.versions.rows, x.number ≠ v.number) ∧
      r'.versions.rows = r.versions.rows.map dropLatest ++ [{ v with stages := uploadedStages }] ∧
        r'.current = r.current := by
  unfold upload at h
  split at h
  · cases h
  · rename_i t ht
    obtain ⟨hfresh, hrows⟩ := Table.insert_eq_some_iff.1 ht
    cases h
    refine ⟨fun x hx hn => hfresh ?_, hrows, rfl⟩
    rw [List.mem_map]
    exact ⟨dropLatest x, Table.mem_updateWhere.2 (Or.inl ⟨x, hx, rfl, rfl⟩), hn⟩

theorem promote_eq_some {r r' : Resource} {n : Int} (h : r.promote n = some r') :
    (∃ v ∈ r.versions.rows, v.number = n) ∧ r'.current = n ∧
      (r' = r ∨ (n ≠ r.current ∧ r'.versions.rows = r.versions.rows.map (r.restage n))) := by
  unfold promote at h
  split at h
  · rename_i hv
    split at h
    · rename_i hn
      cases h
      exact ⟨hv, hn.symm, Or.inl rfl⟩
    · rename_i hn
      cases h
      refine ⟨hv, rfl, Or.inr ⟨hn, ?_⟩⟩
      simp [Table.rows_updateWhere]
  · cases h

end Resource

/-- An accepted mutation. -/
inductive Mutation where
  | created (ocid : String)
  | uploaded (ocid : String) (number : Int)
  | promoted (ocid : String) (number : Int)
  | deletionScheduled (ocid : String) (number : Int)
  deriving DecidableEq, Repr

/-- What the outside answers to the `n`-th observation of the endpoints or of the monotonic clock. -/
abbrev Network := Nat → (op : Op) → Except Exc op.Reply

/-- The world of the publisher. The log of accepted mutations and the count of observations are kept for the statements. -/
structure World where
  certificates : String → Option Resource
  mutations : List Mutation
  database : Database
  lineages : String → Option LineageMaterial
  network : Network
  observed : Nat

namespace World

/-- One certificate is replaced, and the mutation that did it is logged. -/
def mutate (w : World) (ocid : String) (r : Resource) (m : Mutation) : World :=
  { w with
    certificates := Function.update w.certificates ocid (some r)
    mutations := w.mutations ++ [m] }

variable (w : World) (ocid : String) (r : Resource) (m : Mutation)

@[simp] theorem mutate_certificates :
    (w.mutate ocid r m).certificates = Function.update w.certificates ocid (some r) := rfl

@[simp] theorem mutate_mutations : (w.mutate ocid r m).mutations = w.mutations ++ [m] := rfl

@[simp] theorem mutate_database : (w.mutate ocid r m).database = w.database := rfl

@[simp] theorem mutate_lineages : (w.mutate ocid r m).lineages = w.lineages := rfl

@[simp] theorem mutate_network : (w.mutate ocid r m).network = w.network := rfl

@[simp] theorem mutate_observed : (w.mutate ocid r m).observed = w.observed := rfl

end World

/-- The version holds the imported PEM files. -/
def Version.holds (v : Version) (imported : ImportedVersion) : Prop :=
  decodeAscii imported.certificatePem = some v.certificatePem ∧
    decodeAscii imported.certChainPem = some v.certChainPem ∧
      (decodeAscii imported.privateKeyPem).isSome = true ∧ v.name = some imported.versionName

/-- What an operation that takes effect answers and leaves. -/
def World.Step (Γ : Ctx) (w : World) : (op : Op) → op.Reply → World → Prop
  | .getCertificate ocid _, found, w' =>
    w' = w ∧ ∃ r, w.certificates ocid = some r ∧ found.certificateId = ocid ∧
      found.currentVersionNumber = some r.current
  | .listVersions ocid _, versions, w' =>
    w' = w ∧ ∃ r, w.certificates ocid = some r ∧ versions.Perm (r.versions.rows.map r.shown)
  | .getVersion ocid number _, version, w' =>
    w' = w ∧ ∃ r, w.certificates ocid = some r ∧
      ∃ v ∈ r.versions.rows, v.number = number ∧ { version with etag := none } = r.shown v
  | .getPublicBundle ocid number _, bundle, w' =>
    w' = w ∧ ∃ r, w.certificates ocid = some r ∧
      ∃ v ∈ r.versions.rows, v.number = number.getD r.current ∧ bundle = r.bundle v
  | .createImportedCertificate _ _ imported _, ocid, w' =>
    w.certificates ocid = none ∧ ∃ v : Version, v.holds imported ∧
      w' = w.mutate ocid (.created v) (.created ocid)
  | .uploadPendingVersion ocid _ imported _, _, w' =>
    ∃ r r' v, w.certificates ocid = some r ∧ Version.holds v imported ∧ r.upload v = some r' ∧
      w' = w.mutate ocid r' (.uploaded ocid v.number)
  | .promoteCurrent ocid number _ _, _, w' =>
    ∃ r r', w.certificates ocid = some r ∧ r.promote number = some r' ∧
      w' = w.mutate ocid r' (.promoted ocid number)
  | .scheduleVersionDeletion ocid number time _ _, _, w' =>
    ∃ r, w.certificates ocid = some r ∧
      w' = w.mutate ocid (r.scheduleDeletion number time) (.deletionScheduled ocid number)
  | .sql statement, reply, w' => ∃ db, w.database.Step statement reply db ∧ w' = { w with database := db }
  | .lineageExists id, found, w' => w' = w ∧ found = (w.lineages id).isSome
  | .loadLineage id, material, w' => w' = w ∧ w.lineages id = some material
  | .commitLineage id generation, material, w' =>
    parseMaterial Γ generation.leafPem generation.chainPem generation.privateKeyPem = some material ∧
      w' = { w with lineages := Function.update w.lineages id (some material) }
  | _, _, w' => w' = w

/-- The exceptions an operation may raise. -/
abbrev Faults := Op → Exc → Prop

/-- No operation raises. -/
def noFaults : Faults := fun _ _ => False

/-- The environment: an observation is answered by the network; any other operation takes effect, or raises before or after it
has taken effect. -/
def service (Γ : Ctx) (faults : Faults) : Env publisher Exc World := fun w op answer w' =>
  if op.observes then answer = w.network w.observed op ∧ w' = { w with observed := w.observed + 1 }
  else match answer with
    | .ok reply => w.Step Γ op reply w'
    | .error x => faults op x ∧ (w' = w ∨ ∃ reply, w.Step Γ op reply w')

/-! ## What an operation leaves alone -/

variable {Γ : Ctx} {faults : Faults} {w w' : World} {op : Op} {answer : Except Exc op.Reply}

/-- The cases of an answer: an observation, or an operation that did or did not take effect. -/
theorem service_cases (h : service Γ faults w op answer w') :
    (op.observes = true ∧ w' = { w with observed := w.observed + 1 }) ∨ w' = w ∨ ∃ reply, w.Step Γ op reply w' := by
  unfold service at h
  split at h
  · rename_i ho
    exact Or.inl ⟨ho, h.2⟩
  · cases answer with
    | ok reply => exact Or.inr (Or.inr ⟨reply, h⟩)
    | error x => exact Or.inr h.2

/-- A step that takes effect changes the certificates and their log only where it mutates OCI. -/
theorem World.Step.certificates {reply : op.Reply} (h : w.Step Γ op reply w') (hop : op.mutatesOci = false) :
    w'.certificates = w.certificates ∧ w'.mutations = w.mutations := by
  cases op <;> grind [World.Step, Op.mutatesOci]

theorem World.Step.database {reply : op.Reply} (h : w.Step Γ op reply w') (hop : op.isSql = false) :
    w'.database = w.database := by
  cases op <;> grind [World.Step, World.mutate, Op.isSql]

theorem World.Step.network {reply : op.Reply} (h : w.Step Γ op reply w') :
    w'.network = w.network ∧ w'.observed = w.observed := by
  cases op <;> grind [World.Step, World.mutate]

theorem World.Step.lineages {reply : op.Reply} (h : w.Step Γ op reply w') (hop : op.commits = false) :
    w'.lineages = w.lineages := by
  cases op <;> grind [World.Step, World.mutate, Op.commits]

theorem service_certificates (h : service Γ faults w op answer w') (hop : op.mutatesOci = false) :
    w'.certificates = w.certificates ∧ w'.mutations = w.mutations := by
  rcases service_cases h with ⟨-, rfl⟩ | rfl | ⟨reply, hs⟩
  · exact ⟨rfl, rfl⟩
  · exact ⟨rfl, rfl⟩
  · exact hs.certificates hop

theorem service_database (h : service Γ faults w op answer w') (hop : op.isSql = false) :
    w'.database = w.database := by
  rcases service_cases h with ⟨-, rfl⟩ | rfl | ⟨reply, hs⟩
  · rfl
  · rfl
  · exact hs.database hop

theorem service_network (h : service Γ faults w op answer w') : w'.network = w.network := by
  rcases service_cases h with ⟨-, rfl⟩ | rfl | ⟨reply, hs⟩
  · rfl
  · rfl
  · exact hs.network.1

theorem service_observed (h : service Γ faults w op answer w') (hop : op.observes = false) :
    w'.observed = w.observed := by
  rcases service_cases h with ⟨ho, -⟩ | rfl | ⟨reply, hs⟩
  · rw [hop] at ho
    cases ho
  · rfl
  · exact hs.network.2

theorem service_lineages (h : service Γ faults w op answer w') (hop : op.commits = false) :
    w'.lineages = w.lineages := by
  rcases service_cases h with ⟨-, rfl⟩ | rfl | ⟨reply, hs⟩
  · rfl
  · rfl
  · exact hs.lineages hop

end OciAcmePublisher
