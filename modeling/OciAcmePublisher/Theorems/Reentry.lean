import OciAcmePublisher.Lemmas.Reconciler
import OciAcmePublisher.Lemmas.StateStore
import OciAcmePublisher.Simulation

/-!
# Re-entry of a publication

Any number of `PublicationReconciler.publish` runs of one certificate and one material, each cut or failing anywhere, or returning.
The certificate goes through at most three phases: no version carries the fingerprint; one does and waits to be promoted; it is
CURRENT. One upload leads from the first to the second and one promotion from the second to the third.
-/

namespace OciAcmePublisher

open Effects Tables PublicationReconciler

/-- What may differ between two runs. -/
structure PublishCall where
  config : AppConfig
  chain : OciCertificateChain
  now : Instant
  operationType : OperationType

/-- One run. -/
def PublishCall.run (Γ : Ctx) (certificate : CertificateConfig) (material : LineageMaterial) (call : PublishCall) :
    Action PublicationResult :=
  PublicationReconciler.publish Γ call.config certificate material call.chain (certificateSha256 material.leaf) call.now
    call.operationType

/-- The mutation is an upload. -/
def Mutation.isUpload : Mutation → Bool
  | .uploaded .. => true
  | _ => false

namespace ReentryAux

/-- The version is the only one that carries the fingerprint. -/
structure OnlyCarrier (Γ : Ctx) (F : String) (r : Resource) (v : Version) : Prop where
  mem : v ∈ r.versions.rows
  carries : Carries Γ F v
  unique : ∀ u ∈ r.versions.rows, Carries Γ F u → u = v

/-- The phases, with the mutations that led there; `c` is the version that was CURRENT at first. -/
inductive Phase (Γ : Ctx) (id F : String) (c : Int) (r : Resource) : List Mutation → Prop where
  | fresh : (∀ v ∈ r.versions.rows, ¬Carries Γ F v) → r.current = c → Phase Γ id F c r []
  | pending (v : Version) : OnlyCarrier Γ F r v → Eligible r v → r.current = c → v.number ≠ c →
      Phase Γ id F c r [.uploaded id v.number]
  | published (v : Version) : OnlyCarrier Γ F r v → r.current = v.number →
      Phase Γ id F c r [.uploaded id v.number, .promoted id v.number]

/-- The last phase. -/
def Published (Γ : Ctx) (id F : String) (r : Resource) (m : List Mutation) : Prop :=
  ∃ v, OnlyCarrier Γ F r v ∧ r.current = v.number ∧ m = [.uploaded id v.number, .promoted id v.number]

variable {Γ : Ctx} {id F : String} {c : Int} {r r' : Resource} {m : List Mutation} {leafPem : Bytes}

theorem carries_restage {v : Version} {n : Int} : Carries Γ F (r.restage n v) ↔ Carries Γ F v := by
  unfold Carries Version.fingerprint
  rw [r.restage_pem]

/-- An uploaded version is eligible. -/
theorem eligible_uploaded (v : Version) : Eligible r { v with stages := Resource.uploadedStages } :=
  eligible_iff.2 (Or.inl List.mem_cons_self)

theorem Published.currentIs (h : Published Γ id F r m) : CurrentIs Γ F r := by
  obtain ⟨v, hv, hn, -⟩ := h
  exact ⟨v, hv.mem, hn.symm, hv.carries⟩

/-- Where CURRENT carries the fingerprint, the certificate is in the last phase. -/
theorem Phase.published_of_currentIs (h : Phase Γ id F c r m) (hc : CurrentIs Γ F r) : Published Γ id F r m := by
  obtain ⟨u, hu, hn, hcar⟩ := hc
  cases h with
  | fresh hnone _ => exact absurd hcar (hnone u hu)
  | pending v hv _ hcur hne =>
    have huv : u = v := hv.unique u hu hcar
    exact absurd (by rw [← huv, hn, hcur]) hne
  | published v hv hcur => exact ⟨v, hv, hcur, rfl⟩

/-- What an upload makes of a certificate no version of which carries the fingerprint. -/
theorem onlyCarrier_upload {v : Version} (hnone : ∀ u ∈ r.versions.rows, ¬Carries Γ F u) (hcar : Carries Γ F v)
    (hup : r.upload v = some r') : OnlyCarrier Γ F r' { v with stages := Resource.uploadedStages } := by
  obtain ⟨-, hrows, -⟩ := Resource.upload_eq_some hup
  refine ⟨?_, hcar, ?_⟩
  · rw [hrows]
    exact List.mem_append_right _ (List.mem_singleton_self _)
  · intro u hu hcu
    rw [hrows, List.mem_append, List.mem_map, List.mem_singleton] at hu
    rcases hu with ⟨x, hx, rfl⟩ | rfl
    · exact absurd hcu (hnone x hx)
    · rfl

/-- A promotion keeps the only carrier. -/
theorem onlyCarrier_restage {v : Version} {n : Int} (hv : OnlyCarrier Γ F r v)
    (hrows : r'.versions.rows = r.versions.rows.map (r.restage n)) : OnlyCarrier Γ F r' (r.restage n v) := by
  refine ⟨?_, carries_restage.2 hv.carries, ?_⟩
  · rw [hrows]
    exact List.mem_map_of_mem hv.mem
  · intro u hu hcu
    rw [hrows, List.mem_map] at hu
    obtain ⟨x, hx, rfl⟩ := hu
    rw [hv.unique x hx (carries_restage.1 hcu)]

/-- The leaf file holds the fingerprint. -/
theorem carries_of_leafPem {leaf : X509} (hleaf : Γ.loadPem leafPem = some leaf) {v : Version}
    (hv : decodeAscii leafPem = some v.certificatePem) : Carries Γ (certificateSha256 leaf) v := by
  unfold Carries Version.fingerprint
  rw [encodeAscii_of_decodeAscii hv, Option.bind_some, hleaf]
  rfl

/-- The mutations of a reconciliation lead from phase to phase. -/
theorem phase_maintains {leaf : X509} (hleaf : Γ.loadPem leafPem = some leaf) :
    Maintains Γ id (certificateSha256 leaf) leafPem (Phase Γ id (certificateSha256 leaf) c) where
  upload := by
    intro r m r' v hphase hcur hnone hpem hup
    obtain ⟨hfresh, -, hcurrent⟩ := Resource.upload_eq_some hup
    cases hphase with
    | fresh hno hc =>
      have honly := onlyCarrier_upload hno (carries_of_leafPem hleaf hpem) hup
      refine .pending { v with stages := Resource.uploadedStages } honly (eligible_uploaded v) (hcurrent.trans hc) ?_
      obtain ⟨x, hx, hn⟩ := r.current_mem
      exact fun h => hfresh x hx (by rw [hn, hc, ← h])
    | pending u hu hel _ _ => exact absurd hu.carries (hnone u hu.mem hel)
    | published u hu hn => exact absurd ⟨u, hu.mem, hn.symm, hu.carries⟩ hcur
  promote := by
    intro r m r' cand hphase hmatch hne hp
    obtain ⟨v, hv, hn, -, hcar⟩ := hmatch
    obtain ⟨-, hcurrent, hr⟩ := Resource.promote_eq_some hp
    cases hphase with
    | fresh hno _ => exact absurd hcar (hno v hv)
    | pending u hu _ hc hnu =>
      have hvu : v = u := hu.unique v hv hcar
      subst hvu
      rcases hr with rfl | ⟨-, hrows⟩
      · exact absurd hcurrent hne
      · have hnum := r.restage_number cand.versionNumber v
        have h : Phase Γ id (certificateSha256 leaf) c r' _ :=
          .published _ (onlyCarrier_restage hu hrows) (by rw [hcurrent, hnum, hn])
        rw [hnum] at h
        rw [hn]
        exact h
    | published u hu hcu =>
      have hvu : v = u := hu.unique v hv hcar
      exact absurd (by rw [hcu, ← hvu, hn]) hne

/-- The last phase is kept: there is nothing left to upload or to promote. -/
theorem published_maintains : Maintains Γ id F leafPem (Published Γ id F) where
  upload := fun h hcur _ _ _ => absurd h.currentIs hcur
  promote := by
    rintro r m r' cand ⟨u, hu, hcu, -⟩ ⟨v, hv, hn, -, hcar⟩ hne
    have hvu : v = u := hu.unique v hv hcar
    exact absurd (by rw [hcu, ← hvu, hn]) hne

theorem Phase.uploads (h : Phase Γ id F c r m) : (m.filter Mutation.isUpload).length ≤ 1 := by
  cases h with
  | fresh => exact Nat.zero_le 1
  | pending => exact Nat.le_refl 1
  | published => exact Nat.le_refl 1

theorem Phase.current (h : Phase Γ id F c r m) : r.current = c ∨ CurrentIs Γ F r := by
  cases h with
  | fresh _ hc => exact Or.inl hc
  | pending _ _ _ hc _ => exact Or.inl hc
  | published v hv hcur => exact Or.inr ⟨v, hv.mem, hcur.symm, hv.carries⟩

theorem Phase.promoted (h : Phase Γ id F c r m) {ocid : String} {n : Int} (hm : Mutation.promoted ocid n ∈ m) :
    ocid = id ∧ ∃ v ∈ r.versions.rows, v.number = n ∧ Carries Γ F v := by
  cases h with
  | fresh => cases hm
  | pending => simp at hm
  | published v hv hcur =>
    have heq : ocid = id ∧ n = v.number := by simpa using hm
    exact ⟨heq.1, v, hv.mem, heq.2.symm, hv.carries⟩

section Runs

variable {faults : Faults} {certificate : CertificateConfig} {material : LineageMaterial}

/-- One run keeps what its mutations keep, however it ends, and its result is true. -/
theorem run_spec {I : Resource → List Mutation → Prop} (hid : certificate.oci.certificateOcid = some id)
    (hI : Maintains Γ id (certificateSha256 material.leaf) material.leafPem I) (call : PublishCall) {w w' : World}
    {o : Outcome Exc PublicationResult} (hx : Exec (service Γ faults) (call.run Γ certificate material) w o w')
    (hw : On id I w) :
    On id I w' ∧ ((∃ result, o = .returned result) →
      On id (fun r m => I r m ∧ CurrentIs Γ (certificateSha256 material.leaf) r) w') := by
  have hpost := publish_spec hid hI w hw o w' hx
  cases o with
  | returned result =>
    obtain ⟨r, m, hat, h, hconf⟩ := hpost
    exact ⟨⟨r, m, hat, h⟩, fun _ => ⟨r, m, hat, h, hconf.1⟩⟩
  | raised x => exact ⟨hpost, fun ⟨_, h⟩ => by cases h⟩
  | crashed => exact ⟨hpost, fun ⟨_, h⟩ => by cases h⟩

/-- Any history keeps the phases, and is in the last one once a run has returned. -/
theorem history_phase (hid : certificate.oci.certificateOcid = some id)
    (hleaf : Γ.loadPem material.leafPem = some material.leaf) {w w' : World}
    {runs : List (PublishCall × Outcome Exc PublicationResult)}
    (h : History (service Γ faults) (PublishCall.run Γ certificate material) w runs w')
    (hw : On id (Phase Γ id (certificateSha256 material.leaf) c) w) :
    On id (Phase Γ id (certificateSha256 material.leaf) c) w' ∧
      ((∃ call result, (call, .returned result) ∈ runs) →
        On id (Published Γ id (certificateSha256 material.leaf)) w') := by
  induction h with
  | nil => exact ⟨hw, by simp⟩
  | snoc _ hx ih =>
    obtain ⟨hphase, hdone⟩ := run_spec hid (phase_maintains hleaf) _ hx ih.1
    refine ⟨hphase, ?_⟩
    rintro ⟨call, result, hmem⟩
    rcases List.mem_append.1 hmem with h | h
    · exact (run_spec hid published_maintains _ hx (ih.2 ⟨call, result, h⟩)).1
    · cases List.mem_singleton.1 h
      obtain ⟨r, m, hat, hph, hcur⟩ := hdone ⟨result, rfl⟩
      exact ⟨r, m, hat, hph.published_of_currentIs hcur⟩

end Runs

end ReentryAux

open ReentryAux

/-- Crash re-entry is exactly-once. Where no version carries the fingerprint of the material at first, then over any history of
publications of it, each cut, failing or returning: at most one upload takes effect; CURRENT stays or is the version that carries
the fingerprint, and only such a version is ever promoted; once a run has returned, CURRENT carries the fingerprint for good, by
one upload and one promotion; and a run that returns leaves no active row of the certificate and the fingerprint. -/
theorem publish_exactly_once (Γ : Ctx) (faults : Faults) (certificate : CertificateConfig) (material : LineageMaterial)
    {id : String} (hid : certificate.oci.certificateOcid = some id)
    (hleaf : Γ.loadPem material.leafPem = some material.leaf) {w w' : World} {r : Resource}
    (hr : w.certificates id = some r) (hm : w.mutations = [])
    (hfresh : ∀ v ∈ r.versions.rows, v.fingerprint Γ ≠ some (certificateSha256 material.leaf))
    {runs : List (PublishCall × Outcome Exc PublicationResult)}
    (h : History (service Γ faults) (PublishCall.run Γ certificate material) w runs w') :
    ∃ r', w'.certificates id = some r' ∧ (w'.mutations.filter Mutation.isUpload).length ≤ 1 ∧
      (r'.current = r.current ∨ CurrentIs Γ (certificateSha256 material.leaf) r') ∧
      (∀ ocid n, .promoted ocid n ∈ w'.mutations →
        ocid = id ∧ ∃ v ∈ r'.versions.rows, v.number = n ∧ v.fingerprint Γ = some (certificateSha256 material.leaf)) ∧
      ((∃ call result, (call, .returned result) ∈ runs) →
        CurrentIs Γ (certificateSha256 material.leaf) r' ∧
          ∃ n, w'.mutations = [.uploaded id n, .promoted id n]) ∧
      (∀ earlier call result, runs = earlier ++ [(call, .returned result)] →
        ∀ row ∈ w'.database.operations.rows, row.certificateId = certificate.id →
          row.localFingerprint = some (certificateSha256 material.leaf) → row.state.isTerminal = true) := by
  have hw : On id (Phase Γ id (certificateSha256 material.leaf) r.current) w := ⟨r, [], ⟨hr, hm⟩, .fresh hfresh rfl⟩
  obtain ⟨⟨r', m', hat, hphase⟩, hdone⟩ := history_phase hid hleaf h hw
  refine ⟨r', hat.1, ?_, hphase.current, ?_, ?_, ?_⟩
  · rw [hat.2]
    exact hphase.uploads
  · intro ocid n hmem
    rw [hat.2] at hmem
    exact hphase.promoted hmem
  · intro hret
    obtain ⟨r₂, m₂, hat₂, hp⟩ := hdone hret
    obtain rfl : r' = r₂ := Option.some.inj (hat.1.symm.trans hat₂.1)
    have hcur := hp.currentIs
    obtain ⟨v, -, -, hmut⟩ := hp
    exact ⟨hcur, v.number, hat₂.2.trans hmut⟩
  · intro earlier call result hlast row hrow hc hF
    obtain ⟨w₁, hx⟩ := h.last hlast
    have hclosed := publish_closes.returned trivial (exec_persisting hx) row hrow hc hF (by simp)
    simpa [OperationRow.active] using hclosed

namespace ReentryAux

open Sample

/-- A publication of the sample material. -/
def sampleCall : PublishCall := ⟨config certificate, chain, days 1, .publish⟩

/-- The world a sample publication leaves when it is cut before its operation number `n`. -/
def sampleRun (n : Nat) (w : World) : Outcome Exc PublicationResult × World :=
  (sampleCall.run ctx certificate material).runFor (simulate ctx script) n w

theorem sampleRun_cut : (sampleRun 15 (world resource)).1 = .crashed := by decide +kernel

theorem sampleRun_returned : ∃ result, (sampleRun 100 (sampleRun 15 (world resource)).2).1 = .returned result :=
  ⟨⟨"web", 2, certificateSha256 (leaf 2), true⟩, by decide +kernel⟩

end ReentryAux

/-- A first run is cut after its upload, a second one returns. -/
theorem publish_exactly_once_sample :
    ∃ r' n, (sampleRun 100 (sampleRun 15 (Sample.world Sample.resource)).2).2.certificates "ocid" = some r' ∧
      CurrentIs Sample.ctx (certificateSha256 (Sample.leaf 2)) r' ∧
        (sampleRun 100 (sampleRun 15 (Sample.world Sample.resource)).2).2.mutations =
          [.uploaded "ocid" n, .promoted "ocid" n] := by
  obtain ⟨result, hret⟩ := sampleRun_returned
  have hfirst := exec_of_runFor (simulate_allowed Sample.ctx Sample.script noFaults) sampleRun_cut
  have hsecond := exec_of_runFor (simulate_allowed Sample.ctx Sample.script noFaults) hret
  obtain ⟨r', hr', -, -, -, hdone, -⟩ := publish_exactly_once Sample.ctx noFaults Sample.certificate
    Sample.material rfl rfl (w := Sample.world Sample.resource) (r := Sample.resource) rfl rfl (by decide +kernel)
    (.snoc (.snoc (.nil _) (i := sampleCall) hfirst) (i := sampleCall) hsecond)
  obtain ⟨hcur, n, hm⟩ := hdone ⟨sampleCall, result, by simp⟩
  exact ⟨r', n, hr', hcur, hm⟩

end OciAcmePublisher
