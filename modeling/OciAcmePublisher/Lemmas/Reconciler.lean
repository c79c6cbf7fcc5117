import OciAcmePublisher.Lemmas.Footprints
import OciAcmePublisher.OciService

/-!
# The reconciler's reads and mutations

Specifications of the steps of `PublicationReconciler` against the OCI service. `At id r m` fixes the certificate and the log of
accepted mutations: a step that mutates nothing keeps it, whatever it answers and wherever it is cut, and what it reads is true
of `r`.
-/

namespace OciAcmePublisher

open Effects Tables

variable {Γ : Ctx} {faults : Faults} {id : String} {r : Resource} {m : List Mutation} {α : Type}

/-- The certificate is `r`, and `m` was accepted so far. -/
def At (id : String) (r : Resource) (m : List Mutation) (w : World) : Prop :=
  w.certificates id = some r ∧ w.mutations = m

/-- The operation asks OCI for no change. -/
def Op.reads (op : Op) : Prop := op.mutatesOci = false

theorem footprint_reads (certificateId operationId : String) (op : Op)
    (h : StateStore.footprint certificateId operationId op = true) : op.reads := by
  cases op <;> first | rfl | cases h

theorem records_reads (op : Op) (h : StateStore.records op = true) : op.reads := by
  cases op <;> first | rfl | cases h

theorem pauses_reads (op : Op) (h : pauses op = true) : op.reads := by
  cases op <;> first | rfl | cases h

theorem at_of_reads {op : Op} {answer : Except Exc op.Reply} {w w' : World} (hop : op.reads) (hw : At id r m w)
    (h : service Γ faults w op answer w') : At id r m w' := by
  obtain ⟨hc, hm⟩ := service_certificates h hop
  exact ⟨by rw [hc]; exact hw.1, by rw [hm]; exact hw.2⟩

/-- A program that mutates nothing keeps the certificate and the log. -/
theorem at_frame {p : Action α} (hp : p.Uses Op.reads) :
    Triple (service Γ faults) (At id r m) p (fun _ => At id r m) (fun _ => At id r m) (At id r m) :=
  Triple.frame hp fun _ _ _ _ hop hw h => at_of_reads hop hw h

/-- The certificate and the log are as `K` says. -/
def On (id : String) (K : Resource → List Mutation → Prop) (w : World) : Prop := ∃ r m, At id r m w ∧ K r m

theorem on_intro {K : Resource → List Mutation → Prop} {w : World} (hw : At id r m w) (hK : K r m) : On id K w :=
  ⟨r, m, hw, hK⟩

/-- What is proved for every certificate and log `K` allows is proved where `K` holds. -/
theorem Triple.on {K : Resource → List Mutation → Prop} {p : Action α} {Q : α → World → Prop} {E : Exc → World → Prop}
    {C : World → Prop} {env : Env publisher Exc World} (h : ∀ r m, K r m → Triple env (At id r m) p Q E C) :
    Triple env (On id K) p Q E C :=
  fun w ⟨r, m, hw, hK⟩ => h r m hK w hw

/-- A program that mutates nothing keeps what is said of the certificate and the log. -/
theorem on_frame {K : Resource → List Mutation → Prop} {p : Action α} (hp : p.Uses Op.reads) :
    Triple (service Γ faults) (On id K) p (fun _ => On id K) (fun _ => On id K) (On id K) :=
  Triple.on fun _ _ hK => (at_frame hp).conseq (fun _ hw => hw) (fun _ _ hw => on_intro hw hK)
    (fun _ _ hw => on_intro hw hK) fun _ hw => on_intro hw hK

/-- A read keeps the certificate, and what it answers is what holds of the reply of a step. -/
theorem perform_read {op : Op} (hm : op.reads) (ho : op.observes = false) {φ : op.Reply → Prop}
    (hφ : ∀ w reply w', At id r m w → w.Step Γ op reply w' → φ reply) :
    Triple (service Γ faults) (At id r m) (perform op) (fun a w => At id r m w ∧ φ a) (fun _ => At id r m)
      (At id r m) := by
  refine Triple.perform (fun w hw => hw) ?_ ?_
  · intro w a w' hw h
    have hat := at_of_reads hm hw h
    unfold service at h
    rw [if_neg (by simp [ho])] at h
    exact ⟨⟨hat, hφ w a w' hw h⟩, hat⟩
  · intro w x w' hw h
    exact ⟨at_of_reads hm hw h, at_of_reads hm hw h⟩

theorem getCertificate_spec (requestId : String) :
    Triple (service Γ faults) (At id r m) (perform (.getCertificate id requestId))
      (fun c w => At id r m w ∧ c.currentVersionNumber = some r.current) (fun _ => At id r m) (At id r m) := by
  refine perform_read (by rfl) (by rfl) ?_
  rintro w c w' hw ⟨-, r', hr, -, hc⟩
  rw [hw.1] at hr
  cases hr
  exact hc

theorem listVersions_spec (requestId : String) :
    Triple (service Γ faults) (At id r m) (perform (.listVersions id requestId))
      (fun l w => At id r m w ∧ l.Perm (r.versions.rows.map r.shown)) (fun _ => At id r m) (At id r m) := by
  refine perform_read (by rfl) (by rfl) ?_
  rintro w c w' hw ⟨-, r', hr, hl⟩
  rw [hw.1] at hr
  cases hr
  exact hl

theorem getPublicBundle_spec (number : Option Int) (requestId : String) :
    Triple (service Γ faults) (At id r m) (perform (.getPublicBundle id number requestId))
      (fun b w => At id r m w ∧ ∃ v ∈ r.versions.rows, v.number = number.getD r.current ∧ b = r.bundle v)
      (fun _ => At id r m) (At id r m) := by
  refine perform_read (by rfl) (by rfl) ?_
  rintro w c w' hw ⟨-, r', hr, hb⟩
  rw [hw.1] at hr
  cases hr
  exact hb

/-- A retried read answers what the read answers. -/
theorem retryReadUntilSync_spec {operation : Action α} {φ : α → Prop} (accepted : α → Bool) (policy : ReadRetryPolicy)
    (h : Triple (service Γ faults) (At id r m) operation (fun a w => At id r m w ∧ φ a) (fun _ => At id r m)
      (At id r m)) :
    Triple (service Γ faults) (At id r m) (retryReadUntilSync operation accepted policy)
      (fun a w => At id r m w ∧ φ a) (fun _ => At id r m) (At id r m) :=
  Triple.retryRead accepted policy h (fun _ _ => at_frame (uses_sleepFor pauses_reads _ _ _)) (fun _ hw => hw) (fun _ _ hw => hw)
    (fun _ _ hw => hw) (fun _ _ hw => hw.1) fun _ hw => hw

namespace PublicationReconciler

variable {certificate : CertificateConfig} {config : AppConfig} {F : String} {now : Instant}

/-- The fingerprint `_verify_bundle` returns is that of the version the bundle shows. -/
theorem verifyBundle_fingerprint {v : Version} {f : String}
    (h : verifyBundle Γ (r.bundle v) certificate config now = .ok f) : v.fingerprint Γ = some f := by
  unfold verifyBundle at h
  split at h
  · rename_i g hg
    cases h
    obtain ⟨leaf, hleaf, rfl, -⟩ := validatePublicCertificate_ok hg
    have hpem : (encodeAscii v.certificatePem).bind Γ.loadPem = some leaf := hleaf
    rw [Version.fingerprint, hpem]
    rfl
  · cases h

/-- The version is one `_find_matching_pending` looks at. -/
def Eligible (r : Resource) (v : Version) : Prop := isPendingOrLatest (r.shown v) = true

theorem eligible_iff {v : Version} : Eligible r v ↔ Stage.pending ∈ v.stages ∨ Stage.latest ∈ v.stages := by
  unfold Eligible isPendingOrLatest Resource.shown Resource.stagesOf
  simp only [Bool.or_eq_true, List.contains_iff_mem]
  split <;> simp

/-- What a matching candidate is: an eligible version that carries the fingerprint. -/
def Matches (Γ : Ctx) (r : Resource) (F : String) (c : OciCertificateVersion) : Prop :=
  ∃ v ∈ r.versions.rows, c.versionNumber = v.number ∧ Eligible r v ∧ v.fingerprint Γ = some F

/-- Two versions with one number are one version. -/
theorem eq_of_number {u v : Version} (hu : u ∈ r.versions.rows) (hv : v ∈ r.versions.rows) (h : u.number = v.number) :
    u = v :=
  Table.eq_of_key_eq hu hv h

/-- The loop, over the part of the listing that is left: it returns a matching candidate, or no eligible version in that part
carries the fingerprint. -/
theorem firstMatching_spec (requestId : String) (l : List OciCertificateVersion)
    (hl : ∀ c ∈ l, ∃ v ∈ r.versions.rows, c = r.shown v) :
    Triple (service Γ faults) (At id r m) (firstMatching Γ id certificate config F now requestId l)
      (fun found w => At id r m w ∧ match found with
        | some c => Matches Γ r F c
        | none => ∀ v ∈ r.versions.rows, r.shown v ∈ l → Eligible r v → v.fingerprint Γ ≠ some F)
      (fun _ => At id r m) (At id r m) := by
  induction l with
  | nil => exact Triple.ret (fun w hw => ⟨hw, by simp⟩) fun w hw => hw
  | cons c rest ih =>
    obtain ⟨v, hv, rfl⟩ := hl c List.mem_cons_self
    have ih' := ih fun c hc => hl c (List.mem_cons_of_mem _ hc)
    have hnumber : ∀ u ∈ r.versions.rows, r.shown u = r.shown v → u = v := fun u hu h =>
      eq_of_number hu hv (congrArg OciCertificateVersion.versionNumber h)
    by_cases he : isPendingOrLatest (r.shown v) = true
    · rw [firstMatching, if_pos he]
      refine Triple.bind (getPublicBundle_spec _ requestId) fun b => Triple.assume ?_
      rintro ⟨u, hu, hn, rfl⟩
      obtain rfl : u = v := eq_of_number hu hv hn
      refine Triple.bind (R := fun f w => At id r m w ∧ u.fingerprint Γ = some f)
        (Triple.ofExcept (fun f w hf hw => ⟨hw, verifyBundle_fingerprint hf⟩) (fun _ _ hw => hw) fun _ hw => hw)
        fun f => Triple.assume fun hf => ?_
      split
      · rename_i hF
        exact Triple.ret (fun w hw => ⟨hw, u, hu, rfl, he, hF ▸ hf⟩) fun w hw => hw
      · rename_i hF
        refine ih'.post ?_
        rintro (_ | c) w ⟨hw, hc⟩
        · refine ⟨hw, fun x hx hmem hel => ?_⟩
          rcases List.mem_cons.1 hmem with h | h
          · rw [hnumber x hx h, hf]
            exact fun h => hF (Option.some.inj h)
          · exact hc x hx h hel
        · exact ⟨hw, hc⟩
    · rw [firstMatching, if_neg he]
      refine ih'.post ?_
      rintro (_ | c) w ⟨hw, hc⟩
      · refine ⟨hw, fun x hx hmem hel => ?_⟩
        rcases List.mem_cons.1 hmem with h | h
        · rw [hnumber x hx h] at hel
          exact absurd hel he
        · exact hc x hx h hel
      · exact ⟨hw, hc⟩

/-- `_find_matching_pending` returns a matching candidate, or no eligible version carries the fingerprint. -/
theorem findMatchingPending_spec (requestId : String) :
    Triple (service Γ faults) (At id r m) (findMatchingPending Γ id certificate config F now requestId)
      (fun found w => At id r m w ∧ match found with
        | some c => Matches Γ r F c
        | none => ∀ v ∈ r.versions.rows, Eligible r v → v.fingerprint Γ ≠ some F)
      (fun _ => At id r m) (At id r m) := by
  refine Triple.bind (listVersions_spec requestId) fun l => Triple.assume fun hl => ?_
  have hmem : ∀ c, c ∈ l ↔ ∃ v ∈ r.versions.rows, r.shown v = c := fun c => by rw [hl.mem_iff, List.mem_map]
  refine (firstMatching_spec requestId l fun c hc => ?_).post ?_
  · obtain ⟨v, hv, h⟩ := (hmem c).1 hc
    exact ⟨v, hv, h.symm⟩
  · rintro (_ | c) w ⟨hw, hc⟩
    · exact ⟨hw, fun v hv hel => hc v hv ((hmem _).2 ⟨v, hv, rfl⟩) hel⟩
    · exact ⟨hw, hc⟩

/-! ## Mutations -/

/-- The certificate after an accepted upload of the imported files. -/
def UploadedFrom (id : String) (r : Resource) (m : List Mutation) (imported : ImportedVersion) (r' : Resource)
    (m' : List Mutation) : Prop :=
  ∃ v : Version, v.holds imported ∧ r.upload v = some r' ∧ m' = m ++ [.uploaded id v.number]

/-- The certificate once version `n` is CURRENT: it was before, or its promotion was accepted. -/
def PromotedFrom (id : String) (r : Resource) (m : List Mutation) (n : Int) (r' : Resource) (m' : List Mutation) :
    Prop :=
  (r' = r ∧ m' = m ∧ r.current = n) ∨ (r.current ≠ n ∧ r.promote n = some r' ∧ m' = m ++ [.promoted id n])

theorem PromotedFrom.current {n : Int} {r' : Resource} {m' : List Mutation} (h : PromotedFrom id r m n r' m') :
    r'.current = n := by
  rcases h with ⟨rfl, -, hn⟩ | ⟨-, hp, -⟩
  · exact hn
  · exact (Resource.promote_eq_some hp).2.1

/-- A mutation takes effect or not, and may raise either way. -/
theorem perform_mutation {op : Op} (ho : op.observes = false) {K : Resource → List Mutation → Prop}
    (hK : ∀ w reply w', At id r m w → w.Step Γ op reply w' → On id K w') :
    Triple (service Γ faults) (At id r m) (perform op) (fun _ => On id K) (fun _ w => At id r m w ∨ On id K w)
      (fun w => At id r m w ∨ On id K w) := by
  refine Triple.perform (fun w hw => Or.inl hw) ?_ ?_
  · intro w a w' hw h
    unfold service at h
    rw [if_neg (by simp [ho])] at h
    exact ⟨hK w a w' hw h, Or.inr (hK w a w' hw h)⟩
  · intro w x w' hw h
    have h' : At id r m w' ∨ On id K w' := by
      unfold service at h
      rw [if_neg (by simp [ho])] at h
      rcases h.2 with rfl | ⟨reply, hs⟩
      · exact Or.inl hw
      · exact Or.inr (hK w reply w' hw hs)
    exact ⟨h', h'⟩

theorem upload_spec (etag : Option String) (imported : ImportedVersion) (requestId : String) :
    Triple (service Γ faults) (At id r m) (perform (.uploadPendingVersion id etag imported requestId))
      (fun _ => On id (UploadedFrom id r m imported))
      (fun _ w => At id r m w ∨ On id (UploadedFrom id r m imported) w)
      (fun w => At id r m w ∨ On id (UploadedFrom id r m imported) w) := by
  refine perform_mutation (by rfl) ?_
  rintro w _ w' ⟨hc, hm⟩ ⟨r₁, r', v, hr, hv, hu, rfl⟩
  rw [hc] at hr
  cases hr
  exact on_intro ⟨by simp, by simp [hm]⟩ ⟨v, hv, hu, rfl⟩

theorem promote_spec {n : Int} (hn : r.current ≠ n) (etag : Option String) (requestId : String) :
    Triple (service Γ faults) (At id r m) (perform (.promoteCurrent id n etag requestId))
      (fun _ => On id (PromotedFrom id r m n)) (fun _ w => At id r m w ∨ On id (PromotedFrom id r m n) w)
      (fun w => At id r m w ∨ On id (PromotedFrom id r m n) w) := by
  refine perform_mutation (by rfl) ?_
  rintro w _ w' ⟨hc, hm⟩ ⟨r₁, r', hr, hp, rfl⟩
  rw [hc] at hr
  cases hr
  exact on_intro ⟨by simp, by simp [hm]⟩ (Or.inr ⟨hn, hp, rfl⟩)

/-- Where the version is CURRENT, the promotion loop does nothing. -/
theorem attempts_of_current {n : Int} (hn : r.current = n) (policy : ReadRetryPolicy) (requestId : String) :
    ∀ remaining, Triple (service Γ faults) (At id r m)
      (promoteCurrent.attempts policy id n requestId remaining) (fun _ => At id r m) (fun _ => At id r m) (At id r m)
  | 0 => Triple.raise (fun _ hw => hw) fun _ hw => hw
  | remaining + 1 => by
    refine Triple.bind (getCertificate_spec requestId) fun c => Triple.assume fun hc => ?_
    rw [if_pos (hc.trans (congrArg some hn))]
    exact Triple.ret (fun _ hw => hw) fun _ hw => hw

/-- The promotion loop: whatever it answers, the certificate is as it was or the version was promoted, once; when it returns, the
version is CURRENT. -/
theorem promoteCurrent_spec (n : Int) (requestId : String) :
    Triple (service Γ faults) (At id r m) (promoteCurrent config id n requestId)
      (fun _ => On id (PromotedFrom id r m n)) (fun _ w => At id r m w ∨ On id (PromotedFrom id r m n) w)
      (fun w => At id r m w ∨ On id (PromotedFrom id r m n) w) := by
  unfold promoteCurrent
  induction (promotionPolicy config).maxAttempts with
  | zero => exact Triple.raise (fun _ hw => Or.inl hw) fun _ hw => Or.inl hw
  | succ remaining ih =>
    refine Triple.bind (R := fun c w => At id r m w ∧ c.currentVersionNumber = some r.current)
      ((getCertificate_spec requestId).conseq (fun _ hw => hw) (fun _ _ hw => hw) (fun _ _ hw => Or.inl hw)
        fun _ hw => Or.inl hw) fun c => Triple.assume fun hc => ?_
    split
    · rename_i hcn
      have hn : r.current = n := Option.some.inj (hc.symm.trans hcn)
      exact Triple.ret (fun _ hw => on_intro hw (Or.inl ⟨rfl, rfl, hn⟩)) fun _ hw => Or.inl hw
    · rename_i hcn
      have hn : r.current ≠ n := fun h => hcn (hc.trans (congrArg some h))
      refine Triple.bind (Triple.attempt (promote_spec hn _ requestId) (fun _ _ hw => Or.inr hw) fun _ _ hw => hw) ?_
      rintro (error | _)
      · simp only
        split
        · -- The next attempt starts where the failed promotion left the certificate.
          have hsleep := uses_sleepFor pauses_reads (promotionPolicy config)
            ((promotionPolicy config).maxAttempts - (remaining + 1)) none
          refine Triple.or ?_ (Triple.on fun r' m' hp => ?_)
          · exact Triple.bind ((at_frame hsleep).conseq (fun _ hw => hw) (fun _ _ hw => hw) (fun _ _ hw => Or.inl hw)
              fun _ hw => Or.inl hw) fun _ => ih
          · refine (Triple.bind (at_frame hsleep) fun _ => attempts_of_current hp.current _ requestId _).conseq
              (fun _ hw => hw) (fun _ _ hw => on_intro hw hp) (fun _ _ hw => Or.inr (on_intro hw hp))
              fun _ hw => Or.inr (on_intro hw hp)
        · exact Triple.raise (fun _ hw => hw) fun _ hw => hw
      · exact Triple.ret (fun _ hw => hw) fun _ hw => Or.inr hw

/-! ## Invariants of a reconciliation -/

/-- The version carries the fingerprint. -/
def Carries (Γ : Ctx) (F : String) (v : Version) : Prop := v.fingerprint Γ = some F

/-- CURRENT carries the fingerprint. -/
def CurrentIs (Γ : Ctx) (F : String) (r : Resource) : Prop :=
  ∃ v ∈ r.versions.rows, v.number = r.current ∧ Carries Γ F v

/-- What the mutations of a reconciliation keep: an upload where neither CURRENT nor an eligible version carries the fingerprint,
and the promotion of a matching candidate that is not CURRENT. -/
structure Maintains (Γ : Ctx) (id F : String) (leafPem : Bytes) (I : Resource → List Mutation → Prop) : Prop where
  upload : ∀ {r m r' v}, I r m → ¬CurrentIs Γ F r → (∀ v ∈ r.versions.rows, Eligible r v → ¬Carries Γ F v) →
    decodeAscii leafPem = some v.certificatePem → r.upload v = some r' → I r' (m ++ [.uploaded id v.number])
  promote : ∀ {r m r' c}, I r m → Matches Γ r F c → r.current ≠ c.versionNumber → r.promote c.versionNumber = some r' →
    I r' (m ++ [.promoted id c.versionNumber])

variable {I : Resource → List Mutation → Prop} {material : LineageMaterial} {chain : OciCertificateChain}
  {operationType : OperationType} {operationId requestId : String}

/-- The candidate is a matching version of the certificate as it then is. -/
theorem obtainCandidate_spec (hI : Maintains Γ id F material.leafPem I) (etag : Option String) (hrm : I r m)
    (hcur : ¬CurrentIs Γ F r) :
    Triple (service Γ faults) (At id r m)
      (obtainCandidate Γ config certificate material chain F now id operationId requestId etag)
      (fun c => On id fun r m => I r m ∧ Matches Γ r F c) (fun _ => On id I) (On id I) := by
  have hat : ∀ w, At id r m w → On id I w := fun w hw => on_intro hw hrm
  refine Triple.bind ((findMatchingPending_spec requestId).conseq (fun _ hw => hw) (fun _ _ hw => hw)
    (fun _ => hat) hat) ?_
  rintro (_ | c)
  · refine Triple.assume fun hnone => ?_
    refine Triple.bind (R := fun _ => At id r m) (Triple.ofExcept (fun _ _ _ hw => hw) (fun _ => hat) hat) fun label => ?_
    have hup : ∀ r' m', UploadedFrom id r m
        { versionName := label
          certificatePem := material.leafPem
          certChainPem := chain.certChainPem
          privateKeyPem := material.privateKeyPem } r' m' → I r' m' := by
      rintro r' m' ⟨v, hv, hu, rfl⟩
      exact hI.upload hrm hcur hnone hv.1 hu
    have hor : ∀ w, (At id r m w ∨ On id (UploadedFrom id r m _) w) → On id I w := fun w hw =>
      hw.elim (hat w) fun ⟨r', m', hw', h⟩ => on_intro hw' (hup r' m' h)
    refine Triple.bind ((upload_spec etag _ requestId).conseq (fun _ hw => hw) (fun _ _ hw => hw) (fun _ => hor) hor)
      fun _ => Triple.on fun r' m' h => ?_
    have hat' : ∀ w, At id r' m' w → On id I w := fun w hw => on_intro hw (hup r' m' h)
    have hframe : ∀ {β : Type} {p : Action β}, p.Uses Op.reads →
        Triple (service Γ faults) (At id r' m') p (fun _ => At id r' m') (fun _ => On id I) (On id I) := fun hp =>
      (at_frame hp).conseq (fun _ hw => hw) (fun _ _ hw => hw) (fun _ => hat') hat'
    refine Triple.bind (hframe (StateStore.uses_transition (footprint_reads certificate.id _) _ _)) fun _ => ?_
    refine Triple.bind (hframe (Program.uses_perform.2 rfl)) fun _ => ?_
    refine Triple.bind ((findMatchingPending_spec requestId).conseq (fun _ hw => hw) (fun _ _ hw => hw)
      (fun _ => hat') hat') ?_
    rintro (_ | c)
    · exact Triple.raise (fun w hw => hat' w hw.1) fun w hw => hat' w hw.1
    · exact Triple.ret (fun w hw => on_intro hw.1 ⟨hup r' m' h, hw.2⟩) fun w hw => hat' w hw.1
  · exact Triple.ret (fun w hw => on_intro hw.1 ⟨hrm, hw.2⟩) fun w hw => hat w hw.1

/-- `_complete` only writes rows, and returns the result it was called for. -/
theorem complete_spec (remoteFingerprint : String) (versionNumber : Int) (changed : Bool) :
    Triple (service Γ faults) (At id r m)
      (complete operationId certificate F remoteFingerprint versionNumber changed operationType)
      (fun result w => At id r m w ∧ result = ⟨certificate.id, versionNumber, F, changed⟩) (fun _ => At id r m)
      (At id r m) := by
  refine Triple.bind (at_frame (StateStore.uses_recordFacts (A := Op.reads) rfl fun _ => rfl)) fun _ => ?_
  refine Triple.bind (at_frame (StateStore.uses_completeReconciledOperations (footprint_reads _ operationId) _ _ _)) fun _ => ?_
  refine Triple.bind (at_frame (uses_recordRenewal records_reads)) fun _ => ?_
  refine Triple.bind (at_frame (StateStore.uses_transition (footprint_reads certificate.id _) _ _)) fun _ => ?_
  exact Triple.ret (fun _ hw => ⟨hw, rfl⟩) fun _ hw => hw

/-- The result tells the truth: CURRENT is the version it names, and carries the fingerprint. -/
def Confirmed (Γ : Ctx) (F : String) (certificate : CertificateConfig) (result : PublicationResult) (r : Resource) :
    Prop :=
  CurrentIs Γ F r ∧ result.certificateId = certificate.id ∧ result.currentVersionNumber = r.current ∧
    result.localFingerprint = F

theorem promoteAndConfirm_spec (hI : Maintains Γ id F material.leafPem I) {c : OciCertificateVersion} (hrm : I r m)
    (hc : Matches Γ r F c) :
    Triple (service Γ faults) (At id r m)
      (promoteAndConfirm Γ config certificate F now operationType id operationId requestId c)
      (fun result => On id fun r m => I r m ∧ Confirmed Γ F certificate result r) (fun _ => On id I) (On id I) := by
  have hat : ∀ w, At id r m w → On id I w := fun w hw => on_intro hw hrm
  have hframe : ∀ {β : Type} {p : Action β}, p.Uses Op.reads →
      Triple (service Γ faults) (At id r m) p (fun _ => At id r m) (fun _ => On id I) (On id I) := fun hp =>
    (at_frame hp).conseq (fun _ hw => hw) (fun _ _ hw => hw) (fun _ => hat) hat
  refine Triple.bind (hframe (StateStore.uses_transition (footprint_reads certificate.id _) _ _)) fun _ => ?_
  refine Triple.bind (hframe (Program.uses_perform.2 rfl)) fun _ => ?_
  have hkept : ∀ r' m', PromotedFrom id r m c.versionNumber r' m' → I r' m' := by
    rintro r' m' (⟨rfl, rfl, -⟩ | ⟨hn, hp, rfl⟩)
    · exact hrm
    · exact hI.promote hrm hc hn hp
  have hor : ∀ w, (At id r m w ∨ On id (PromotedFrom id r m c.versionNumber) w) → On id I w := fun w hw =>
    hw.elim (hat w) fun ⟨r', m', hw', h⟩ => on_intro hw' (hkept r' m' h)
  refine Triple.bind ((promoteCurrent_spec _ requestId).conseq (fun _ hw => hw) (fun _ _ hw => hw) (fun _ => hor) hor)
    fun _ => Triple.on fun r' m' h => ?_
  refine Triple.conseq (E := fun _ => At id r' m') (C := At id r' m')
    (Q := fun result w => At id r' m' w ∧ Confirmed Γ F certificate result r') ?_ (fun _ hw => hw)
    (fun _ _ hw => on_intro hw.1 ⟨hkept r' m' h, hw.2⟩) (fun _ _ hw => on_intro hw (hkept r' m' h))
    fun _ hw => on_intro hw (hkept r' m' h)
  refine Triple.bind (at_frame (Program.uses_perform.2 rfl)) fun _ => ?_
  refine Triple.bind (retryReadUntilSync_spec _ _ (getPublicBundle_spec none requestId)) fun b => Triple.assume ?_
  rintro ⟨v, hv, hn, rfl⟩
  refine Triple.bind (R := fun f w => At id r' m' w ∧ Carries Γ f v)
    (Triple.ofExcept (fun f w hf hw => ⟨hw, verifyBundle_fingerprint hf⟩) (fun _ _ hw => hw) fun _ hw => hw)
    fun f => Triple.assume fun hf => ?_
  split
  · exact Triple.raise (fun _ hw => hw) fun _ hw => hw
  · rename_i hF
    obtain rfl : f = F := not_not.1 hF
    refine Triple.bind (at_frame (StateStore.uses_transition (footprint_reads certificate.id _) _ _)) fun _ => ?_
    refine Triple.bind (at_frame (Program.uses_perform.2 rfl)) fun _ => ?_
    refine (complete_spec f _ true).post ?_
    rintro result w ⟨hw, rfl⟩
    exact ⟨hw, ⟨v, hv, hn, hf⟩, rfl, hn, rfl⟩

/-- What a reconciliation does to the certificate: it keeps every invariant its two mutations keep, wherever it is cut, and a
result it returns is true. -/
theorem reconcile_spec (hI : Maintains Γ id F material.leafPem I) :
    Triple (service Γ faults) (On id I)
      (reconcile Γ config certificate material chain F now operationType id operationId)
      (fun result => On id fun r m => I r m ∧ Confirmed Γ F certificate result r) (fun _ => On id I) (On id I) := by
  refine Triple.on fun r m hrm => ?_
  have hat : ∀ w, At id r m w → On id I w := fun w hw => on_intro hw hrm
  have hframe : ∀ {β : Type} {p : Action β}, p.Uses Op.reads →
      Triple (service Γ faults) (At id r m) p (fun _ => At id r m) (fun _ => On id I) (On id I) := fun hp =>
    (at_frame hp).conseq (fun _ hw => hw) (fun _ _ hw => hw) (fun _ => hat) hat
  refine Triple.bind (hframe (Program.uses_perform.2 rfl)) fun requestId => ?_
  refine Triple.bind (hframe (Program.uses_perform.2 rfl)) fun remote => ?_
  refine Triple.bind ((getPublicBundle_spec none requestId).conseq (fun _ hw => hw) (fun _ _ hw => hw) (fun _ => hat) hat)
    fun b => Triple.assume ?_
  rintro ⟨v, hv, hn, rfl⟩
  refine Triple.bind (R := fun f w => At id r m w ∧ Carries Γ f v)
    (Triple.ofExcept (fun f w hf hw => ⟨hw, verifyBundle_fingerprint hf⟩) (fun _ => hat) hat) fun f =>
    Triple.assume fun hf => ?_
  refine Triple.bind (hframe (StateStore.uses_transition (footprint_reads certificate.id _) _ _)) fun _ => ?_
  split
  · rename_i hF
    subst hF
    refine Triple.bind (hframe (Program.uses_perform.2 rfl)) fun _ => ?_
    refine (complete_spec f _ false).conseq (fun _ hw => hw) ?_ (fun _ => hat) hat
    rintro result w ⟨hw, rfl⟩
    exact on_intro hw ⟨hrm, ⟨v, hv, hn, hf⟩, rfl, hn, rfl⟩
  · rename_i hF
    have hcur : ¬CurrentIs Γ F r := by
      rintro ⟨u, hu, hun, hcar⟩
      obtain rfl : u = v := eq_of_number hu hv (hun.trans hn.symm)
      exact hF (Option.some.inj (hf.symm.trans hcar))
    refine Triple.bind (obtainCandidate_spec hI remote.etag hrm hcur) fun c => Triple.on fun r' m' h => ?_
    exact promoteAndConfirm_spec hI h.1 h.2

theorem publish_spec (hid : certificate.oci.certificateOcid = some id) (hI : Maintains Γ id F material.leafPem I) :
    Triple (service Γ faults) (On id I) (publish Γ config certificate material chain F now operationType)
      (fun result => On id fun r m => I r m ∧ Confirmed Γ F certificate result r) (fun _ => On id I) (On id I) := by
  unfold publish
  rw [hid]
  have hstart := StateStore.uses_startOperation (A := Op.reads) rfl rfl certificate.id operationType (some F) (some id)
    fun _ _ _ _ _ => rfl
  exact Triple.bind (on_frame hstart) fun _ => reconcile_spec hI

end PublicationReconciler

end OciAcmePublisher
