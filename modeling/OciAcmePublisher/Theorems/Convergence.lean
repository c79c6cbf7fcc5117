import OciAcmePublisher.Theorems.Reentry

/-!
# Convergence of a publication

Where every call succeeds, a publication converges if the leaves it meets pass validation: CURRENT's, and, when CURRENT does not
carry the fingerprint yet, those of the PENDING and LATEST versions. It does not converge from every remote state: a version that
fails validation stops it before it mutates anything.
-/

namespace OciAcmePublisher

open Effects Tables PublicationReconciler ReentryAux

namespace ConvergenceAux

variable {Γ : Ctx} {id : String} {r : Resource} {m : List Mutation} {α : Type} {operationId : String}

/-- The operation has a row. -/
def HasRow (operationId : String) (db : Database) : Prop :=
  ∃ row ∈ db.operations.rows, row.operationId = operationId

/-- Every run returns, from a world with `P` to one with `Q`. -/
abbrev Returns (Γ : Ctx) (P : World → Prop) (p : Action α) (Q : α → World → Prop) : Prop :=
  Triple (service Γ noFaults) P p Q (fun _ _ => False) fun _ => True

/-- An operation that takes effect returns. -/
theorem perform_returns {op : Op} (ho : op.observes = false) {P : World → Prop} {Q : op.Reply → World → Prop}
    (hQ : ∀ w a w', P w → w.Step Γ op a w' → Q a w') : Returns Γ P (perform op) Q := by
  refine Triple.perform (fun _ _ => trivial) ?_ ?_
  · intro w a w' hw h
    unfold service at h
    rw [if_neg (by simp [ho])] at h
    exact ⟨hQ w a w' hw h, trivial⟩
  · intro w x w' _ h
    unfold service at h
    rw [if_neg (by simp [ho])] at h
    exact h.1.elim

/-- The certificate is `r`, `m` was accepted, and the operation has its row. -/
def Ready (id : String) (r : Resource) (m : List Mutation) (operationId : String) (w : World) : Prop :=
  At id r m w ∧ HasRow operationId w.database

/-- An operation that neither mutates OCI nor executes a statement keeps all of it. -/
theorem ready_perform {op : Op} (hm : op.reads) (hd : op.leavesDatabase) (ho : op.observes = false) :
    Returns Γ (Ready id r m operationId) (perform op) (fun _ => Ready id r m operationId) := by
  refine perform_returns ho fun w a w' hw h => ?_
  obtain ⟨hc, hmut⟩ := h.certificates hm
  refine ⟨⟨hc ▸ hw.1.1, hmut ▸ hw.1.2⟩, ?_⟩
  rw [h.database hd]
  exact hw.2

/-- What is known of the results of a program is known of it where it returns. -/
theorem ready_and {p : Action α} {φ : α → Prop} {E : Exc → World → Prop} {C : World → Prop}
    (h : Returns Γ (Ready id r m operationId) p (fun _ => Ready id r m operationId))
    (hspec : Triple (service Γ noFaults) (At id r m) p (fun a w => At id r m w ∧ φ a) E C) :
    Returns Γ (Ready id r m operationId) p (fun a w => Ready id r m operationId w ∧ φ a) :=
  (h.and hspec).conseq (fun _ hw => ⟨hw, hw.1⟩) (fun _ _ hw => ⟨hw.1, hw.2.2⟩) (fun _ _ hw => hw.1) fun _ _ => trivial

/-- A statement that keeps the row of the operation keeps all of it. -/
theorem ready_sql {statement : Statement} {φ : statement.Reply → Prop}
    (hs : ∀ db reply db', HasRow operationId db → db.Step statement reply db' → HasRow operationId db' ∧ φ reply) :
    Returns Γ (Ready id r m operationId) (sql statement) (fun a w => Ready id r m operationId w ∧ φ a) := by
  refine perform_returns rfl fun w a w' hw h => ?_
  obtain ⟨db, hstep, rfl⟩ := h
  exact ⟨⟨hw.1, (hs _ _ _ hw.2 hstep).1⟩, (hs _ _ _ hw.2 hstep).2⟩

theorem ready_utcNow : Returns Γ (Ready id r m operationId) utcNow (fun _ => Ready id r m operationId) :=
  Triple.bind (ready_perform rfl rfl rfl) fun _ => Triple.ret (fun _ hw => hw) fun _ _ => trivial

/-- An update of the operations keeps the row of the operation. -/
theorem hasRow_updateOperations {db : Database} {p : OperationRow → Bool} {f : OperationRow → OperationRow}
    {hf : ∀ r, (f r).operationId = r.operationId} (h : HasRow operationId db) :
    HasRow operationId (db.updateOperations p f hf) := by
  obtain ⟨row, hrow, hid⟩ := h
  cases hp : p row with
  | true => exact ⟨f row, mem_updateOperations.2 (Or.inl ⟨row, hrow, hp, rfl⟩), (hf row).trans hid⟩
  | false => exact ⟨row, mem_updateOperations.2 (Or.inr ⟨hrow, hp⟩), hid⟩

theorem transition_returns (state : OperationState) (fields : TransitionFields) :
    Returns Γ (Ready id r m operationId) (StateStore.transition operationId state fields)
      (fun _ => Ready id r m operationId) := by
  refine Triple.bind (R := fun _ => Ready id r m operationId) ?_ fun completed => ?_
  · unfold StateStore.completedAt
    split
    · exact Triple.bind ready_utcNow fun _ => Triple.ret (fun _ hw => hw) fun _ _ => trivial
    · exact Triple.ret (fun _ hw => hw) fun _ _ => trivial
  refine Triple.bind ready_utcNow fun updated => ?_
  refine Triple.bind (ready_sql (φ := fun n => n = 1) ?_) fun n => Triple.assume fun hn => ?_
  · rintro db n db' ⟨row, hrow, rfl⟩ ⟨hn, rfl⟩
    exact ⟨hasRow_updateOperations ⟨row, hrow, rfl⟩, hn.trans (Table.countWhere_key hrow)⟩
  · rw [if_pos hn]
    exact Triple.ret (fun _ hw => hw) fun _ _ => trivial

theorem startOperation_returns (certificateId : String) (operationType : OperationType)
    (localFingerprint ociCertificateOcid : Option String) :
    Returns Γ (At id r m) (StateStore.startOperation certificateId operationType localFingerprint ociCertificateOcid)
      (fun operation => Ready id r m operation.operationId) := by
  have hskip : ∀ {op : Op}, op.reads → op.observes = false →
      Returns Γ (At id r m) (perform op) (fun _ => At id r m) := fun hm ho =>
    perform_returns ho fun w a w' hw h => by
      obtain ⟨hc, hmut⟩ := h.certificates hm
      exact ⟨hc ▸ hw.1, hmut ▸ hw.2⟩
  refine Triple.bind (hskip rfl rfl) fun operationId => ?_
  refine Triple.bind (R := fun _ => At id r m) ?_ fun now => ?_
  · exact Triple.bind (hskip rfl rfl) fun _ => Triple.ret (fun _ hw => hw) fun _ _ => trivial
  refine Triple.bind (R := fun _ => Ready id r m operationId) ?_ fun _ => ?_
  · refine perform_returns rfl ?_
    rintro w _ w' hw ⟨db, ⟨t, ht, rfl⟩, rfl⟩
    have hrows := (Table.insert_eq_some_iff.1 ht).2
    refine ⟨hw, ?_⟩
    unfold HasRow
    simp only [hrows]
    exact ⟨_, List.mem_append_right _ (List.mem_singleton_self _), rfl⟩
  · exact Triple.ret (fun _ hw => hw) fun _ _ => trivial

theorem recordFacts_returns (certificateId : String) (update : FactUpdate) :
    Returns Γ (Ready id r m operationId) (StateStore.recordFacts certificateId update)
      (fun _ => Ready id r m operationId) := by
  refine Triple.bind ready_utcNow fun now => ?_
  refine (ready_sql (φ := fun _ => True) ?_).post fun _ _ hw => hw.1
  rintro db _ db' hdb rfl
  exact ⟨hdb, trivial⟩

theorem complete_returns (certificate : CertificateConfig) (F remoteFingerprint : String) (versionNumber : Int)
    (changed : Bool) (operationType : OperationType) :
    Returns Γ (Ready id r m operationId)
      (complete operationId certificate F remoteFingerprint versionNumber changed operationType)
      (fun _ => Ready id r m operationId) := by
  refine Triple.bind (recordFacts_returns _ _) fun _ => ?_
  refine Triple.bind (R := fun _ => Ready id r m operationId) ?_ fun _ => ?_
  · refine Triple.bind ready_utcNow fun now => ?_
    refine (ready_sql (φ := fun _ => True) ?_).post fun _ _ hw => hw.1
    rintro db n db' hdb ⟨-, rfl⟩
    exact ⟨hasRow_updateOperations hdb, trivial⟩
  refine Triple.bind (R := fun _ => Ready id r m operationId) ?_ fun _ => ?_
  · unfold recordRenewal
    split
    · exact recordFacts_returns _ _
    · exact Triple.ret (fun _ hw => hw) fun _ _ => trivial
  refine Triple.bind (transition_returns _ _) fun _ => ?_
  exact Triple.ret (fun _ hw => hw) fun _ _ => trivial

/-! ## The leaves a publication meets -/

variable {certificate : CertificateConfig} {config : AppConfig} {now : Instant} {F requestId : String}

/-- Every eligible version passes validation. -/
def EligibleValid (Γ : Ctx) (certificate : CertificateConfig) (config : AppConfig) (now : Instant) (r : Resource) :
    Prop :=
  ∀ v ∈ r.versions.rows, Eligible r v → v.valid Γ certificate config now

theorem verifyBundle_of_valid {v : Version} (h : v.valid Γ certificate config now) :
    ∃ f, verifyBundle Γ (r.bundle v) certificate config now = .ok f := by
  obtain ⟨f, hf⟩ := h
  refine ⟨f, ?_⟩
  unfold verifyBundle
  have hpem : (r.bundle v).certificatePem = v.certificatePem := rfl
  rw [hpem, hf]

/-- Reading a bundle and verifying it returns, where the versions it may show are valid. -/
theorem verified_returns {number : Option Int}
    (hvalid : ∀ v ∈ r.versions.rows, v.number = number.getD r.current → v.valid Γ certificate config now)
    {β : Type} {f : OciPublicBundle → String → Action β} {Q : β → World → Prop}
    (hf : ∀ v ∈ r.versions.rows, v.number = number.getD r.current → ∀ g,
      verifyBundle Γ (r.bundle v) certificate config now = .ok g →
        Returns Γ (Ready id r m operationId) (f (r.bundle v) g) Q) :
    Returns Γ (Ready id r m operationId)
      ((perform (.getPublicBundle id number requestId)).bind fun b =>
        (ofExcept (verifyBundle Γ b certificate config now)).bind (f b)) Q := by
  refine Triple.bind (ready_and (ready_perform rfl rfl rfl) (getPublicBundle_spec number requestId))
    fun b => Triple.assume ?_
  rintro ⟨v, hv, hn, rfl⟩
  obtain ⟨g, hg⟩ := verifyBundle_of_valid (r := r) (hvalid v hv hn)
  rw [hg]
  exact hf v hv hn g hg

theorem firstMatching_returns (hvalid : EligibleValid Γ certificate config now r) (l : List OciCertificateVersion)
    (hl : ∀ c ∈ l, ∃ v ∈ r.versions.rows, c = r.shown v) :
    Returns Γ (Ready id r m operationId) (firstMatching Γ id certificate config F now requestId l)
      (fun _ => Ready id r m operationId) := by
  induction l with
  | nil => exact Triple.ret (fun _ hw => hw) fun _ _ => trivial
  | cons c rest ih =>
    obtain ⟨v, hv, rfl⟩ := hl c List.mem_cons_self
    have ih' := ih fun c hc => hl c (List.mem_cons_of_mem _ hc)
    by_cases he : isPendingOrLatest (r.shown v) = true
    · rw [firstMatching, if_pos he]
      have hone : ∀ u ∈ r.versions.rows, u.number = (some (r.shown v).versionNumber).getD r.current → u = v :=
        fun u hu hn => eq_of_number hu hv hn
      refine verified_returns (fun u hu hn => ?_) fun u hu hn g hg => ?_
      · rw [hone u hu hn]
        exact hvalid v hv he
      · split
        · exact Triple.ret (fun _ hw => hw) fun _ _ => trivial
        · exact ih'
    · rw [firstMatching, if_neg he]
      exact ih'

/-- The search returns, with what the search finds. -/
theorem findMatchingPending_returns (hvalid : EligibleValid Γ certificate config now r) :
    Returns Γ (Ready id r m operationId) (findMatchingPending Γ id certificate config F now requestId)
      (fun found w => Ready id r m operationId w ∧ match found with
        | some c => Matches Γ r F c
        | none => ∀ v ∈ r.versions.rows, Eligible r v → v.fingerprint Γ ≠ some F) := by
  have hreturns : Returns Γ (Ready id r m operationId) (findMatchingPending Γ id certificate config F now requestId)
      (fun _ => Ready id r m operationId) := by
    refine Triple.bind (ready_and (ready_perform rfl rfl rfl) (listVersions_spec requestId))
      fun l => Triple.assume fun hl => ?_
    refine firstMatching_returns hvalid l fun c hc => ?_
    obtain ⟨v, hv, h⟩ := List.mem_map.1 (hl.mem_iff.1 hc)
    exact ⟨v, hv, h.symm⟩
  exact ready_and hreturns (findMatchingPending_spec requestId)

/-! ## Mutations -/

/-- The operation has its row, and the certificate and the log are as `K` says. -/
def ReadyOn (id operationId : String) (K : Resource → List Mutation → Prop) (w : World) : Prop :=
  ∃ r m, Ready id r m operationId w ∧ K r m

theorem ReadyOn.elim {K : Resource → List Mutation → Prop} {p : Action α} {Q : α → World → Prop}
    (h : ∀ r m, K r m → Returns Γ (Ready id r m operationId) p Q) : Returns Γ (ReadyOn id operationId K) p Q :=
  fun w ⟨r, m, hw, hK⟩ => h r m hK w hw

theorem upload_returns (etag : Option String) (imported : ImportedVersion) :
    Returns Γ (Ready id r m operationId) (perform (.uploadPendingVersion id etag imported requestId))
      (fun _ => ReadyOn id operationId (UploadedFrom id r m imported)) := by
  refine perform_returns rfl ?_
  rintro w _ w' ⟨⟨hc, hm⟩, hrow⟩ ⟨r₁, r', v, hr, hv, hu, rfl⟩
  rw [hc] at hr
  cases hr
  exact ⟨r', _, ⟨⟨by simp, by simp [hm]⟩, hrow⟩, v, hv, hu, rfl⟩

theorem promote_returns {n : Int} (hn : r.current ≠ n) (etag : Option String) :
    Returns Γ (Ready id r m operationId) (perform (.promoteCurrent id n etag requestId))
      (fun _ => ReadyOn id operationId (PromotedFrom id r m n)) := by
  refine perform_returns rfl ?_
  rintro w _ w' ⟨⟨hc, hm⟩, hrow⟩ ⟨r₁, r', hr, hp, rfl⟩
  rw [hc] at hr
  cases hr
  exact ⟨r', _, ⟨⟨by simp, by simp [hm]⟩, hrow⟩, Or.inr ⟨hn, hp, rfl⟩⟩

/-- The first attempt of the promotion returns. -/
theorem promoteCurrent_returns (n : Int) :
    Returns Γ (Ready id r m operationId) (promoteCurrent config id n requestId)
      (fun _ => ReadyOn id operationId (PromotedFrom id r m n)) := by
  unfold promoteCurrent
  obtain ⟨k, hk⟩ : ∃ k, (promotionPolicy config).maxAttempts = k + 1 :=
    Nat.exists_eq_succ_of_ne_zero (Nat.pos_iff_ne_zero.1 config.oci.mutationReconciliationAttempts_pos)
  rw [hk]
  refine Triple.bind (ready_and (ready_perform rfl rfl rfl) (getCertificate_spec requestId)) fun c =>
    Triple.assume fun hc => ?_
  split
  · rename_i hcn
    have hn : r.current = n := Option.some.inj (hc.symm.trans hcn)
    exact Triple.ret (fun _ hw => ⟨r, m, hw, Or.inl ⟨rfl, rfl, hn⟩⟩) fun _ _ => trivial
  · rename_i hcn
    have hn : r.current ≠ n := fun h => hcn (hc.trans (congrArg some h))
    refine Triple.bind (Triple.attempt (promote_returns hn _) (fun _ _ _ => trivial) fun _ _ _ => trivial) ?_
    rintro (error | _)
    · exact fun _ hw => hw.elim
    · exact Triple.ret (fun _ hw => hw) fun _ _ => trivial

theorem sleepFor_returns (policy : ReadRetryPolicy) (attempt : Nat) :
    Returns Γ (Ready id r m operationId) (sleepFor policy attempt none) (fun _ => Ready id r m operationId) :=
  Triple.bind (ready_perform rfl rfl rfl) fun _ => ready_perform rfl rfl rfl

/-- A retried read that may be tried once returns. -/
theorem retryReadUntilSync_returns {operation : Action α} {φ : α → Prop} {accepted : α → Bool} {policy : ReadRetryPolicy}
    (hpos : 0 < policy.maxAttempts)
    (h : Returns Γ (Ready id r m operationId) operation (fun a w => Ready id r m operationId w ∧ φ a)) :
    Returns Γ (Ready id r m operationId) (retryReadUntilSync operation accepted policy)
      (fun a w => Ready id r m operationId w ∧ φ a) := by
  unfold retryReadUntilSync
  obtain ⟨k, hk⟩ := Nat.exists_eq_succ_of_ne_zero (Nat.pos_iff_ne_zero.1 hpos)
  rw [hk]
  clear hk
  induction k with
  | zero =>
    refine Triple.bind (Triple.attempt h (fun _ _ _ => trivial) fun _ _ _ => trivial) ?_
    rintro (error | result)
    · exact fun _ hw => hw.elim
    · simp only [or_true, if_true]
      exact Triple.ret (fun _ hw => hw) fun _ _ => trivial
  | succ k ih =>
    refine Triple.bind (Triple.attempt h (fun _ _ _ => trivial) fun _ _ _ => trivial) ?_
    rintro (error | result)
    · exact fun _ hw => hw.elim
    · simp only
      split
      · exact Triple.ret (fun _ hw => hw) fun _ _ => trivial
      · exact Triple.bind ((sleepFor_returns _ _).pre fun _ hw => hw.1) fun _ => ih

/-! ## What the mutations keep -/

theorem Version.valid_congr {u v : Version} (h : u.certificatePem = v.certificatePem)
    (hv : v.valid Γ certificate config now) : u.valid Γ certificate config now := by
  obtain ⟨f, hf⟩ := hv
  exact ⟨f, by rw [h]; exact hf⟩

/-- The CURRENT version after a promotion is the promoted one. -/
theorem pem_of_promoted {n : Int} {r' : Resource} {m' : List Mutation} {u v : Version}
    (h : PromotedFrom id r m n r' m') (hv : v ∈ r.versions.rows) (hvn : v.number = n) (hu : u ∈ r'.versions.rows)
    (hun : u.number = r'.current) : u.certificatePem = v.certificatePem := by
  rw [h.current] at hun
  have hsame : ∀ x ∈ r.versions.rows, x.number = n → x = v := fun x hx hxn => eq_of_number hx hv (hxn.trans hvn.symm)
  rcases h with ⟨rfl, -, -⟩ | ⟨-, hp, -⟩
  · rw [hsame u hu hun]
  · rcases (Resource.promote_eq_some hp).2.2 with rfl | ⟨-, hrows⟩
    · rw [hsame u hu hun]
    · rw [hrows, List.mem_map] at hu
      obtain ⟨x, hx, rfl⟩ := hu
      rw [r.restage_number] at hun
      rw [r.restage_pem, hsame x hx hun]

/-- The leaf file of accepted material makes a valid version. -/
theorem valid_of_material {material : LineageMaterial} (hleaf : Γ.loadPem material.leafPem = some material.leaf)
    (hmaterial : validateCertificateMaterial Γ material certificate config.compatibility config.global now = .ok F)
    {v : Version} (hv : decodeAscii material.leafPem = some v.certificatePem) :
    v.valid Γ certificate config now := by
  refine ⟨F, ?_⟩
  unfold validatePublicCertificate
  rw [encodeAscii_of_decodeAscii hv, Option.bind_some, hleaf]
  exact validatePublicLeaf_of_material hmaterial

/-- After an upload the eligible versions are the new one and some that were eligible before. -/
theorem eligibleValid_upload {r' : Resource} {v : Version} (h : EligibleValid Γ certificate config now r)
    (hv : v.valid Γ certificate config now) (hup : r.upload v = some r') :
    EligibleValid Γ certificate config now r' := by
  obtain ⟨-, hrows, -⟩ := Resource.upload_eq_some hup
  intro u hu hel
  rw [hrows, List.mem_append, List.mem_map, List.mem_singleton] at hu
  rcases hu with ⟨x, hx, rfl⟩ | rfl
  · refine Version.valid_congr (v := x) rfl (h x hx ?_)
    rw [eligible_iff] at hel ⊢
    exact hel.imp (fun h => (List.mem_filter.1 h).1) fun h => (List.mem_filter.1 h).1
  · exact Version.valid_congr (v := v) rfl hv

/-- A fingerprint names its version. -/
theorem versionName_ok (fingerprint : Sha256Hex) : ∃ label, versionName Γ now fingerprint.text = .ok label := by
  have hvalid := fingerprint.valid
  unfold isSha256Hex at hvalid
  rw [Bool.and_eq_true, beq_iff_eq, List.all_eq_true] at hvalid
  have hno : ¬(fingerprint.text.length < 12 ∨
      fingerprint.text.toList.any (fun c => !"0123456789abcdef".toList.contains c) = true) := by
    rintro (hlen | hany)
    · omega
    · obtain ⟨c, hc, hbad⟩ := List.any_eq_true.1 hany
      rw [hvalid.2 c hc] at hbad
      cases hbad
  unfold versionName
  rw [if_neg hno]
  exact ⟨_, rfl⟩

/-! ## The reconciliation -/

variable {material : LineageMaterial} {chain : OciCertificateChain} {operationType : OperationType}

theorem obtainCandidate_returns (hleaf : Γ.loadPem material.leafPem = some material.leaf)
    (hmaterial : validateCertificateMaterial Γ material certificate config.compatibility config.global now =
      .ok (certificateSha256 material.leaf))
    (hvalid : EligibleValid Γ certificate config now r) (etag : Option String) :
    Returns Γ (Ready id r m operationId)
      (obtainCandidate Γ config certificate material chain (certificateSha256 material.leaf) now id operationId requestId
        etag)
      (fun c => ReadyOn id operationId fun r _ =>
        EligibleValid Γ certificate config now r ∧ Matches Γ r (certificateSha256 material.leaf) c) := by
  refine Triple.bind (findMatchingPending_returns hvalid) ?_
  rintro (_ | c)
  · have hname : ∃ label, versionName Γ now (certificateSha256 material.leaf) = .ok label :=
      versionName_ok material.leaf.fingerprint
    obtain ⟨label, hlabel⟩ := hname
    simp only [hlabel]
    refine Triple.bind (R := fun _ => Ready id r m operationId) (Triple.ret (fun _ hw => hw.1) fun _ _ => trivial)
      fun _ => ?_
    refine Triple.bind (upload_returns etag _) fun _ => ReadyOn.elim fun r' m' hup => ?_
    obtain ⟨v, hv, hup, -⟩ := hup
    have hvalid' := eligibleValid_upload hvalid (valid_of_material hleaf hmaterial hv.1) hup
    refine Triple.bind (transition_returns _ _) fun _ => ?_
    refine Triple.bind (ready_perform rfl rfl rfl) fun _ => ?_
    refine Triple.bind (findMatchingPending_returns hvalid') ?_
    rintro (_ | c)
    · -- The uploaded version is eligible and carries the fingerprint, so the second search finds one.
      refine Triple.assume fun hnone => ?_
      have hmem : { v with stages := Resource.uploadedStages } ∈ r'.versions.rows := by
        rw [(Resource.upload_eq_some hup).2.1]
        exact List.mem_append_right _ (List.mem_singleton_self _)
      exact (hnone _ hmem (ReentryAux.eligible_uploaded v) (ReentryAux.carries_of_leafPem hleaf hv.1)).elim
    · exact Triple.ret (fun _ hw => ⟨r', m', hw.1, hvalid', hw.2⟩) fun _ _ => trivial
  · exact Triple.ret (fun _ hw => ⟨r, m, hw.1, hvalid, hw.2⟩) fun _ _ => trivial

theorem promoteAndConfirm_returns {c : OciCertificateVersion} (hvalid : EligibleValid Γ certificate config now r)
    (hc : Matches Γ r F c) :
    Returns Γ (Ready id r m operationId)
      (promoteAndConfirm Γ config certificate F now operationType id operationId requestId c) (fun _ _ => True) := by
  obtain ⟨v, hv, hn, hel, hcar⟩ := hc
  refine Triple.bind (transition_returns _ _) fun _ => ?_
  refine Triple.bind (ready_perform rfl rfl rfl) fun _ => ?_
  refine Triple.bind (promoteCurrent_returns _) fun _ => ReadyOn.elim fun r' m' hp => ?_
  refine Triple.bind (ready_perform rfl rfl rfl) fun _ => ?_
  refine Triple.bind (retryReadUntilSync_returns config.oci.maxReadAttempts_pos
    (ready_and (ready_perform rfl rfl rfl) (getPublicBundle_spec none requestId))) fun b => Triple.assume ?_
  rintro ⟨u, hu, hun, rfl⟩
  have hpem : u.certificatePem = v.certificatePem := pem_of_promoted hp hv hn.symm hu hun
  obtain ⟨f, hf⟩ := verifyBundle_of_valid (r := r') (Version.valid_congr hpem (hvalid v hv hel))
  have hcaru : u.fingerprint Γ = some F := by
    unfold Version.fingerprint at hcar ⊢
    rw [hpem]
    exact hcar
  obtain rfl : f = F := Option.some.inj ((verifyBundle_fingerprint hf).symm.trans hcaru)
  rw [hf]
  refine Triple.bind (R := fun g w => Ready id r' m' operationId w ∧ g = f)
    (Triple.ret (fun _ hw => ⟨hw, rfl⟩) fun _ _ => trivial) fun g => Triple.assume fun hg => ?_
  subst hg
  rw [if_neg (by simp)]
  refine Triple.bind (transition_returns _ _) fun _ => ?_
  refine Triple.bind (ready_perform rfl rfl rfl) fun _ => ?_
  exact (complete_returns _ _ _ _ _ _).post fun _ _ _ => trivial

/-- The publication returns where CURRENT is valid and, unless it carries the fingerprint, the eligible versions are. -/
theorem publish_returns (hid : certificate.oci.certificateOcid = some id)
    (hleaf : Γ.loadPem material.leafPem = some material.leaf)
    (hmaterial : validateCertificateMaterial Γ material certificate config.compatibility config.global now =
      .ok (certificateSha256 material.leaf))
    (hcurrent : ∀ v ∈ r.versions.rows, v.number = r.current → v.valid Γ certificate config now)
    (heligible : CurrentIs Γ (certificateSha256 material.leaf) r ∨ EligibleValid Γ certificate config now r) :
    Returns Γ (At id r m)
      (publish Γ config certificate material chain (certificateSha256 material.leaf) now operationType)
      (fun _ _ => True) := by
  unfold publish
  rw [hid]
  refine Triple.bind (startOperation_returns _ _ _ _) fun operation => ?_
  refine Triple.bind (ready_perform rfl rfl rfl) fun requestId => ?_
  refine Triple.bind (ready_perform rfl rfl rfl) fun remote => ?_
  refine verified_returns hcurrent fun v hv hn f hf => ?_
  refine Triple.bind (transition_returns _ _) fun _ => ?_
  split
  · refine Triple.bind (ready_perform rfl rfl rfl) fun _ => ?_
    exact (complete_returns _ _ _ _ _ _).post fun _ _ _ => trivial
  · rename_i hne
    have hvalid : EligibleValid Γ certificate config now r := by
      refine heligible.resolve_left ?_
      rintro ⟨u, hu, hun, hcar⟩
      obtain rfl : u = v := eq_of_number hu hv (hun.trans hn.symm)
      exact hne (Option.some.inj ((verifyBundle_fingerprint hf).symm.trans hcar))
    refine Triple.bind (obtainCandidate_returns hleaf hmaterial hvalid _) fun c => ReadyOn.elim fun r' m' hc => ?_
    exact promoteAndConfirm_returns hc.1 hc.2

end ConvergenceAux

open ConvergenceAux

/-- Publication converges where it can validate what it meets. With material that passes validation, where every call succeeds,
CURRENT passes `validate_public_certificate` and, unless CURRENT carries the fingerprint of the material already, every PENDING and
LATEST version passes it too: every run that is not cut returns, and CURRENT then carries the fingerprint. -/
theorem publish_converges (Γ : Ctx) (certificate : CertificateConfig) (config : AppConfig) (material : LineageMaterial)
    (chain : OciCertificateChain) (now : Instant) (operationType : OperationType) {id : String}
    (hid : certificate.oci.certificateOcid = some id) (hleaf : Γ.loadPem material.leafPem = some material.leaf)
    (hmaterial : validateCertificateMaterial Γ material certificate config.compatibility config.global now =
      .ok (certificateSha256 material.leaf))
    {w w' : World} {r : Resource} (hr : w.certificates id = some r)
    (hcurrent : ∀ v ∈ r.versions.rows, v.number = r.current → v.valid Γ certificate config now)
    (heligible : CurrentIs Γ (certificateSha256 material.leaf) r ∨
      ∀ v ∈ r.versions.rows, Stage.pending ∈ v.stages ∨ Stage.latest ∈ v.stages → v.valid Γ certificate config now)
    {o : Outcome Exc PublicationResult} (ho : o ≠ .crashed)
    (h : Exec (service Γ noFaults)
      (publish Γ config certificate material chain (certificateSha256 material.leaf) now operationType) w o w') :
    ∃ result r', o = .returned result ∧ w'.certificates id = some r' ∧
      CurrentIs Γ (certificateSha256 material.leaf) r' ∧ result.currentVersionNumber = r'.current := by
  have hel : CurrentIs Γ (certificateSha256 material.leaf) r ∨ EligibleValid Γ certificate config now r :=
    heligible.imp_right fun hv v hmem he => hv v hmem (eligible_iff.1 he)
  have hreturns := publish_returns hid hleaf hmaterial hcurrent hel w ⟨hr, rfl⟩ o w' h
  have hkept : Maintains Γ id (certificateSha256 material.leaf) material.leafPem fun _ _ => True :=
    ⟨fun _ _ _ _ _ => trivial, fun _ _ _ _ => trivial⟩
  have hspec := publish_spec hid hkept w ⟨r, _, ⟨hr, rfl⟩, trivial⟩ o w' h
  cases o with
  | crashed => exact absurd rfl ho
  | raised x => exact hreturns.elim
  | returned result =>
    obtain ⟨r', m', hat, -, hcur, -, hnumber, -⟩ := hspec
    exact ⟨result, r', rfl, hat.1, hcur, hnumber⟩

namespace ConvergenceAux

open Sample

/-- A publication of the sample material on day 100, when version `A` has expired. -/
def lateRun (r : Resource) : Outcome Exc PublicationResult × World :=
  (publish ctx (config certificate) certificate material chain (certificateSha256 (leaf 2)) (days 100) .publish).runFor
    (simulate ctx script) 100 (world r)

end ConvergenceAux

/-- It does not converge from every remote state: with CURRENT expired, and every call succeeding, a publication of valid material
raises and CURRENT stays. -/
theorem publish_converges_false :
    validateCertificateMaterial Sample.ctx Sample.material Sample.certificate (Sample.config Sample.certificate).compatibility
        (Sample.config Sample.certificate).global (days 100) = .ok (certificateSha256 Sample.material.leaf) ∧
      buildOciChain Sample.ctx (some [82]) Sample.material Sample.certificate
        (Sample.config Sample.certificate).compatibility = .ok Sample.chain ∧
      (∀ v ∈ Sample.resource.versions.rows, (v.fingerprint Sample.ctx).isSome = true) ∧
      ∃ x w', Exec (service Sample.ctx noFaults)
        (publish Sample.ctx (Sample.config Sample.certificate) Sample.certificate Sample.material Sample.chain
          (certificateSha256 Sample.material.leaf) (days 100) .publish) (Sample.world Sample.resource) (.raised x) w' ∧
        w'.mutations = [] := by
  refine ⟨by decide +kernel, by decide +kernel, by decide +kernel,
    reconciliationError "OCI public bundle failed local identity validation", (lateRun Sample.resource).2, ?_, ?_⟩
  · exact exec_of_runFor (simulate_allowed Sample.ctx Sample.script noFaults) (by decide +kernel)
  · decide +kernel

theorem ConvergenceAux.sample_valid :
    ∀ v ∈ Sample.resource.versions.rows,
      v.valid Sample.ctx Sample.certificate (Sample.config Sample.certificate) (days 1) := by
  intro v hv
  obtain rfl : v = Sample.version 1 "A" [.latest] := List.mem_singleton.1 hv
  exact ⟨certificateSha256 (Sample.leaf 1), by decide +kernel⟩

/-- On the first day it converges. -/
theorem publish_converges_sample :
    ∃ result r', (sampleRun 100 (Sample.world Sample.resource)).1 = .returned result ∧
      (sampleRun 100 (Sample.world Sample.resource)).2.certificates "ocid" = some r' ∧
        CurrentIs Sample.ctx (certificateSha256 Sample.material.leaf) r' ∧ result.currentVersionNumber = r'.current :=
  publish_converges Sample.ctx Sample.certificate (Sample.config Sample.certificate) Sample.material Sample.chain (days 1)
    .publish rfl rfl (by decide +kernel) (r := Sample.resource) rfl
    (fun v hv _ => sample_valid v hv) (Or.inr fun v hv _ => sample_valid v hv) (by decide +kernel)
    (exec_runFor (simulate_allowed Sample.ctx Sample.script noFaults) _ _ _)

end OciAcmePublisher
