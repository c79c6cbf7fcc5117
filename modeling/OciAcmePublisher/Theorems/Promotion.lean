import OciAcmePublisher.Effects.Monitor
import OciAcmePublisher.Lemmas.Footprints
import OciAcmePublisher.Simulation

/-!
# What is promoted

Publication and rollback ask OCI to promote a version after a listing and a bundle they read. Here OCI may answer anything: a run is
judged by the answers it got. Before every promotion of a version the last listing shows it with the stage the path requires, and
the last bundle read passes validation; the deletion time is looked at by the rollback only, and neither path compares the number
in the bundle with the number it asked for.
-/

namespace OciAcmePublisher

open Effects

/-- The two paths that promote a version. -/
inductive Route where
  | publish (material : LineageMaterial) (chain : OciCertificateChain) (localFingerprint : String)
      (operationType : OperationType)
  | rollback (audit : Option AuditConfig) (passes : Nat)

namespace Route

/-- The run of a path. -/
def run (Γ : Ctx) (config : AppConfig) (certificate : CertificateConfig) (now : Instant) : Route → Action Unit
  | publish material chain localFingerprint operationType => do
    let _ ← PublicationReconciler.publish Γ config certificate material chain localFingerprint now operationType
  | rollback audit passes => do
    let _ ← RollbackService.rollback Γ config certificate now audit passes

/-- The listed versions whose bundles the path may read. -/
def considers : Route → OciCertificateVersion → Bool
  | publish .. => PublicationReconciler.isPendingOrLatest
  | rollback .. => RollbackService.isEligiblePrevious

/-- The stage the path requires of a version of the listing: PENDING or LATEST, or the only undeleted PREVIOUS. -/
def requires : Route → List OciCertificateVersion → OciCertificateVersion → Prop
  | publish .., _, v => .pending ∈ v.stages ∨ .latest ∈ v.stages
  | rollback .., listing, v => .previous ∈ v.stages ∧ listing.filter RollbackService.isEligiblePrevious = [v]

/-- The fingerprint the path requires: a publication its own, a rollback none in particular. -/
def accepts : Route → String → Prop
  | publish _ _ localFingerprint _, f => f = localFingerprint
  | rollback .., _ => True

end Route

/-! ## What a run knows when it promotes -/

/-- What a run has read: the last listing, the considered versions of it whose bundles were not read yet, and the version whose
bundle was read last, with the bundle. -/
structure Decision where
  listing : List OciCertificateVersion := []
  waiting : List OciCertificateVersion := []
  read : Option (OciCertificateVersion × OciPublicBundle) := none

/-- The bundle asked for next is answered. -/
def Decision.take (s : Decision) (b : OciPublicBundle) : Decision :=
  match s.waiting with
  | [] => s
  | c :: rest => { s with waiting := rest, read := some (c, b) }

/-- The monitor of the decision: a listing starts it over, and every numbered bundle goes to the next considered version. -/
def deciding (considers : OciCertificateVersion → Bool) : Monitor publisher Exc Decision where
  start := {}
  step
    | _, ⟨.listVersions _ _, .ok listing⟩ => { listing := listing, waiting := listing.filter considers }
    | s, ⟨.getPublicBundle _ (some _) _, .ok b⟩ => s.take b
    | s, _ => s

/-- The version the operation asks OCI to promote. -/
def Op.promotes : Op → Option Int
  | .promoteCurrent _ v _ _ => some v
  | _ => none

/-- `P` is checked of the decision and of the version before every promotion. -/
def atPromotion (P : Decision → Int → Prop) (s : Decision) (e : Event publisher Exc) : Prop :=
  ∀ v ∈ Op.promotes e.op, P s v

instance {P : Decision → Int → Prop} [∀ s v, Decidable (P s v)] (s : Decision) (e : Event publisher Exc) :
    Decidable (atPromotion P s e) :=
  inferInstanceAs (Decidable (∀ v ∈ Op.promotes e.op, P s v))

/-- The promotion of version `v` is safe: the listing shows `v` undeleted with the stage the path requires, and the bundle read for
it is the one of version `v` and passes validation, with the fingerprint the path requires. -/
def Route.Safe (Γ : Ctx) (config : AppConfig) (certificate : CertificateConfig) (now : Instant) (route : Route)
    (s : Decision) (v : Int) : Prop :=
  ∃ c b, s.read = some (c, b) ∧ c ∈ s.listing ∧ c.versionNumber = v ∧ route.requires s.listing c ∧
    c.timeOfDeletion = none ∧ b.versionNumber = v ∧
      ∃ f, validatePublicCertificate Γ b.certificatePem certificate config.global now = .ok f ∧ route.accepts f

/-- What a path leaves to OCI: the version it settled on is undeleted, for a publication, and the bundle OCI returned for it
carries its number. -/
def Route.Trusts (route : Route) (s : Decision) : Prop :=
  ∀ c b, s.read = some (c, b) →
    ((∃ material chain localFingerprint operationType, route = .publish material chain localFingerprint operationType) →
      c.timeOfDeletion = none) ∧ b.versionNumber = c.versionNumber

namespace PromotionAux

open PublicationReconciler RollbackService

variable {Γ : Ctx} {config : AppConfig} {certificate : CertificateConfig} {now : Instant} {route : Route} {α β : Type}

/-- What the code itself sees to before it promotes version `v`. -/
def Settled (Γ : Ctx) (config : AppConfig) (certificate : CertificateConfig) (now : Instant) (route : Route)
    (s : Decision) (v : Int) : Prop :=
  ∃ c b, s.read = some (c, b) ∧ c ∈ s.listing ∧ c.versionNumber = v ∧ route.requires s.listing c ∧
    ((∃ audit passes, route = .rollback audit passes) → c.timeOfDeletion = none) ∧
      ∃ f, validatePublicCertificate Γ b.certificatePem certificate config.global now = .ok f ∧ route.accepts f

theorem Settled.safe_iff {s : Decision} {v : Int} (h : Settled Γ config certificate now route s v) :
    route.Safe Γ config certificate now s v ↔ route.Trusts s := by
  obtain ⟨c, b, hread, hmem, hn, hstage, hdel, hvalid⟩ := h
  have hsame : ∀ c' b', s.read = some (c', b') → c' = c ∧ b' = b := by
    intro c' b' h
    rw [hread] at h
    cases h
    exact ⟨rfl, rfl⟩
  constructor
  · rintro ⟨c₁, b₁, hread₁, -, hn₁, -, hdel₁, hb₁, -⟩ c' b' h
    obtain ⟨rfl, rfl⟩ := hsame c₁ b₁ hread₁
    obtain ⟨rfl, rfl⟩ := hsame c' b' h
    exact ⟨fun _ => hdel₁, hb₁.trans hn₁.symm⟩
  · intro h
    obtain ⟨hundeleted, hnumber⟩ := h c b hread
    refine ⟨c, b, hread, hmem, hn, hstage, ?_, hnumber.trans hn, hvalid⟩
    cases route with
    | publish material chain F operationType => exact hundeleted ⟨material, chain, F, operationType, rfl⟩
    | rollback audit passes => exact hdel ⟨audit, passes, rfl⟩

/-- The runs of `p` from a decision with `φ`: before every promotion the version is settled. -/
abbrev Runs (Γ : Ctx) (config : AppConfig) (certificate : CertificateConfig) (now : Instant) (route : Route)
    (φ : Decision → Prop) (p : Action α) (ψ : α → Decision → Prop) : Prop :=
  Triple anyAnswer ((deciding route.considers).Sees (atPromotion (Settled Γ config certificate now route)) φ) p
    (fun a => (deciding route.considers).Sees (atPromotion (Settled Γ config certificate now route)) (ψ a))
    (fun _ => (deciding route.considers).Checked (atPromotion (Settled Γ config certificate now route)))
    ((deciding route.considers).Checked (atPromotion (Settled Γ config certificate now route)))

/-- The operation lists the versions, reads a numbered bundle or promotes. -/
def concerns : Op → Bool
  | .listVersions .. | .getPublicBundle _ (some _) _ | .promoteCurrent .. => true
  | _ => false

/-- The operation has no part in the decision. -/
def aside (op : Op) : Prop := concerns op = false

theorem footprint_aside (certificateId operationId : String) (op : Op)
    (h : StateStore.footprint certificateId operationId op = true) : aside op := by
  cases op <;> first | rfl | cases h

theorem records_aside (op : Op) (h : StateStore.records op = true) : aside op := by
  cases op <;> first | rfl | cases h

theorem pauses_aside (op : Op) (h : pauses op = true) : aside op := by
  cases op <;> first | rfl | cases h

theorem observes_aside (op : Op) (h : op.observes = true) : aside op := by
  cases op <;> first | rfl | cases h

theorem startOperation_aside {certificateId : String} {operationType : OperationType} {F ocid : Option String} :
    (StateStore.startOperation certificateId operationType F ocid).Uses aside :=
  StateStore.uses_startOperation (A := aside) rfl rfl _ _ _ _ fun _ _ _ _ _ => rfl

theorem runs_aside {φ : Decision → Prop} {p : Action α} (hp : p.Uses aside) :
    Runs Γ config certificate now route φ p (fun _ => φ) := by
  refine (Monitor.frame_sees hp ?_ ?_).conseq (fun _ ht => ht) (fun _ _ ht => ht) (fun _ _ ht => ht.1) fun _ ht => ht.1
  · intro op r s hop
    cases op with
    | promoteCurrent => cases hop
    | _ =>
      intro v hv
      cases hv
  · intro op r s hop
    cases op with
    | getPublicBundle id number requestId =>
      cases number with
      | none => rfl
      | some n => cases hop
    | listVersions | promoteCurrent => cases hop
    | _ => rfl

theorem runs_ret {φ : Decision → Prop} {ψ : α → Decision → Prop} {a : α} (h : ∀ s, φ s → ψ a s) :
    Runs Γ config certificate now route φ (.ret a) ψ :=
  Triple.ret (fun _ ht => ⟨ht.1, h _ ht.2⟩) fun _ ht => ht.1

theorem runs_raise {φ : Decision → Prop} {ψ : α → Decision → Prop} {x : Exc} :
    Runs Γ config certificate now route φ (.raise x) ψ :=
  Triple.raise (fun _ ht => ht.1) fun _ ht => ht.1

/-- A pure part of what is known moves out. -/
theorem runs_assume {φ : Decision → Prop} {η : Prop} {p : Action α} {ψ : α → Decision → Prop}
    (h : η → Runs Γ config certificate now route φ p ψ) :
    Runs Γ config certificate now route (fun s => φ s ∧ η) p ψ :=
  fun t ht => h ht.2.2 t ⟨ht.1, ht.2.1⟩

theorem runs_of_exists {ι : Type} {φ : ι → Decision → Prop} {p : Action α} {ψ : α → Decision → Prop}
    (h : ∀ i, Runs Γ config certificate now route (φ i) p ψ) :
    Runs Γ config certificate now route (fun s => ∃ i, φ i s) p ψ :=
  fun t ⟨ht, i, hs⟩ => h i t ⟨ht, hs⟩

theorem runs_pre {φ φ' : Decision → Prop} {p : Action α} {ψ : α → Decision → Prop}
    (h : Runs Γ config certificate now route φ p ψ) (hφ : ∀ s, φ' s → φ s) :
    Runs Γ config certificate now route φ' p ψ :=
  h.pre fun _ ht => ⟨ht.1, hφ _ ht.2⟩

theorem runs_post {φ : Decision → Prop} {p : Action α} {ψ ψ' : α → Decision → Prop}
    (h : Runs Γ config certificate now route φ p ψ) (hψ : ∀ a s, ψ a s → ψ' a s) :
    Runs Γ config certificate now route φ p ψ' :=
  h.post fun a _ ht => ⟨ht.1, hψ a _ ht.2⟩

/-- What is known while the versions `rest` of the listing are left to look at. -/
structure Searching (route : Route) (listing rest : List OciCertificateVersion) (s : Decision) : Prop where
  listing_eq : s.listing = listing
  waiting_eq : s.waiting = rest.filter route.considers
  mem : ∀ c ∈ rest, c ∈ listing

theorem listVersions_runs (id requestId : String) :
    Runs Γ config certificate now route (fun _ => True) (perform (.listVersions id requestId))
      (fun l => Searching route l l) :=
  (Monitor.perform_sees (Q := fun l => Searching route l l) (E := fun _ => True)
    (fun _ _ _ _ hv => by cases hv) (fun _ _ _ => ⟨rfl, rfl, fun _ hc => hc⟩) fun _ _ _ => trivial).conseq
    (fun _ ht => ht) (fun _ _ ht => ht) (fun _ _ ht => ht.1) fun _ ht => ht

/-- The bundle of the next considered version. -/
theorem getPublicBundle_runs {listing rest : List OciCertificateVersion} {c : OciCertificateVersion}
    (hc : route.considers c = true) (id requestId : String) (n : Int) :
    Runs Γ config certificate now route (Searching route listing (c :: rest))
      (perform (.getPublicBundle id (some n) requestId))
      (fun b s => s.read = some (c, b) ∧ c ∈ s.listing ∧ Searching route listing rest s) := by
  refine (Monitor.perform_sees (Q := fun b s => s.read = some (c, b) ∧ c ∈ s.listing ∧ Searching route listing rest s)
    (E := fun _ => True) (fun _ _ _ _ hv => by cases hv) ?_ fun _ _ _ => trivial).conseq
    (fun _ ht => ht) (fun _ _ ht => ht) (fun _ _ ht => ht.1) fun _ ht => ht
  intro s b hs
  have hwait := hs.waiting_eq
  rw [List.filter_cons_of_pos hc] at hwait
  have hstep : (deciding route.considers).step s ⟨.getPublicBundle id (some n) requestId, .ok b⟩ =
      { s with waiting := rest.filter route.considers, read := some (c, b) } := by
    show s.take b = _
    unfold Decision.take
    rw [hwait]
  have hmem : c ∈ s.listing := by
    rw [hs.listing_eq]
    exact hs.mem c List.mem_cons_self
  rw [hstep]
  exact ⟨rfl, hmem, hs.listing_eq, rfl, fun x hx => hs.mem x (List.mem_cons_of_mem _ hx)⟩

/-- A promotion of a settled version. -/
theorem promoteCurrent_runs (id requestId : String) (n : Int) (etag : Option String) :
    Triple anyAnswer
      ((deciding route.considers).Sees (atPromotion (Settled Γ config certificate now route))
        fun s => Settled Γ config certificate now route s n)
      (perform (.promoteCurrent id n etag requestId))
      (fun _ => (deciding route.considers).Sees (atPromotion (Settled Γ config certificate now route))
        fun s => Settled Γ config certificate now route s n)
      (fun _ => (deciding route.considers).Sees (atPromotion (Settled Γ config certificate now route))
        fun s => Settled Γ config certificate now route s n)
      ((deciding route.considers).Checked (atPromotion (Settled Γ config certificate now route))) :=
  Monitor.perform_sees (fun _ _ hs v hv => by cases hv; exact hs) (fun _ _ hs => hs) fun _ _ hs => hs

/-! ## The search of a publication -/

section Publish

variable {material : LineageMaterial} {chain : OciCertificateChain} {F id operationId requestId : String}
  {operationType : OperationType}

/-- A matching candidate is settled. -/
theorem settled_publish {c : OciCertificateVersion} {b : OciPublicBundle} {s : Decision}
    (hc : isPendingOrLatest c = true) (hread : s.read = some (c, b)) (hmem : c ∈ s.listing)
    (hb : verifyBundle Γ b certificate config now = .ok F) :
    Settled Γ config certificate now (.publish material chain F operationType) s c.versionNumber := by
  have hstage : .pending ∈ c.stages ∨ .latest ∈ c.stages := by simpa [isPendingOrLatest] using hc
  refine ⟨c, b, hread, hmem, rfl, hstage, ?_, F, verifyBundle_ok hb, rfl⟩
  rintro ⟨audit, passes, h⟩
  cases h

theorem firstMatching_runs (listing l : List OciCertificateVersion) :
    Runs Γ config certificate now (.publish material chain F operationType)
      (Searching (.publish material chain F operationType) listing l)
      (firstMatching Γ id certificate config F now requestId l)
      (fun found s => ∀ c, found = some c →
        Settled Γ config certificate now (.publish material chain F operationType) s c.versionNumber) := by
  induction l with
  | nil =>
    refine runs_ret fun s _ c h => ?_
    cases h
  | cons c rest ih =>
    by_cases hc : isPendingOrLatest c = true
    · rw [firstMatching, if_pos hc]
      have hcons : (Route.publish material chain F operationType).considers c = true := hc
      refine Triple.bind (getPublicBundle_runs hcons id requestId c.versionNumber) fun b => ?_
      cases hb : verifyBundle Γ b certificate config now with
      | error x => exact runs_raise
      | ok f =>
        refine Triple.bind (R := fun g => _) (runs_ret (ψ := fun g s => (s.read = some (c, b) ∧ c ∈ s.listing ∧
          Searching (.publish material chain F operationType) listing rest s) ∧ g = f) fun s hs => ⟨hs, rfl⟩) fun g => ?_
        refine runs_assume fun hg => ?_
        subst hg
        split
        · rename_i hF
          refine runs_ret fun s hs c' h => ?_
          cases h
          exact settled_publish hc hs.1 hs.2.1 (hF ▸ hb)
        · exact runs_pre ih fun s hs => hs.2.2
    · rw [firstMatching, if_neg hc]
      refine runs_pre ih fun s hs => ⟨hs.listing_eq, ?_, fun x hx => hs.mem x (List.mem_cons_of_mem _ hx)⟩
      rw [hs.waiting_eq]
      exact List.filter_cons_of_neg hc

theorem findMatchingPending_runs :
    Runs Γ config certificate now (.publish material chain F operationType) (fun _ => True)
      (findMatchingPending Γ id certificate config F now requestId)
      (fun found s => ∀ c, found = some c →
        Settled Γ config certificate now (.publish material chain F operationType) s c.versionNumber) :=
  Triple.bind (listVersions_runs id requestId) fun l => firstMatching_runs l l

theorem obtainCandidate_runs (etag : Option String) :
    Runs Γ config certificate now (.publish material chain F operationType) (fun _ => True)
      (obtainCandidate Γ config certificate material chain F now id operationId requestId etag)
      (fun c s => Settled Γ config certificate now (.publish material chain F operationType) s c.versionNumber) := by
  refine Triple.bind findMatchingPending_runs ?_
  intro found
  cases found with
  | some c => exact runs_ret fun s hs => hs c rfl
  | none =>
    refine runs_pre (φ := fun _ => True) ?_ fun _ _ => trivial
    refine Triple.bind (runs_aside uses_ofExcept) fun label => ?_
    refine Triple.bind (runs_aside (Program.uses_perform.2 rfl)) fun _ => ?_
    refine Triple.bind (runs_aside (StateStore.uses_transition (footprint_aside certificate.id _) _ _)) fun _ => ?_
    refine Triple.bind (runs_aside (Program.uses_perform.2 rfl)) fun _ => ?_
    refine Triple.bind findMatchingPending_runs fun visible => ?_
    cases visible with
    | some c => exact runs_ret fun s hs => hs c rfl
    | none => exact runs_raise

/-- The attempts of the promotion of a settled version. -/
theorem attempts_runs (policy : ReadRetryPolicy) (n : Int) (remaining : Nat) :
    Runs Γ config certificate now route (fun s => Settled Γ config certificate now route s n)
      (promoteCurrent.attempts policy id n requestId remaining) (fun _ _ => True) := by
  induction remaining with
  | zero => exact runs_raise
  | succ remaining ih =>
    refine Triple.bind (runs_aside (Program.uses_perform.2 rfl)) fun refreshed => ?_
    split
    · exact runs_ret fun _ _ => trivial
    · refine Triple.bind (Triple.attempt (promoteCurrent_runs id requestId n refreshed.etag) (fun _ _ ht => ht.1)
        fun _ _ ht => ht.1) fun outcome => ?_
      cases outcome with
      | ok _ => exact runs_ret fun _ _ => trivial
      | error error =>
        simp only
        split
        · exact Triple.bind (runs_aside (uses_sleepFor pauses_aside _ _ _)) fun _ => ih
        · exact runs_raise

theorem promoteAndConfirm_runs (c : OciCertificateVersion) :
    Runs Γ config certificate now route (fun s => Settled Γ config certificate now route s c.versionNumber)
      (promoteAndConfirm Γ config certificate F now operationType id operationId requestId c) (fun _ _ => True) := by
  refine Triple.bind (runs_aside (StateStore.uses_transition (footprint_aside certificate.id _) _ _)) fun _ => ?_
  refine Triple.bind (runs_aside (Program.uses_perform.2 rfl)) fun _ => ?_
  refine Triple.bind (attempts_runs _ _ _) fun _ => runs_aside ?_
  refine Program.uses_bind (Program.uses_perform.2 rfl) fun _ => ?_
  refine Program.uses_bind (uses_retryReadUntilSync pauses_aside (Program.uses_perform.2 (by rfl)) _ _) fun confirmed => ?_
  refine Program.uses_bind uses_ofExcept fun f => ?_
  split
  · trivial
  · refine Program.uses_bind (StateStore.uses_transition (footprint_aside certificate.id _) _ _) fun _ => ?_
    exact Program.uses_bind (Program.uses_perform.2 rfl) fun _ => uses_complete records_aside (footprint_aside _ _) _ _ _

theorem publish_runs :
    Runs Γ config certificate now (.publish material chain F operationType) (fun _ => True)
      (publish Γ config certificate material chain F now operationType) (fun _ _ => True) := by
  unfold publish
  split
  · exact runs_raise
  · refine Triple.bind (runs_aside startOperation_aside) fun operation => ?_
    refine Triple.bind (runs_aside (Program.uses_perform.2 rfl)) fun requestId => ?_
    refine Triple.bind (runs_aside (Program.uses_perform.2 rfl)) fun remote => ?_
    refine Triple.bind (runs_aside (Program.uses_perform.2 rfl)) fun bundle => ?_
    refine Triple.bind (runs_aside uses_ofExcept) fun f => ?_
    refine Triple.bind (runs_aside (StateStore.uses_transition (footprint_aside certificate.id _) _ _)) fun _ => ?_
    split
    · exact runs_aside (Program.uses_bind (Program.uses_perform.2 rfl) fun _ => uses_complete records_aside (footprint_aside _ _) _ _ _)
    · exact Triple.bind (obtainCandidate_runs _) fun c => promoteAndConfirm_runs c

end Publish

/-! ## Rollback -/

section Rollback

variable {audit : Option AuditConfig} {passes : Nat} {id operationId requestId : String}

theorem settled_rollback {c : OciCertificateVersion} {b : OciPublicBundle} {s : Decision} {f : String}
    (honly : s.listing.filter isEligiblePrevious = [c]) (hread : s.read = some (c, b))
    (hb : validateBundle Γ b.certificatePem certificate config now = .ok f) :
    Settled Γ config certificate now (.rollback audit passes) s c.versionNumber := by
  have hc : c ∈ s.listing.filter isEligiblePrevious := by
    rw [honly]
    exact List.mem_singleton_self c
  obtain ⟨hmem, hel⟩ := List.mem_filter.1 hc
  unfold isEligiblePrevious at hel
  rw [Bool.and_eq_true, List.contains_iff_mem, Option.isNone_iff_eq_none] at hel
  exact ⟨c, b, hread, hmem, rfl, ⟨hel.1, honly⟩, fun _ => hel.2, f, validateBundle_ok hb, trivial⟩

/-- The chosen version is the only considered one, and its bundle is the next to be read. -/
theorem previousVersion_runs :
    Runs Γ config certificate now (.rollback audit passes) (fun _ => True) (previousVersion id requestId)
      (fun c s => ∃ listing, Searching (.rollback audit passes) listing [c] s ∧
        listing.filter isEligiblePrevious = [c]) := by
  refine Triple.bind (listVersions_runs id requestId) fun listing => ?_
  split
  · rename_i c honly
    have hc : c ∈ listing.filter isEligiblePrevious := by
      rw [honly]
      exact List.mem_singleton_self c
    have hel : (Route.rollback audit passes).considers c = true := (List.mem_filter.1 hc).2
    refine runs_ret fun s hs => ⟨listing, ⟨hs.listing_eq, ?_, ?_⟩, honly⟩
    · rw [hs.waiting_eq, List.filter_cons_of_pos hel]
      exact honly
    · intro x hx
      rw [List.mem_singleton.1 hx]
      exact (List.mem_filter.1 hc).1
  · exact runs_raise

theorem rollback_runs :
    Runs Γ config certificate now (.rollback audit passes) (fun _ => True)
      (rollback Γ config certificate now audit passes) (fun _ _ => True) := by
  unfold rollback
  split
  · exact runs_raise
  · rename_i id _
    refine Triple.bind (runs_aside startOperation_aside) fun operation => ?_
    refine Triple.bind (runs_aside (Program.uses_perform.2 rfl)) fun _ => ?_
    refine Triple.bind (runs_aside (Program.uses_perform.2 rfl)) fun requestId => ?_
    refine Triple.bind previousVersion_runs fun c => ?_
    refine runs_of_exists fun listing => runs_assume fun honly => ?_
    have hc : c ∈ listing.filter isEligiblePrevious := by
      rw [honly]
      exact List.mem_singleton_self c
    have hcons : (Route.rollback audit passes).considers c = true := (List.mem_filter.1 hc).2
    refine Triple.bind (getPublicBundle_runs hcons id requestId c.versionNumber) fun b => ?_
    cases hb : validateBundle Γ b.certificatePem certificate config now with
    | error x => exact runs_raise
    | ok f =>
      refine runs_pre (φ := fun s => Settled Γ config certificate now (.rollback audit passes) s c.versionNumber) ?_
        fun s hs => settled_rollback (by rw [hs.2.2.listing_eq, honly]) hs.1 hb
      refine Triple.bind (runs_aside (uses_ofExcept (e := .ok f))) fun f => ?_
      refine Triple.bind (runs_aside (Program.uses_perform.2 rfl)) fun remote => ?_
      refine Triple.bind (runs_aside (StateStore.uses_transition (footprint_aside certificate.id _) _ _)) fun _ => ?_
      refine Triple.bind ((promoteCurrent_runs id requestId c.versionNumber remote.etag).conseq (fun _ ht => ht)
        (fun _ _ ht => ht) (fun _ _ ht => ht.1) fun _ ht => ht) fun _ => ?_
      refine runs_post (runs_aside ?_) fun _ _ _ => trivial
      exact RollbackService.uses_confirm records_aside (footprint_aside certificate.id _) (fun _ _ _ => rfl) pauses_aside rfl
        observes_aside c f

end Rollback

/-- Before every promotion of a run the version is settled. -/
theorem route_settled {o : Outcome Exc Unit} {t : List (Event publisher Exc)}
    (h : Exec anyAnswer (route.run Γ config certificate now) [] o t) :
    (deciding route.considers).Checked (atPromotion (Settled Γ config certificate now route)) t := by
  have hruns : Runs Γ config certificate now route (fun _ => True) (route.run Γ config certificate now)
      (fun _ _ => True) := by
    cases route with
    | publish material chain F operationType => exact Triple.bind publish_runs fun _ => runs_ret fun _ _ => trivial
    | rollback audit passes => exact Triple.bind rollback_runs fun _ => runs_ret fun _ _ => trivial
  have hpost := hruns [] ⟨Monitor.checked_nil _, trivial⟩ o t h
  cases o with
  | returned u => exact hpost.1
  | raised x => exact hpost
  | crashed => exact hpost

end PromotionAux

open PromotionAux

/-- Promotions are safe exactly where OCI can be trusted. Whatever OCI answers, in every run of a publication or of a rollback,
finished or cut: the listing and the bundle the run decided from show every version it promotes undeleted, in the required stage,
valid and under its own number, if and only if before every promotion the version a publication settled on was listed without a
scheduled deletion, and the bundle returned for the version carries the version's number. -/
theorem promotions_safe_iff (Γ : Ctx) (config : AppConfig) (certificate : CertificateConfig) (now : Instant) (route : Route)
    {o : Outcome Exc Unit} {t : List (Event publisher Exc)}
    (h : Exec anyAnswer (route.run Γ config certificate now) [] o t) :
    (deciding route.considers).Checked (atPromotion (route.Safe Γ config certificate now)) t ↔
      (deciding route.considers).Checked (atPromotion fun s _ => route.Trusts s) t := by
  have hsettled := route_settled h
  have hiff : ∀ before e rest, t = before ++ e :: rest →
      (atPromotion (route.Safe Γ config certificate now) ((deciding route.considers).after before) e ↔
        atPromotion (fun s _ => route.Trusts s) ((deciding route.considers).after before) e) := by
    intro before e rest ht
    have hs := hsettled before e rest ht
    constructor
    · intro hsafe v hv
      exact (hs v hv).safe_iff.1 (hsafe v hv)
    · intro htrust v hv
      exact (hs v hv).safe_iff.2 (htrust v hv)
  constructor
  · intro hsafe before e rest ht
    exact (hiff before e rest ht).1 (hsafe before e rest ht)
  · intro htrust before e rest ht
    exact (hiff before e rest ht).2 (htrust before e rest ht)

namespace PromotionAux

open Sample

/-- The version whose bundle was read last passes the test. -/
def readPasses (test : OciCertificateVersion → OciPublicBundle → Bool) (s : Decision) : Prop :=
  s.read.all (fun x => test x.1 x.2) = true

instance (test : OciCertificateVersion → OciPublicBundle → Bool) (s : Decision) : Decidable (readPasses test s) :=
  inferInstanceAs (Decidable (_ = true))

theorem readPasses_iff {test : OciCertificateVersion → OciPublicBundle → Bool} {s : Decision} :
    readPasses test s ↔ ∀ c b, s.read = some (c, b) → test c b = true := by
  unfold readPasses
  rw [Option.all_eq_true]
  exact ⟨fun h c b hread => h (c, b) hread, fun h x hread => h x.1 x.2 hread⟩

/-- A publication of the sample material. -/
def sampleRoute : Route := .publish material chain (certificateSha256 (leaf 2)) .publish

/-- Version 2 holds the sample leaf and waits to be promoted. -/
def waiting : Resource := (resource.upload (version 2 "B" [])).getD resource

/-- The run of the sample publication on a certificate, with what was performed. -/
def recordedRun (r : Resource) : Outcome Exc Unit × World × List (Event publisher Exc) :=
  (sampleRoute.run ctx (config certificate) certificate (days 1)).runFor (simulate ctx script).record 100 (world r, [])

theorem recordedRun_exec (r : Resource) :
    Exec (recording (service ctx noFaults)) (sampleRoute.run ctx (config certificate) certificate (days 1))
      (world r, []) (recordedRun r).1 (recordedRun r).2 :=
  exec_runFor (simulate_allowed ctx script noFaults).record 100 _ _

end PromotionAux

/-- They are not safe in general: with the deletion of the waiting version scheduled, and every call succeeding, a publication
promotes it. -/
theorem promotions_safe_false :
    ∃ w t, Exec (recording (service Sample.ctx noFaults))
        (sampleRoute.run Sample.ctx (Sample.config Sample.certificate) Sample.certificate (days 1))
        (Sample.world (waiting.scheduleDeletion 2 (days 40)), []) (.returned ()) (w, t) ∧
      w.mutations = [.promoted "ocid" 2] ∧
      ¬(deciding sampleRoute.considers).Checked
        (atPromotion (sampleRoute.Safe Sample.ctx (Sample.config Sample.certificate) Sample.certificate (days 1))) t := by
  have hret : (recordedRun (waiting.scheduleDeletion 2 (days 40))).1 = .returned () := by decide +kernel
  have hexec := recordedRun_exec (waiting.scheduleDeletion 2 (days 40))
  rw [hret] at hexec
  refine ⟨_, _, hexec, by decide +kernel, fun hsafe => ?_⟩
  have hundeleted : (deciding sampleRoute.considers).Checked
      (atPromotion fun s _ => readPasses (fun c _ => c.timeOfDeletion.isNone) s)
      (recordedRun (waiting.scheduleDeletion 2 (days 40))).2.2 := by
    refine hsafe.imp _ fun s e hs v hv => readPasses_iff.2 fun c b hread => ?_
    obtain ⟨c', b', hread', -, -, -, hdel, -⟩ := hs v hv
    rw [hread] at hread'
    cases hread'
    rw [hdel]
    rfl
  exact absurd hundeleted (by decide +kernel)

/-- Where the waiting version is not scheduled for deletion its promotion is safe. -/
theorem promotions_safe_iff_sample :
    (recordedRun waiting).2.1.mutations = [.promoted "ocid" 2] ∧
      (deciding sampleRoute.considers).Checked
        (atPromotion (sampleRoute.Safe Sample.ctx (Sample.config Sample.certificate) Sample.certificate (days 1)))
        (recordedRun waiting).2.2 := by
  refine ⟨by decide +kernel, ?_⟩
  refine (promotions_safe_iff Sample.ctx (Sample.config Sample.certificate) Sample.certificate (days 1) sampleRoute
    (recordedRun_exec waiting).anyAnswer).2 ?_
  have htrusted : (deciding sampleRoute.considers).Checked
      (atPromotion fun s _ => readPasses (fun c b => c.timeOfDeletion.isNone && b.versionNumber == c.versionNumber) s)
      (recordedRun waiting).2.2 := by decide +kernel
  refine htrusted.imp _ fun s e hs v hv c b hread => ?_
  have htest := readPasses_iff.1 (hs v hv) c b hread
  rw [Bool.and_eq_true, Option.isNone_iff_eq_none, beq_iff_eq] at htest
  exact ⟨fun _ => htest.1, htest.2⟩

end OciAcmePublisher
