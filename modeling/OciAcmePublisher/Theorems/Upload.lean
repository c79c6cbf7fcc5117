import OciAcmePublisher.Effects.Monitor
import OciAcmePublisher.Lemmas.Footprints
import OciAcmePublisher.Persistence
import OciAcmePublisher.Simulation

/-!
# When a publication uploads

A publication decides from what OCI answers whether it uploads: from CURRENT, from one listing of the versions and from the bundles
of those that are PENDING or LATEST. It does not look at the state store, so an upload that is recorded there as outstanding, but
does not show in the listing yet, is repeated.
-/

namespace OciAcmePublisher

open Effects Tables

/-- The operation uploads a version. -/
def Op.uploads : Op → Bool
  | .uploadPendingVersion .. => true
  | _ => false

/-- What a publication has read: CURRENT before any listing, the last listing, and the numbered bundles read since; and whether it
has uploaded. -/
structure Search where
  current : Option OciPublicBundle := none
  listing : Option (List OciCertificateVersion) := none
  bundles : List OciPublicBundle := []
  uploaded : Bool := false

/-- The monitor of the search. -/
def searching : Monitor publisher Exc Search where
  start := {}
  step
    | s, ⟨.getPublicBundle _ none _, .ok b⟩ => if s.listing = none then { s with current := some b } else s
    | s, ⟨.listVersions _ _, .ok listing⟩ => { s with listing := some listing, bundles := [] }
    | s, ⟨.getPublicBundle _ (some _) _, .ok b⟩ => { s with bundles := s.bundles ++ [b] }
    | s, ⟨.uploadPendingVersion .., _⟩ => { s with uploaded := true }
    | s, _ => s

/-- The bundle is valid and carries another fingerprint. -/
def Other (Γ : Ctx) (config : AppConfig) (certificate : CertificateConfig) (now : Instant) (F : String)
    (b : OciPublicBundle) : Prop :=
  ∃ f, validatePublicCertificate Γ b.certificatePem certificate config.global now = .ok f ∧ f ≠ F

/-- OCI has not shown the fingerprint: CURRENT is another leaf, and so is every PENDING or LATEST version of the listing. -/
def Search.Missed (Γ : Ctx) (config : AppConfig) (certificate : CertificateConfig) (now : Instant) (F : String)
    (s : Search) : Prop :=
  (∃ b, s.current = some b ∧ Other Γ config certificate now F b) ∧
    ∃ listing, s.listing = some listing ∧
      s.bundles.length = (listing.filter PublicationReconciler.isPendingOrLatest).length ∧
        ∀ b ∈ s.bundles, Other Γ config certificate now F b

namespace UploadAux

open PublicationReconciler

variable {Γ : Ctx} {config : AppConfig} {certificate : CertificateConfig} {material : LineageMaterial}
  {chain : OciCertificateChain} {now : Instant} {operationType : OperationType} {id operationId requestId F : String}
  {α β : Type} {φ : Search → Prop}

/-- Until a run has uploaded, it uploads exactly when OCI has not shown the fingerprint. -/
def Decided (Γ : Ctx) (config : AppConfig) (certificate : CertificateConfig) (now : Instant) (F : String) (s : Search)
    (e : Event publisher Exc) : Prop :=
  s.uploaded = false → (Op.uploads e.op = true ↔ s.Missed Γ config certificate now F)

/-- The runs of `p`: every operation is decided. -/
abbrev Runs (Γ : Ctx) (config : AppConfig) (certificate : CertificateConfig) (now : Instant) (F : String)
    (φ : Search → Prop) (p : Action α) (ψ : α → Search → Prop) : Prop :=
  Triple anyAnswer (searching.Sees (Decided Γ config certificate now F) φ) p
    (fun a => searching.Sees (Decided Γ config certificate now F) (ψ a))
    (fun _ => searching.Checked (Decided Γ config certificate now F))
    (searching.Checked (Decided Γ config certificate now F))

/-- The operation neither uploads nor lists, and reads no numbered bundle. -/
def aside : Op → Prop
  | .uploadPendingVersion .. | .listVersions .. | .getPublicBundle _ (some _) _ => False
  | _ => True

/-- The operation has no part in the search. -/
def inert : Op → Prop
  | .uploadPendingVersion .. | .listVersions .. | .getPublicBundle .. => False
  | _ => True

theorem aside_of_inert {op : Op} (h : inert op) : aside op := by
  cases op <;> trivial

theorem inert_of_footprint (certificateId operationId : String) (op : Op)
    (h : StateStore.footprint certificateId operationId op = true) : inert op := by
  cases op <;> trivial

theorem inert_of_records (op : Op) (h : StateStore.records op = true) : inert op := by
  cases op <;> trivial

theorem inert_of_pauses (op : Op) (h : pauses op = true) : inert op := by
  cases op <;> trivial

theorem step_inert {op : Op} (hop : inert op) (r : Except Exc op.Reply) (s : Search) : searching.step s ⟨op, r⟩ = s := by
  cases op <;> first | rfl | cases hop

/-- An operation aside keeps the search, once there is a listing. -/
theorem step_listed {op : Op} (hop : aside op) (r : Except Exc op.Reply) {s : Search} (hs : s.listing ≠ none) :
    searching.step s ⟨op, r⟩ = s := by
  cases op with
  | uploadPendingVersion | listVersions => cases hop
  | getPublicBundle id n requestId =>
    cases n with
    | some n => cases hop
    | none =>
      cases r with
      | error x => rfl
      | ok b => exact if_neg hs
  | _ => rfl

theorem uploads_of_aside {op : Op} (hop : aside op) : op.uploads = false := by
  cases op <;> first | rfl | cases hop

theorem decided_of_not {s : Search} {e : Event publisher Exc} (he : Op.uploads e.op = false)
    (hs : ¬s.Missed Γ config certificate now F) : Decided Γ config certificate now F s e := by
  intro _
  rw [he]
  exact ⟨fun h => absurd h (by decide), fun h => absurd h hs⟩

theorem runs_ret {ψ : α → Search → Prop} {a : α} (h : ∀ s, φ s → ψ a s) : Runs Γ config certificate now F φ (.ret a) ψ :=
  Triple.ret (fun _ ht => ⟨ht.1, h _ ht.2⟩) fun _ ht => ht.1

theorem runs_raise {ψ : α → Search → Prop} {x : Exc} : Runs Γ config certificate now F φ (.raise x) ψ :=
  Triple.raise (fun _ ht => ht.1) fun _ ht => ht.1

theorem runs_pre {ψ : α → Search → Prop} {χ : Search → Prop} {p : Action α} (h : Runs Γ config certificate now F φ p ψ)
    (hφ : ∀ s, χ s → φ s) : Runs Γ config certificate now F χ p ψ :=
  h.pre fun _ ht => ⟨ht.1, hφ _ ht.2⟩

theorem runs_assume {η : Prop} {p : Action α} {ψ : α → Search → Prop} (h : η → Runs Γ config certificate now F φ p ψ) :
    Runs Γ config certificate now F (fun s => φ s ∧ η) p ψ :=
  fun t ht => h ht.2.2 t ⟨ht.1, ht.2.1⟩

/-- A program that has no part in the search, where OCI has not missed the fingerprint. -/
theorem runs_inert (hφ : ∀ s, φ s → ¬s.Missed Γ config certificate now F) {p : Action α} (hp : p.Uses inert) :
    Runs Γ config certificate now F φ p fun _ => φ := by
  refine (Monitor.keep_sees hp (fun op r s hop hs => ?_) fun op r s hop hs => ?_).conseq (fun _ ht => ht)
    (fun _ _ ht => ht) (fun _ _ ht => ht.1) fun _ ht => ht.1
  · exact decided_of_not (uploads_of_aside (aside_of_inert hop)) (hφ s hs)
  · rw [step_inert hop]
    exact hs

/-! ## The phases of a publication -/

/-- No listing yet. -/
def Unlisted (s : Search) : Prop := s.listing = none

theorem Unlisted.not_missed {s : Search} (h : Unlisted s) : ¬s.Missed Γ config certificate now F := by
  rintro ⟨-, listing, hl, -⟩
  rw [h] at hl
  cases hl

/-- The versions `rest` of the listing are left to look at; all bundles read so far are of other leaves. -/
structure Looking (Γ : Ctx) (config : AppConfig) (certificate : CertificateConfig) (now : Instant) (F : String)
    (listing rest : List OciCertificateVersion) (s : Search) : Prop where
  current : ∃ b, s.current = some b ∧ Other Γ config certificate now F b
  listing_eq : s.listing = some listing
  left : s.bundles.length + (rest.filter isPendingOrLatest).length = (listing.filter isPendingOrLatest).length
  others : ∀ b ∈ s.bundles, Other Γ config certificate now F b

theorem Looking.missed {listing : List OciCertificateVersion} {s : Search}
    (h : Looking Γ config certificate now F listing [] s) : s.Missed Γ config certificate now F :=
  ⟨h.current, listing, h.listing_eq, h.left, h.others⟩

theorem Looking.not_missed {listing rest : List OciCertificateVersion} {c : OciCertificateVersion} {s : Search}
    (h : Looking Γ config certificate now F listing (c :: rest) s) (hc : isPendingOrLatest c = true) :
    ¬s.Missed Γ config certificate now F := by
  rintro ⟨-, l, hl, hlength, -⟩
  rw [h.listing_eq] at hl
  cases hl
  have hleft := h.left
  rw [List.filter_cons_of_pos hc, List.length_cons] at hleft
  omega

/-- A bundle with the fingerprint was read. -/
def Found (Γ : Ctx) (config : AppConfig) (certificate : CertificateConfig) (now : Instant) (F : String) (s : Search) :
    Prop :=
  s.listing ≠ none ∧ ∃ b ∈ s.bundles, validatePublicCertificate Γ b.certificatePem certificate config.global now = .ok F

theorem Found.not_missed {s : Search} (h : Found Γ config certificate now F s) :
    ¬s.Missed Γ config certificate now F := by
  rintro ⟨-, -, -, -, hothers⟩
  obtain ⟨-, b, hb, hF⟩ := h
  obtain ⟨f, hf, hne⟩ := hothers b hb
  rw [hF] at hf
  cases hf
  exact hne rfl

/-- After an upload nothing is left to decide. -/
theorem runs_uploaded (p : Action α) :
    Runs Γ config certificate now F (fun s => s.uploaded = true) p fun _ s => s.uploaded = true := by
  refine (Monitor.keep_sees p.uses_anything (fun op r s _ hs hnot => ?_) fun op r s _ hs => ?_).conseq (fun _ ht => ht)
    (fun _ _ ht => ht) (fun _ _ ht => ht.1) fun _ ht => ht.1
  · rw [hs] at hnot
    cases hnot
  · cases op with
    | uploadPendingVersion => rfl
    | listVersions id requestId => cases r <;> exact hs
    | getPublicBundle id n requestId =>
      cases n with
      | some n => cases r <;> exact hs
      | none =>
        cases r with
        | error x => exact hs
        | ok b =>
          show (if s.listing = none then { s with current := some b } else s).uploaded = true
          split <;> exact hs
    | _ => exact hs

/-- The search of one listing: it finds the fingerprint, or OCI has missed it. -/
theorem firstMatching_runs (listing l : List OciCertificateVersion) :
    Runs Γ config certificate now F (Looking Γ config certificate now F listing l)
      (firstMatching Γ id certificate config F now requestId l)
      (fun found s => (found = none → s.Missed Γ config certificate now F) ∧
        (found ≠ none → Found Γ config certificate now F s)) := by
  induction l with
  | nil => exact runs_ret fun s hs => ⟨fun _ => hs.missed, fun h => absurd rfl h⟩
  | cons c rest ih =>
    by_cases hc : isPendingOrLatest c = true
    · rw [firstMatching, if_pos hc]
      have hread : Runs Γ config certificate now F (Looking Γ config certificate now F listing (c :: rest))
          (perform (.getPublicBundle id (some c.versionNumber) requestId))
          (fun b s => ∃ before : Search, Looking Γ config certificate now F listing (c :: rest) before ∧
            s = { before with bundles := before.bundles ++ [b] }) :=
        (Monitor.perform_sees (E := fun _ => True) (fun s r hs => decided_of_not rfl (hs.not_missed hc))
          (fun s b hs => ⟨s, hs, rfl⟩) fun _ _ _ => trivial).conseq (fun _ ht => ht) (fun _ _ ht => ht)
            (fun _ _ ht => ht.1) fun _ ht => ht
      refine Triple.bind hread fun b => ?_
      cases hb : verifyBundle Γ b certificate config now with
      | error x => exact runs_raise
      | ok f =>
        refine Triple.bind (R := fun g => _) (runs_ret (ψ := fun g s => (∃ before : Search,
          Looking Γ config certificate now F listing (c :: rest) before ∧
            s = { before with bundles := before.bundles ++ [b] }) ∧ g = f) fun s hs => ⟨hs, rfl⟩) fun g => ?_
        refine runs_assume fun hg => ?_
        subst hg
        split
        · rename_i hF
          refine runs_ret ?_
          rintro s ⟨before, hbefore, rfl⟩
          refine ⟨fun h => absurd h (by simp), fun _ => ⟨?_, b, List.mem_append_right _ (List.mem_singleton_self _), ?_⟩⟩
          · rw [show ({ before with bundles := before.bundles ++ [b] } : Search).listing = before.listing from rfl,
              hbefore.listing_eq]
            exact Option.some_ne_none _
          · rw [verifyBundle_ok hb, hF]
        · rename_i hne
          refine runs_pre ih ?_
          rintro s ⟨before, hbefore, rfl⟩
          refine ⟨hbefore.current, hbefore.listing_eq, ?_, ?_⟩
          · have hleft := hbefore.left
            rw [List.filter_cons_of_pos hc, List.length_cons] at hleft
            rw [List.length_append, List.length_singleton]
            omega
          · intro x hx
            rcases List.mem_append.1 hx with hx | hx
            · exact hbefore.others x hx
            · rw [List.mem_singleton.1 hx]
              exact ⟨g, verifyBundle_ok hb, hne⟩
    · rw [firstMatching, if_neg hc]
      refine runs_pre ih fun s hs => ⟨hs.current, hs.listing_eq, ?_, hs.others⟩
      rw [← List.filter_cons_of_neg hc]
      exact hs.left

theorem findMatchingPending_runs :
    Runs Γ config certificate now F
      (fun s => Unlisted s ∧ ∃ b, s.current = some b ∧ Other Γ config certificate now F b)
      (findMatchingPending Γ id certificate config F now requestId)
      (fun found s => (found = none → s.Missed Γ config certificate now F) ∧
        (found ≠ none → Found Γ config certificate now F s)) := by
  have hlist : Runs Γ config certificate now F
      (fun s => Unlisted s ∧ ∃ b, s.current = some b ∧ Other Γ config certificate now F b)
      (perform (.listVersions id requestId)) (fun l => Looking Γ config certificate now F l l) :=
    (Monitor.perform_sees (E := fun _ => True) (fun s r hs => decided_of_not rfl hs.1.not_missed)
      (fun s l hs => ⟨hs.2, rfl, Nat.zero_add _, fun _ hb => by cases hb⟩) fun _ _ _ => trivial).conseq (fun _ ht => ht)
        (fun _ _ ht => ht) (fun _ _ ht => ht.1) fun _ ht => ht
  exact Triple.bind hlist fun l => firstMatching_runs l l

/-- A candidate was found, or the run has uploaded. -/
def Settled (Γ : Ctx) (config : AppConfig) (certificate : CertificateConfig) (now : Instant) (F : String) (s : Search) :
    Prop :=
  Found Γ config certificate now F s ∨ s.uploaded = true

theorem runs_settled {p : Action α} (hp : p.Uses aside) :
    Runs Γ config certificate now F (Settled Γ config certificate now F) p fun _ => Settled Γ config certificate now F := by
  have hfound : Runs Γ config certificate now F (Found Γ config certificate now F) p fun _ => Found Γ config certificate now F := by
    refine (Monitor.keep_sees hp (fun op r s hop hs => ?_) fun op r s hop hs => ?_).conseq (fun _ ht => ht)
      (fun _ _ ht => ht) (fun _ _ ht => ht.1) fun _ ht => ht.1
    · exact decided_of_not (uploads_of_aside hop) hs.not_missed
    · rw [step_listed hop r hs.1]
      exact hs
  rintro t ⟨ht, hs | hs⟩ o t' hx
  · have hpost := hfound t ⟨ht, hs⟩ o t' hx
    cases o with
    | returned a => exact ⟨hpost.1, Or.inl hpost.2⟩
    | raised x => exact hpost
    | crashed => exact hpost
  · have hpost := runs_uploaded p t ⟨ht, hs⟩ o t' hx
    cases o with
    | returned a => exact ⟨hpost.1, Or.inr hpost.2⟩
    | raised x => exact hpost
    | crashed => exact hpost

theorem obtainCandidate_runs (etag : Option String) :
    Runs Γ config certificate now F
      (fun s => Unlisted s ∧ ∃ b, s.current = some b ∧ Other Γ config certificate now F b)
      (obtainCandidate Γ config certificate material chain F now id operationId requestId etag)
      (fun _ => Settled Γ config certificate now F) := by
  refine Triple.bind findMatchingPending_runs ?_
  intro found
  cases found with
  | some c => exact runs_ret fun s hs => Or.inl (hs.2 (by simp))
  | none =>
    refine runs_pre (φ := fun s => s.Missed Γ config certificate now F) ?_ fun s hs => hs.1 rfl
    have hlabel : Runs Γ config certificate now F (fun s => s.Missed Γ config certificate now F)
        (ofExcept (versionName Γ now F)) fun _ s => s.Missed Γ config certificate now F :=
      Triple.ofExcept (fun _ _ _ ht => ht) (fun _ _ ht => ht.1) fun _ ht => ht.1
    refine Triple.bind hlabel fun label => ?_
    have hupload : Runs Γ config certificate now F (fun s => s.Missed Γ config certificate now F)
        (perform (.uploadPendingVersion id etag
          { versionName := label
            certificatePem := material.leafPem
            certChainPem := chain.certChainPem
            privateKeyPem := material.privateKeyPem } requestId)) (fun _ s => s.uploaded = true) :=
      (Monitor.perform_sees (E := fun _ => True) (fun s r hs _ => ⟨fun _ => hs, fun _ => rfl⟩) (fun s r hs => rfl)
        fun _ _ _ => trivial).conseq (fun _ ht => ht) (fun _ _ ht => ht) (fun _ _ ht => ht.1) fun _ ht => ht
    refine Triple.bind hupload fun _ => ?_
    exact Triple.post (runs_uploaded _) fun _ _ ht => ⟨ht.1, Or.inr ht.2⟩

theorem publish_runs :
    Runs Γ config certificate now F Unlisted (publish Γ config certificate material chain F now operationType)
      fun _ _ => True := by
  have hquiet : ∀ {β : Type} {p : Action β}, p.Uses inert → Runs Γ config certificate now F Unlisted p fun _ => Unlisted :=
    fun hp => runs_inert (fun _ hs => hs.not_missed) hp
  unfold publish
  split
  · exact runs_raise
  · rename_i id _
    refine Triple.bind (hquiet (StateStore.uses_startOperation (A := inert) trivial trivial _ _ _ _
      fun _ _ _ _ _ => trivial)) fun operation => ?_
    refine Triple.bind (hquiet (Program.uses_perform.2 trivial)) fun requestId => ?_
    refine Triple.bind (hquiet (Program.uses_perform.2 trivial)) fun remote => ?_
    have hcurrent : Runs Γ config certificate now F Unlisted (perform (.getPublicBundle id none requestId))
        (fun b s => Unlisted s ∧ s.current = some b) :=
      (Monitor.perform_sees (E := fun _ => True) (fun s r hs => decided_of_not rfl hs.not_missed)
        (fun s b hs => by
          rw [show searching.step s ⟨.getPublicBundle id none requestId, .ok b⟩ = { s with current := some b } from if_pos hs]
          exact ⟨hs, rfl⟩)
        fun _ _ _ => trivial).conseq (fun _ ht => ht) (fun _ _ ht => ht) (fun _ _ ht => ht.1) fun _ ht => ht
    refine Triple.bind hcurrent fun bundle => ?_
    have hknown : ∀ {β : Type} {p : Action β}, p.Uses inert →
        Runs Γ config certificate now F (fun s => Unlisted s ∧ s.current = some bundle) p
          fun _ s => Unlisted s ∧ s.current = some bundle := fun hp => runs_inert (fun _ hs => hs.1.not_missed) hp
    cases hb : verifyBundle Γ bundle certificate config now with
    | error x => exact runs_raise
    | ok f =>
      refine Triple.bind (R := fun g => _) (runs_ret (ψ := fun g s => (Unlisted s ∧ s.current = some bundle) ∧ g = f)
        fun s hs => ⟨hs, rfl⟩) fun g => ?_
      refine runs_assume fun hg => ?_
      subst hg
      refine Triple.bind (hknown (StateStore.uses_transition (inert_of_footprint certificate.id _) _ _)) fun _ => ?_
      split
      · refine Triple.post (hknown ?_) fun _ _ ht => ⟨ht.1, trivial⟩
        exact Program.uses_bind (Program.uses_perform.2 trivial) fun _ =>
          uses_complete inert_of_records (inert_of_footprint _ _) _ _ _
      · rename_i hne
        refine runs_pre (φ := fun s => Unlisted s ∧ ∃ b, s.current = some b ∧ Other Γ config certificate now F b) ?_
          fun s hs => ⟨hs.1, bundle, hs.2, g, verifyBundle_ok hb, hne⟩
        refine Triple.bind (obtainCandidate_runs _) fun c => ?_
        refine Triple.post (runs_settled ?_) fun _ _ ht => ⟨ht.1, trivial⟩
        exact uses_promoteAndConfirm (fun op h => aside_of_inert (inert_of_footprint _ _ op h))
          (fun op h => aside_of_inert (inert_of_records op h)) (fun op h => aside_of_inert (inert_of_pauses op h))
          (fun _ _ _ => trivial) trivial trivial (fun _ _ => trivial) c

/-- The run has uploaded exactly when an upload was performed. -/
theorem uploaded_after (t : List (Event publisher Exc)) :
    (searching.after t).uploaded = true ↔ ∃ e ∈ t, Op.uploads e.op = true := by
  induction t using List.reverseRecOn with
  | nil =>
    refine ⟨fun h => absurd h (by decide), ?_⟩
    rintro ⟨e, he, -⟩
    cases he
  | append_singleton t e ih =>
    have hstep : (searching.step (searching.after t) e).uploaded = ((searching.after t).uploaded || Op.uploads e.op) := by
      obtain ⟨op, r⟩ := e
      cases op with
      | uploadPendingVersion => exact (Bool.or_true _).symm
      | listVersions id requestId => cases r <;> exact (Bool.or_false _).symm
      | getPublicBundle id n requestId =>
        cases n with
        | some n => cases r <;> exact (Bool.or_false _).symm
        | none =>
          cases r with
          | error x => exact (Bool.or_false _).symm
          | ok b =>
            rw [show Op.uploads (.getPublicBundle id none requestId) = false from rfl, Bool.or_false]
            show (if _ then _ else _ : Search).uploaded = _
            split <;> rfl
      | _ => exact (Bool.or_false _).symm
    rw [Monitor.after_snoc, hstep, Bool.or_eq_true, ih]
    simp only [List.mem_append, List.mem_singleton]
    constructor
    · rintro (⟨a, ha, hup⟩ | hup)
      · exact ⟨a, Or.inl ha, hup⟩
      · exact ⟨e, Or.inr rfl, hup⟩
    · rintro ⟨a, ha | rfl, hup⟩
      · exact Or.inl ⟨a, ha, hup⟩
      · exact Or.inr hup

/-- Where a run uploads, there is a first upload. -/
theorem exists_first {t : List (Event publisher Exc)} (h : ∃ e ∈ t, Op.uploads e.op = true) :
    ∃ before e rest, t = before ++ e :: rest ∧ (∀ b ∈ before, Op.uploads b.op = false) ∧ Op.uploads e.op = true := by
  induction t with
  | nil =>
    obtain ⟨e, he, -⟩ := h
    cases he
  | cons b t ih =>
    by_cases hb : Op.uploads b.op = true
    · exact ⟨[], b, t, rfl, fun _ hx => (by cases hx), hb⟩
    · have hrest : ∃ e ∈ t, Op.uploads e.op = true := by
        obtain ⟨e, he, hup⟩ := h
        rcases List.mem_cons.1 he with rfl | he
        · exact absurd hup hb
        · exact ⟨e, he, hup⟩
      obtain ⟨before, e, rest, rfl, hbefore, hup⟩ := ih hrest
      refine ⟨b :: before, e, rest, rfl, ?_, hup⟩
      intro x hx
      rcases List.mem_cons.1 hx with rfl | hx
      · simpa using hb
      · exact hbefore x hx

end UploadAux

/-! ## What a finished run has found -/

section Found

variable (Γ : Ctx) (config : AppConfig) (certificate : CertificateConfig) (now : Instant) (id F : String)

/-- OCI has shown the version, CURRENT where no number is given, with a valid leaf that has the fingerprint. -/
def BundleShown (number : Option Int) (t : List (Event publisher Exc)) : Prop :=
  ∃ requestId bundle, ⟨.getPublicBundle id number requestId, .ok bundle⟩ ∈ t ∧
    validatePublicCertificate Γ bundle.certificatePem certificate config.global now = .ok F

/-- The version has been promoted, or was read to be CURRENT. -/
def MadeCurrent (number : Int) (t : List (Event publisher Exc)) : Prop :=
  (∃ etag requestId, ⟨.promoteCurrent id number etag requestId, .ok ()⟩ ∈ t) ∨
    ∃ requestId found, ⟨.getCertificate id requestId, .ok found⟩ ∈ t ∧ found.currentVersionNumber = some number

/-- What a run has found that returns the result: its fingerprint on CURRENT, or on a version that it made CURRENT. -/
def Finds (result : PublicationResult) (t : List (Event publisher Exc)) : Prop :=
  if result.changed then ∃ number, BundleShown Γ config certificate now id F (some number) t ∧ MadeCurrent id number t
  else BundleShown Γ config certificate now id F none t

end Found

namespace UploadAux

open PublicationReconciler

variable {Γ : Ctx} {config : AppConfig} {certificate : CertificateConfig} {material : LineageMaterial}
  {chain : OciCertificateChain} {now : Instant} {operationType : OperationType} {id operationId requestId F : String} {number : Int}
  {α β : Type} {φ : List (Event publisher Exc) → Prop}

/-- What is known of the operations that were performed; nothing is claimed of a run that raises or is cut. -/
abbrev Knows (φ : List (Event publisher Exc) → Prop) (p : Action α) (ψ : α → List (Event publisher Exc) → Prop) : Prop :=
  Triple anyAnswer φ p ψ (fun _ _ => True) fun _ => True

theorem lasting_shown {number : Option Int} : Lasting (BundleShown Γ config certificate now id F number) :=
  fun _ _ ⟨requestId, bundle, hread, hvalid⟩ => ⟨requestId, bundle, List.mem_append_left _ hread, hvalid⟩

theorem lasting_madeCurrent : Lasting (MadeCurrent id number) := by
  rintro t e (⟨etag, requestId, h⟩ | ⟨requestId, found, h, hcurrent⟩)
  · exact Or.inl ⟨etag, requestId, List.mem_append_left _ h⟩
  · exact Or.inr ⟨requestId, found, List.mem_append_left _ h, hcurrent⟩

theorem knows_raise {ψ : α → List (Event publisher Exc) → Prop} {x : Exc} : Knows φ (.raise x : Action α) ψ :=
  Triple.raise (fun _ _ => trivial) fun _ _ => trivial

/-- What lasts is known after any program. -/
theorem knows_lasting (hφ : Lasting φ) (p : Action α) : Knows φ p fun _ => φ :=
  (hφ.triple p).conseq (fun _ h => h) (fun _ _ h => h) (fun _ _ _ => trivial) fun _ _ => trivial

/-- What lasts is known of a result that does not depend on the run. -/
theorem knows_yields (hφ : Lasting φ) {p : Action α} {P : α → Prop} (hp : p.Yields P) : Knows φ p fun a t => P a ∧ φ t := by
  intro t ht o t' hx
  have hpost := knows_lasting hφ p t ht o t' hx
  cases o with
  | returned a => exact ⟨Exec.yields hp hx rfl, hpost⟩
  | raised | crashed => trivial

/-- The loop over the listed versions returns one that was shown with the fingerprint. -/
theorem firstMatching_knows (l : List OciCertificateVersion) :
    Knows (fun _ => True) (firstMatching Γ id certificate config F now requestId l) fun found t => ∀ version, found = some version →
      BundleShown Γ config certificate now id F (some version.versionNumber) t := by
  induction l with
  | nil => exact Triple.ret (fun _ _ _ h => by cases h) fun _ _ => trivial
  | cons candidate rest ih =>
    unfold firstMatching
    split
    · refine Triple.bind (perform_mem _) fun bundle => ?_
      cases hverified : verifyBundle Γ bundle certificate config now with
      | error x => exact knows_raise
      | ok fingerprint =>
        show Knows _ (if fingerprint = F then _ else _) _
        split
        · rename_i hF
          refine Triple.ret (fun t ht version hversion => ?_) fun _ _ => trivial
          cases hversion
          exact ⟨requestId, bundle, ht, hF ▸ verifyBundle_ok hverified⟩
        · exact Triple.pre ih fun _ _ => trivial
    · exact ih

theorem findMatchingPending_knows :
    Knows (fun _ => True) (findMatchingPending Γ id certificate config F now requestId) fun found t => ∀ version,
      found = some version → BundleShown Γ config certificate now id F (some version.versionNumber) t :=
  Triple.bind (R := fun _ _ => True) ((knows_lasting (Lasting.const True) _).conseq (fun _ h => h) (fun _ _ h => h) (fun _ _ h => h)
    fun _ h => h) fun versions => firstMatching_knows versions

/-- The candidate was shown with the fingerprint, whether it was there or has been uploaded. -/
theorem obtainCandidate_knows (etag : Option String) :
    Knows (fun _ => True) (obtainCandidate Γ config certificate material chain F now id operationId requestId etag)
      fun version => BundleShown Γ config certificate now id F (some version.versionNumber) := by
  refine Triple.bind findMatchingPending_knows fun candidate => ?_
  cases candidate with
  | some version => exact Triple.ret (fun _ ht => ht version rfl) fun _ _ => trivial
  | none =>
    have hfree : ∀ {γ : Type} (p : Action γ), Knows (fun _ => True) p fun _ _ => True := knows_lasting (Lasting.const True)
    refine Triple.pre ?_ fun _ _ => trivial
    refine Triple.bind (hfree _) fun label => Triple.bind (hfree _) fun _ => Triple.bind (hfree _) fun _ =>
      Triple.bind (hfree _) fun _ => Triple.bind findMatchingPending_knows fun visible => ?_
    cases visible with
    | some version => exact Triple.ret (fun _ ht => ht version rfl) fun _ _ => trivial
    | none => exact knows_raise

/-- A promotion that returns has made the version CURRENT. -/
theorem promoteCurrent_knows (hφ : Lasting φ) :
    Knows φ (promoteCurrent config id number requestId) fun _ t => φ t ∧ MadeCurrent id number t := by
  unfold promoteCurrent
  induction (promotionPolicy config).maxAttempts with
  | zero => exact knows_raise
  | succ remaining ih =>
    unfold promoteCurrent.attempts
    refine Triple.bind (R := fun refreshed t => φ t ∧ (⟨.getCertificate id requestId, .ok refreshed⟩ : Event publisher Exc) ∈ t)
      ?_ fun refreshed => ?_
    · exact ((knows_lasting hφ _).and (perform_mem _)).conseq (fun _ h => ⟨h, h⟩) (fun _ _ h => h) (fun _ _ _ => trivial)
        fun _ _ => trivial
    · split
      · rename_i hcurrent
        exact Triple.ret (fun t ht => ⟨ht.1, Or.inr ⟨requestId, refreshed, ht.2, hcurrent⟩⟩) fun _ _ => trivial
      · refine Triple.bind (R := fun outcome t => φ t ∧ (outcome = .ok () → MadeCurrent id number t)) ?_ fun outcome => ?_
        · refine Triple.attempt_perform (fun _ _ => trivial) ?_
          rintro t outcome _ ht rfl
          refine ⟨⟨hφ t _ ht.1, ?_⟩, trivial⟩
          rintro rfl
          exact Or.inl ⟨refreshed.etag, requestId, List.mem_append_right _ (List.mem_singleton_self _)⟩
        · cases outcome with
          | ok _ => exact Triple.ret (fun t ht => ⟨ht.1, ht.2 rfl⟩) fun _ _ => trivial
          | error x =>
            refine Triple.pre (P := φ) ?_ fun _ ht => ht.1
            simp only
            split
            · exact Triple.bind (knows_lasting hφ _) fun _ => ih
            · exact knows_raise

/-- The result of the last steps says whether the run changed OCI. -/
theorem yields_changed (f : String) (n : Int) (changed : Bool) :
    (complete operationId certificate F f n changed operationType).Yields fun result => result.changed = changed := by
  refine Program.yields_last _ fun _ => Program.yields_last _ fun _ => ?_
  exact Program.yields_last _ fun _ => Program.yields_last _ fun _ => rfl

theorem promoteAndConfirm_knows (candidate : OciCertificateVersion) :
    Knows (BundleShown Γ config certificate now id F (some candidate.versionNumber))
      (promoteAndConfirm Γ config certificate F now operationType id operationId requestId candidate)
      (Finds Γ config certificate now id F) := by
  have hfound : Lasting fun t => BundleShown Γ config certificate now id F (some candidate.versionNumber) t ∧
      MadeCurrent id candidate.versionNumber t := lasting_shown.and lasting_madeCurrent
  refine Triple.bind (knows_lasting lasting_shown _) fun _ => Triple.bind (knows_lasting lasting_shown _) fun _ => ?_
  refine Triple.bind (promoteCurrent_knows lasting_shown) fun _ => Triple.post (knows_yields (P := fun result => result.changed = true)
    hfound ?_) fun result t ht => ?_
  · refine Program.yields_last _ fun _ => Program.yields_last _ fun _ => Program.yields_last _ fun _ => ?_
    split
    · trivial
    · exact Program.yields_last _ fun _ => Program.yields_last _ fun _ => yields_changed _ _ _
  · unfold Finds
    rw [if_pos ht.1]
    exact ⟨candidate.versionNumber, ht.2⟩

/-- A publication that returns has found its fingerprint on CURRENT, or on a version that it made CURRENT. -/
theorem publish_knows (hid : certificate.oci.certificateOcid = some id) :
    Knows (fun _ => True) (publish Γ config certificate material chain F now operationType)
      (Finds Γ config certificate now id F) := by
  have hfree : ∀ {γ : Type} (p : Action γ), Knows (fun _ => True) p fun _ _ => True := knows_lasting (Lasting.const True)
  unfold publish
  rw [hid]
  refine Triple.bind (hfree _) fun operation => Triple.bind (hfree _) fun requestId => Triple.bind (hfree _) fun remote => ?_
  refine Triple.bind (perform_mem _) fun bundle => ?_
  cases hverified : verifyBundle Γ bundle certificate config now with
  | error x => exact knows_raise
  | ok current =>
    show Knows _ ((StateStore.transition operation.operationId .ociReconciled _).bind fun _ => _) _
    refine Triple.bind (knows_lasting (Lasting.mem _) _) fun _ => ?_
    split
    · rename_i hF
      refine Triple.post (knows_yields (P := fun result => result.changed = false) (Lasting.mem _)
        (Program.yields_last _ fun _ => yields_changed _ _ _)) fun result t ht => ?_
      unfold Finds
      rw [if_neg (by simp [ht.1])]
      exact ⟨requestId, bundle, ht.2, hF ▸ verifyBundle_ok hverified⟩
    · exact Triple.pre (Triple.bind (obtainCandidate_knows _) fun candidate => promoteAndConfirm_knows candidate) fun _ _ => trivial

end UploadAux

open UploadAux

/-- A publication uploads exactly where it has missed the fingerprint. From any store, whatever is outstanding there, and whatever
the ports answer: a run performs no upload if and only if it never goes on from a point at which OCI has shown it CURRENT and, in a
listing, every PENDING or LATEST version with a valid leaf other than its own. A run that returns, with an upload or without, has
found its fingerprint on CURRENT, or on a version that it has promoted. -/
theorem publish_uploads_iff (Γ : Ctx) (faults : Faults) (config : AppConfig) (certificate : CertificateConfig)
    (material : LineageMaterial) (chain : OciCertificateChain) (F : String) (now : Instant) (operationType : OperationType)
    {db db' : Database} {o : Outcome Exc PublicationResult} {t : List (Event publisher Exc)}
    (h : Exec (recording (persisting faults))
      (PublicationReconciler.publish Γ config certificate material chain F now operationType) (db, []) o (db', t)) :
    ((∀ e ∈ t, Op.uploads e.op = false) ↔
        ∀ before e rest, t = before ++ e :: rest → ¬(searching.after before).Missed Γ config certificate now F) ∧
      ∀ result, o = .returned result → ∃ id, certificate.oci.certificateOcid = some id ∧
        Finds Γ config certificate now id F result t := by
  have hdecided : searching.Checked (Decided Γ config certificate now F) t := by
    have hstart : searching.Sees (Decided Γ config certificate now F) Unlisted [] := ⟨Monitor.checked_nil _, rfl⟩
    have hpost := publish_runs _ hstart _ _ h.anyAnswer
    cases o with
    | returned result => exact hpost.1
    | raised x => exact hpost
    | crashed => exact hpost
  refine ⟨⟨?_, ?_⟩, ?_⟩
  · intro hnone before e rest ht hmissed
    have hbefore : (searching.after before).uploaded = false := by
      rw [← Bool.not_eq_true, uploaded_after]
      rintro ⟨a, ha, hup⟩
      rw [hnone a (by rw [ht]; exact List.mem_append_left _ ha)] at hup
      cases hup
    have hup := (hdecided before e rest ht hbefore).2 hmissed
    rw [hnone e (by rw [ht]; simp)] at hup
    cases hup
  · intro hnever e he
    rw [← Bool.not_eq_true]
    intro hup
    obtain ⟨before, a, rest, ht, hbefore, ha⟩ := exists_first ⟨e, he, hup⟩
    have hclean : (searching.after before).uploaded = false := by
      rw [← Bool.not_eq_true, uploaded_after]
      rintro ⟨b, hb, hbup⟩
      rw [hbefore b hb] at hbup
      cases hbup
    exact hnever before a rest ht ((hdecided before a rest ht hclean).1 ha)
  · rintro result rfl
    cases hid : certificate.oci.certificateOcid with
    | none =>
      unfold PublicationReconciler.publish at h
      rw [hid] at h
      cases h
    | some id => exact ⟨id, rfl, publish_knows hid [] trivial _ _ h.anyAnswer⟩

/-- The store holds a nonterminal operation of the certificate and the fingerprint that has uploaded. -/
def Database.Outstanding (certificateId F : String) (db : Database) : Prop :=
  ∃ row ∈ db.operations.rows, row.certificateId = certificateId ∧ row.localFingerprint = some F ∧
    (row.state = .ociPendingUploaded ∨ row.state = .ociPendingVerified)

namespace UploadAux

open Sample

/-- OCI shows one version, CURRENT, with the given PEM, and nothing else, whatever has been uploaded. -/
def showing (pem : String) : Handler publisher Exc Database := fun db op =>
  match op with
  | .sql statement => (db.execute statement).map fun (reply, db') => (.ok reply, db')
  | .getCertificate ocid _ => some (.ok ⟨ocid, none, some 1⟩, db)
  | .getPublicBundle .. => some (.ok ⟨pem, "IR", 1, none, [.current, .latest]⟩, db)
  | .listVersions .. => some (.ok [{ versionNumber := 1, stages := [.current, .latest] }], db)
  | .uploadPendingVersion .. | .logEvent .. => some (.ok (), db)
  | .now => some (.ok (days 1), db)
  | .uuid4 => some (.ok "second", db)
  | _ => none

theorem showing_allowed (pem : String) : (showing pem).Allowed (persisting noFaults) := by
  intro db op answer db' h
  cases op with
  | sql statement =>
    obtain ⟨⟨reply, db₁⟩, hx, heq⟩ := Option.map_eq_some_iff.1 h
    cases heq
    exact ⟨fun _ h => (by cases h), Database.execute_step hx⟩
  | getCertificate | getPublicBundle | listVersions | uploadPendingVersion | logEvent | now | uuid4 =>
    cases h
    exact ⟨fun _ h => (by cases h), rfl⟩
  | _ => cases h

/-- An interrupted publication of `B` has uploaded. -/
def outstanding : Database where
  operations := ⟨[{
    operationId := "first"
    certificateId := "web"
    operationType := .publish
    state := .ociPendingUploaded
    localFingerprint := some (certificateSha256 (leaf 2))
    ociCertificateOcid := some "ocid"
    startedAt := 0
    updatedAt := 0 }], List.nodup_singleton _⟩

/-- A publication of `B` from that store. -/
def publication : Action PublicationResult :=
  PublicationReconciler.publish ctx (config certificate) certificate material chain (certificateSha256 (leaf 2)) (days 1)
    .publish

/-- The run of the publication where OCI shows the given PEM. -/
def uploadRun (pem : String) : Outcome Exc PublicationResult × Database × List (Event publisher Exc) :=
  publication.runFor (showing pem).record 100 (outstanding, [])

theorem uploadRun_exec (pem : String) :
    Exec (recording (persisting noFaults)) publication (outstanding, []) (uploadRun pem).1 (uploadRun pem).2 :=
  exec_runFor (showing_allowed pem).record 100 _ _

end UploadAux

/-- The store holds the outstanding upload of `B`, and OCI does not show it yet: the publication uploads `B` again. -/
theorem publish_uploads_false :
    Database.Outstanding "web" (certificateSha256 (Sample.leaf 2)) outstanding ∧
      Exec (recording (persisting noFaults)) publication (outstanding, []) (uploadRun "A").1 (uploadRun "A").2 ∧
        (uploadRun "A").2.2.any (fun e => e.op.uploads) = true :=
  ⟨⟨_, List.mem_singleton_self _, rfl, rfl, Or.inl rfl⟩, uploadRun_exec "A", by decide +kernel⟩

/-- Where CURRENT shows `B`, it does not. -/
theorem publish_uploads_iff_sample :
    (uploadRun "B").1 = .returned ⟨"web", 1, certificateSha256 (Sample.leaf 2), false⟩ ∧
      ∀ before e rest, (uploadRun "B").2.2 = before ++ e :: rest →
        ¬(searching.after before).Missed Sample.ctx (Sample.config Sample.certificate) Sample.certificate (days 1)
          (certificateSha256 (Sample.leaf 2)) := by
  refine ⟨by decide +kernel, ?_⟩
  have hnone : ∀ e ∈ (uploadRun "B").2.2, Op.uploads e.op = false := by decide +kernel
  exact (publish_uploads_iff Sample.ctx noFaults (Sample.config Sample.certificate) Sample.certificate Sample.material
    Sample.chain (certificateSha256 (Sample.leaf 2)) (days 1) .publish (uploadRun_exec "B")).1.1 hnone

end OciAcmePublisher
