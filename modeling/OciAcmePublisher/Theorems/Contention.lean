import OciAcmePublisher.Contention
import OciAcmePublisher.Lemmas.Footprints
import OciAcmePublisher.Lemmas.OwnRow
import OciAcmePublisher.Simulation

/-!
# What an ETag protects

The retention and the rollback decide from a listing and read the ETag they mutate with later. What the ETag protects is what stood
when it was read: the version a mutation is accepted for is as it was then, and may have changed since it was selected.
-/

namespace OciAcmePublisher

open Effects Tables

/-- The accepted mutation is backed: it is about a version that was selected by a listing, its ETag was read, and the predicate holds
now if and only if it held then. -/
def Contender.Backed (contender : Contender) (before : List Served) (s : Served) : Prop :=
  ∃ n, Op.target s.event.op = some n ∧ (∃ l ∈ before, l.lists = true ∧ contender.Selects n l) ∧
    ∃ r ∈ before, r.etag = Op.ifMatch s.event.op ∧ r.etag ≠ none ∧ (contender.Selects n s ↔ contender.Selects n r)

instance (contender : Contender) (n : Int) (s : Served) : Decidable (contender.Selects n s) :=
  match contender with
  | .retention _ _ => inferInstanceAs (Decidable ((∃ v ∈ s.state.table.rows, _) ∧ ∀ row ∈ s.database.operations.rows, _))
  | .rollback .. => inferInstanceAs (Decidable (∃ v ∈ s.state.table.rows, _))

namespace ContentionAux

variable {Γ : Ctx} {faults : Faults} {contender : Contender} {α β : Type} {T : Table OperationRow String (·.operationId)}
  {φ : Arena → Prop} {n : Int} {etag : String}

/-- Every accepted mutation is backed. -/
def Sound (contender : Contender) (served : List Served) : Prop :=
  ∀ before s rest, served = before ++ s :: rest → s.accepted = true → contender.Backed before s

theorem sound_snoc {served : List Served} {s : Served} (h : Sound contender served)
    (hs : s.accepted = true → contender.Backed served s) : Sound contender (served ++ [s]) := by
  intro before a rest heq ha
  rcases List.eq_nil_or_concat rest with rfl | ⟨rest, b, rfl⟩
  · obtain ⟨rfl, hlast⟩ := List.append_inj' heq rfl
    cases hlast
    exact hs ha
  · have heq' : served ++ [s] = (before ++ a :: rest) ++ [b] := by simpa using heq
    exact h before a rest (List.append_inj' heq' rfl).1 ha

/-- A listing showed the version as selected. -/
def Listed (contender : Contender) (n : Int) (w : Arena) : Prop :=
  ∃ l ∈ w.served, l.lists = true ∧ contender.Selects n l

/-- The ETag was read, from a state that the present one comes of, and named there what `ψ` says. -/
def Read (etag : String) (ψ : Contested → Prop) (w : Arena) : Prop :=
  ∃ r ∈ w.served, r.etag = some etag ∧ ψ r.state ∧ Tagged.Moves r.state w.oci

/-- What no call but a mutation can spoil. -/
def Stable (φ : Arena → Prop) : Prop :=
  ∀ w w' s, w'.served = w.served ++ [s] → Tagged.Moves w.oci w'.oci → φ w → φ w'

theorem stable_listed : Stable (Listed contender n) := by
  rintro w w' s hserved - ⟨l, hl, h⟩
  refine ⟨l, ?_, h⟩
  rw [hserved]
  exact List.mem_append_left _ hl

theorem stable_read {ψ : Contested → Prop} : Stable (Read etag ψ) := by
  rintro w w' s hserved hmoves ⟨r, hr, hetag, hψ, hm⟩
  refine ⟨r, ?_, hetag, hψ, hm.trans hmoves⟩
  rw [hserved]
  exact List.mem_append_left _ hr

theorem Stable.and {ψ : Arena → Prop} (hφ : Stable φ) (hψ : Stable ψ) : Stable fun w => φ w ∧ ψ w :=
  fun w w' s hs hm h => ⟨hφ w w' s hs hm h.1, hψ w w' s hs hm h.2⟩

theorem Stable.forall {ι : Type} {φ : ι → Arena → Prop} (h : ∀ i, Stable (φ i)) : Stable fun w => ∀ i, φ i w :=
  fun w w' s hs hm hφ i => h i w w' s hs hm (hφ i)

theorem Stable.imp {p : Prop} (h : Stable φ) : Stable fun w => p → φ w := fun w w' s hs hm hφ hp => h w w' s hs hm (hφ hp)

theorem stable_true : Stable fun _ => True := fun _ _ _ _ _ _ => trivial

/-- The operation asks OCI to change nothing. -/
def harmless (op : Op) : Prop := op.target = none

/-- What a call does to the arena: the state it was served in comes of the one before, and the one after comes of it. -/
theorem contended_moves {w w' : Arena} {op : Op} {answer : Except Exc op.Reply} (h : contended faults w op answer w') :
    ∃ c accepted, Tagged.Moves w.oci c ∧ Tagged.Moves c w'.oci ∧
      w'.served = w.served ++ [⟨⟨op, answer⟩, c, accepted, w.database⟩] ∧
        ∃ c', Contested.Serves c op answer accepted c' := by
  obtain ⟨-, c₁, c₂, accepted, h₁, hserves, h₂, hserved⟩ := h
  refine ⟨c₁, accepted, h₁, ?_, hserved, c₂, hserves⟩
  have hstep : Tagged.Moves c₁ c₂ := by
    unfold Contested.Serves at hserves
    split at hserves
    all_goals first
      | (rcases hserves with ⟨-, -, hm, -⟩ | ⟨-, rfl, -⟩; exact hm; exact Tagged.Moves.refl _)
      | (rcases hserves with ⟨-, -, -, hm, -⟩ | ⟨-, rfl, -⟩; exact hm; exact Tagged.Moves.refl _)
      | (rw [hserves.2.1]; exact Tagged.Moves.refl _)
      | (rw [hserves.2]; exact Tagged.Moves.refl _)
  exact hstep.trans h₂

/-- A mutation is the only call that is accepted as one. -/
theorem not_accepted {op : Op} (hop : harmless op) {c c' : Contested} {answer : Except Exc op.Reply} {accepted : Bool}
    (h : Contested.Serves c op answer accepted c') : accepted = false := by
  unfold Contested.Serves at h
  split at h
  all_goals first
    | exact h.1
    | cases hop

/-- Every accepted mutation is backed, `I` holds, and `φ` is known. -/
def Knows (contender : Contender) (I φ : Arena → Prop) (w : Arena) : Prop := Sound contender w.served ∧ I w ∧ φ w

/-- The runs of `p`. -/
abbrev Runs (faults : Faults) (contender : Contender) (I φ : Arena → Prop) (p : Action α) (ψ : α → Arena → Prop) : Prop :=
  Triple (contended faults) (Knows contender I φ) p (fun a => Knows contender I (ψ a)) (fun _ w => Sound contender w.served)
    fun w => Sound contender w.served

/-- Every call that `A` allows keeps `I`. -/
def Keeps (faults : Faults) (A : Op → Prop) (I : Arena → Prop) : Prop :=
  ∀ w op answer w', A op → I w → contended faults w op answer w' → I w'

variable {A : Op → Prop} {I : Arena → Prop}

theorem sound_of_harmless {w w' : Arena} {op : Op} {answer : Except Exc op.Reply} (hop : harmless op)
    (hw : Sound contender w.served) (h : contended faults w op answer w') : Sound contender w'.served := by
  obtain ⟨c, accepted, -, -, hserved, c', hserves⟩ := contended_moves h
  rw [hserved, not_accepted hop hserves]
  exact sound_snoc hw fun hacc => by cases hacc

/-- A program that asks OCI to change nothing. -/
theorem runs_frame (hA : ∀ op, A op → harmless op) (hI : Keeps faults A I) (hφ : Stable φ) {p : Action α} (hp : p.Uses A) :
    Runs faults contender I φ p fun _ => φ := by
  refine (Triple.frame (I := Knows contender I φ) hp fun w op answer w' hop hw h => ?_).conseq (fun _ h => h)
    (fun _ _ h => h) (fun _ _ h => h.1) fun _ h => h.1
  obtain ⟨c, accepted, h₁, h₂, hserved, -⟩ := contended_moves h
  exact ⟨sound_of_harmless (hA op hop) hw.1 h, hI w op answer w' hop hw.2.1 h, hφ w w' _ hserved (h₁.trans h₂) hw.2.2⟩

/-- A call that reads something. -/
theorem runs_read (hA : ∀ op, A op → harmless op) (hI : Keeps faults A I) {op : Op} (hop : A op)
    {ψ : op.Reply → Arena → Prop}
    (hok : ∀ w a w', I w → φ w → contended faults w op (.ok a) w' → ψ a w') :
    Runs faults contender I φ (perform op) ψ := by
  refine Triple.perform (fun _ hw => hw.1) (fun w a w' hw h => ?_) fun w x w' hw h => ?_
  · have hsound := sound_of_harmless (hA op hop) hw.1 h
    exact ⟨⟨hsound, hI w op _ w' hop hw.2.1 h, hok w a w' hw.2.1 hw.2.2 h⟩, hsound⟩
  · have hsound := sound_of_harmless (hA op hop) hw.1 h
    exact ⟨hsound, hsound⟩

/-- A mutation that is backed where it is accepted. -/
theorem runs_mutate {op : Op} (hI : Keeps faults (fun o => o = op) I) (hφ : Stable φ)
    (hback : ∀ w answer c c', I w → φ w → Tagged.Moves w.oci c → Contested.Serves c op answer true c' →
      contender.Backed w.served ⟨⟨op, answer⟩, c, true, w.database⟩) :
    Runs faults contender I φ (perform op) fun _ => φ := by
  have hstep : ∀ w answer w', Knows contender I φ w → contended faults w op answer w' → Knows contender I φ w' := by
    intro w answer w' hw h
    obtain ⟨c, accepted, h₁, h₂, hserved, c', hserves⟩ := contended_moves h
    refine ⟨?_, hI w op answer w' rfl hw.2.1 h, hφ w w' _ hserved (h₁.trans h₂) hw.2.2⟩
    rw [hserved]
    refine sound_snoc hw.1 fun hacc => ?_
    replace hacc : accepted = true := hacc
    subst hacc
    exact hback w answer c c' hw.2.1 hw.2.2 h₁ hserves
  refine Triple.perform (fun _ hw => hw.1) (fun w a w' hw h => ?_) fun w x w' hw h => ?_
  · have hkept := hstep w _ w' hw h
    exact ⟨hkept, hkept.1⟩
  · have hkept := hstep w _ w' hw h
    exact ⟨hkept.1, hkept.1⟩

theorem runs_ofExcept {e : Except Exc α} {ψ : α → Arena → Prop} (h : ∀ a w, e = .ok a → φ w → ψ a w) :
    Runs faults contender I φ (ofExcept e) ψ :=
  Triple.ofExcept (fun a w ha hw => ⟨hw.1, hw.2.1, h a w ha hw.2.2⟩) (fun _ _ hw => hw.1) fun _ hw => hw.1

theorem runs_ret {a : α} {ψ : α → Arena → Prop} (h : ∀ w, φ w → ψ a w) :
    Runs faults contender I φ (.ret a : Action α) ψ :=
  Triple.ret (fun _ hw => ⟨hw.1, hw.2.1, h _ hw.2.2⟩) fun _ hw => hw.1

theorem runs_raise {x : Exc} {ψ : α → Arena → Prop} : Runs faults contender I φ (.raise x : Action α) ψ :=
  Triple.raise (fun _ hw => hw.1) fun _ hw => hw.1

theorem runs_pre {p : Action α} {ψ : α → Arena → Prop} {φ' : Arena → Prop} (h : Runs faults contender I φ p ψ)
    (hφ : ∀ w, I w → φ' w → φ w) : Runs faults contender I φ' p ψ :=
  h.pre fun w hw => ⟨hw.1, hw.2.1, hφ w hw.2.1 hw.2.2⟩

/-! ## The retention -/

/-- The operation rows are as they were, now and whenever OCI served. -/
def Unmoved (T : Table OperationRow String (·.operationId)) (w : Arena) : Prop :=
  w.database.operations = T ∧ ∀ s ∈ w.served, s.database.operations = T

theorem keeps_unmoved (T : Table OperationRow String (·.operationId)) : Keeps faults Op.passive (Unmoved T) := by
  rintro w op answer w' hop ⟨hw, hserved⟩ h
  refine ⟨(operations_of_passive hop h.1).trans hw, fun s hs => ?_⟩
  obtain ⟨c, accepted, -, -, heq, -⟩ := contended_moves h
  rw [heq] at hs
  rcases List.mem_append.1 hs with hs | hs
  · exact hserved s hs
  · rw [List.mem_singleton.1 hs]
    exact hw

/-- A retention's calls but the mutations. -/
def surveys (op : Op) : Prop := op.passive ∧ harmless op

theorem keeps_surveys (T : Table OperationRow String (·.operationId)) : Keeps faults surveys (Unmoved T) :=
  fun w op answer w' hop hw h => keeps_unmoved T w op answer w' hop.1 hw h

/-- A listing showed these versions. -/
def ListedAs (versions : List OciCertificateVersion) (w : Arena) : Prop :=
  ∃ l ∈ w.served, l.lists = true ∧ versions = l.state.table.rows.map (·.record)

theorem stable_listedAs {versions : List OciCertificateVersion} : Stable (ListedAs versions) := by
  rintro w w' s hserved - ⟨l, hl, h⟩
  refine ⟨l, ?_, h⟩
  rw [hserved]
  exact List.mem_append_left _ hl

theorem listVersions_runs (hA : ∀ op, A op → harmless op) (hI : Keeps faults A I) {ocid requestId : String}
    (hop : A (.listVersions ocid requestId)) :
    Runs faults contender I φ (perform (.listVersions ocid requestId)) ListedAs := by
  refine runs_read hA hI hop fun w versions w' _ _ h => ?_
  obtain ⟨c, accepted, -, -, hserved, c', -, -, hversions⟩ := contended_moves h
  refine ⟨⟨⟨.listVersions ocid requestId, .ok versions⟩, c, accepted, w.database⟩, ?_, rfl, hversions⟩
  rw [hserved]
  exact List.mem_append_right _ (List.mem_singleton_self _)

variable {config : AppConfig} {certificateId ocid requestId : String}

/-- What `plan_retention` plans was eligible in its listing. -/
theorem eligible_of_plan {configuration : RetentionConfig} {versions : List OciCertificateVersion} {referenced : List Int}
    {now : Instant} (h : n ∈ (planRetention configuration versions referenced now).versionNumbers) :
    ∃ version ∈ versions, version.versionNumber = n ∧ retentionEligible configuration referenced now version = true := by
  unfold planRetention at h
  simp only at h
  split at h
  · cases h
  · obtain ⟨version, hversion, hn⟩ := List.mem_map.1 (List.mem_filter.1 h).1
    obtain ⟨hmem, heligible⟩ := List.mem_filter.1 ((List.mem_insertionSort _).1 hversion)
    exact ⟨version, hmem, hn, heligible⟩

/-- The active rows of the certificate reference these versions. -/
def References (T : Table OperationRow String (·.operationId)) (certificateId : String) (active : List Operation) : Prop :=
  ∀ row ∈ T.rows, row.certificateId = certificateId → row.active = true → ∀ n, row.ociVersionNumber = some n →
    n ∈ active.filterMap (·.ociVersionNumber)

/-- The planned versions were selected by the listing. -/
theorem listed_of_plan {w : Arena} {configuration : RetentionConfig} {versions : List OciCertificateVersion}
    {active : List Operation} {now : Instant} (hw : Unmoved T w) (hlisted : ListedAs versions w)
    (hactive : References T certificateId active)
    (h : n ∈ (planRetention configuration versions (active.filterMap (·.ociVersionNumber)) now).versionNumbers) :
    Listed (.retention config certificateId) n w := by
  obtain ⟨version, hversion, hn, heligible⟩ := eligible_of_plan h
  obtain ⟨l, hl, hlists, rfl⟩ := hlisted
  obtain ⟨v, hv, rfl⟩ := List.mem_map.1 hversion
  unfold retentionEligible at heligible
  simp only [Bool.and_eq_true, Bool.not_eq_true', List.contains_iff_mem, List.any_eq_false, Option.isNone_iff_eq_none] at heligible
  obtain ⟨⟨⟨⟨hdeprecated, hprotected⟩, hreferenced⟩, hundeleted⟩, -⟩ := heligible
  refine ⟨l, hl, hlists, ⟨v, hv, hn, hdeprecated, fun stage hstage hmem => hprotected stage hstage hmem, hundeleted⟩, ?_⟩
  intro row hrow hc hrowActive hnumber
  rw [hw.2 l hl] at hrow
  have hmem := hactive row hrow hc hrowActive n hnumber
  rw [← hn] at hmem
  exact absurd (List.contains_iff_mem.2 hmem) (by rw [hreferenced]; nofun)

/-- An accepted deletion with an ETag that was read is backed. -/
theorem deletion_backed {w : Arena} {answer : Except Exc Unit} {c c' : Contested} {time : Instant} (hw : Unmoved T w)
    (hlisted : Listed (.retention config certificateId) n w)
    (hread : Read etag (fun c => ∃ v ∈ c.table.rows, v.number = n ∧ v.etag = etag) w) (hmoves : Tagged.Moves w.oci c)
    (h : Contested.Serves c (.scheduleVersionDeletion ocid n time (some etag) requestId) answer true c') :
    (Contender.retention config certificateId).Backed w.served
      ⟨⟨.scheduleVersionDeletion ocid n time (some etag) requestId, answer⟩, c, true, w.database⟩ := by
  rcases h with ⟨-, ⟨v, hv, hn, hetag⟩, -⟩ | ⟨hacc, -⟩
  · obtain ⟨r, hr, hretag, ⟨u, hu, hun, huetag⟩, hm⟩ := hread
    refine ⟨n, rfl, hlisted, r, hr, hretag, by rw [hretag]; nofun, ?_⟩
    have huv : v = u := (hm.trans hmoves).row_eq hu hv (hn.trans hun.symm) ((Option.some.inj hetag).symm.trans huetag.symm)
    subst huv
    have hone : ∀ {d : Contested} {P : TaggedVersion → Prop}, v ∈ d.table.rows →
        ((∃ x ∈ d.table.rows, x.number = n ∧ P x) ↔ P v) := by
      intro d P hmem
      constructor
      · rintro ⟨x, hx, hxn, hp⟩
        rwa [Table.eq_of_key_eq hx hmem (hxn.trans hn.symm)] at hp
      · exact fun hp => ⟨v, hmem, hn, hp⟩
    have hdb : w.database.operations = r.database.operations := by rw [hw.1, hw.2 r hr]
    unfold Contender.Selects
    simp only
    rw [hone hv, hone hu, hdb]
  · cases hacc

theorem scheduleDeletions_runs {certificate : CertificateConfig} {time : Instant} (numbers : List Int) :
    Runs faults (.retention config certificateId) (Unmoved T)
      (fun w => ∀ n, n ∈ numbers → Listed (.retention config certificateId) n w)
      (PublicationService.scheduleDeletions certificate ocid time numbers) fun _ _ => True := by
  have hA : ∀ op, surveys op → harmless op := fun _ h => h.2
  induction numbers with
  | nil => exact runs_ret fun _ _ => trivial
  | cons n rest ih =>
    have hall : Stable fun w => ∀ m, m ∈ n :: rest → Listed (.retention config certificateId) m w :=
      Stable.forall fun m => stable_listed.imp
    refine Triple.bind (runs_frame hA (keeps_surveys T) hall (Program.uses_perform.2 ⟨rfl, rfl⟩)) fun requestId => ?_
    have hread : Runs faults (.retention config certificateId) (Unmoved T)
        (fun w => ∀ m, m ∈ n :: rest → Listed (.retention config certificateId) m w)
        (perform (.getVersion ocid n requestId))
        (fun version w => (∀ m, m ∈ n :: rest → Listed (.retention config certificateId) m w) ∧ ∀ etag,
          version.etag = some etag → Read etag (fun c => ∃ v ∈ c.table.rows, v.number = n ∧ v.etag = etag) w) := by
      have hop : surveys (.getVersion ocid n requestId) := ⟨rfl, rfl⟩
      refine runs_read hA (keeps_surveys T) hop fun w version w' _ hw h => ?_
      obtain ⟨c, accepted, h₁, h₂, hserved, c', -, -, v, hv, hn, rfl⟩ := contended_moves h
      refine ⟨hall w w' _ hserved (h₁.trans h₂) hw, ?_⟩
      rintro etag ⟨⟩
      refine ⟨⟨⟨.getVersion ocid n requestId, .ok { v.record with etag := some v.etag }⟩, c, accepted, w.database⟩, ?_, rfl,
        ⟨v, hv, hn, rfl⟩, h₂⟩
      rw [hserved]
      exact List.mem_append_right _ (List.mem_singleton_self _)
    refine Triple.bind hread fun version => ?_
    split
    · exact runs_raise
    · rename_i hetag
      obtain ⟨etag, hetag⟩ := Option.ne_none_iff_exists'.1 hetag
      rw [hetag]
      have hmutate : Runs faults (.retention config certificateId) (Unmoved T)
          (fun w => (∀ m, m ∈ n :: rest → Listed (.retention config certificateId) m w) ∧
            Read etag (fun c => ∃ v ∈ c.table.rows, v.number = n ∧ v.etag = etag) w)
          (perform (.scheduleVersionDeletion ocid n time (some etag) requestId))
          (fun _ w => (∀ m, m ∈ n :: rest → Listed (.retention config certificateId) m w) ∧
            Read etag (fun c => ∃ v ∈ c.table.rows, v.number = n ∧ v.etag = etag) w) := by
        refine runs_mutate ?_ (hall.and stable_read) fun w answer c c' hw hφ hmoves hserves => ?_
        · rintro w op answer w' rfl hw h
          exact keeps_unmoved T w _ answer w' rfl hw h
        · exact deletion_backed hw (hφ.1 n List.mem_cons_self) hφ.2 hmoves hserves
      refine Triple.bind (runs_pre hmutate fun w _ h => ⟨h.1, h.2 etag hetag⟩) fun _ => ?_
      refine Triple.bind (runs_frame hA (keeps_surveys T) (hall.and stable_read) (Program.uses_perform.2 ⟨rfl, rfl⟩))
        fun _ => ?_
      exact runs_pre ih fun w _ h m hm => h.1 m (List.mem_cons_of_mem _ hm)

theorem retention_runs :
    Runs faults (.retention config certificateId) (Unmoved T) (fun _ => True)
      (PublicationService.retention config certificateId) fun _ _ => True := by
  have hA : ∀ op, surveys op → harmless op := fun _ h => h.2
  refine Triple.bind (R := fun certificate => Knows (.retention config certificateId) (Unmoved T)
    fun _ => certificate.id = certificateId) (runs_ofExcept fun certificate _ h _ => configuredCertificate_id h)
    fun certificate => ?_
  have hraise : ∀ {α : Type} {x : Exc} {ψ : α → Arena → Prop},
      Runs faults (.retention config certificateId) (Unmoved T) (fun _ => certificate.id = certificateId)
        (.raise x : Action α) ψ := runs_raise
  cases hocid : certificate.oci.certificateOcid with
  | none => exact hraise
  | some ocid =>
    simp only
    have hid : Stable fun _ => certificate.id = certificateId := fun _ _ _ _ _ h => h
    have hopen : (PublicationService.openPorts config certificate).Uses surveys :=
      Program.uses_bind (Program.uses_perform.2 ⟨rfl, rfl⟩) fun _ => Program.uses_perform.2 ⟨rfl, rfl⟩
    refine Triple.bind (runs_frame hA (keeps_surveys T) hid hopen) fun _ => ?_
    refine Triple.bind (runs_frame hA (keeps_surveys T) hid (Program.uses_perform.2 ⟨rfl, rfl⟩)) fun requestId => ?_
    have hlist : Runs faults (.retention config certificateId) (Unmoved T) (fun _ => certificate.id = certificateId)
        (perform (.listVersions ocid requestId))
        (fun versions w => ListedAs versions w ∧ certificate.id = certificateId) := by
      have hlisted := @listVersions_runs faults (.retention config certificateId) (fun _ => True) _ _ hA (keeps_surveys T)
        ocid requestId ⟨rfl, rfl⟩
      have hkept := @runs_frame faults (.retention config certificateId) _ _ _ _ hA (keeps_surveys T) hid
        (perform (.listVersions ocid requestId)) (Program.uses_perform.2 ⟨rfl, rfl⟩)
      refine (Triple.and hlisted hkept).conseq (fun w h => ⟨⟨h.1, h.2.1, trivial⟩, h⟩) (fun _ w h => ?_)
        (fun _ _ h => h.1) fun _ h => h.1
      exact ⟨h.1.1, h.1.2.1, h.1.2.2, h.2.2.2⟩
    refine Triple.bind hlist fun versions => ?_
    have hactive : Runs faults (.retention config certificateId) (Unmoved T)
        (fun w => ListedAs versions w ∧ certificate.id = certificateId) (StateStore.activeOperations certificate.id)
        (fun active w => ListedAs versions w ∧ References T certificateId active) := by
      have hop : surveys (.sql (.selectActive certificate.id)) := ⟨rfl, rfl⟩
      refine runs_read hA (keeps_surveys T) hop fun w active w' hw hφ h => ?_
      obtain ⟨c, accepted, h₁, h₂, hserved, -⟩ := contended_moves h
      refine ⟨stable_listedAs w w' _ hserved (h₁.trans h₂) hφ.1, fun row hrow hc hrowActive n hn => ?_⟩
      obtain ⟨-, l, hperm, -, rfl⟩ := h.1.2
      have hmem : row ∈ l := by
        rw [hperm.mem_iff]
        refine List.mem_filter.2 ⟨by rw [hw.1]; exact hrow, ?_⟩
        simp [hc, hφ.2, hrowActive]
      exact List.mem_filterMap.2 ⟨row.toOperation, List.mem_map_of_mem hmem, hn⟩
    refine Triple.bind hactive fun active => ?_
    have hrefers : Stable fun w => ListedAs versions w ∧ References T certificateId active :=
      stable_listedAs.and fun _ _ _ _ _ h => h
    refine Triple.bind (runs_frame hA (keeps_surveys T) hrefers (Program.uses_perform.2 ⟨rfl, rfl⟩)) fun now => ?_
    refine Triple.bind (runs_pre (scheduleDeletions_runs _) fun w hw h n hn => listed_of_plan hw h.1 h.2 hn) fun _ => ?_
    exact runs_ret fun _ _ => trivial

/-! ## The rollback -/

theorem harmless_of_quiet (certificateId operationId : String) (op : Op) (h : op.quiet certificateId operationId = true) :
    harmless op := by
  cases op <;> first | rfl | cases h

theorem harmless_of_observes (op : Op) (h : op.observes = true) : harmless op := by
  cases op <;> first | rfl | cases h

theorem keeps_true : Keeps faults A fun _ => True := fun _ _ _ _ _ _ _ => trivial

variable {certificate : CertificateConfig} {now : Instant} {audit : Option AuditConfig} {passes : Nat} {operationId : String}

/-- The runs of a part of the rollback. -/
abbrev Restores (faults : Faults) (contender : Contender) (φ : Arena → Prop) (p : Action α) (ψ : α → Arena → Prop) : Prop :=
  Runs faults contender (fun _ => True) φ p ψ

theorem restores_frame (hφ : Stable φ) {p : Action α} (hp : p.Uses harmless) :
    Restores faults contender φ p fun _ => φ :=
  runs_frame (fun _ h => h) keeps_true hφ hp

/-- The candidate was PREVIOUS and undeleted in its listing. -/
theorem previousVersion_restores :
    Restores faults (.rollback config certificate now audit passes) (fun _ => True)
      (RollbackService.previousVersion ocid requestId)
      fun candidate => Listed (.rollback config certificate now audit passes) candidate.versionNumber := by
  have hop : harmless (.listVersions ocid requestId) := rfl
  refine Triple.bind (listVersions_runs (fun _ h => h) keeps_true hop) fun versions => ?_
  split
  · rename_i candidate hfilter
    refine runs_ret ?_
    rintro w ⟨l, hl, hlists, rfl⟩
    have hmem : candidate ∈ (l.state.table.rows.map (·.record)).filter RollbackService.isEligiblePrevious := by
      rw [hfilter]
      exact List.mem_singleton_self _
    obtain ⟨hrecord, heligible⟩ := List.mem_filter.1 hmem
    obtain ⟨v, hv, rfl⟩ := List.mem_map.1 hrecord
    unfold RollbackService.isEligiblePrevious at heligible
    rw [Bool.and_eq_true, List.contains_iff_mem, Option.isNone_iff_eq_none] at heligible
    exact ⟨l, hl, hlists, v, hv, rfl, heligible.1, heligible.2⟩
  · exact runs_raise

/-- The ETag of the certificate is read. -/
theorem getCertificate_restores (hφ : Stable φ) :
    Restores faults contender φ (perform (.getCertificate ocid requestId))
      (fun remote w => φ w ∧ ∃ etag, remote.etag = some etag ∧ Read etag (fun c => c.whole = etag) w) := by
  have hop : harmless (.getCertificate ocid requestId) := rfl
  refine runs_read (fun _ h => h) keeps_true hop fun w remote w' _ hw h => ?_
  obtain ⟨c, accepted, h₁, h₂, hserved, c', -, -, hetag⟩ := contended_moves h
  refine ⟨hφ w w' _ hserved (h₁.trans h₂) hw, c.whole, hetag,
    ⟨⟨.getCertificate ocid requestId, .ok remote⟩, c, accepted, w.database⟩, ?_, hetag, rfl, h₂⟩
  rw [hserved]
  exact List.mem_append_right _ (List.mem_singleton_self _)

/-- An accepted promotion with an ETag that was read is backed. -/
theorem promotion_backed {w : Arena} {answer : Except Exc Unit} {c c' : Contested} {version : Int}
    (hlisted : Listed (.rollback config certificate now audit passes) version w)
    (hread : Read etag (fun c => c.whole = etag) w) (hmoves : Tagged.Moves w.oci c)
    (h : Contested.Serves c (.promoteCurrent ocid version (some etag) requestId) answer true c') :
    (Contender.rollback config certificate now audit passes).Backed w.served
      ⟨⟨.promoteCurrent ocid version (some etag) requestId, answer⟩, c, true, w.database⟩ := by
  rcases h with ⟨-, -, hetag, -⟩ | ⟨hacc, -⟩
  · obtain ⟨r, hr, hretag, hwhole, hm⟩ := hread
    refine ⟨version, rfl, hlisted, r, hr, hretag, by rw [hretag]; nofun, ?_⟩
    have htable : c.table = r.state.table := (hm.trans hmoves).table_eq ((Option.some.inj hetag).symm.trans hwhole.symm)
    unfold Contender.Selects
    simp only
    rw [htable]
  · cases hacc

theorem rollback_restores :
    Restores faults (.rollback config certificate now audit passes) (fun _ => True)
      (RollbackService.rollback Γ config certificate now audit passes) fun _ _ => True := by
  unfold RollbackService.rollback
  cases certificate.oci.certificateOcid with
  | none => exact runs_raise
  | some ocid =>
    refine Triple.bind (restores_frame stable_true
      (StateStore.uses_startOperation (A := harmless) rfl rfl _ _ _ _ fun _ _ _ _ _ => rfl)) fun operation => ?_
    have hquiet : ∀ op : Op, op.quiet certificate.id operation.operationId = true → harmless op :=
      harmless_of_quiet certificate.id operation.operationId
    unfold RollbackService.restore
    refine Triple.bind (restores_frame stable_true (Program.uses_perform.2 rfl)) fun _ => ?_
    refine Triple.bind (restores_frame stable_true (Program.uses_perform.2 rfl)) fun requestId => ?_
    refine Triple.bind previousVersion_restores fun candidate => ?_
    refine Triple.bind (restores_frame stable_listed (Program.uses_perform.2 rfl)) fun bundle => ?_
    refine Triple.bind (restores_frame stable_listed uses_ofExcept) fun fingerprint => ?_
    refine Triple.bind (getCertificate_restores stable_listed) fun remote => ?_
    have htransition : ∀ state fields, (StateStore.transition operation.operationId state fields).Uses harmless :=
      fun state fields => StateStore.uses_transition_row (A := harmless) rfl (fun _ => rfl) state fields
    have hread : Stable fun w => Listed (.rollback config certificate now audit passes) candidate.versionNumber w ∧
        ∃ etag, remote.etag = some etag ∧ Read etag (fun c => c.whole = etag) w := by
      refine stable_listed.and ?_
      rintro w w' s hserved hmoves ⟨etag, hetag, hw⟩
      exact ⟨etag, hetag, stable_read w w' s hserved hmoves hw⟩
    refine Triple.bind (restores_frame hread (htransition _ _)) fun _ => ?_
    refine Triple.bind (R := fun _ => Knows (.rollback config certificate now audit passes) (fun _ => True)
      fun w => Listed (.rollback config certificate now audit passes) candidate.versionNumber w ∧
        ∃ etag, remote.etag = some etag ∧ Read etag (fun c => c.whole = etag) w) ?_ fun _ => ?_
    · refine runs_mutate keeps_true hread fun w answer c c' _ hφ hmoves hserves => ?_
      obtain ⟨hlisted, etag, hetag, hw⟩ := hφ
      rw [hetag] at hserves ⊢
      exact promotion_backed hlisted hw hmoves hserves
    · refine runs_pre (restores_frame stable_true ?_) fun _ _ _ => trivial
      exact RollbackService.uses_confirm
        (fun op h => hquiet op (quiet_of_idle op (idle_of_records op h))) (fun op h => hquiet op (quiet_of_footprint op h))
        (fun _ _ _ => rfl) (fun op h => hquiet op (quiet_of_idle op (idle_of_pauses op h))) rfl harmless_of_observes _ _

end ContentionAux

open ContentionAux

/-- What the ETag protects. With another writer acting between any two calls, from any state: whenever OCI accepts a mutation of the
retention or of the rollback, the version is one that a listing of the run showed as the predicate wants it, the ETag was read by the
run, and the predicate holds of the version at the acceptance if and only if it held when that ETag was read. -/
theorem acceptance_backed (Γ : Ctx) (faults : Faults) (contender : Contender) {db : Database} {c : Contested} {w' : Arena}
    {o : Outcome Exc Unit} (h : Exec (contended faults) (contender.run Γ) { database := db, oci := c } o w') :
    ∀ before s rest, w'.served = before ++ s :: rest → s.accepted = true → contender.Backed before s := by
  have hsound : Sound contender w'.served := by
    have hnil : Sound contender [] := by
      intro before s rest heq
      simp at heq
    cases contender with
    | retention config certificateId =>
      have hrun : Runs faults (.retention config certificateId) (Unmoved db.operations) (fun _ => True)
          ((Contender.retention config certificateId).run Γ) fun _ _ => True :=
        Triple.bind retention_runs fun _ => runs_ret fun _ _ => trivial
      have hpost := hrun _ ⟨hnil, ⟨rfl, fun s hs => by cases hs⟩, trivial⟩ o w' h
      cases o with
      | returned => exact hpost.1
      | raised => exact hpost
      | crashed => exact hpost
    | rollback config certificate now audit passes =>
      have hrun : Restores faults (.rollback config certificate now audit passes) (fun _ => True)
          ((Contender.rollback config certificate now audit passes).run Γ) fun _ _ => True :=
        Triple.bind rollback_restores fun _ => runs_ret fun _ _ => trivial
      have hpost := hrun _ ⟨hnil, trivial, trivial⟩ o w' h
      cases o with
      | returned => exact hpost.1
      | raised => exact hpost
      | crashed => exact hpost
  exact hsound

namespace ContentionAux

open Sample

/-- A version with its ETag. -/
def tagged (number : Int) (stages : List Stage) (deletion : Option Instant) (etag : String) : TaggedVersion where
  record := {
    versionNumber := number
    stages := stages
    timeCreated := some 0
    timeOfDeletion := deletion }
  bundle := ⟨"A", "IR", number, none, stages⟩
  etag := etag

/-- Version 1 is CURRENT, versions 2 and 3 are DEPRECATED. -/
def deprecated : Contested where
  table := ⟨[tagged 1 [.current, .latest] none "v1", tagged 2 [.deprecated] none "v2", tagged 3 [.deprecated] none "v3"], by decide⟩
  whole := "c"
  issued := ["c", "v1", "v2", "v3"]
  whole_issued := by decide
  rows_issued := by decide

/-- The other writer has made version 2 CURRENT. -/
def restored : Contested where
  table := ⟨[tagged 1 [.previous, .latest] none "w1", tagged 2 [.current] none "w2", tagged 3 [.deprecated] none "v3"], by decide⟩
  whole := "d"
  issued := ["c", "v1", "v2", "v3", "d", "w1", "w2"]
  whole_issued := by decide
  rows_issued := by decide

/-- The deletion of version 2 is scheduled. -/
def scheduled : Contested where
  table := ⟨[tagged 1 [.previous, .latest] none "x1", tagged 2 [.current] (some (days 130)) "x2",
    tagged 3 [.deprecated] none "v3"], by decide⟩
  whole := "e"
  issued := ["c", "v1", "v2", "v3", "d", "w1", "w2", "e", "x1", "x2"]
  whole_issued := by decide
  rows_issued := by decide

theorem moves_restored : Tagged.Moves deprecated restored := ⟨by decide, Or.inr (by decide), by decide⟩

theorem moves_scheduled : Tagged.Moves deprecated scheduled ∧ Tagged.Moves restored scheduled :=
  ⟨⟨by decide, Or.inr (by decide), by decide⟩, ⟨by decide, Or.inr (by decide), by decide⟩⟩

/-- The certificate is in this state. -/
def same (a b : Contested) : Bool := a.table.rows = b.table.rows && a.whole = b.whole && a.issued = b.issued

theorem eq_of_same {a b : Contested} (h : same a b = true) : a = b := by
  obtain ⟨⟨rows, nodup⟩, whole, issued, hw, hr⟩ := a
  obtain ⟨⟨rows', nodup'⟩, whole', issued', hw', hr'⟩ := b
  unfold same at h
  simp only [Bool.and_eq_true, decide_eq_true_eq] at h
  obtain ⟨⟨rfl, rfl⟩, rfl⟩ := h
  rfl

/-- One served call. -/
def Arena.serve (w : Arena) (op : Op) (answer : Except Exc op.Reply) (accepted : Bool) (oci : Contested) : Arena :=
  { w with oci := oci, served := w.served ++ [⟨⟨op, answer⟩, w.oci, accepted, w.database⟩] }

/-- An outside in which the other writer acts once, between the listing and what comes after it. -/
def interfering (after : Contested) : Handler publisher Exc Arena := fun w op =>
  match op with
  | .sql statement => (w.database.execute statement).map fun (reply, db') =>
      (.ok reply, { Arena.serve w (.sql statement) (.ok reply) false w.oci with database := db' })
  | .listVersions ocid requestId =>
    if same w.oci deprecated && (same after deprecated || same after restored) then
      let versions := w.oci.table.rows.map (·.record)
      some (.ok versions, Arena.serve w (.listVersions ocid requestId) (.ok versions) false after)
    else none
  | .getVersion ocid n requestId =>
    match w.oci.table.rows.find? fun v => v.number = n with
    | some v =>
      let version := { v.record with etag := some v.etag }
      some (.ok version, Arena.serve w (.getVersion ocid n requestId) (.ok version) false w.oci)
    | none => none
  | .scheduleVersionDeletion ocid n time etag requestId =>
    if (same w.oci deprecated || same w.oci restored) && n = 2 && time = days 130 &&
        w.oci.table.rows.any (fun v => v.number = n && etag = some v.etag) then
      some (.ok (), Arena.serve w (.scheduleVersionDeletion ocid n time etag requestId) (.ok ()) true scheduled)
    else none
  | .createAdapters region => some (.ok (), Arena.serve w (.createAdapters region) (.ok ()) false w.oci)
  | .openStore path => some (.ok (), Arena.serve w (.openStore path) (.ok ()) false w.oci)
  | .logEvent level event fields => some (.ok (), Arena.serve w (.logEvent level event fields) (.ok ()) false w.oci)
  | .now => some (.ok (days 100), Arena.serve w .now (.ok (days 100)) false w.oci)
  | .uuid4 => some (.ok "request", Arena.serve w .uuid4 (.ok "request") false w.oci)
  | _ => none

theorem interfering_allowed (after : Contested) : (interfering after).Allowed (contended noFaults) := by
  intro w op answer w' h
  cases op with
  | sql statement =>
    obtain ⟨⟨reply, db₁⟩, hx, heq⟩ := Option.map_eq_some_iff.1 h
    cases heq
    exact ⟨⟨fun _ h => (by cases h), Database.execute_step hx⟩, w.oci, w.oci, false, .refl _, ⟨rfl, rfl⟩, .refl _, rfl⟩
  | listVersions ocid requestId =>
    simp only [interfering] at h
    split at h
    · rename_i hsame
      rw [Bool.and_eq_true, Bool.or_eq_true] at hsame
      cases h
      refine ⟨⟨fun _ h => (by cases h), rfl⟩, w.oci, w.oci, false, .refl _, ⟨rfl, rfl, rfl⟩, ?_, rfl⟩
      show Tagged.Moves w.oci after
      rw [eq_of_same hsame.1]
      rcases hsame.2 with hafter | hafter
      · rw [eq_of_same hafter]
        exact .refl _
      · rw [eq_of_same hafter]
        exact moves_restored
    · cases h
  | getVersion ocid n requestId =>
    simp only [interfering] at h
    split at h
    · rename_i v hfound
      cases h
      have hmem := List.mem_of_find?_eq_some hfound
      have hn := List.find?_some hfound
      exact ⟨⟨fun _ h => (by cases h), rfl⟩, w.oci, w.oci, false, .refl _,
        ⟨rfl, rfl, v, hmem, of_decide_eq_true hn, rfl⟩, .refl _, rfl⟩
    · cases h
  | scheduleVersionDeletion ocid n time etag requestId =>
    simp only [interfering] at h
    split at h
    · rename_i htest
      simp only [Bool.and_eq_true, Bool.or_eq_true, decide_eq_true_eq, List.any_eq_true] at htest
      obtain ⟨⟨⟨hstate, rfl⟩, rfl⟩, v, hv, hn, hetag⟩ := htest
      cases h
      have hmoves : Tagged.Moves w.oci scheduled := by
        rcases hstate with hstate | hstate
        · rw [eq_of_same hstate]
          exact moves_scheduled.1
        · rw [eq_of_same hstate]
          exact moves_scheduled.2
      refine ⟨⟨fun _ h => (by cases h), rfl⟩, w.oci, scheduled, true, .refl _, Or.inl ⟨rfl, ⟨v, hv, hn, hetag⟩, hmoves, ?_⟩,
        .refl _, rfl⟩
      decide
    · cases h
  | createAdapters | openStore | logEvent | now | uuid4 =>
    cases h
    exact ⟨⟨fun _ h => (by cases h), rfl⟩, w.oci, w.oci, false, .refl _, ⟨rfl, rfl⟩, .refl _, rfl⟩
  | _ => cases h

/-- A retention that keeps one DEPRECATED version: the newer one of equal age. -/
def sampleRetention : Contender := .retention (config { certificate with retention := keepingOne }) "web"

/-- Its run. -/
def contendedRun (after : Contested) : Outcome Exc Unit × Arena :=
  (sampleRetention.run ctx).runFor (interfering after) 100 { database := {}, oci := deprecated }

theorem contendedRun_exec {after : Contested} (h : (contendedRun after).1 = .returned ()) :
    Exec (contended noFaults) (sampleRetention.run ctx) { database := {}, oci := deprecated } (.returned ())
      (contendedRun after).2 :=
  exec_of_runFor (interfering_allowed after) h

end ContentionAux

/-- The version is made CURRENT by the other writer between the listing and the read of its ETag: OCI accepts its deletion. -/
theorem acceptance_backed_false :
    Exec (contended noFaults) (sampleRetention.run Sample.ctx) { database := {}, oci := deprecated } (.returned ())
        (contendedRun restored).2 ∧
      ∃ s ∈ (contendedRun restored).2.served, s.accepted = true ∧ Op.target s.event.op = some 2 ∧
        ¬sampleRetention.Selects 2 s ∧ ∃ v ∈ s.state.table.rows, v.number = 2 ∧ Stage.current ∈ v.record.stages :=
  ⟨contendedRun_exec (by decide +kernel), by decide +kernel⟩

/-- Where nobody interferes, the deletion that OCI accepts is of a version that is still DEPRECATED. -/
theorem acceptance_backed_sample :
    ∃ before s, (contendedRun deprecated).2.served.any (·.accepted) = true ∧ s ∈ (contendedRun deprecated).2.served ∧
      sampleRetention.Backed before s := by
  have hexec := @contendedRun_exec deprecated (by decide +kernel)
  have haccepted : (contendedRun deprecated).2.served.any (·.accepted) = true := by decide +kernel
  generalize (contendedRun deprecated).2 = last at hexec haccepted ⊢
  obtain ⟨s, hs, hacc⟩ := List.any_eq_true.1 haccepted
  obtain ⟨before, rest, heq⟩ := List.append_of_mem hs
  exact ⟨before, s, haccepted, hs, acceptance_backed Sample.ctx noFaults sampleRetention hexec before s rest heq hacc⟩

end OciAcmePublisher
