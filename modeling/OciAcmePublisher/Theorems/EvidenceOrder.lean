import OciAcmePublisher.EvidenceFiles
import OciAcmePublisher.Simulation
import Mathlib.Data.List.Perm.Basic

/-!
# The order of the evidence

The search for qualifying evidence returns at the first match and raises at the first file that cannot be read. So the order of the
paths matters exactly where a matching file and a bad one are both listed.
-/

namespace OciAcmePublisher

open Effects

namespace EvidenceFiles

/-- The file is read, and its record qualifies the profile. -/
def Matches (files : EvidenceFiles) (profile : CertificateProfile) (path : String) : Prop :=
  ∃ evidence, files.readEvidence path = .ok evidence ∧ evidence.qualifies profile = true

/-- The file is missing, unsafe or malformed. -/
def Bad (files : EvidenceFiles) (path : String) : Prop := ∃ x, files.readEvidence path = .error x

/-- The system calls raise something else than `OSError`, or the decoder something else than `JSONDecodeError`. -/
def Undecodable (files : EvidenceFiles) (path : String) : Prop :=
  (∃ x, files.safeBytes path = .error x ∧ x.isInstance .osError = false ∧ x.isInstance .configurationError = false) ∨
    ∃ raw x, files.safeBytes path = .ok raw ∧ files.loads raw = .raised x ∧ x.isInstance .configurationError = false

end EvidenceFiles

/-- Under every order of the evidence paths the profile is accepted or rejected alike, and every rejection is a
`ConfigurationError`. -/
def OrderFree (files : EvidenceFiles) (config : AppConfig) (certificate : CertificateConfig) : Prop :=
  ∀ paths : List String, paths.Perm config.compatibility.liveEvidencePaths →
    (files.qualification (config.withEvidencePaths paths) certificate = .returned () ↔
        files.qualification config certificate = .returned ()) ∧
      ∀ x, files.qualification (config.withEvidencePaths paths) certificate = .raised x → x.isInstance .configurationError = true

namespace EvidenceOrderAux

open EvidenceFiles

variable {files : EvidenceFiles} {profile : CertificateProfile} {path : String} {paths : List String} {x : Exc}

/-- The search on the files. -/
def outcome (files : EvidenceFiles) (profile : CertificateProfile) (paths : List String) : Outcome Exc Unit :=
  ((requireQualifiedProfile.search profile paths).eval files.answers ()).1

theorem raised_ne_returned : (Outcome.raised x : Outcome Exc Unit) ≠ .returned () := by
  intro h
  cases h

theorem outcome_nil :
    outcome files profile [] = .raised (configurationError "no retained staging evidence qualifies this certificate profile") := rfl

theorem outcome_bad (h : files.readEvidence path = .error x) : outcome files profile (path :: paths) = .raised x := by
  have hanswer : files.answers () (.readEvidence path) = (.error x, ()) := by
    show (files.readEvidence path, ()) = _
    rw [h]
  unfold outcome requireQualifiedProfile.search
  rw [Program.bind_eq, Program.eval_bind_raised (Program.eval_perform_raised hanswer)]

theorem outcome_read {evidence : Evidence} (h : files.readEvidence path = .ok evidence) :
    outcome files profile (path :: paths) =
      if evidence.qualifies profile then .returned () else outcome files profile paths := by
  have hanswer : files.answers () (.readEvidence path) = (.ok evidence, ()) := by
    show (files.readEvidence path, ()) = _
    rw [h]
  unfold outcome
  rw [requireQualifiedProfile.search, Program.bind_eq, Program.eval_perform_bind hanswer]
  split_ifs <;> rfl

theorem not_bad (h : ¬files.Bad path) : ∃ evidence, files.readEvidence path = .ok evidence := by
  cases hread : files.readEvidence path with
  | ok evidence => exact ⟨evidence, rfl⟩
  | error x => exact absurd ⟨x, hread⟩ h

/-- Without a match nothing is accepted. -/
theorem not_accepted (h : ∀ p ∈ paths, ¬files.Matches profile p) : outcome files profile paths ≠ .returned () := by
  induction paths with
  | nil =>
    rw [outcome_nil]
    exact raised_ne_returned
  | cons path rest ih =>
    obtain ⟨hpath, hrest⟩ := List.forall_mem_cons.1 h
    cases hread : files.readEvidence path with
    | error x =>
      rw [outcome_bad hread]
      exact raised_ne_returned
    | ok evidence =>
      rw [outcome_read hread, if_neg fun hq => hpath ⟨evidence, hread, hq⟩]
      exact ih hrest

/-- Without a bad file a match is found wherever it is. -/
theorem accepted_iff (h : ∀ p ∈ paths, ¬files.Bad p) :
    outcome files profile paths = .returned () ↔ ∃ p ∈ paths, files.Matches profile p := by
  induction paths with
  | nil =>
    rw [outcome_nil]
    exact iff_of_false raised_ne_returned fun h => by simp at h
  | cons path rest ih =>
    obtain ⟨hpath, hrest⟩ := List.forall_mem_cons.1 h
    obtain ⟨evidence, hread⟩ := not_bad hpath
    rw [outcome_read hread, List.exists_mem_cons_iff]
    split_ifs with hq
    · exact ⟨fun _ => Or.inl ⟨evidence, hread, hq⟩, fun _ => rfl⟩
    · rw [ih hrest]
      refine ⟨Or.inr, fun hor => hor.resolve_left ?_⟩
      rintro ⟨other, hother, hqualifies⟩
      rw [hread] at hother
      cases hother
      exact hq hqualifies

/-- What is raised is the final rejection, or was raised by the reader of some file. -/
theorem raised_cases (h : outcome files profile paths = .raised x) :
    x.isInstance .configurationError = true ∨ ∃ p ∈ paths, files.readEvidence p = .error x := by
  induction paths with
  | nil =>
    rw [outcome_nil] at h
    cases h
    exact Or.inl rfl
  | cons path rest ih =>
    cases hread : files.readEvidence path with
    | error y =>
      rw [outcome_bad hread] at h
      cases h
      exact Or.inr ⟨path, List.mem_cons_self, hread⟩
    | ok evidence =>
      rw [outcome_read hread] at h
      split_ifs at h
      rcases ih h with hx | ⟨p, hp, hread⟩
      · exact Or.inl hx
      · exact Or.inr ⟨p, List.mem_cons_of_mem _ hp, hread⟩

/-- The reader lets another exception than a `ConfigurationError` through exactly for an undecodable file. -/
theorem undecodable_iff :
    files.Undecodable path ↔ ∃ x, files.readEvidence path = .error x ∧ x.isInstance .configurationError = false := by
  unfold EvidenceFiles.Undecodable EvidenceFiles.readEvidence
  cases hsafe : files.safeBytes path with
  | error x =>
    dsimp only
    by_cases hos : x.isInstance .osError = true
    · rw [if_pos hos]
      constructor
      · rintro (⟨y, hy, hnot, -⟩ | ⟨raw, y, hy, -⟩)
        · cases hy
          rw [hos] at hnot
          cases hnot
        · cases hy
      · rintro ⟨y, hy, hclass⟩
        cases hy
        cases hclass
    · rw [if_neg hos]
      constructor
      · rintro (⟨y, hy, -, hclass⟩ | ⟨raw, y, hy, -⟩)
        · cases hy
          exact ⟨x, rfl, hclass⟩
        · cases hy
      · rintro ⟨y, hy, hclass⟩
        cases hy
        exact Or.inl ⟨x, rfl, Bool.eq_false_iff.2 hos, hclass⟩
  | ok raw =>
    dsimp only
    constructor
    · rintro (⟨y, hy, -⟩ | ⟨raw', y, hraw, hloads, hclass⟩)
      · cases hy
      · cases hraw
        exact ⟨y, by rw [hloads], hclass⟩
    · rintro ⟨y, hy, hclass⟩
      cases hloads : files.loads raw with
      | raised z =>
        rw [hloads] at hy
        cases hy
        exact Or.inr ⟨raw, y, rfl, hloads, hclass⟩
      | object evidence =>
        rw [hloads] at hy
        cases hy
      | other =>
        rw [hloads] at hy
        cases hy
        cases hclass
      | invalid =>
        rw [hloads] at hy
        cases hy
        cases hclass

/-- Where the gate is on, the files decide. -/
theorem qualification_search {config : AppConfig} {certificate : CertificateConfig} (h : config.compatibility.liveVerified = true) :
    files.qualification config certificate =
      outcome files (certificateProfile certificate) config.compatibility.liveEvidencePaths := by
  unfold EvidenceFiles.qualification requireQualifiedProfile
  rw [if_neg (by rw [h]; exact Bool.false_ne_true.symm)]
  rfl

theorem qualification_unverified {config : AppConfig} {certificate : CertificateConfig}
    (h : config.compatibility.liveVerified = false) : files.qualification config certificate =
      .raised (configurationError "production operation requires compatibility.live_verified") := by
  unfold EvidenceFiles.qualification requireQualifiedProfile
  rw [if_pos h]
  rfl

end EvidenceOrderAux

open EvidenceOrderAux EvidenceFiles

/-- Qualification is independent of the order of the evidence exactly where the gate is off, or no file is undecodable and a matching
file and a bad one are not both listed. -/
theorem evidence_order_iff (files : EvidenceFiles) (config : AppConfig) (certificate : CertificateConfig) :
    OrderFree files config certificate ↔
      config.compatibility.liveVerified = false ∨
        (∀ p ∈ config.compatibility.liveEvidencePaths, ¬files.Undecodable p) ∧
          ((∀ p ∈ config.compatibility.liveEvidencePaths, ¬files.Matches (certificateProfile certificate) p) ∨
            ∀ p ∈ config.compatibility.liveEvidencePaths, ¬files.Bad p) := by
  cases hverified : config.compatibility.liveVerified with
  | false =>
    refine iff_of_true (fun paths _ => ?_) (Or.inl rfl)
    have hreordered : (config.withEvidencePaths paths).compatibility.liveVerified = false := hverified
    rw [qualification_unverified hverified, qualification_unverified hreordered]
    refine ⟨Iff.rfl, fun x hx => ?_⟩
    cases hx
    rfl
  | true =>
    have hsearch : ∀ paths, files.qualification (config.withEvidencePaths paths) certificate =
        outcome files (certificateProfile certificate) paths := fun paths => qualification_search hverified
    unfold OrderFree
    simp only [hsearch, qualification_search hverified, Bool.true_eq_false, false_or]
    generalize config.compatibility.liveEvidencePaths = listed
    constructor
    · intro hfree
      have hfirst : ∀ p ∈ listed, ∃ rest, (p :: rest).Perm listed := fun p hp => ⟨_, (List.perm_cons_erase hp).symm⟩
      refine ⟨fun p hp hundecodable => ?_, ?_⟩
      · obtain ⟨x, hx, hclass⟩ := undecodable_iff.1 hundecodable
        obtain ⟨rest, hperm⟩ := hfirst p hp
        have hraised := (hfree _ hperm).2 x (outcome_bad hx)
        rw [hclass] at hraised
        cases hraised
      · by_contra hboth
        rw [not_or] at hboth
        obtain ⟨⟨good, hgood, evidence, hread, hqualifies⟩, bad, hbad, x, hx⟩ :
            (∃ p ∈ listed, files.Matches (certificateProfile certificate) p) ∧ ∃ p ∈ listed, files.Bad p := by
          constructor
          · by_contra hnone
            exact hboth.1 fun p hp hmatch => hnone ⟨p, hp, hmatch⟩
          · by_contra hnone
            exact hboth.2 fun p hp hbad => hnone ⟨p, hp, hbad⟩
        obtain ⟨rest, hperm⟩ := hfirst good hgood
        obtain ⟨rest', hperm'⟩ := hfirst bad hbad
        have haccepted : outcome files (certificateProfile certificate) (good :: rest) = .returned () := by
          rw [outcome_read hread, if_pos hqualifies]
        have hrejected := (hfree _ hperm').1.2 ((hfree _ hperm).1.1 haccepted)
        rw [outcome_bad hx] at hrejected
        cases hrejected
    · rintro ⟨hdecodable, hkinds⟩ paths hperm
      refine ⟨?_, fun x hx => ?_⟩
      · rcases hkinds with hnone | hread
        · exact iff_of_false (not_accepted fun p hp => hnone p (hperm.mem_iff.1 hp)) (not_accepted hnone)
        · rw [accepted_iff fun p hp => hread p (hperm.mem_iff.1 hp), accepted_iff hread]
          exact exists_congr fun p => and_congr_left fun _ => hperm.mem_iff
      · rcases raised_cases hx with hclass | ⟨p, hp, herror⟩
        · exact hclass
        · by_contra hclass
          exact hdecodable p (hperm.mem_iff.1 hp) (undecodable_iff.2 ⟨x, herror, Bool.eq_false_iff.2 hclass⟩)

namespace Sample

/-- The text of a retained record. -/
def evidenceText : Bytes :=
  ("\x7b\"schema_version\": 2, \"result\": \"STAGING_COMPATIBILITY_PASSED\", \"qualified_profile\": \x7b\"identifier_count\": 1, " ++
    "\"common_name_is_first_identifier\": true, \"contains_wildcard\": false, " ++
    "\"key\": \x7b\"type\": \"rsa\", \"rsa_size\": 2048, \"ecdsa_curve\": null\x7d\x7d\x7d").toList.map (·.val.toUInt8)

/-- A safe file with the record at `/gate0.json`, and an empty one elsewhere; the decoder on the two. -/
def evidenceFiles : EvidenceFiles where
  lstat _ := .ok ⟨0o100640, 200⟩
  readBytes path := .ok (if path = "/gate0.json" then evidenceText else [])
  loads raw := if raw = [] then .invalid else .object ⟨some 2, some "STAGING_COMPATIBILITY_PASSED", some (certificateProfile certificate)⟩

/-- The two files, the record first. -/
def evidenceConfig : AppConfig :=
  { config certificate with compatibility := { liveVerified := true, liveEvidencePaths := ["/gate0.json", "/empty.json"] } }

end Sample

/-- A record that matches and an empty file: the record is found when it is listed first, and the empty file refused when it is. -/
theorem evidence_order_false : ¬∀ (files : EvidenceFiles) (config : AppConfig) (certificate : CertificateConfig),
    OrderFree files config certificate := by
  intro h
  have hfree := h Sample.evidenceFiles Sample.evidenceConfig Sample.certificate ["/empty.json", "/gate0.json"] (.swap _ _ _)
  have haccepted : Sample.evidenceFiles.qualification Sample.evidenceConfig Sample.certificate = .returned () := by decide +kernel
  have hrejected : Sample.evidenceFiles.qualification
      (Sample.evidenceConfig.withEvidencePaths ["/empty.json", "/gate0.json"]) Sample.certificate ≠ .returned () := by decide +kernel
  exact hrejected (hfree.1.2 haccepted)

end OciAcmePublisher
