import OciAcmePublisher.EvidenceRecords
import OciAcmePublisher.Scanning.JsonTorn
import OciAcmePublisher.Theorems.EvidenceOrder

/-!
# Evidence records are read back

What `write_evidence` leaves is read back by `_read_evidence` and qualifies exactly the profile it was written for; a record whose
writing was stopped is refused, or it is complete.
-/

namespace OciAcmePublisher

open Effects Scanning DurableFiles

/-- The file is read as a record that qualifies this profile and no other. -/
def EvidenceFiles.Qualifying (files : EvidenceFiles) (path : String) (profile : CertificateProfile) : Prop :=
  ∃ evidence, files.readEvidence path = .ok evidence ∧ ∀ other, evidence.qualifies other = true ↔ other = profile

namespace EvidenceRecordsAux

/-! ## The document -/

theorem countOf_nat (n : Nat) : countOf (.int n) = some n := by
  unfold countOf numberOf
  simp

theorem truthOf_bool (value : Bool) : truthOf (.bool value) = some value := by
  cases value <;> rfl

/-- The members of a document whose keys are sorted. -/
abbrev sortedBy (members : List (String × Json.Value)) : List (String × Json.Value) :=
  (Json.sortedMembers members).insertionSort Json.before

theorem length_sortedBy (members : List (String × Json.Value)) : (sortedBy members).length = members.length := by
  rw [List.length_insertionSort, ← List.length_map (f := Prod.fst), Json.keys_sorted, List.length_map]

theorem keyDocument_written (key : KeyConfig) : Json.Written (keyDocument key) := by
  have hkeys : ["type", "rsa_size", "ecdsa_curve"].Nodup := by decide
  cases key <;> exact ⟨hkeys, trivial, trivial, trivial, trivial⟩

theorem keyOf_document (key : KeyConfig) : keyOf (Json.sorted (keyDocument key)) = some key := by
  cases key with
  | rsa size =>
    have hkeys := (keyDocument_written (.rsa size)).1
    show keyOf (.object (sortedBy _)) = _
    unfold keyOf
    simp only [length_sortedBy, Json.lookup_sorted hkeys]
    show (countOf (.int size)).map KeyConfig.rsa = _
    rw [countOf_nat]
    rfl
  | ecdsa curve =>
    have hkeys := (keyDocument_written (.ecdsa curve)).1
    show keyOf (.object (sortedBy _)) = _
    unfold keyOf
    simp only [length_sortedBy, Json.lookup_sorted hkeys]
    rfl

theorem profileDocument_written (profile : CertificateProfile) : Json.Written (profileDocument profile) := by
  have hkeys : ["identifier_count", "common_name_is_first_identifier", "contains_wildcard", "key"].Nodup := by decide
  exact ⟨hkeys, trivial, trivial, trivial, keyDocument_written profile.key, trivial⟩

theorem profileOf_document (profile : CertificateProfile) : profileOf (Json.sorted (profileDocument profile)) = some profile := by
  have hkeys := (profileDocument_written profile).1
  show profileOf (.object (sortedBy _)) = _
  unfold profileOf
  simp only [length_sortedBy, Json.lookup_sorted hkeys]
  show (do
    let identifierCount ← countOf (.int profile.identifierCount)
    let commonNameIsFirstIdentifier ← truthOf (.bool profile.commonNameIsFirstIdentifier)
    let containsWildcard ← truthOf (.bool profile.containsWildcard)
    let key ← keyOf (Json.sorted (keyDocument profile.key))
    return (⟨identifierCount, commonNameIsFirstIdentifier, containsWildcard, key⟩ : CertificateProfile)) = some profile
  rw [countOf_nat, truthOf_bool, truthOf_bool, keyOf_document]
  rfl

theorem probeDocument_written (result : LiveCompatibilityProbeResult) : Json.Written (probeDocument result) := by
  have hkeys : ["oci_certificate_ocid", "initial_version_number", "promoted_version_number", "rollback_version_number",
    "leaf_fingerprint", "root_fingerprint", "chain_bytes", "documented_subject_country_enforced"].Nodup := by decide
  exact ⟨hkeys, trivial, trivial, trivial, trivial, trivial, trivial, trivial, trivial, trivial⟩

variable {umask : Nat} {clock path : String} {certificate : CertificateConfig} {result : LiveCompatibilityProbeResult}
  {loads : Bytes → JsonOutcome} {d d' : RecordDisk}

theorem payload_written : Json.Written (.object (payloadMembers clock certificate result)) := by
  have hkeys : ["schema_version", "result", "recorded_at", "certificate_id", "qualified_profile", "live_probe"].Nodup := by decide
  exact ⟨hkeys, trivial, trivial, trivial, trivial, profileDocument_written _, probeDocument_written result, trivial⟩

/-- The record as qualification reads it. -/
def recorded (certificate : CertificateConfig) : Evidence where
  schemaVersion := some 2
  result := some "STAGING_COMPATIBILITY_PASSED"
  qualifiedProfile := some (certificateProfile certificate)

theorem evidenceOf_payload : evidenceOf (sortedBy (payloadMembers clock certificate result)) = recorded certificate := by
  have hkeys : ((payloadMembers clock certificate result).map Prod.fst).Nodup := payload_written.1
  unfold evidenceOf
  simp only [Json.lookup_sorted hkeys]
  show (⟨some 2, some "STAGING_COMPATIBILITY_PASSED", profileOf
    (Json.sorted (profileDocument (certificateProfile certificate)))⟩ : Evidence) = _
  rw [profileOf_document]
  rfl

theorem qualifies_recorded (profile : CertificateProfile) :
    (recorded certificate).qualifies profile = true ↔ profile = certificateProfile certificate := by
  unfold Evidence.qualifies recorded
  simp [eq_comm]

/-! ## The bytes -/

theorem printed_recordText : ∀ c ∈ recordText clock certificate result, Json.Printed (some 2) c :=
  Json.printed_append (Json.printed_render _ 0) (Json.printed_cons (Or.inr ⟨rfl, nofun⟩) Json.printed_nil)

/-- Printed characters are bytes of ASCII, none of them NUL. -/
theorem printed_byte {c : Char} (h : Json.Printed (some 2) c) :
    c.val.toUInt8 < 128 ∧ c.val.toUInt8 ≠ 0 ∧ Char.ofNat c.val.toUInt8.toNat = c := by
  have hrange : 0 < c.toNat ∧ c.toNat < 128 := by
    rcases h with ⟨hlow, hhigh⟩ | ⟨rfl, -⟩
    · exact ⟨Nat.lt_of_lt_of_le (by decide) hlow, Nat.lt_of_le_of_lt hhigh (by decide)⟩
    · decide
  have hnat : c.val.toUInt8.toNat = c.toNat := by
    show c.val.toNat % 256 = c.val.toNat
    exact Nat.mod_eq_of_lt (Nat.lt_trans hrange.2 (by decide))
  refine ⟨?_, ?_, ?_⟩
  · rw [UInt8.lt_iff_toNat_lt, hnat]
    exact hrange.2
  · intro hzero
    rw [hzero] at hnat
    exact absurd hnat.symm (Nat.pos_iff_ne_zero.1 hrange.1)
  · rw [hnat, Char.ofNat_toNat]

theorem decodeAscii_asciiBytes {text : List Char} (h : ∀ c ∈ text, Json.Printed (some 2) c) :
    decodeAscii (asciiBytes text) = some (String.ofList text) := by
  have hall : (asciiBytes text).all (· < 128) = true := by
    rw [List.all_eq_true]
    intro b hb
    obtain ⟨c, hc, rfl⟩ := List.mem_map.1 hb
    exact decide_eq_true (printed_byte (h c hc)).1
  unfold decodeAscii
  rw [if_pos hall]
  congr 1
  unfold asciiBytes
  rw [List.map_map]
  refine congrArg _ ((List.map_congr_left fun c hc => ?_).trans (List.map_id _))
  exact (printed_byte (h c hc)).2.2

theorem zero_notMem_asciiBytes {text : List Char} (h : ∀ c ∈ text, Json.Printed (some 2) c) : 0 ∉ asciiBytes text := by
  intro hzero
  obtain ⟨c, hc, heq⟩ := List.mem_map.1 hzero
  exact (printed_byte (h c hc)).2.1 heq

/-- What a decoder makes of as much of the record as is written: the record, or nothing it accepts. -/
theorem loads_prefix (hloads : Decodes loads)
    (hsupported : Json.Supported 100 (Json.sorted (.object (payloadMembers clock certificate result))) = true) {text : List Char}
    (h : text <+: recordText clock certificate result) :
    loads (asciiBytes text) = .object (recorded certificate) ∨
      (text ≠ recordText clock certificate result ∧ ∀ evidence, loads (asciiBytes text) ≠ .object evidence) := by
  have hprinted : ∀ c ∈ text, Json.Printed (some 2) c := fun c hc => printed_recordText c (h.subset hc)
  have hdecode := decodeAscii_asciiBytes hprinted
  have hzero := zero_notMem_asciiBytes hprinted
  have hwhole : ∀ after : List Char, (∀ c ∈ after, Json.blank c = true) →
      text = Json.dumps (some 2) (.object (payloadMembers clock certificate result)) ++ after →
        loads (asciiBytes text) = .object (recorded certificate) := by
    intro after hafter htext
    have hread : Json.loads (String.ofList text).toList =
      some (Json.sorted (.object (payloadMembers clock certificate result))) := by
      rw [String.toList_ofList, htext]
      exact Json.loads_dumps (some 2) payload_written hafter
    rw [hloads.accepts hdecode hzero hread hsupported]
    show JsonOutcome.object (evidenceOf (sortedBy _)) = _
    rw [evidenceOf_payload]
  obtain ⟨rest, hrest⟩ := h
  cases rest with
  | nil =>
    have hblank : ∀ c ∈ ['\n'], Json.blank c = true := fun c hc => by
      rw [List.mem_singleton.1 hc]
      rfl
    refine Or.inl (hwhole ['\n'] hblank ?_)
    rw [← hrest.symm.trans (List.append_nil text)]
    rfl
  | cons c rest =>
    have hcut : Cut text (Json.dumps (some 2) (.object (payloadMembers clock certificate result)) ++ ['\n']) :=
      ⟨c, rest, hrest.symm⟩
    rcases cut_append_iff.1 hcut with hcut | ⟨after, rfl, hafter⟩
    · refine Or.inr ⟨?_, hloads.refuses hdecode hzero ?_⟩
      · intro heq
        rw [← heq] at hrest
        exact absurd (List.append_right_eq_self.1 hrest) (List.cons_ne_nil c rest)
      · rw [String.toList_ofList]
        exact Json.loads_cut (some 2) payload_written hcut
    · refine Or.inl (hwhole after ?_ rfl)
      rcases cut_cons_iff.1 hafter with rfl | ⟨t, rfl, ht⟩
      · exact fun _ hc => absurd hc List.not_mem_nil
      · exact absurd ht not_cut_nil

/-! ## Reading -/

/-- The permissions of a new file pass the checks, whatever the mask. -/
theorem permissions_safe (mask : Nat) :
    isRegular (0o100000 ||| (0o640 &&& mask)) = true ∧ (0o100000 ||| (0o640 &&& mask)) &&& 0o022 = 0 := by
  have hbits : ∀ bits : Nat, 0o640 &&& bits = 0 → (0o100000 ||| (0o640 &&& mask)) &&& bits = 0o100000 &&& bits := by
    intro bits hzero
    have hmasked : 0o640 &&& mask &&& bits = 0 := by
      rw [Nat.and_assoc, Nat.and_comm mask bits, ← Nat.and_assoc, hzero, Nat.zero_and]
    rw [Nat.and_or_distrib_right, hmasked, Nat.or_zero]
  refine ⟨?_, hbits 0o022 rfl⟩
  unfold isRegular
  rw [hbits 0o170000 rfl]
  rfl

/-- A file of the record's permissions is read as its bytes are decoded. -/
theorem readEvidence_file {mask : Nat} {content : Bytes} (hfile : d path = some (.file (0o640 &&& mask) content))
    (hsize : content.length ≤ maxEvidenceBytes) :
    (d.evidenceFiles loads).readEvidence path =
      match loads content with
      | .object evidence => .ok evidence
      | .other => .error (configurationError "staging evidence root must be an object")
      | .invalid => .error (configurationError "staging evidence is invalid JSON")
      | .raised x => .error x := by
  have hsafe : (d.evidenceFiles loads).safeBytes path = .ok content := by
    obtain ⟨hregular, hshared⟩ := permissions_safe mask
    have hbound : ¬maxEvidenceBytes < content.length := Nat.not_lt.2 hsize
    unfold EvidenceFiles.safeBytes RecordDisk.evidenceFiles
    simp only [hfile]
    simp [hregular, hshared, hbound, bind, Except.bind]
  unfold EvidenceFiles.readEvidence
  rw [hsafe]
  rfl

/-! ## Writing -/

/-- The disk with so many bytes of the content in the file. -/
def holding (d₀ : RecordDisk) (path : String) (permissions : Nat) (content : Bytes) (k : Nat) : RecordDisk :=
  Function.update d₀ path (some (.file permissions (content.take k)))

/-- The disk with some of the content in the file. -/
def Partly (d₀ : RecordDisk) (path : String) (permissions : Nat) (content : Bytes) (d : RecordDisk) : Prop :=
  ∃ k, d = holding d₀ path permissions content k

variable {d₀ : RecordDisk} {permissions : Nat} {content : Bytes}

theorem holding_path (k : Nat) : holding d₀ path permissions content k path = some (.file permissions (content.take k)) :=
  Function.update_self _ _ _

theorem holding_update (k l : Nat) : Function.update (holding d₀ path permissions content k) path
    (some (.file permissions (content.take l))) = holding d₀ path permissions content l :=
  Function.update_idem _ _ _

/-- The loop stores the content from the offset on. -/
theorem writeLoop_spec (rounds offset : Nat) (hoffset : offset ≤ content.length) :
    Triple (recordFiles umask) (fun d => d = holding d₀ path permissions content offset) (writeLoop path content rounds offset)
      (fun _ d => d = holding d₀ path permissions content content.length) (fun _ => Partly d₀ path permissions content)
      (Partly d₀ path permissions content) := by
  induction rounds generalizing offset with
  | zero =>
    unfold writeLoop
    split
    · exact Triple.diverge fun _ h => ⟨offset, h⟩
    · rename_i hend
      obtain rfl : offset = content.length := Nat.le_antisymm hoffset (Nat.not_lt.1 hend)
      exact Triple.ret (fun _ h => h) fun _ h => ⟨_, h⟩
  | succ rounds ih =>
    unfold writeLoop
    split
    · refine Triple.bind (R := fun n d => d = holding d₀ path permissions content (offset + n) ∧ offset + n ≤ content.length)
        (Triple.perform (fun _ h => ⟨offset, h⟩) ?_ ?_) fun n => Triple.assume fun hn => ih (offset + n) hn
      · rintro d n d' rfl ⟨hn, permissions', old, hfile, rfl⟩
        rw [holding_path] at hfile
        cases hfile
        rw [← List.take_add, holding_update]
        rw [List.length_drop] at hn
        exact ⟨⟨rfl, Nat.add_le_of_le_sub' hoffset hn⟩, _, rfl⟩
      · rintro d x d' rfl h
        exact ⟨⟨offset, h⟩, offset, h⟩
    · rename_i hend
      obtain rfl : offset = content.length := Nat.le_antisymm hoffset (Nat.not_lt.1 hend)
      exact Triple.ret (fun _ h => h) fun _ h => ⟨_, h⟩

/-- What may be left of a record: nothing, or some of it where no file was. -/
def Remains (d₀ : RecordDisk) (path : String) (permissions : Nat) (content : Bytes) (d : RecordDisk) : Prop :=
  d = d₀ ∨ (d₀ path = none ∧ Partly d₀ path permissions content d)

/-- The permissions of a record under a mask. -/
def masked (umask : Nat) : Nat := 0o640 &&& (0o777 ^^^ (umask &&& 0o777))

theorem writeRecord_spec :
    Triple (recordFiles umask) (fun d => d = d₀) (writeRecord path content)
      (fun _ d => d₀ path = none ∧ d = holding d₀ path (masked umask) content content.length)
      (fun _ => Remains d₀ path (masked umask) content) (Remains d₀ path (masked umask) content) := by
  unfold writeRecord
  refine Triple.bind (R := fun _ d => d = holding d₀ path (masked umask) content 0 ∧ d₀ path = none)
    (Triple.perform (fun _ h => Or.inl h) ?_ ?_) fun _ => Triple.assume fun hfree => ?_
  · rintro d _ d' rfl ⟨hfree, rfl⟩
    exact ⟨⟨rfl, hfree⟩, Or.inr ⟨hfree, 0, rfl⟩⟩
  · rintro d x d' rfl h
    exact ⟨Or.inl h, Or.inl h⟩
  · have hclose : ∀ P : RecordDisk → Prop, Triple (recordFiles umask) P (DurableFiles.fileCall (.close path)) (fun _ => P) (fun _ => P) P :=
      fun P => Triple.perform (fun _ h => h) (fun d _ d' h hstep => by rw [show d' = d from hstep]; exact ⟨h, h⟩)
        fun d _ d' h hstep => by rw [show d' = d from hstep]; exact ⟨h, h⟩
    have hpartly : ∀ d, Partly d₀ path (masked umask) content d → Remains d₀ path (masked umask) content d :=
      fun d h => Or.inr ⟨hfree, h⟩
    have hwhole : ∀ d, d = holding d₀ path (masked umask) content content.length → Remains d₀ path (masked umask) content d :=
      fun d h => hpartly d ⟨_, h⟩
    exact Triple.ensure
      ((writeLoop_spec content.length 0 (Nat.zero_le _)).conseq (fun _ h => h) (fun _ _ h => h) (fun _ _ h => h) hpartly)
      (fun _ => (hclose _).conseq (fun _ h => h) (fun _ _ h => ⟨hfree, h⟩) (fun _ => hwhole) hwhole)
      (fun _ => (hclose _).conseq (fun _ h => h) (fun _ => hpartly) (fun _ => hpartly) hpartly) (fun _ d h => hwhole d h.2)
      fun _ _ h => h

/-- The part of `write_evidence` leaves a new record, or as much of one as is written, or nothing. -/
abbrev Records {α : Type} (umask : Nat) (clock path : String) (content : Bytes) (d₀ : RecordDisk) (p : RecordAction α)
    (Q : α → RecordDisk → Prop) : Prop :=
  Triple (recordEnv umask clock) (fun d => d = d₀) p Q (fun _ => Remains d₀ path (masked umask) content)
    (Remains d₀ path (masked umask) content)

theorem query_records (op : RecordQuery) :
    Records umask clock path content d₀ (recordQuery op) fun answer d => d = d₀ ∧ d₀.Answers clock op answer := by
  refine Triple.perform (fun _ h => Or.inl h) ?_ ?_
  · rintro d answer d' rfl ⟨rfl, hanswer⟩
    exact ⟨⟨rfl, hanswer⟩, Or.inl rfl⟩
  · rintro d x d' rfl h
    exact ⟨Or.inl h, Or.inl h⟩

theorem refusal_records {α : Type} (x : Exc) {Q : α → RecordDisk → Prop} :
    Records umask clock path content d₀ (.raise x : RecordAction α) Q :=
  Triple.raise (fun _ h => Or.inl h) fun _ h => Or.inl h

theorem isTaken_records : Records umask clock path content d₀ (isTaken path) fun _ d => d = d₀ := by
  refine Triple.bind (query_records _) fun found => Triple.assume fun _ => ?_
  split
  · exact Triple.ret (fun _ h => h) fun _ h => Or.inl h
  · exact (query_records _).post fun _ _ h => h.1

theorem writeEvidence_records (path : String) (certificate : CertificateConfig) (result : LiveCompatibilityProbeResult)
    (hcontent : content = asciiBytes (recordText clock certificate result)) :
    Records umask clock path content d₀ (writeEvidence path certificate result) fun _ d =>
      d₀ path = none ∧ d = holding d₀ path (masked umask) content content.length := by
  unfold writeEvidence
  split
  · exact refusal_records _
  · refine Triple.bind isTaken_records fun taken => ?_
    split
    · exact refusal_records _
    · refine Triple.bind (query_records _) fun directory => Triple.assume fun _ => ?_
      split
      · exact refusal_records _
      · refine Triple.bind (query_records _) fun recordedAt => Triple.assume fun hclock => ?_
        obtain rfl : recordedAt = clock := hclock
        rw [← hcontent]
        intro d hd o d' h
        exact writeRecord_spec d hd o d' ((exec_right_iff fun _ _ _ _ => Iff.rfl).1 h)

/-- What is left of a record is refused or complete. -/
theorem left_read (hloads : Decodes loads)
    (hsupported : Json.Supported 100 (Json.sorted (.object (payloadMembers clock certificate result))) = true)
    (hsize : (recordText clock certificate result).length ≤ maxEvidenceBytes) (k : Nat)
    (hd : d = holding d₀ path (masked umask) (asciiBytes (recordText clock certificate result)) k) :
    ((d.evidenceFiles loads).Bad path ∧ k < (recordText clock certificate result).length) ∨
      (d.evidenceFiles loads).Qualifying path (certificateProfile certificate) := by
  have hbytes : (asciiBytes (recordText clock certificate result)).take k =
    asciiBytes ((recordText clock certificate result).take k) :=
    List.map_take.symm
  have hfile : d path = some (.file (masked umask) (asciiBytes ((recordText clock certificate result).take k))) := by
    rw [hd, holding_path, hbytes]
  have hlength : (asciiBytes ((recordText clock certificate result).take k)).length ≤ maxEvidenceBytes := by
    unfold asciiBytes
    rw [List.length_map]
    exact Nat.le_trans (List.length_take_le' _ _) hsize
  have hread : (d.evidenceFiles loads).readEvidence path = _ := readEvidence_file hfile hlength
  rcases loads_prefix hloads hsupported (List.take_prefix k (recordText clock certificate result)) with hloaded | ⟨hcut, hnone⟩
  · rw [hloaded] at hread
    exact Or.inr ⟨recorded certificate, hread, qualifies_recorded⟩
  · refine Or.inl ⟨?_, ?_⟩
    · unfold EvidenceFiles.Bad
      rw [hread]
      cases hloaded : loads (asciiBytes ((recordText clock certificate result).take k)) with
      | object evidence => exact absurd hloaded (hnone evidence)
      | other => exact ⟨_, rfl⟩
      | invalid => exact ⟨_, rfl⟩
      | raised x => exact ⟨_, rfl⟩
    · by_contra hall
      exact hcut (List.take_of_length_le (Nat.not_lt.1 hall))

end EvidenceRecordsAux

open EvidenceRecordsAux

/-- Whatever the mask and the schedule of short writes, and wherever it fails or is stopped, `write_evidence` touches no
file but a new one. What it leaves there is refused, or is read as a record that qualifies the profile it was written
for and no other; where it returns, it is such a record, and listed first it unlocks every certificate set of that
profile. -/
theorem evidence_round_trip {umask : Nat} {clock path : String} {certificate : CertificateConfig}
    {result : LiveCompatibilityProbeResult} {loads : Bytes → JsonOutcome} {d d' : RecordDisk} {o : Outcome Exc Unit}
    (hloads : Decodes loads)
    (hsupported : Json.Supported 100 (Json.sorted (.object (payloadMembers clock certificate result))) = true)
    (hsize : (recordText clock certificate result).length ≤ maxEvidenceBytes)
    (h : Exec (recordEnv umask clock) (writeEvidence path certificate result) d o d') :
    (∀ other, other ≠ path ∨ d other ≠ none → d' other = d other) ∧
      (d path = none → (d'.evidenceFiles loads).Bad path ∨
        (d'.evidenceFiles loads).Qualifying path (certificateProfile certificate)) ∧
      (o = .returned () → d path = none ∧ (d'.evidenceFiles loads).Qualifying path (certificateProfile certificate) ∧
        ∀ (config : AppConfig) (other : CertificateConfig) (rest : List String), config.compatibility.liveVerified = true →
          config.compatibility.liveEvidencePaths = path :: rest → certificateProfile other = certificateProfile certificate →
            (d'.evidenceFiles loads).qualification config other = .returned ()) := by
  have hspec : EvidenceRecordsAux.Records umask clock path (asciiBytes (recordText clock certificate result)) d
      (writeEvidence path certificate result) _ :=
    writeEvidence_records path certificate result rfl
  have hends := hspec d rfl o d' h
  have hremains : Remains d path (masked umask) (asciiBytes (recordText clock certificate result)) d' := by
    cases o with
    | returned _ => exact Or.inr ⟨hends.1, _, hends.2⟩
    | raised x => exact hends
    | crashed => exact hends
  refine ⟨fun other hother => ?_, fun hfree => ?_, ?_⟩
  · obtain rfl | ⟨hfree, k, rfl⟩ := hremains
    · rfl
    · refine Function.update_of_ne ?_ _ _
      rintro rfl
      exact hother.elim (fun hne => hne rfl) fun hfile => hfile hfree
  · obtain rfl | ⟨-, k, hk⟩ := hremains
    · refine Or.inl ⟨configurationError "unable to read staging evidence", ?_⟩
      unfold EvidenceFiles.readEvidence EvidenceFiles.safeBytes RecordDisk.evidenceFiles
      simp only [hfree]
      rfl
    · exact (left_read hloads hsupported hsize k hk).imp And.left fun hq => hq
  · rintro rfl
    obtain ⟨hfree, hwhole⟩ := hends
    have hqualifying : (d'.evidenceFiles loads).Qualifying path (certificateProfile certificate) := by
      refine (left_read hloads hsupported hsize _ hwhole).resolve_left fun hbad => ?_
      exact absurd hbad.2 (by simp [asciiBytes])
    refine ⟨hfree, hqualifying, fun config other rest hgate hpaths hprofile => ?_⟩
    obtain ⟨evidence, hread, hqualifies⟩ := hqualifying
    rw [EvidenceOrderAux.qualification_search hgate, hpaths, EvidenceOrderAux.outcome_read hread,
      if_pos ((hqualifies _).2 hprofile)]

namespace EvidenceRecordsSample

open Sample

/-- A decoder that reads ASCII texts only. -/
def loads (raw : Bytes) : JsonOutcome :=
  match decodeAscii raw with
  | none => .invalid
  | some text =>
    if 0 ∈ raw then .invalid
    else
      match Json.loads text.toList with
      | none => .invalid
      | some value => if Json.Supported 100 value then outcomeOf value else .raised (.of .valueError "")

theorem loads_decodes : Decodes loads where
  accepts htext hzero hvalue hsupported := by
    unfold loads
    rw [htext]
    simp only
    rw [if_neg hzero, hvalue]
    simp only
    rw [if_pos hsupported]
  refuses htext hzero hvalue evidence := by
    unfold loads
    rw [htext]
    simp only
    rw [if_neg hzero, hvalue]
    exact nofun

/-- A process on an empty directory that writes at most 300 bytes at a time. -/
def handle : Handler recordCalls Exc RecordDisk := fun d op =>
  match op with
  | .inl (.exists path) => some (.ok ((d path).any (· ≠ .symlink true)), d)
  | .inl (.isSymlink path) => some (.ok ((d path).any fun node => node = .symlink true ∨ node = .symlink false), d)
  | .inl (.parentIsDirectory _) => some (.ok true, d)
  | .inl .now => some (.ok "2026-01-01T00:00:00+00:00", d)
  | .inr (.create path mode) =>
    if d path = none then
      some (.ok (), Function.update d path (some (.file (mode &&& (0o777 ^^^ (0o027 &&& 0o777))) [])))
    else none
  | .inr (.write path content) =>
    match d path with
    | some (.file permissions old) =>
      some (.ok (min 300 content.length : Nat),
        Function.update d path (some (.file permissions (old ++ content.take (min 300 content.length)))))
    | _ => none
  | .inr (.close _) => some (.ok (), d)
  | .inr _ => none

theorem handle_allowed : handle.Allowed (recordEnv 0o027 "2026-01-01T00:00:00+00:00") := by
  intro d op answer d' h
  cases op with
  | inl op =>
    cases op <;> (cases h; first | exact ⟨rfl, rfl⟩ | exact ⟨rfl, trivial⟩)
  | inr op =>
    cases op with
    | create path mode =>
      unfold handle at h
      simp only at h
      split at h
      · rename_i hfree
        cases h
        exact ⟨hfree, rfl⟩
      · cases h
    | write path content =>
      unfold handle at h
      simp only at h
      split at h
      · rename_i permissions old hfile
        cases h
        exact ⟨Nat.min_le_right _ _, permissions, old, hfile, rfl⟩
      · cases h
    | close path =>
      cases h
      rfl
    | _ => cases h

/-- The result of a live probe. -/
def probed : LiveCompatibilityProbeResult where
  certificateId := "web"
  ociCertificateOcid := "ocid"
  initialVersionNumber := 1
  promotedVersionNumber := 2
  rollbackVersionNumber := 1
  leafFingerprint := certificateSha256 (leaf 2)
  rootFingerprint := certificateSha256 root
  chainBytes := 2
  documentedSubjectCountryEnforced := false

def written : Outcome Exc Unit × RecordDisk :=
  (writeEvidence "/evidence.json" certificate probed).runFor handle 100 fun _ => none

end EvidenceRecordsSample

open EvidenceRecordsSample in
/-- A record written in four writes qualifies its profile. -/
theorem evidence_round_trip_sample :
    written.1 = .returned () ∧
      (written.2.evidenceFiles loads).Qualifying "/evidence.json" (certificateProfile Sample.certificate) := by
  have hreturned : written.1 = .returned () := by decide +kernel
  have hround := evidence_round_trip loads_decodes (by decide +kernel) (by decide +kernel)
    (exec_runFor handle_allowed 100 (writeEvidence "/evidence.json" Sample.certificate probed) fun _ => none)
  exact ⟨hreturned, (hround.2.2 hreturned).2.1⟩

end OciAcmePublisher
