import OciAcmePublisher.Orders.Outranked
import OciAcmePublisher.PublicationService
import OciAcmePublisher.Simulation

/-!
# Retention

A plan schedules the eligible versions that `keep_deprecated_versions` others outrank, where a newer version outranks an older one.
What outranks a scheduled version can be taken among the versions that are not scheduled, so carrying out a part of the plan takes
nothing away from the reasons for the rest, and neither does time, which only makes more versions eligible. Over the runs of a
history this comes to: whenever a version is scheduled, enough newer eligible ones are left, and none is scheduled twice.
-/

namespace OciAcmePublisher

open Effects Orders

/-- A version that may be scheduled for deletion, before the newest ones are set aside. -/
structure EligibleForDeletion (configuration : RetentionConfig) (referencedVersions : List Int) (now : Instant)
    (version : OciCertificateVersion) : Prop where
  deprecated : .deprecated ∈ version.stages
  unprotected : ∀ stage ∈ protectedStages, stage ∉ version.stages
  unreferenced : version.versionNumber ∉ referencedVersions
  undeleted : version.timeOfDeletion = none
  old : ∃ created, version.timeCreated = some created ∧ created ≤ now - days configuration.minimumAgeDays

/-- Newer by creation time, then by number. -/
def Newer (a b : OciCertificateVersion) : Prop :=
  b.timeCreated.getD 0 < a.timeCreated.getD 0 ∨
    a.timeCreated.getD 0 = b.timeCreated.getD 0 ∧ b.versionNumber < a.versionNumber

/-- The version with the deletion time it was scheduled for, if it was. -/
def OciCertificateVersion.marked (scheduled : List Int) (deletion : Int → Instant) (version : OciCertificateVersion) :
    OciCertificateVersion :=
  if version.versionNumber ∈ scheduled then { version with timeOfDeletion := some (deletion version.versionNumber) }
  else version

namespace RetentionAux

theorem retentionEligible_iff {configuration : RetentionConfig} {referencedVersions : List Int} {now : Instant}
    {version : OciCertificateVersion} :
    retentionEligible configuration referencedVersions now version = true ↔
      EligibleForDeletion configuration referencedVersions now version := by
  unfold retentionEligible
  simp only [Bool.and_eq_true, Bool.not_eq_true', List.contains_eq_mem, decide_eq_true_eq, decide_eq_false_iff_not,
    List.any_eq_false, Option.isNone_iff_eq_none, Option.any_eq_true]
  constructor
  · rintro ⟨⟨⟨⟨hdep, hprot⟩, href⟩, hdel⟩, hold⟩
    exact ⟨hdep, hprot, href, hdel, hold⟩
  · rintro ⟨hdep, hprot, href, hdel, hold⟩
    exact ⟨⟨⟨⟨hdep, hprot⟩, href⟩, hdel⟩, hold⟩

theorem newer_asymm (a b : OciCertificateVersion) (h : Newer a b) : ¬Newer b a := by
  unfold Newer at h ⊢
  grind

instance : Std.Total fun a b => newestFirst a b = true where
  total a b := by
    unfold newestFirst
    simp only [Bool.or_eq_true, decide_eq_true_eq, Bool.and_eq_true, beq_iff_eq]
    grind

instance : IsTrans OciCertificateVersion fun a b => newestFirst a b = true where
  trans a b c hab hbc := by
    unfold newestFirst at hab hbc ⊢
    simp only [Bool.or_eq_true, decide_eq_true_eq, Bool.and_eq_true, beq_iff_eq] at hab hbc ⊢
    grind

theorem newer_of_newestFirst {a b : OciCertificateVersion} (h : newestFirst a b = true)
    (hne : a.versionNumber ≠ b.versionNumber) : Newer a b := by
  unfold newestFirst at h
  unfold Newer
  simp only [Bool.or_eq_true, decide_eq_true_eq, Bool.and_eq_true, beq_iff_eq] at h
  grind

section

variable {configuration : RetentionConfig} {versions : List OciCertificateVersion} {referencedVersions : List Int}
  {now : Instant}

/-- The eligible versions, newest first. -/
def ranked (configuration : RetentionConfig) (versions : List OciCertificateVersion) (referencedVersions : List Int)
    (now : Instant) : List OciCertificateVersion :=
  (versions.filter (retentionEligible configuration referencedVersions now)).insertionSort
    (fun a b => newestFirst a b = true)

theorem mem_ranked {v : OciCertificateVersion} :
    v ∈ ranked configuration versions referencedVersions now ↔
      v ∈ versions ∧ EligibleForDeletion configuration referencedVersions now v := by
  unfold ranked
  rw [List.mem_insertionSort, List.mem_filter, retentionEligible_iff]

theorem ranked_numbers (hdistinct : (versions.map (·.versionNumber)).Nodup) :
    ((ranked configuration versions referencedVersions now).map (·.versionNumber)).Nodup := by
  have hperm := (List.perm_insertionSort (fun a b => newestFirst a b = true)
    (versions.filter (retentionEligible configuration referencedVersions now))).map (·.versionNumber)
  exact hperm.nodup_iff.2 (hdistinct.sublist (List.filter_sublist.map _))

/-- With distinct numbers the eligible versions stand in a strict order. -/
theorem ranked_strict (hdistinct : (versions.map (·.versionNumber)).Nodup) :
    (ranked configuration versions referencedVersions now).Pairwise Newer := by
  have hsorted : (ranked configuration versions referencedVersions now).Pairwise fun a b => newestFirst a b = true :=
    List.pairwise_insertionSort _ _
  have hnumbers : (ranked configuration versions referencedVersions now).Pairwise
      fun a b => a.versionNumber ≠ b.versionNumber := List.pairwise_map.1 (ranked_numbers hdistinct)
  exact (hsorted.and hnumbers).imp fun h => newer_of_newestFirst h.1 h.2

theorem plan_eq (henabled : configuration.enabled = true) :
    (planRetention configuration versions referencedVersions now).versionNumbers =
      ((ranked configuration versions referencedVersions now).map (·.versionNumber)).filter fun n =>
        !(((ranked configuration versions referencedVersions now).take configuration.keepDeprecatedVersions).map
          (·.versionNumber)).contains n := by
  unfold planRetention
  rw [if_neg (by simp [henabled])]
  rfl

/-- The plan numbers the versions behind the retained ones. -/
theorem mem_plan_iff_drop (henabled : configuration.enabled = true) (hdistinct : (versions.map (·.versionNumber)).Nodup)
    {n : Int} : n ∈ (planRetention configuration versions referencedVersions now).versionNumbers ↔
      ∃ v ∈ (ranked configuration versions referencedVersions now).drop configuration.keepDeprecatedVersions,
        v.versionNumber = n := by
  rw [plan_eq henabled, List.mem_filter]
  have hnumbers : ((ranked configuration versions referencedVersions now).map (·.versionNumber)).Nodup :=
    ranked_numbers hdistinct
  have hsplit := List.take_append_drop configuration.keepDeprecatedVersions
    (ranked configuration versions referencedVersions now)
  rw [← hsplit, List.map_append, List.nodup_append] at hnumbers
  simp only [Bool.not_eq_true', List.contains_eq_mem, decide_eq_false_iff_not]
  constructor
  · rintro ⟨hmem, hout⟩
    rw [← hsplit, List.map_append, List.mem_append] at hmem
    exact List.mem_map.1 (hmem.resolve_left hout)
  · rintro ⟨v, hv, rfl⟩
    refine ⟨List.mem_map_of_mem (List.mem_of_mem_drop hv), fun hkept => ?_⟩
    exact hnumbers.2.2 _ hkept _ (List.mem_map_of_mem hv) rfl

/-- An eligible version of the listing. -/
def Candidate (configuration : RetentionConfig) (versions : List OciCertificateVersion) (referencedVersions : List Int)
    (now : Instant) (v : OciCertificateVersion) : Prop :=
  v ∈ versions ∧ EligibleForDeletion configuration referencedVersions now v

/-- The plan schedules the eligible versions that enough newer ones outrank. -/
theorem mem_plan_iff (henabled : configuration.enabled = true) (hdistinct : (versions.map (·.versionNumber)).Nodup)
    {n : Int} : n ∈ (planRetention configuration versions referencedVersions now).versionNumbers ↔
      ∃ v, v.versionNumber = n ∧ Candidate configuration versions referencedVersions now v ∧
        Outranked Newer configuration.keepDeprecatedVersions
          (Candidate configuration versions referencedVersions now) v := by
  rw [mem_plan_iff_drop henabled hdistinct]
  constructor
  · rintro ⟨v, hv, rfl⟩
    obtain ⟨hmem, hout⟩ := (mem_drop_iff (ranked_strict hdistinct) newer_asymm).1 hv
    exact ⟨v, rfl, mem_ranked.1 hmem, hout.mono fun u hu _ => mem_ranked.1 hu⟩
  · rintro ⟨v, rfl, hv, hout⟩
    exact ⟨v, (mem_drop_iff (ranked_strict hdistinct) newer_asymm).2
      ⟨mem_ranked.2 hv, hout.mono fun u hu _ => mem_ranked.2 hu⟩, rfl⟩

theorem plan_nodup (henabled : configuration.enabled = true) (hdistinct : (versions.map (·.versionNumber)).Nodup) :
    (planRetention configuration versions referencedVersions now).versionNumbers.Nodup := by
  rw [plan_eq henabled]
  exact (ranked_numbers hdistinct).filter _

/-- The versions that outrank a scheduled one can be taken among those that are not scheduled. -/
theorem outranked_by_unscheduled (henabled : configuration.enabled = true)
    (hdistinct : (versions.map (·.versionNumber)).Nodup) {v : OciCertificateVersion}
    (hv : Candidate configuration versions referencedVersions now v)
    (hout : Outranked Newer configuration.keepDeprecatedVersions
      (Candidate configuration versions referencedVersions now) v) :
    Outranked Newer configuration.keepDeprecatedVersions
      (fun u => Candidate configuration versions referencedVersions now u ∧
        u.versionNumber ∉ (planRetention configuration versions referencedVersions now).versionNumbers) v := by
  have hkept := outranked_by_kept (ranked_strict hdistinct) newer_asymm (mem_ranked.2 hv)
    (hout.mono fun u hu _ => mem_ranked.2 hu)
  refine hkept.mono fun u hu _ => ⟨mem_ranked.1 hu.1, fun hplan => hu.2 ?_⟩
  obtain ⟨u', hu', heq⟩ := (mem_plan_iff_drop henabled hdistinct).1 hplan
  obtain ⟨hmem', hout'⟩ := (mem_drop_iff (ranked_strict hdistinct) newer_asymm).1 hu'
  have huu : u' = u := List.inj_on_of_nodup_map (ranked_numbers hdistinct) hmem' hu.1 heq
  exact huu ▸ hout'

end

/-! ## Planning again -/

section

variable {configuration : RetentionConfig} {versions : List OciCertificateVersion} {referencedVersions : List Int}
  {now : Instant} {scheduled : List Int} {deletion : Int → Instant}

theorem marked_number (v : OciCertificateVersion) : (v.marked scheduled deletion).versionNumber = v.versionNumber := by
  unfold OciCertificateVersion.marked
  split <;> rfl

theorem marked_numbers :
    (versions.map (OciCertificateVersion.marked scheduled deletion)).map (·.versionNumber) =
      versions.map (·.versionNumber) := by
  rw [List.map_map]
  exact List.map_congr_left fun v _ => marked_number v

/-- The eligible versions of the marked listing are the eligible ones that are not marked. -/
theorem candidate_marked_iff {v : OciCertificateVersion} :
    Candidate configuration (versions.map (OciCertificateVersion.marked scheduled deletion)) referencedVersions now v ↔
      Candidate configuration versions referencedVersions now v ∧ v.versionNumber ∉ scheduled := by
  constructor
  · rintro ⟨hmem, hel⟩
    obtain ⟨v', hv', rfl⟩ := List.mem_map.1 hmem
    by_cases hin : v'.versionNumber ∈ scheduled
    · have hdel := hel.undeleted
      unfold OciCertificateVersion.marked at hdel
      rw [if_pos hin] at hdel
      cases hdel
    · have hsame : v'.marked scheduled deletion = v' := by
        unfold OciCertificateVersion.marked
        rw [if_neg hin]
      rw [hsame] at hel ⊢
      exact ⟨⟨hv', hel⟩, hin⟩
  · rintro ⟨⟨hmem, hel⟩, hout⟩
    refine ⟨List.mem_map.2 ⟨v, hmem, ?_⟩, hel⟩
    unfold OciCertificateVersion.marked
    rw [if_neg hout]

/-- Time makes more versions eligible. -/
theorem candidate_later {t : Instant} (ht : now ≤ t) {v : OciCertificateVersion}
    (h : Candidate configuration versions referencedVersions now v) :
    Candidate configuration versions referencedVersions t v := by
  obtain ⟨hmem, hel⟩ := h
  obtain ⟨created, hcreated, hold⟩ := hel.old
  exact ⟨hmem, { hel with old := ⟨created, hcreated, hold.trans (Int.sub_le_sub_right ht _)⟩ }⟩

end

end RetentionAux

/-! ## Runs -/

/-- The number of the version whose deletion the event schedules. -/
def scheduledBy (ocid : String) : Event publisher Exc → Option Int
  | ⟨.scheduleVersionDeletion certificateId number _ _ _, .ok _⟩ => if certificateId = ocid then some number else none
  | _ => none

/-- The listing the event reads. -/
def listedBy (ocid : String) : Event publisher Exc → Option (List OciCertificateVersion)
  | ⟨.listVersions certificateId _, .ok versions⟩ => if certificateId = ocid then some versions else none
  | _ => none

/-- The version numbers of the nonterminal operations the event reads. -/
def referencedBy : Event publisher Exc → Option (List Int)
  | ⟨.sql (.selectActive _), .ok operations⟩ => some (operations.filterMap (·.ociVersionNumber))
  | _ => none

/-- The time the event reads. -/
def clockedBy : Event publisher Exc → Option Instant
  | ⟨.now, .ok now⟩ => some now
  | _ => none

/-- The versions scheduled so far. -/
def scheduledIn (ocid : String) (t : List (Event publisher Exc)) : List Int := t.filterMap (scheduledBy ocid)

/-- What the last event of its kind read. -/
def lastRead {α : Type} (f : Event publisher Exc → Option α) (t : List (Event publisher Exc)) : Option α :=
  (t.filterMap f).getLast?

/-- OCI as retention sees it: any operation may get any answer, but the listing of the certificate numbers its versions apart and
reflects what was scheduled. -/
def reflecting (ocid : String) : Env publisher Exc (List (Event publisher Exc)) := fun t op r t' =>
  t' = t ++ [⟨op, r⟩] ∧ ∀ versions, listedBy ocid ⟨op, r⟩ = some versions →
    (versions.map (·.versionNumber)).Nodup ∧ ∀ v ∈ versions, v.versionNumber ∈ scheduledIn ocid t → v.timeOfDeletion ≠ none

/-- In the last listing the version is eligible, and as many newer eligible versions as are to be kept have not been scheduled. -/
def Justified (configuration : RetentionConfig) (ocid : String) (t : List (Event publisher Exc)) (number : Int) : Prop :=
  ∃ versions referencedVersions now v, lastRead (listedBy ocid) t = some versions ∧
    lastRead referencedBy t = some referencedVersions ∧ lastRead clockedBy t = some now ∧ v ∈ versions ∧
    v.versionNumber = number ∧ EligibleForDeletion configuration referencedVersions now v ∧
    Outranked Newer configuration.keepDeprecatedVersions (fun u => u ∈ versions ∧
      EligibleForDeletion configuration referencedVersions now u ∧ u.versionNumber ∉ scheduledIn ocid t) v

/-- No version was scheduled twice, and each was scheduled with enough newer eligible versions left. -/
structure SafelyScheduled (configuration : RetentionConfig) (ocid : String) (t : List (Event publisher Exc)) : Prop where
  once : (scheduledIn ocid t).Nodup
  justified : ∀ before event after number, t = before ++ event :: after → scheduledBy ocid event = some number →
    Justified configuration ocid before number

namespace RetentionAux

variable {configuration : RetentionConfig} {ocid : String} {t t' : List (Event publisher Exc)}
  {versions : List OciCertificateVersion} {referencedVersions : List Int} {now : Instant}

theorem scheduledIn_snoc (e : Event publisher Exc) :
    scheduledIn ocid (t ++ [e]) = scheduledIn ocid t ++ (scheduledBy ocid e).toList := by
  unfold scheduledIn
  rw [List.filterMap_append]
  cases h : scheduledBy ocid e <;> simp [h]

theorem lastRead_snoc_some {α : Type} {f : Event publisher Exc → Option α} {e : Event publisher Exc} {a : α}
    (h : f e = some a) : lastRead f (t ++ [e]) = some a := by
  unfold lastRead
  rw [List.filterMap_append, List.filterMap_cons_some h, List.filterMap_nil, List.getLast?_concat]

theorem lastRead_snoc_none {α : Type} {f : Event publisher Exc → Option α} {e : Event publisher Exc} (h : f e = none) :
    lastRead f (t ++ [e]) = lastRead f t := by
  unfold lastRead
  rw [List.filterMap_append, List.filterMap_cons_none h, List.filterMap_nil, List.append_nil]

/-- Where an event stands in a record that ends in `e`. -/
theorem snoc_eq_cases {e event : Event publisher Exc} {before after : List (Event publisher Exc)}
    (h : t ++ [e] = before ++ event :: after) : (t = before ∧ e = event) ∨ ∃ init, t = before ++ event :: init := by
  rcases List.eq_nil_or_concat after with rfl | ⟨init, last, rfl⟩
  · obtain ⟨ht, he⟩ := List.append_inj' h rfl
    cases he
    exact Or.inl ⟨ht, rfl⟩
  · rw [List.concat_eq_append, ← List.cons_append, ← List.append_assoc] at h
    exact Or.inr ⟨init, (List.append_inj' h rfl).1⟩

end RetentionAux

section

open RetentionAux

variable {configuration : RetentionConfig} {ocid : String} {t : List (Event publisher Exc)} {e : Event publisher Exc}

/-- An event that schedules nothing keeps a record safe. -/
theorem SafelyScheduled.quiet (h : SafelyScheduled configuration ocid t) (he : scheduledBy ocid e = none) :
    SafelyScheduled configuration ocid (t ++ [e]) where
  once := by
    rw [scheduledIn_snoc, he]
    exact (List.append_nil _).symm ▸ h.once
  justified before event after number hsplit hevent := by
    rcases snoc_eq_cases hsplit with ⟨rfl, rfl⟩ | ⟨init, hinit⟩
    · rw [he] at hevent
      cases hevent
    · exact h.justified before event init number hinit hevent

/-- A justified scheduling of a version that was not scheduled keeps a record safe. -/
theorem SafelyScheduled.schedule (h : SafelyScheduled configuration ocid t) {n : Int} (he : scheduledBy ocid e = some n)
    (hfresh : n ∉ scheduledIn ocid t) (hjust : Justified configuration ocid t n) :
    SafelyScheduled configuration ocid (t ++ [e]) where
  once := by
    rw [scheduledIn_snoc, he]
    refine List.nodup_append.2 ⟨h.once, List.nodup_singleton n, fun a ha b hb hab => hfresh ?_⟩
    rw [← List.mem_singleton.1 hb, ← hab]
    exact ha
  justified before event after number hsplit hevent := by
    rcases snoc_eq_cases hsplit with ⟨rfl, rfl⟩ | ⟨init, hinit⟩
    · rw [he] at hevent
      cases hevent
      exact hjust
    · exact h.justified before event init number hinit hevent

end

namespace RetentionAux

section

variable {configuration : RetentionConfig} {ocid : String} {t t' : List (Event publisher Exc)}
  {versions : List OciCertificateVersion} {referencedVersions : List Int} {now : Instant}

/-- The plan is being carried out: `rest` of it is left, and its reasons stand. -/
structure Underway (configuration : RetentionConfig) (ocid : String) (versions : List OciCertificateVersion)
    (referencedVersions : List Int) (now : Instant) (rest : List Int) (t : List (Event publisher Exc)) : Prop where
  safe : SafelyScheduled configuration ocid t
  listed : lastRead (listedBy ocid) t = some versions
  referenced : lastRead referencedBy t = some referencedVersions
  clock : lastRead clockedBy t = some now
  nodup : rest.Nodup
  fresh : ∀ n ∈ rest, n ∉ scheduledIn ocid t
  reasons : ∀ n ∈ rest, ∃ v, v.versionNumber = n ∧ Candidate configuration versions referencedVersions now v ∧
    Outranked Newer configuration.keepDeprecatedVersions (fun u => Candidate configuration versions referencedVersions now u ∧
      u.versionNumber ∉ scheduledIn ocid t ∧ u.versionNumber ∉ rest) v

/-- An event without a part in the plan changes nothing. -/
theorem Underway.quiet {rest : List Int} (h : Underway configuration ocid versions referencedVersions now rest t)
    {e : Event publisher Exc} (hs : scheduledBy ocid e = none) (hl : listedBy ocid e = none) (hr : referencedBy e = none)
    (hc : clockedBy e = none) : Underway configuration ocid versions referencedVersions now rest (t ++ [e]) := by
  have hsame : scheduledIn ocid (t ++ [e]) = scheduledIn ocid t := by
    rw [scheduledIn_snoc, hs]
    exact List.append_nil _
  refine ⟨h.safe.quiet hs, ?_, ?_, ?_, h.nodup, hsame.symm ▸ h.fresh, hsame.symm ▸ h.reasons⟩
  · rw [lastRead_snoc_none hl]
    exact h.listed
  · rw [lastRead_snoc_none hr]
    exact h.referenced
  · rw [lastRead_snoc_none hc]
    exact h.clock

/-- The next version of the plan is scheduled. -/
theorem Underway.schedule {n : Int} {rest : List Int}
    (h : Underway configuration ocid versions referencedVersions now (n :: rest) t) {e : Event publisher Exc}
    (hs : scheduledBy ocid e = some n) (hl : listedBy ocid e = none) (hr : referencedBy e = none)
    (hc : clockedBy e = none) : Underway configuration ocid versions referencedVersions now rest (t ++ [e]) := by
  obtain ⟨hhead, htail⟩ := List.nodup_cons.1 h.nodup
  have hgrown : scheduledIn ocid (t ++ [e]) = scheduledIn ocid t ++ [n] := by
    rw [scheduledIn_snoc, hs]
    rfl
  have hfresh := h.fresh n List.mem_cons_self
  obtain ⟨v, hv, hcand, hout⟩ := h.reasons n List.mem_cons_self
  have hjust : Justified configuration ocid t n :=
    ⟨versions, referencedVersions, now, v, h.listed, h.referenced, h.clock, hcand.1, hv, hcand.2,
      hout.mono fun u hu _ => ⟨hu.1.1, hu.1.2, hu.2.1⟩⟩
  refine ⟨h.safe.schedule hs hfresh hjust, ?_, ?_, ?_, htail, fun m hm => ?_, fun m hm => ?_⟩
  · rw [lastRead_snoc_none hl]
    exact h.listed
  · rw [lastRead_snoc_none hr]
    exact h.referenced
  · rw [lastRead_snoc_none hc]
    exact h.clock
  · rw [hgrown, List.mem_append, List.mem_singleton]
    rintro (hold | rfl)
    · exact h.fresh m (List.mem_cons_of_mem n hm) hold
    · exact hhead hm
  · obtain ⟨v, hv, hcand, hout⟩ := h.reasons m (List.mem_cons_of_mem n hm)
    refine ⟨v, hv, hcand, hout.mono fun u hu _ => ⟨hu.1, ?_, fun hmem => hu.2.2 (List.mem_cons_of_mem n hmem)⟩⟩
    rw [hgrown, List.mem_append, List.mem_singleton]
    rintro (hold | heq)
    · exact hu.2.1 hold
    · exact hu.2.2 (heq ▸ List.mem_cons_self)

/-- The plan on a listing that reflects what was scheduled can be carried out. -/
theorem underway_plan (hsafe : SafelyScheduled configuration ocid t) (hlisted : lastRead (listedBy ocid) t = some versions)
    (hreferenced : lastRead referencedBy t = some referencedVersions) (hclock : lastRead clockedBy t = some now)
    (hdistinct : (versions.map (·.versionNumber)).Nodup)
    (hreflects : ∀ v ∈ versions, v.versionNumber ∈ scheduledIn ocid t → v.timeOfDeletion ≠ none) :
    Underway configuration ocid versions referencedVersions now
      (planRetention configuration versions referencedVersions now).versionNumbers t := by
  have hunscheduled (v : OciCertificateVersion) (hv : Candidate configuration versions referencedVersions now v) :
      v.versionNumber ∉ scheduledIn ocid t := fun hmem => hreflects v hv.1 hmem hv.2.undeleted
  cases henabled : configuration.enabled with
  | false =>
    have hempty : (planRetention configuration versions referencedVersions now).versionNumbers = [] := by
      unfold planRetention
      rw [if_pos henabled]
    rw [hempty]
    exact ⟨hsafe, hlisted, hreferenced, hclock, List.nodup_nil, by simp, by simp⟩
  | true =>
    refine ⟨hsafe, hlisted, hreferenced, hclock, plan_nodup henabled hdistinct, fun n hn => ?_, fun n hn => ?_⟩
    · obtain ⟨v, rfl, hv, -⟩ := (mem_plan_iff henabled hdistinct).1 hn
      exact hunscheduled v hv
    · obtain ⟨v, hnum, hv, hout⟩ := (mem_plan_iff henabled hdistinct).1 hn
      exact ⟨v, hnum, hv, (outranked_by_unscheduled henabled hdistinct hv hout).mono fun u hu _ =>
        ⟨hu.1, hunscheduled u hu.1, hu.2⟩⟩

/-- One operation without a part in the plan. -/
theorem underway_perform {rest : List Int} {op : Op} (hs : ∀ r, scheduledBy ocid ⟨op, r⟩ = none)
    (hl : ∀ r, listedBy ocid ⟨op, r⟩ = none) (hr : ∀ r, referencedBy ⟨op, r⟩ = none) (hc : ∀ r, clockedBy ⟨op, r⟩ = none) :
    Triple (reflecting ocid) (Underway configuration ocid versions referencedVersions now rest) (perform op)
      (fun _ => Underway configuration ocid versions referencedVersions now rest)
      (fun _ => SafelyScheduled configuration ocid) (SafelyScheduled configuration ocid) := by
  refine Triple.perform (fun t h => h.safe) (fun t a t' h he => ?_) fun t x t' h he => ?_
  · obtain ⟨rfl, -⟩ := he
    have hnext := h.quiet (hs (.ok a)) (hl (.ok a)) (hr (.ok a)) (hc (.ok a))
    exact ⟨hnext, hnext.safe⟩
  · obtain ⟨rfl, -⟩ := he
    have hnext := h.quiet (hs (.error x)) (hl (.error x)) (hr (.error x)) (hc (.error x))
    exact ⟨hnext.safe, hnext.safe⟩

/-- The loop carries out the rest of the plan. -/
theorem scheduleDeletions_safe (certificate : CertificateConfig) (deletionTime : Instant) (rest : List Int) :
    Triple (reflecting ocid) (Underway configuration ocid versions referencedVersions now rest)
      (PublicationService.scheduleDeletions certificate ocid deletionTime rest)
      (fun _ => SafelyScheduled configuration ocid) (fun _ => SafelyScheduled configuration ocid)
      (SafelyScheduled configuration ocid) := by
  induction rest with
  | nil => exact Triple.ret (fun t h => h.safe) fun t h => h.safe
  | cons n rest ih =>
    unfold PublicationService.scheduleDeletions
    refine Triple.bind (underway_perform (fun _ => rfl) (fun _ => rfl) (fun _ => rfl) fun _ => rfl) fun requestId => ?_
    refine Triple.bind (underway_perform (fun _ => rfl) (fun _ => rfl) (fun _ => rfl) fun _ => rfl) fun version => ?_
    by_cases hetag : version.etag = none
    · rw [if_pos hetag]
      exact Triple.raise (fun t h => h.safe) fun t h => h.safe
    · rw [if_neg hetag]
      refine Triple.bind (R := fun _ => Underway configuration ocid versions referencedVersions now rest) ?_ fun _ => ?_
      · refine Triple.perform (fun t h => h.safe) (fun t a t' h he => ?_) fun t x t' h he => ?_
        · obtain ⟨rfl, -⟩ := he
          have hnext := h.schedule
            (e := ⟨.scheduleVersionDeletion ocid n deletionTime version.etag requestId, .ok a⟩) (if_pos rfl) rfl rfl rfl
          exact ⟨hnext, hnext.safe⟩
        · obtain ⟨rfl, -⟩ := he
          have hnext := h.safe.quiet
            (e := ⟨.scheduleVersionDeletion ocid n deletionTime version.etag requestId, .error x⟩) rfl
          exact ⟨hnext, hnext⟩
      · refine Triple.bind (underway_perform (fun _ => rfl) (fun _ => rfl) (fun _ => rfl) fun _ => rfl) fun _ => ih

/-- An operation that schedules nothing. -/
theorem safely_perform {op : Op} (hs : ∀ r, scheduledBy ocid ⟨op, r⟩ = none) :
    Triple (reflecting ocid) (SafelyScheduled configuration ocid) (perform op)
      (fun _ => SafelyScheduled configuration ocid) (fun _ => SafelyScheduled configuration ocid)
      (SafelyScheduled configuration ocid) := by
  refine Triple.perform (fun t h => h) (fun t a t' h he => ?_) fun t x t' h he => ?_
  · obtain ⟨rfl, -⟩ := he
    exact ⟨h.quiet (hs _), h.quiet (hs _)⟩
  · obtain ⟨rfl, -⟩ := he
    exact ⟨h.quiet (hs _), h.quiet (hs _)⟩

/-- A run of `retention` on the certificate keeps the record safe. -/
theorem retention_keeps {config : AppConfig} {certificateId : String} {certificate : CertificateConfig}
    (hconfigured : configuredCertificate config certificateId = .ok certificate)
    (hocid : certificate.oci.certificateOcid = some ocid) :
    Triple (reflecting ocid) (SafelyScheduled certificate.retention ocid)
      (PublicationService.retention config certificateId) (fun _ => SafelyScheduled certificate.retention ocid)
      (fun _ => SafelyScheduled certificate.retention ocid) (SafelyScheduled certificate.retention ocid) := by
  unfold PublicationService.retention
  rw [hconfigured]
  show Triple _ _ (Program.bind (.ret certificate) _) _ _ _
  rw [Program.ret_bind, hocid]
  simp only
  refine Triple.bind (R := fun _ => SafelyScheduled certificate.retention ocid) ?_ fun _ => ?_
  · exact Triple.bind (safely_perform fun _ => rfl) fun _ => safely_perform fun _ => rfl
  refine Triple.bind (safely_perform fun _ => rfl) fun requestId => ?_
  -- The listing numbers its versions apart and reflects what was scheduled: no operation up to the plan schedules anything.
  refine Triple.bind (R := fun versions t => SafelyScheduled certificate.retention ocid t ∧
    lastRead (listedBy ocid) t = some versions ∧ (versions.map (·.versionNumber)).Nodup ∧
      ∀ v ∈ versions, v.versionNumber ∈ scheduledIn ocid t → v.timeOfDeletion ≠ none) ?_ fun versions => ?_
  · refine Triple.perform (fun t h => h) (fun t versions t' h he => ?_) fun t x t' h he => ?_
    · obtain ⟨rfl, hreflects⟩ := he
      have hread : listedBy ocid ⟨.listVersions ocid requestId, .ok versions⟩ = some versions := if_pos rfl
      have hquiet := h.quiet (e := ⟨.listVersions ocid requestId, .ok versions⟩) rfl
      obtain ⟨hdistinct, hmarked⟩ := hreflects versions hread
      refine ⟨⟨hquiet, lastRead_snoc_some hread, hdistinct, ?_⟩, hquiet⟩
      rw [scheduledIn_snoc]
      exact (List.append_nil (scheduledIn ocid t)).symm ▸ hmarked
    · obtain ⟨rfl, -⟩ := he
      have hquiet := h.quiet (e := ⟨.listVersions ocid requestId, .error x⟩) rfl
      exact ⟨hquiet, hquiet⟩
  refine Triple.bind (R := fun operations t => SafelyScheduled certificate.retention ocid t ∧
    lastRead (listedBy ocid) t = some versions ∧ lastRead referencedBy t = some (operations.filterMap (·.ociVersionNumber)) ∧
      (versions.map (·.versionNumber)).Nodup ∧
        ∀ v ∈ versions, v.versionNumber ∈ scheduledIn ocid t → v.timeOfDeletion ≠ none) ?_ fun operations => ?_
  · refine Triple.perform (fun t h => h.1) (fun t operations t' h he => ?_) fun t x t' h he => ?_
    · obtain ⟨rfl, -⟩ := he
      obtain ⟨hsafe, hlisted, hdistinct, hmarked⟩ := h
      have hquiet := hsafe.quiet (e := ⟨.sql (.selectActive certificate.id), .ok operations⟩) rfl
      refine ⟨⟨hquiet, ?_, lastRead_snoc_some rfl, hdistinct, ?_⟩, hquiet⟩
      · rw [lastRead_snoc_none rfl]
        exact hlisted
      · rw [scheduledIn_snoc]
        exact (List.append_nil (scheduledIn ocid t)).symm ▸ hmarked
    · obtain ⟨rfl, -⟩ := he
      have hquiet := h.1.quiet (e := ⟨.sql (.selectActive certificate.id), .error x⟩) rfl
      exact ⟨hquiet, hquiet⟩
  refine Triple.bind (R := fun now => Underway certificate.retention ocid versions
    (operations.filterMap (·.ociVersionNumber)) now
    (planRetention certificate.retention versions (operations.filterMap (·.ociVersionNumber)) now).versionNumbers) ?_
    fun now => ?_
  · refine Triple.perform (fun t h => h.1) (fun t now t' h he => ?_) fun t x t' h he => ?_
    · obtain ⟨rfl, -⟩ := he
      obtain ⟨hsafe, hlisted, hreferenced, hdistinct, hmarked⟩ := h
      have hquiet := hsafe.quiet (e := ⟨.now, .ok now⟩) rfl
      refine ⟨underway_plan hquiet ?_ ?_ (lastRead_snoc_some rfl) hdistinct ?_, hquiet⟩
      · rw [lastRead_snoc_none rfl]
        exact hlisted
      · rw [lastRead_snoc_none rfl]
        exact hreferenced
      · rw [scheduledIn_snoc]
        exact (List.append_nil (scheduledIn ocid t)).symm ▸ hmarked
    · obtain ⟨rfl, -⟩ := he
      have hquiet := h.1.quiet (e := ⟨.now, .error x⟩) rfl
      exact ⟨hquiet, hquiet⟩
  refine Triple.bind (scheduleDeletions_safe certificate _ _) fun _ => ?_
  exact Triple.ret (fun _ h => h) fun _ h => h

end

end RetentionAux

/-- Retention is safe: a plan schedules exactly the eligible versions but the newest ones; planned again after an interruption it
covers the rest of the plan, keeps clear of what was scheduled, and is exactly the rest where no time has passed; and over any
number of runs, cut or failed anywhere, no version is scheduled twice and each is scheduled with enough newer ones left. -/
theorem retention_safe :
    (∀ configuration versions referencedVersions now, configuration.enabled = true →
        (versions.map OciCertificateVersion.versionNumber).Nodup →
        (planRetention configuration versions referencedVersions now).versionNumbers.Nodup ∧
          (∀ n, n ∈ (planRetention configuration versions referencedVersions now).versionNumbers ↔
            ∃ v ∈ versions, v.versionNumber = n ∧ EligibleForDeletion configuration referencedVersions now v ∧
              Outranked Newer configuration.keepDeprecatedVersions
                (fun u => u ∈ versions ∧ EligibleForDeletion configuration referencedVersions now u) v) ∧
          ∀ scheduled ⊆ (planRetention configuration versions referencedVersions now).versionNumbers, ∀ deletion t, now ≤ t →
            (∀ n ∈ (planRetention configuration versions referencedVersions now).versionNumbers, n ∉ scheduled →
              n ∈ (planRetention configuration (versions.map (.marked scheduled deletion)) referencedVersions
                t).versionNumbers) ∧
            (∀ n ∈ (planRetention configuration (versions.map (.marked scheduled deletion)) referencedVersions
              t).versionNumbers, n ∉ scheduled) ∧
            (t = now → ∀ n ∈ (planRetention configuration (versions.map (.marked scheduled deletion)) referencedVersions
              t).versionNumbers, n ∈ (planRetention configuration versions referencedVersions now).versionNumbers)) ∧
      ∀ config certificateId certificate ocid, configuredCertificate config certificateId = .ok certificate →
        certificate.oci.certificateOcid = some ocid → ∀ runs t,
          History (reflecting ocid) (fun _ : Unit => PublicationService.retention config certificateId) [] runs t →
            SafelyScheduled certificate.retention ocid t := by
  constructor
  · intro configuration versions referencedVersions now henabled hdistinct
    have hplan (n : Int) : n ∈ (planRetention configuration versions referencedVersions now).versionNumbers ↔ _ :=
      RetentionAux.mem_plan_iff henabled hdistinct
    refine ⟨RetentionAux.plan_nodup henabled hdistinct, fun n => ?_, fun scheduled hsub deletion t ht => ?_⟩
    · rw [hplan]
      constructor
      · rintro ⟨v, hv, hcand, hout⟩
        exact ⟨v, hcand.1, hv, hcand.2, hout⟩
      · rintro ⟨v, hmem, hv, hel, hout⟩
        exact ⟨v, hv, ⟨hmem, hel⟩, hout⟩
    have hdistinct' : ((versions.map (.marked scheduled deletion)).map OciCertificateVersion.versionNumber).Nodup := by
      rw [RetentionAux.marked_numbers]
      exact hdistinct
    have hagain (n : Int) : n ∈ (planRetention configuration (versions.map (.marked scheduled deletion)) referencedVersions
        t).versionNumbers ↔ _ := RetentionAux.mem_plan_iff henabled hdistinct'
    refine ⟨fun n hn hout => ?_, fun n hn => ?_, fun heq n hn => ?_⟩
    · obtain ⟨v, rfl, hv, hrank⟩ := (hplan n).1 hn
      have hkept := RetentionAux.outranked_by_unscheduled henabled hdistinct hv hrank
      refine (hagain _).2 ⟨v, rfl, RetentionAux.candidate_marked_iff.2 ⟨RetentionAux.candidate_later ht hv, hout⟩, ?_⟩
      exact hkept.mono fun u hu _ => RetentionAux.candidate_marked_iff.2
        ⟨RetentionAux.candidate_later ht hu.1, fun hmem => hu.2 (hsub hmem)⟩
    · obtain ⟨v, rfl, hv, -⟩ := (hagain n).1 hn
      exact (RetentionAux.candidate_marked_iff.1 hv).2
    · subst heq
      obtain ⟨v, rfl, hv, hrank⟩ := (hagain n).1 hn
      refine (hplan _).2 ⟨v, rfl, (RetentionAux.candidate_marked_iff.1 hv).1, ?_⟩
      exact hrank.mono fun u hu _ => (RetentionAux.candidate_marked_iff.1 hu).1
  · intro config certificateId certificate ocid hconfigured hocid runs t hruns
    have hempty : SafelyScheduled certificate.retention ocid [] :=
      ⟨List.nodup_nil, fun before event after number hsplit => by cases before <;> cases hsplit⟩
    refine hruns.keeps (I := SafelyScheduled certificate.retention ocid) (fun _ w o w' hw hx => ?_) hempty
    have hpost := RetentionAux.retention_keeps hconfigured hocid w hw o w' hx
    cases o <;> exact hpost

namespace RetentionSample

/-- Two deprecated versions, one of which is to be kept. -/
def listing : List OciCertificateVersion :=
  [{ versionNumber := 1, stages := [.deprecated], timeCreated := some (days 1) },
    { versionNumber := 2, stages := [.deprecated], timeCreated := some (days 2) }]

def certificate : CertificateConfig :=
  { Sample.certificate with retention := Sample.keepingOne }

def answer (t : List (Event publisher Exc)) : (op : Op) → Except Exc op.Reply
  | .createAdapters _ | .openStore _ | .scheduleVersionDeletion .. | .logEvent .. => .ok ()
  | .uuid4 => .ok "request"
  | .listVersions .. => .ok (listing.map (.marked (scheduledIn "ocid" t) fun _ => days 91))
  | .sql (.selectActive _) => .ok []
  | .now => .ok (days 61)
  | .getVersion _ number _ => .ok { versionNumber := number, stages := [.deprecated], etag := some "etag" }
  | _ => .error (.of .runtimeError "not asked")

/-- OCI marks in its listings what was scheduled. -/
def oci : Handler publisher Exc (List (Event publisher Exc)) := fun t op => some (answer t op, t ++ [⟨op, answer t op⟩])

theorem oci_reflects : oci.Allowed (reflecting "ocid") := by
  intro t op r t' h
  cases h
  refine ⟨rfl, fun versions hread => ?_⟩
  have hlisting : versions = listing.map (.marked (scheduledIn "ocid" t) fun _ => days 91) := by
    unfold listedBy at hread
    split at hread
    · rename_i certificateId requestId listed heq
      cases heq
      split at hread
      · cases hread
        rfl
      · cases hread
    · cases hread
  subst hlisting
  refine ⟨?_, fun v hv hmem => ?_⟩
  · rw [RetentionAux.marked_numbers]
    decide
  · obtain ⟨v', -, rfl⟩ := List.mem_map.1 hv
    rw [RetentionAux.marked_number] at hmem
    unfold OciCertificateVersion.marked
    rw [if_pos hmem]
    exact fun h => by cases h

def run (t : List (Event publisher Exc)) : Outcome Exc RetentionResult × List (Event publisher Exc) :=
  (PublicationService.retention (Sample.config certificate) "web").runFor oci 20 t

end RetentionSample

/-- The older version is scheduled in the first of two runs, and the second leaves it alone. -/
theorem retention_safe_sample :
    SafelyScheduled RetentionSample.certificate.retention "ocid" (RetentionSample.run (RetentionSample.run []).2).2 ∧
      scheduledIn "ocid" (RetentionSample.run (RetentionSample.run []).2).2 = [1] ∧
      1 ∉ (planRetention RetentionSample.certificate.retention
        (RetentionSample.listing.map (.marked [1] fun _ => days 91)) [] (days 61)).versionNumbers := by
  have hhistory : History (reflecting "ocid")
      (fun _ : Unit => PublicationService.retention (Sample.config RetentionSample.certificate) "web") []
      [((), (RetentionSample.run []).1), ((), (RetentionSample.run (RetentionSample.run []).2).1)]
      (RetentionSample.run (RetentionSample.run []).2).2 :=
    .snoc (l := [_]) (.snoc (l := []) (.nil []) (exec_runFor RetentionSample.oci_reflects 20 _ _))
      (exec_runFor RetentionSample.oci_reflects 20 _ _)
  refine ⟨retention_safe.2 _ "web" _ _ rfl rfl _ _ hhistory, by decide +kernel, ?_⟩
  have hagain := ((retention_safe.1 RetentionSample.certificate.retention RetentionSample.listing [] (days 61) rfl
    (by decide)).2.2 [1] (by decide) (fun _ => days 91) (days 61) (by decide)).2.1
  exact fun hmem => hagain 1 hmem List.mem_cons_self

end OciAcmePublisher
