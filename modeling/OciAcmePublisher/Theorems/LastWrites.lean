import OciAcmePublisher.Effects.Refinement
import OciAcmePublisher.Metrics
import OciAcmePublisher.Persistence

/-!
# Certificate facts

The four `record_.._success` methods share the row of a certificate, and each writes columns of its own. Over any sequence of calls
a column holds what the last call that writes it wrote.
-/

namespace OciAcmePublisher

open Effects

/-- A call of one of the four methods, with the instant its clock shows. -/
structure FactCall where
  certificateId : String
  update : FactUpdate
  instant : Instant
  deriving DecidableEq

/-- The clock shows one instant. -/
def atInstant (instant : Instant) : (op : Op) → Action op.Reply
  | .now => .ret instant
  | op => perform op

def FactCall.run (call : FactCall) : Action Unit :=
  (StateStore.recordFacts call.certificateId call.update).subst (atInstant call.instant)

/-- The timestamp the call stores. -/
def FactCall.time (call : FactCall) : Timestamp := call.instant / 1000000

/-- The facts of a certificate, besides the error code and `updated_at`. -/
inductive Fact where
  | localFingerprint | currentFingerprint | currentVersion | renewal | publication | audit
  deriving DecidableEq

/-- The facts a call writes. -/
def FactUpdate.facts : FactUpdate → List Fact
  | .publication .. => [.localFingerprint, .currentFingerprint, .currentVersion, .publication]
  | .audit => [.audit]
  | .rollback .. => [.currentFingerprint, .currentVersion]
  | .renewal => [.renewal]

namespace FactCall

def localFingerprint (call : FactCall) : Option String :=
  match call.update with
  | .publication localFingerprint _ _ => some localFingerprint
  | _ => none

def currentFingerprint (call : FactCall) : Option String :=
  match call.update with
  | .publication _ currentFingerprint _ | .rollback currentFingerprint _ => some currentFingerprint
  | _ => none

def currentVersion (call : FactCall) : Option Int :=
  match call.update with
  | .publication _ _ currentVersion | .rollback _ currentVersion => some currentVersion
  | _ => none

def renewalAt (call : FactCall) : Option Timestamp :=
  match call.update with
  | .renewal => some call.time
  | _ => none

def publicationAt (call : FactCall) : Option Timestamp :=
  match call.update with
  | .publication .. => some call.time
  | _ => none

def auditAt (call : FactCall) : Option Timestamp :=
  match call.update with
  | .audit => some call.time
  | _ => none

end FactCall

/-- What the last call for the certificate that writes the value wrote. -/
def lastWrite {β : Type} (calls : List FactCall) (certificateId : String) (value : FactCall → Option β) : Option β :=
  (calls.filter (·.certificateId = certificateId)).reverse.findSome? value

/-- Every fact is the last write of it. -/
structure LastWrites (calls : List FactCall) (certificateId : String) (s : CertificateState) : Prop where
  certificate : s.certificateId = certificateId
  localFingerprint : s.lastLocalFingerprint = lastWrite calls certificateId FactCall.localFingerprint
  currentFingerprint : s.lastOciCurrentFingerprint = lastWrite calls certificateId FactCall.currentFingerprint
  currentVersion : s.lastOciCurrentVersion = lastWrite calls certificateId FactCall.currentVersion
  renewalAt : s.lastSuccessfulRenewalAt = lastWrite calls certificateId FactCall.renewalAt
  publicationAt : s.lastSuccessfulPublicationAt = lastWrite calls certificateId FactCall.publicationAt
  auditAt : s.lastSuccessfulAuditAt = lastWrite calls certificateId FactCall.auditAt
  errorCode : s.lastErrorCode = none
  updatedAt : some s.updatedAt = lastWrite calls certificateId fun call => some call.time

/-- The facts without the time of the last update. -/
def CertificateState.undated (s : CertificateState) : CertificateState := { s with updatedAt := 0 }

/-- The calls, one after the other, all returning. -/
abbrev Recorded (faults : Faults) (db : Database) (calls : List FactCall) (db' : Database) : Prop :=
  History (persisting faults) FactCall.run db (calls.map fun call => (call, .returned ())) db'

namespace LastWritesAux

variable {faults : Faults} {db db' : Database} {calls : List FactCall} {call : FactCall} {c : String} {β : Type}

/-- A row that an upsert inserts, before the facts are recorded in it. -/
def freshState (certificateId : String) (time : Timestamp) : CertificateState := { certificateId := certificateId, updatedAt := time }

/-- A column, with what a call writes in it. -/
structure Column (β : Type) where
  read : CertificateState → Option β
  write : FactCall → Option β
  record : ∀ s call, read (s.record call.time call.update) = (write call).or (read s)
  fresh : ∀ certificateId time, read (freshState certificateId time) = none

def localFingerprints : Column String where
  read := (·.lastLocalFingerprint)
  write := FactCall.localFingerprint
  record s call := by unfold FactCall.localFingerprint; cases call.update <;> rfl
  fresh _ _ := rfl

def currentFingerprints : Column String where
  read := (·.lastOciCurrentFingerprint)
  write := FactCall.currentFingerprint
  record s call := by unfold FactCall.currentFingerprint; cases call.update <;> rfl
  fresh _ _ := rfl

def currentVersions : Column Int where
  read := (·.lastOciCurrentVersion)
  write := FactCall.currentVersion
  record s call := by unfold FactCall.currentVersion; cases call.update <;> rfl
  fresh _ _ := rfl

def renewals : Column Timestamp where
  read := (·.lastSuccessfulRenewalAt)
  write := FactCall.renewalAt
  record s call := by unfold FactCall.renewalAt; cases call.update <;> rfl
  fresh _ _ := rfl

def publications : Column Timestamp where
  read := (·.lastSuccessfulPublicationAt)
  write := FactCall.publicationAt
  record s call := by unfold FactCall.publicationAt; cases call.update <;> rfl
  fresh _ _ := rfl

def audits : Column Timestamp where
  read := (·.lastSuccessfulAuditAt)
  write := FactCall.auditAt
  record s call := by unfold FactCall.auditAt; cases call.update <;> rfl
  fresh _ _ := rfl

/-- The row a call leaves. -/
def recordedState (call : FactCall) (s : Option CertificateState) : CertificateState :=
  (s.getD (freshState call.certificateId call.time)).record call.time call.update

theorem run_eq (call : FactCall) : call.run = sql (.upsertFacts call.certificateId call.update call.time) := by
  have hclock : (perform .now).subst (atInstant call.instant) = .ret call.instant := Program.subst_perform _
  have hupsert : (sql (.upsertFacts call.certificateId call.update call.time)).subst (atInstant call.instant) =
      sql (.upsertFacts call.certificateId call.update call.time) := Program.subst_perform _
  unfold FactCall.run StateStore.recordFacts utcNow
  simp only [Program.bind_eq, Program.subst_bind, hclock, Program.ret_bind]
  exact hupsert

/-- A call changes the row of its certificate, as `record` says, and no other. -/
theorem certificateState_run (h : Exec (persisting faults) call.run db (.returned ()) db') (c : String) :
    db'.certificateState c =
      if call.certificateId = c then some (recordedState call (db.certificateState c)) else db.certificateState c := by
  rw [run_eq] at h
  obtain ⟨hc, -⟩ | ⟨r, hstep, hr⟩ := exec_perform_iff.1 h
  · cases hc
  · cases r with
    | error x => rcases hr with hr | hr <;> cases hr
    | ok reply =>
      have hdb : db' = { db with certificateStates := db.factsUpdated call.certificateId call.update call.time } := hstep.2
      rw [hdb]
      unfold Database.certificateState Database.factsUpdated
      rw [Tables.Table.find?_upsert]
      simp only [CertificateState.record_certificateId]
      by_cases hc : call.certificateId = c
      · simp only [hc, if_true, recordedState]
        cases db.certificateStates.rows.find? fun s => s.certificateId = c <;> rfl
      · simp only [hc, if_false]

theorem lastWrite_snoc (calls : List FactCall) (call : FactCall) (c : String) (value : FactCall → Option β) :
    lastWrite (calls ++ [call]) c value =
      if call.certificateId = c then (value call).or (lastWrite calls c value) else lastWrite calls c value := by
  unfold lastWrite
  rw [List.filter_append]
  by_cases hc : call.certificateId = c
  · rw [if_pos hc, List.filter_cons_of_pos (by simpa using hc), List.filter_nil, List.reverse_append, List.reverse_singleton,
      List.singleton_append, List.findSome?_cons]
    cases value call <;> rfl
  · rw [if_neg hc, List.filter_cons_of_neg (by simpa using hc), List.filter_nil, List.append_nil]

/-- The row of a certificate, or the one an upsert would insert for it. -/
def stateOr (db : Database) (c : String) (time : Timestamp) : CertificateState :=
  (db.certificateState c).getD (freshState c time)

theorem Column.recorded (column : Column β) (h : Exec (persisting faults) call.run db (.returned ()) db') (c : String)
    (time : Timestamp) :
    column.read (stateOr db' c time) =
      if call.certificateId = c then (column.write call).or (column.read (stateOr db c time)) else column.read (stateOr db c time) := by
  unfold stateOr
  rw [certificateState_run h c]
  by_cases hc : call.certificateId = c
  · subst hc
    rw [if_pos rfl, if_pos rfl, Option.getD_some, recordedState, column.record]
    cases db.certificateState call.certificateId with
    | some s => rfl
    | none => rw [Option.getD_none, Option.getD_none, column.fresh, column.fresh]
  · rw [if_neg hc, if_neg hc]

/-- A column holds the last write of it. -/
theorem Column.last_write (column : Column β) (h : Recorded faults {} calls db) (c : String) (time : Timestamp) :
    column.read (stateOr db c time) = lastWrite calls c column.write := by
  induction calls using List.reverseRecOn generalizing db with
  | nil =>
    rw [History.eq_of_nil h]
    exact column.fresh c time
  | append_singleton calls call ih =>
    rw [Recorded, List.map_append] at h
    obtain ⟨db₁, hcalls, hcall⟩ := h.split
    rw [column.recorded hcall, lastWrite_snoc, ih hcalls]

/-- A certificate has a row exactly if a call was for it. -/
theorem certificateState_eq_none (h : Recorded faults {} calls db) (c : String) :
    db.certificateState c = none ↔ ∀ call ∈ calls, call.certificateId ≠ c := by
  induction calls using List.reverseRecOn generalizing db with
  | nil =>
    rw [History.eq_of_nil h]
    exact ⟨fun _ => by simp, fun _ => rfl⟩
  | append_singleton calls call ih =>
    rw [Recorded, List.map_append] at h
    obtain ⟨db₁, hcalls, hcall⟩ := h.split
    rw [certificateState_run hcall c]
    by_cases hc : call.certificateId = c
    · simp [hc]
    · rw [if_neg hc, ih hcalls]
      simp only [List.mem_append, List.mem_singleton, or_imp, forall_and, forall_eq]
      exact ⟨fun hall => ⟨hall, hc⟩, fun hall => hall.1⟩

/-- What every recorded row has: the certificate it is for, no error code, and the time of the last call. -/
theorem recorded_row (h : Recorded faults {} calls db) {c : String} {s : CertificateState} (hs : db.certificateState c = some s) :
    s.certificateId = c ∧ s.lastErrorCode = none ∧ some s.updatedAt = lastWrite calls c fun call => some call.time := by
  induction calls using List.reverseRecOn generalizing db s with
  | nil =>
    rw [History.eq_of_nil h] at hs
    cases hs
  | append_singleton calls call ih =>
    rw [Recorded, List.map_append] at h
    obtain ⟨db₁, hcalls, hcall⟩ := h.split
    rw [certificateState_run hcall c] at hs
    rw [lastWrite_snoc]
    by_cases hc : call.certificateId = c
    · rw [if_pos hc] at hs ⊢
      cases hs
      have hid : ((db₁.certificateState c).getD (freshState call.certificateId call.time)).certificateId = c := by
        cases hrow : db₁.certificateState c with
        | none => exact hc
        | some s => exact (ih hcalls hrow).1
      unfold recordedState
      refine ⟨(CertificateState.record_certificateId _ _ _).trans hid, ?_, ?_⟩
      · cases call.update <;> rfl
      · cases call.update <;> rfl
    · rw [if_neg hc] at hs ⊢
      exact ih hcalls hs

theorem undated_record (s : CertificateState) (time : Timestamp) (update : FactUpdate) :
    (s.record time update).undated = (s.undated.record time update).undated := by
  cases update <;> rfl

/-- Different facts are recorded in either order. -/
theorem record_comm {a b : FactUpdate} (hfacts : a.facts.Disjoint b.facts) (s : CertificateState) (x y : Timestamp) :
    ((s.record x a).record y b).undated = ((s.record y b).record x a).undated := by
  cases a <;> cases b <;> first | rfl | simp [FactUpdate.facts] at hfacts

theorem recordedState_comm {a b : FactCall} (hfacts : a.update.facts.Disjoint b.update.facts)
    (hcertificate : a.certificateId = b.certificateId) (s : Option CertificateState) :
    (recordedState b (some (recordedState a s))).undated = (recordedState a (some (recordedState b s))).undated := by
  unfold recordedState
  rw [Option.getD_some, Option.getD_some, record_comm hfacts, hcertificate]
  cases s with
  | some s => rfl
  | none =>
    have hfresh : (freshState b.certificateId a.time).undated = (freshState b.certificateId b.time).undated := rfl
    rw [Option.getD_none, Option.getD_none, undated_record, undated_record (freshState b.certificateId a.time), hfresh,
      ← undated_record (freshState b.certificateId b.time), ← undated_record]

theorem recorded_singleton (h : Recorded faults db [call] db') : Exec (persisting faults) call.run db (.returned ()) db' := by
  obtain ⟨db₁, hnil, hcall⟩ := History.split (l := []) h
  rw [History.eq_of_nil hnil] at hcall
  exact hcall

theorem recorded_pair {a b : FactCall} (h : Recorded faults db [a, b] db') : ∃ db₁,
    Exec (persisting faults) a.run db (.returned ()) db₁ ∧ Exec (persisting faults) b.run db₁ (.returned ()) db' := by
  obtain ⟨db₁, ha, hb⟩ := History.split (l := [(a, .returned ())]) h
  exact ⟨db₁, recorded_singleton ha, hb⟩

/-- Any sequence of calls can be made. -/
theorem recorded_total (db : Database) (calls : List FactCall) : ∃ db', Recorded noFaults db calls db' := by
  induction calls using List.reverseRecOn with
  | nil => exact ⟨db, .nil db⟩
  | append_singleton calls call ih =>
    obtain ⟨db₁, hcalls⟩ := ih
    refine ⟨{ db₁ with certificateStates := db₁.factsUpdated call.certificateId call.update call.time }, ?_⟩
    rw [Recorded, List.map_append]
    refine .snoc hcalls ?_
    rw [run_eq]
    refine exec_perform_iff.2 (Or.inr ⟨.ok (), ?_, Or.inl rfl⟩)
    refine ⟨fun x hx => ?_, rfl⟩
    cases hx

end LastWritesAux

open LastWritesAux in
/-- Certificate facts are the field-wise last writes. Over any sequence of calls a certificate has a row exactly if a call was for
it, and each of its facts is what the last call that writes it wrote. From any state on, a rollback leaves the local fingerprint and
the publication time alone, a call leaves the other certificates alone, and two calls that write different facts commute up to the
time of the update. -/
theorem facts_last_writes (faults : Faults) :
    (∀ calls db, Recorded faults {} calls db →
        (∀ c, db.certificateState c = none ↔ ∀ call ∈ calls, call.certificateId ≠ c) ∧
          ∀ c s, db.certificateState c = some s → LastWrites calls c s) ∧
      (∀ db db' call, Recorded faults db [call] db' →
        (∀ c, call.certificateId ≠ c → db'.certificateState c = db.certificateState c) ∧
          ∀ fingerprint version, call.update = .rollback fingerprint version → ∀ c,
            (db'.certificateState c).bind (·.lastLocalFingerprint) = (db.certificateState c).bind (·.lastLocalFingerprint) ∧
              (db'.certificateState c).bind (·.lastSuccessfulPublicationAt) =
                (db.certificateState c).bind (·.lastSuccessfulPublicationAt)) ∧
        ∀ db db₁ db₂ a b, a.update.facts.Disjoint b.update.facts → Recorded faults db [a, b] db₁ →
          Recorded faults db [b, a] db₂ →
            ∀ c, (db₁.certificateState c).map (·.undated) = (db₂.certificateState c).map (·.undated) := by
  refine ⟨fun calls db h => ⟨certificateState_eq_none h, fun c s hs => ?_⟩, fun db db' call h => ?_,
    fun db db₁ db₂ a b hfacts h₁ h₂ c => ?_⟩
  · have hlast : ∀ {β : Type} (column : LastWritesAux.Column β), column.read s = lastWrite calls c column.write := fun column => by
      have h := column.last_write h c 0
      rwa [stateOr, hs, Option.getD_some] at h
    obtain ⟨hid, herror, hupdated⟩ := recorded_row h hs
    exact ⟨hid, hlast localFingerprints, hlast currentFingerprints, hlast currentVersions, hlast renewals, hlast publications,
      hlast audits, herror, hupdated⟩
  · have hrow := certificateState_run (recorded_singleton h)
    refine ⟨fun c hc => by rw [hrow, if_neg hc], fun fingerprint version hrollback c => ?_⟩
    rw [hrow]
    by_cases hc : call.certificateId = c
    · rw [if_pos hc, Option.bind_some, Option.bind_some, recordedState, hrollback]
      cases db.certificateState c <;> exact ⟨rfl, rfl⟩
    · rw [if_neg hc]
      exact ⟨rfl, rfl⟩
  · obtain ⟨db₃, ha, hab⟩ := recorded_pair h₁
    obtain ⟨db₄, hb, hba⟩ := recorded_pair h₂
    rw [certificateState_run hab, certificateState_run ha, certificateState_run hba, certificateState_run hb]
    by_cases hca : a.certificateId = c
    · by_cases hcb : b.certificateId = c
      · simp only [hca, hcb, if_true, Option.map_some]
        exact congrArg some (recordedState_comm hfacts (hca.trans hcb.symm) _)
      · simp only [hca, hcb, if_true, if_false]
    · simp only [hca, if_false]

open LastWritesAux in
/-- A publication and a rollback: the fingerprint and the version are the rollback's, the local fingerprint the publication's. -/
theorem facts_last_writes_sample :
    ∃ db : Database, db.certificateState "a" ≠ none ∧ ∀ s, db.certificateState "a" = some s →
      s.lastLocalFingerprint = some "f" ∧ s.lastOciCurrentFingerprint = some "g" := by
  let calls : List FactCall := [⟨"a", .publication "f" "f" 1, 0⟩, ⟨"a", .rollback "g" 2, 1000000⟩]
  obtain ⟨db, hcalls⟩ := recorded_total {} calls
  obtain ⟨hnone, hlast⟩ := (facts_last_writes noFaults).1 calls db hcalls
  refine ⟨db, fun h => (hnone "a").1 h _ (List.mem_cons_self ..) rfl, fun s hs => ?_⟩
  exact ⟨(hlast "a" s hs).localFingerprint, (hlast "a" s hs).currentFingerprint⟩

end OciAcmePublisher
