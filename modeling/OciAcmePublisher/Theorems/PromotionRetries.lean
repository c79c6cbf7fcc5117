import OciAcmePublisher.Theorems.Promotion

/-!
# Attempts of a promotion

OCI may answer every read and every promotion in any way. What was answered last decides whether the loop of `_promote_current`
goes on: a promotion is tried again only when its outcome is open, and only after a read that does not show it done.
-/

namespace OciAcmePublisher

open Effects

/-- The error leaves the outcome of a promotion open. -/
def Exc.LeavesOpen (error : Exc) : Prop :=
  error.isOneOf transportFailures = true ∧ PublicationReconciler.promotionRetryable error = true

/-- The answer shows the promotion done. -/
def ShowsPromoted (versionNumber : Int) : Event publisher Exc → Prop
  | ⟨.getCertificate .., .ok detail⟩ => detail.currentVersionNumber = some versionNumber
  | ⟨.promoteCurrent .., .ok _⟩ => True
  | _ => False

/-- The answer settles the promotion: it is done, it was refused, or nothing can be read. -/
def Settles (versionNumber : Int) : Event publisher Exc → Prop
  | ⟨.getCertificate .., .error _⟩ => True
  | ⟨.promoteCurrent .., .error error⟩ => ¬error.LeavesOpen
  | e => ShowsPromoted versionNumber e

/-- A promotion is asked for right after a read that does not show it done, with the ETag of that read. -/
def FollowsRead (certificateId : String) (versionNumber : Int) (requestId : String) (before : List (Event publisher Exc))
    (e : Event publisher Exc) : Prop :=
  (Op.promotes e.op).isSome = true → ∃ earlier detail,
    before = earlier ++ [⟨.getCertificate certificateId requestId, .ok detail⟩] ∧
      detail.currentVersionNumber ≠ some versionNumber ∧
      e.op = .promoteCurrent certificateId versionNumber detail.etag requestId

/-- What was answered so far leaves the promotion open. -/
def Unsettled (versionNumber : Int) (before : List (Event publisher Exc)) : Prop := ∀ e ∈ before, ¬Settles versionNumber e

/-- How many promotions were asked for. -/
def promotions (t : List (Event publisher Exc)) : Nat := t.countP fun e => (Op.promotes e.op).isSome

/-- The calls of a promotion in at most `attempts` attempts. -/
structure ReconcilesFirst (certificateId : String) (versionNumber : Int) (requestId : String) (attempts : Nat)
    (t : List (Event publisher Exc)) : Prop where
  after_read : Monitor.whole.Checked (FollowsRead certificateId versionNumber requestId) t
  bounded : promotions t ≤ attempts
  stops : Monitor.whole.Checked (fun before _ => Unsettled versionNumber before) t

namespace PromotionRetriesAux

open PublicationReconciler

variable {config : AppConfig} {certificateId requestId : String} {versionNumber : Int} {n k : Nat}
  {t : List (Event publisher Exc)} {e : Event publisher Exc}

/-- The calls so far, with room for `remaining` promotions. -/
structure Trying (certificateId : String) (versionNumber : Int) (requestId : String) (n remaining : Nat)
    (t : List (Event publisher Exc)) : Prop where
  calls : ReconcilesFirst certificateId versionNumber requestId n t
  room : promotions t + remaining ≤ n
  unsettled : Unsettled versionNumber t

/-- The loop ended without a promotion: the last call raised the error. -/
structure Failed (certificateId : String) (versionNumber : Int) (requestId : String) (n : Nat) (error : Exc)
    (t : List (Event publisher Exc)) : Prop where
  calls : ReconcilesFirst certificateId versionNumber requestId n t
  never : ∀ e ∈ t, ¬ShowsPromoted versionNumber e
  last : ∃ earlier op, t = earlier ++ [⟨op, .error error⟩]

theorem Settles.of_shows (h : ShowsPromoted versionNumber e) : Settles versionNumber e := by
  obtain ⟨op, answer⟩ := e
  cases op <;> cases answer <;> first | exact h | exact h.elim

theorem unsettled_snoc (h : Unsettled versionNumber t) (he : ¬Settles versionNumber e) :
    Unsettled versionNumber (t ++ [e]) := by
  intro a ha
  rcases List.mem_append.1 ha with ha | ha
  · exact h a ha
  · rw [List.mem_singleton.1 ha]
    exact he

theorem ReconcilesFirst.nil : ReconcilesFirst certificateId versionNumber requestId n [] :=
  ⟨Monitor.checked_nil _, by simp [promotions], Monitor.checked_nil _⟩

/-- A call that is no promotion. -/
theorem Trying.call (h : Trying certificateId versionNumber requestId n k t) (he : Op.promotes e.op = none) :
    ReconcilesFirst certificateId versionNumber requestId n (t ++ [e]) ∧
      promotions (t ++ [e]) + k ≤ n := by
  have hcount : promotions (t ++ [e]) = promotions t := by simp [promotions, List.countP_append, he]
  refine ⟨⟨?_, hcount ▸ h.calls.bounded, ?_⟩, hcount ▸ h.room⟩
  · refine (Monitor.checked_snoc _).2 ⟨h.calls.after_read, fun hpromotes => ?_⟩
    rw [he] at hpromotes
    cases hpromotes
  · refine (Monitor.checked_snoc _).2 ⟨h.calls.stops, ?_⟩
    rw [Monitor.after_whole]
    exact h.unsettled

/-- The promotion that follows a read. -/
theorem Trying.promotion {detail : OciCertificate} (answer : Except Exc Unit)
    (h : Trying certificateId versionNumber requestId n (k + 1) t)
    (hlast : ∃ earlier, t = earlier ++ [⟨.getCertificate certificateId requestId, .ok detail⟩])
    (hcurrent : detail.currentVersionNumber ≠ some versionNumber) :
    ReconcilesFirst certificateId versionNumber requestId n
        (t ++ [⟨.promoteCurrent certificateId versionNumber detail.etag requestId, answer⟩]) ∧
      promotions (t ++ [⟨.promoteCurrent certificateId versionNumber detail.etag requestId, answer⟩]) + k ≤ n := by
  have hroom := h.room
  have hcount : promotions (t ++ [⟨.promoteCurrent certificateId versionNumber detail.etag requestId, answer⟩]) =
      promotions t + 1 := by
    simp [promotions, List.countP_append, Op.promotes]
  refine ⟨⟨?_, by omega, ?_⟩, by omega⟩
  · refine (Monitor.checked_snoc _).2 ⟨h.calls.after_read, fun _ => ?_⟩
    obtain ⟨earlier, ht⟩ := hlast
    rw [Monitor.after_whole]
    exact ⟨earlier, detail, ht, hcurrent, rfl⟩
  · refine (Monitor.checked_snoc _).2 ⟨h.calls.stops, ?_⟩
    rw [Monitor.after_whole]
    exact h.unsettled

theorem not_shows_of_unsettled (h : Unsettled versionNumber t) : ∀ e ∈ t, ¬ShowsPromoted versionNumber e :=
  fun e he hshows => h e he (Settles.of_shows hshows)

/-- The last call raises, and shows nothing. -/
theorem Trying.failed {op : Op} {error : Exc} (h : Trying certificateId versionNumber requestId n k t)
    (hcalls : ReconcilesFirst certificateId versionNumber requestId n (t ++ [⟨op, .error error⟩])) :
    Failed certificateId versionNumber requestId n error (t ++ [⟨op, .error error⟩]) := by
  refine ⟨hcalls, fun e he => ?_, t, op, rfl⟩
  rcases List.mem_append.1 he with he | he
  · exact not_shows_of_unsettled h.unsettled e he
  · rw [List.mem_singleton.1 he]
    cases op <;> exact id

theorem not_settles_pause {op : Op} (hop : pauses op = true) (answer : Except Exc (publisher.Reply op)) :
    ¬Settles versionNumber ⟨op, answer⟩ := by
  cases op with
  | uniform | sleep => exact id
  | _ => cases hop

theorem promotes_pause {op : Op} (hop : pauses op = true) : Op.promotes op = none := by
  cases op with
  | uniform | sleep => rfl
  | _ => cases hop

/-- One call of a pause. -/
theorem perform_pause {op : Op} (hop : pauses op = true) :
    Triple anyAnswer (Trying certificateId versionNumber requestId n k) (perform op)
      (fun _ => Trying certificateId versionNumber requestId n k) (Failed certificateId versionNumber requestId n)
      (ReconcilesFirst certificateId versionNumber requestId n) := by
  refine Triple.perform (fun _ h => h.calls) ?_ ?_
  · rintro t a _ h rfl
    obtain ⟨hcalls, hroom⟩ := h.call (e := ⟨op, .ok a⟩) (promotes_pause hop)
    exact ⟨⟨hcalls, hroom, unsettled_snoc h.unsettled (not_settles_pause hop _)⟩, hcalls⟩
  · rintro t x _ h rfl
    obtain ⟨hcalls, -⟩ := h.call (e := ⟨op, .error x⟩) (promotes_pause hop)
    exact ⟨h.failed hcalls, hcalls⟩

theorem sleepFor_trying (policy : ReadRetryPolicy) (attempt : Nat) :
    Triple anyAnswer (Trying certificateId versionNumber requestId n k) (sleepFor policy attempt none)
      (fun _ => Trying certificateId versionNumber requestId n k) (Failed certificateId versionNumber requestId n)
      (ReconcilesFirst certificateId versionNumber requestId n) :=
  Triple.bind (perform_pause rfl) fun _ => perform_pause rfl

/-- The read of an attempt. -/
theorem read_trying :
    Triple anyAnswer (Trying certificateId versionNumber requestId n k) (perform (.getCertificate certificateId requestId))
      (fun detail t => (detail.currentVersionNumber = some versionNumber ∧
          ReconcilesFirst certificateId versionNumber requestId n t ∧ ∃ e ∈ t, ShowsPromoted versionNumber e) ∨
        (detail.currentVersionNumber ≠ some versionNumber ∧ Trying certificateId versionNumber requestId n k t ∧
          ∃ earlier, t = earlier ++ [⟨.getCertificate certificateId requestId, .ok detail⟩]))
      (Failed certificateId versionNumber requestId n) (ReconcilesFirst certificateId versionNumber requestId n) := by
  refine Triple.perform (fun _ h => h.calls) ?_ ?_
  · rintro t detail _ h rfl
    obtain ⟨hcalls, hroom⟩ := h.call (e := ⟨.getCertificate certificateId requestId, .ok detail⟩) rfl
    refine ⟨?_, hcalls⟩
    by_cases hcurrent : detail.currentVersionNumber = some versionNumber
    · exact Or.inl ⟨hcurrent, hcalls, _, List.mem_append_right _ (List.mem_singleton_self _), hcurrent⟩
    · exact Or.inr ⟨hcurrent, ⟨hcalls, hroom, unsettled_snoc h.unsettled hcurrent⟩, t, rfl⟩
  · rintro t x _ h rfl
    obtain ⟨hcalls, -⟩ := h.call (e := ⟨.getCertificate certificateId requestId, .error x⟩) rfl
    exact ⟨h.failed hcalls, hcalls⟩

/-- The promotion of an attempt: it is done, it failed for good, or it is still open. -/
theorem promotion_trying (detail : OciCertificate) :
    Triple anyAnswer (fun t => detail.currentVersionNumber ≠ some versionNumber ∧
        Trying certificateId versionNumber requestId n (k + 1) t ∧
        ∃ earlier, t = earlier ++ [⟨.getCertificate certificateId requestId, .ok detail⟩])
      (perform (.promoteCurrent certificateId versionNumber detail.etag requestId))
      (fun _ t => ReconcilesFirst certificateId versionNumber requestId n t ∧ ∃ e ∈ t, ShowsPromoted versionNumber e)
      (fun error t => Failed certificateId versionNumber requestId n error t ∧
        (error.LeavesOpen → Trying certificateId versionNumber requestId n k t))
      (ReconcilesFirst certificateId versionNumber requestId n) := by
  refine Triple.perform (fun _ h => h.2.1.calls) ?_ ?_
  · rintro t _ _ ⟨hcurrent, h, hlast⟩ rfl
    obtain ⟨hcalls, -⟩ := h.promotion (.ok ()) hlast hcurrent
    exact ⟨⟨hcalls, _, List.mem_append_right _ (List.mem_singleton_self _), trivial⟩, hcalls⟩
  · rintro t x _ ⟨hcurrent, h, hlast⟩ rfl
    obtain ⟨hcalls, hroom⟩ := h.promotion (.error x) hlast hcurrent
    refine ⟨⟨h.failed hcalls, fun hopen => ⟨hcalls, hroom, unsettled_snoc h.unsettled ?_⟩⟩, hcalls⟩
    exact not_not_intro hopen

/-- The attempts that are left, while the promotion is open. -/
theorem attempts_trying (policy : ReadRetryPolicy) (remaining : Nat) (hremaining : remaining ≠ 0) :
    Triple anyAnswer (Trying certificateId versionNumber requestId n remaining)
      (promoteCurrent.attempts policy certificateId versionNumber requestId remaining)
      (fun _ t => ReconcilesFirst certificateId versionNumber requestId n t ∧ ∃ e ∈ t, ShowsPromoted versionNumber e)
      (Failed certificateId versionNumber requestId n) (ReconcilesFirst certificateId versionNumber requestId n) := by
  induction remaining with
  | zero => exact absurd rfl hremaining
  | succ remaining ih =>
    refine Triple.bind read_trying fun detail => Triple.or ?_ ?_
    · refine Triple.pre (Triple.assume fun hcurrent => ?_) fun _ h => And.symm h
      rw [if_pos hcurrent]
      exact Triple.ret (fun _ h => h) fun _ h => h.1
    · intro t h
      rw [if_neg h.1]
      refine Triple.bind (Triple.attempt (promotion_trying (k := remaining) detail) (fun _ _ h => h.1) fun _ _ h => h.1.calls)
        (fun outcome => ?_) t h
      cases outcome with
      | ok _ => exact Triple.ret (fun _ h => h) fun _ h => h.1
      | error error =>
        simp only
        split
        next hopen =>
          exact Triple.bind ((sleepFor_trying _ _).pre fun _ h => h.2 ⟨hopen.1, hopen.2.1⟩) fun _ => ih hopen.2.2
        next => exact Triple.raise (fun _ h => h.1) fun _ h => h.1.calls

theorem halts_sleepFor (policy : ReadRetryPolicy) (attempt : Nat) : (sleepFor policy attempt none).Halts :=
  Program.halts_bind Program.halts_perform fun _ => Program.halts_perform

theorem halts_attempts (policy : ReadRetryPolicy) (remaining : Nat) :
    (promoteCurrent.attempts policy certificateId versionNumber requestId remaining).Halts := by
  induction remaining with
  | zero => trivial
  | succ remaining ih =>
    refine Program.halts_bind Program.halts_perform fun detail => ?_
    split
    · trivial
    · refine Program.halts_bind (Program.halts_attempt Program.halts_perform) fun outcome => ?_
      cases outcome with
      | ok _ => trivial
      | error error =>
        simp only
        split
        · exact Program.halts_bind (halts_sleepFor _ _) fun _ => ih
        · trivial

end PromotionRetriesAux

open PromotionRetriesAux in
/-- `_promote_current`, whatever its calls answer. Every promotion follows a read that does not show the target as CURRENT, with the
ETag of that read; there are no more of them than attempts, and no call follows an answer that settles the promotion. A run that
ends returns exactly where some answer shows the promotion done, and otherwise raises what its last call raised, so never the error
after the loop. -/
theorem promotion_reconciles_first (config : AppConfig) (certificateId requestId : String) (versionNumber : Int)
    {t : List (Event publisher Exc)} {o : Outcome Exc Unit}
    (h : Exec anyAnswer (PublicationReconciler.promoteCurrent config certificateId versionNumber requestId) [] o t) :
    ReconcilesFirst certificateId versionNumber requestId config.oci.mutationReconciliationAttempts t ∧
      (o ≠ .crashed → (o = .returned () ↔ ∃ e ∈ t, ShowsPromoted versionNumber e)) ∧
      (∀ error, o = .raised error → ∃ earlier op, t = earlier ++ [⟨op, .error error⟩]) ∧
      (PublicationReconciler.promoteCurrent config certificateId versionNumber requestId).Halts := by
  have hbegin : Trying certificateId versionNumber requestId config.oci.mutationReconciliationAttempts
      config.oci.mutationReconciliationAttempts [] :=
    ⟨ReconcilesFirst.nil, by simp [promotions], by simp [Unsettled]⟩
  have hpost := attempts_trying (PublicationReconciler.promotionPolicy config) _
    config.oci.mutationReconciliationAttempts_pos.ne' [] hbegin o t h
  cases o with
  | returned a => exact ⟨hpost.1, fun _ => ⟨fun _ => hpost.2, fun _ => rfl⟩, nofun, halts_attempts _ _⟩
  | raised x =>
    refine ⟨hpost.calls, fun _ => ⟨nofun, fun ⟨e, he, hshows⟩ => absurd hshows (hpost.never e he)⟩, ?_, halts_attempts _ _⟩
    rintro _ ⟨⟩
    exact hpost.last
  | crashed => exact ⟨hpost, fun hne => absurd rfl hne, nofun, halts_attempts _ _⟩

namespace PromotionRetriesSample

/-- The first promotion is refused while OCI settles, and the read after it shows a new ETag. -/
def answer (t : List (Event publisher Exc)) : (op : Op) → Except Exc op.Reply
  | .getCertificate id _ => .ok ⟨id, some (if promotions t = 0 then "first" else "second"), some 1⟩
  | .promoteCurrent .. => if promotions t = 0 then .error (.service 409 "IncorrectState" none) else .ok ()
  | .uniform ceiling => .ok ceiling
  | .sleep _ => .ok ()
  | _ => .error (.of .runtimeError "not asked")

def oci : Handler publisher Exc (List (Event publisher Exc)) := fun t op => some (answer t op, t ++ [⟨op, answer t op⟩])

theorem oci_allowed : oci.Allowed anyAnswer := by
  intro t op r t' h
  cases h
  rfl

def run : Outcome Exc Unit × List (Event publisher Exc) :=
  (PublicationReconciler.promoteCurrent (Sample.config Sample.certificate) "ocid" 2 "request").runFor oci 20 []

end PromotionRetriesSample

/-- A promotion that succeeds in its second attempt. -/
theorem promotion_reconciles_first_sample :
    ReconcilesFirst "ocid" 2 "request" 5 PromotionRetriesSample.run.2 ∧ promotions PromotionRetriesSample.run.2 = 2 ∧
      ∃ e ∈ PromotionRetriesSample.run.2, ShowsPromoted 2 e := by
  have hreturned : PromotionRetriesSample.run.1 = .returned () := by decide +kernel
  obtain ⟨hcalls, hends, -⟩ := promotion_reconciles_first (Sample.config Sample.certificate) "ocid" "request" 2
    (exec_of_runFor PromotionRetriesSample.oci_allowed (n := 20) hreturned)
  exact ⟨hcalls, by decide +kernel, (hends nofun).1 rfl⟩

end OciAcmePublisher
