import OciAcmePublisher.ConfigLoader
import OciAcmePublisher.NotificationService
import OciAcmePublisher.Simulation

/-!
# The alert cooldown

Between two deliveries of the same alert lies the check of the second one, which finds the row that the first one recorded. Stored
times are truncated to the second, so the row may be up to a second older than the delivery.
-/

namespace OciAcmePublisher

open Effects

/-- An alert the endpoint accepted, at an instant. -/
structure Delivery where
  event : String
  certificateId : String
  status : String
  instant : Instant
  deriving DecidableEq, Repr

/-- The fields of a posted payload. -/
def Delivery.of (payload : Payload) (instant : Instant) : Delivery :=
  match payload with
  | .slack event fields | .webhook event fields =>
    ⟨event, (fields.lookup "certificate_id").getD "", (fields.lookup "status").getD event, instant⟩

/-- The key of the alert in the store. -/
def Delivery.dedupKey (delivery : Delivery) : String := delivery.event ++ ":" ++ delivery.certificateId

/-- The database, the clock, what was delivered and what was recorded, the latest last. -/
structure Alerting where
  database : Database
  clock : Instant
  delivered : List Delivery := []
  recorded : List AlertRow := []

/-- The alert a statement records. -/
def Statement.recordedAlert : Statement → List AlertRow
  | .upsertAlert row => [row]
  | _ => []

/-- Nothing is delivered or stored. -/
def Alerting.Quiet (w w' : Alerting) : Prop :=
  w'.database = w.database ∧ w'.delivered = w.delivered ∧ w'.recorded = w.recorded

/-- The outside of the notifier: time passes, statements take effect, and a delivery attempt may end in any way. -/
def alerting : Env publisher Exc Alerting := fun w op answer w' =>
  w.clock ≤ w'.clock ∧
    match op, answer with
    | .now, answer => ∃ t, answer = .ok t ∧ w.clock ≤ t ∧ t ≤ w'.clock ∧ w.Quiet w'
    | .sql statement, answer => ∃ reply, answer = .ok reply ∧ w.database.Step statement reply w'.database ∧
        w'.delivered = w.delivered ∧ w'.recorded = w.recorded ++ statement.recordedAlert
    | .post _ payload, .ok code =>
      if 200 ≤ code ∧ code < 300 then
        ∃ t, w.clock ≤ t ∧ t ≤ w'.clock ∧ w'.database = w.database ∧ w'.delivered = w.delivered ++ [Delivery.of payload t] ∧
          w'.recorded = w.recorded
      else w.Quiet w'
    | _, _ => w.Quiet w'

/-- A call of `notify`; its certificate is a configured one or none. -/
structure AlertCall where
  event : String
  fields : List (String × String)
  certificate : (fields.lookup "certificate_id").all isIdentifier = true

namespace AlertCall

def certificateId (call : AlertCall) : String := (call.fields.lookup "certificate_id").getD ""

def status (call : AlertCall) : String := (call.fields.lookup "status").getD call.event

def dedupKey (call : AlertCall) : String := call.event ++ ":" ++ call.certificateId

def run (Γ : Ctx) (configuration : NotificationsConfig) (call : AlertCall) : Action Bool :=
  NotificationService.notify Γ configuration call.event call.fields

end AlertCall

/-- Two deliveries for one event and certificate, with none for these in between. -/
def Consecutive (deliveries : List Delivery) (a b : Delivery) : Prop :=
  ∃ before middle after, deliveries = before ++ a :: (middle ++ b :: after) ∧ a.event = b.event ∧
    a.certificateId = b.certificateId ∧ ∀ d ∈ middle, ¬(d.event = a.event ∧ d.certificateId = a.certificateId)

/-- The row records the delivery, its time truncated. -/
structure Records (delivery : Delivery) (row : AlertRow) : Prop where
  dedupKey : row.dedupKey = delivery.dedupKey
  status : row.lastStatus = delivery.status
  instant : delivery.instant < (row.lastSentAt + 1) * 1000000

/-- The last recorded row of a key, or the row that was stored before. -/
def lastRecorded (start w : Alerting) (dedupKey : String) : Option AlertRow :=
  ((w.recorded.filter (·.dedupKey = dedupKey)).getLast?).or (start.database.alerts.rows.find? (·.dedupKey = dedupKey))

namespace AlertCooldownAux

/-! ## One call -/

section Call

variable {Γ : Ctx} {configuration : NotificationsConfig} {call : AlertCall} {start : Alerting} {minutes : Nat}

/-- Nothing has happened but time. -/
def Idle (start w : Alerting) : Prop := start.clock ≤ w.clock ∧ start.Quiet w

/-- The stored row of a key. -/
def Alerting.row (w : Alerting) (dedupKey : String) : Option AlertRow := w.database.alerts.rows.find? (·.dedupKey = dedupKey)

/-- The row of the key, where it has the same status, is older than the interval at the instant. -/
def DueAt (start : Alerting) (dedupKey status : String) (minutes : Nat) (t : Instant) : Prop :=
  ∀ row, Alerting.row start dedupKey = some row → row.lastStatus = status →
    row.lastSentAt * 1000000 < t - seconds (60 * minutes)

/-- The row of the key has the same status and is not older than the interval at some instant of the call. -/
def Suppressed (start w : Alerting) (dedupKey status : String) (minutes : Nat) : Prop :=
  ∃ row, Alerting.row start dedupKey = some row ∧ row.lastStatus = status ∧
    ∃ t, start.clock ≤ t ∧ t ≤ w.clock ∧ t - seconds (60 * minutes) ≤ row.lastSentAt * 1000000

/-- The alert was due, delivered and recorded. -/
def Done (start : Alerting) (dedupKey : String) (delivery : Instant → Delivery) (minutes : Nat) (w : Alerting) : Prop :=
  ∃ t sent, start.clock ≤ w.clock ∧ DueAt start dedupKey (delivery t).status minutes t ∧ t < (sent + 1) * 1000000 ∧
    w.delivered = start.delivered ++ [delivery t] ∧
      w.recorded = start.recorded ++ [⟨dedupKey, sent, (delivery t).status⟩] ∧
        w.database = { start.database with alerts := start.database.alertsUpdated ⟨dedupKey, sent, (delivery t).status⟩ }

theorem idle_quiet {w w' : Alerting} (hidle : Idle start w) (hclock : w.clock ≤ w'.clock) (hquiet : w.Quiet w') : Idle start w' :=
  ⟨Int.le_trans hidle.1 hclock, hquiet.1.trans hidle.2.1, hquiet.2.1.trans hidle.2.2.1, hquiet.2.2.trans hidle.2.2.2⟩

theorem DueAt.later {dedupKey status : String} {t t' : Instant} (h : DueAt start dedupKey status minutes t) (ht : t ≤ t') :
    DueAt start dedupKey status minutes t' :=
  fun row hrow hstatus => Int.lt_of_lt_of_le (h row hrow hstatus) (Int.sub_le_sub_right ht _)

/-- The clock is read. -/
theorem triple_now {P : Alerting → Prop} {Q : Instant → Alerting → Prop} {E : Exc → Alerting → Prop}
    (h : ∀ w w' t, P w → w.clock ≤ t → t ≤ w'.clock → w.Quiet w' → Q t w') :
    Triple alerting P (perform .now) Q E fun _ => True := by
  refine Triple.perform (fun _ _ => trivial) (fun w a w' hw he => ⟨?_, trivial⟩) fun w x w' hw he => ?_
  · obtain ⟨t, ha, hle, hle', hquiet⟩ := he.2
    cases ha
    exact h w w' a hw hle hle' hquiet
  · obtain ⟨t, ha, -⟩ := he.2
    cases ha

/-- A statement takes effect. -/
theorem triple_sql {P : Alerting → Prop} {s : Statement} {Q : s.Reply → Alerting → Prop} {E : Exc → Alerting → Prop}
    (h : ∀ w w' reply, P w → w.clock ≤ w'.clock → w.database.Step s reply w'.database → w'.delivered = w.delivered →
      w'.recorded = w.recorded ++ s.recordedAlert → Q reply w') :
    Triple alerting P (sql s) Q E fun _ => True := by
  refine Triple.perform (fun _ _ => trivial) (fun w a w' hw he => ⟨?_, trivial⟩) fun w x w' hw he => ?_
  · obtain ⟨reply, ha, hstep, hdelivered, hrecorded⟩ := he.2
    cases ha
    exact h w w' a hw he.1 hstep hdelivered hrecorded
  · obtain ⟨reply, ha, -⟩ := he.2
    cases ha

theorem triple_shouldSendAlert (dedupKey status : String) :
    Triple alerting (Idle start) (StateStore.shouldSendAlert dedupKey status minutes)
      (fun due w => Idle start w ∧ if due then DueAt start dedupKey status minutes w.clock
        else Suppressed start w dedupKey status minutes) (fun _ w => Idle start w) fun _ => True := by
  refine Triple.bind (R := fun found w => Idle start w ∧
    found = (Alerting.row start dedupKey).map fun r => (r.lastSentAt, r.lastStatus)) ?_ fun found => ?_
  · refine triple_sql fun w w' reply hidle hclock hstep hdelivered hrecorded => ?_
    obtain ⟨hdatabase, hreply⟩ := hstep
    refine ⟨idle_quiet hidle hclock ⟨hdatabase, hdelivered, by rw [hrecorded]; exact List.append_nil _⟩, ?_⟩
    rw [hreply, Alerting.row, hidle.2.1]
  · cases found with
    | none =>
      refine Triple.ret (fun w hw => ⟨hw.1, fun row hrow => ?_⟩) fun _ _ => trivial
      have hnone := hw.2
      rw [hrow] at hnone
      cases hnone
    | some stored =>
      obtain ⟨lastSentAt, lastStatus⟩ := stored
      dsimp only
      split_ifs with hstatus
      · refine Triple.ret (fun w hw => ⟨hw.1, fun row hrow hsame => ?_⟩) fun _ _ => trivial
        have hsome := hw.2
        rw [hrow] at hsome
        cases hsome
        exact absurd hsame hstatus
      · refine Triple.bind (triple_now (Q := fun t w => Idle start w ∧ t ≤ w.clock ∧ start.clock ≤ t ∧
          some (lastSentAt, lastStatus) = (Alerting.row start dedupKey).map fun r => (r.lastSentAt, r.lastStatus))
            fun w w' t hw hle hle' hquiet => ?_) fun t => ?_
        · exact ⟨idle_quiet hw.1 (Int.le_trans hle hle') hquiet, hle', Int.le_trans hw.1.1 hle, hw.2⟩
        · refine Triple.ret (fun w hw => ⟨hw.1, ?_⟩) fun _ _ => trivial
          obtain ⟨row, hrow, heq⟩ := Option.map_eq_some_iff.1 hw.2.2.2.symm
          cases heq
          split_ifs with hdue
          · intro row' hrow' _
            rw [hrow] at hrow'
            cases hrow'
            exact Int.lt_of_lt_of_le (of_decide_eq_true hdue) (Int.sub_le_sub_right hw.2.1 _)
          · exact ⟨row, hrow, not_not.1 hstatus, t, hw.2.2.1, hw.2.1, Int.not_lt.1 fun hlt => hdue (decide_eq_true hlt)⟩

/-- One attempt: the alert is accepted and recorded, or left to the loop, or the attempt raises and nothing was accepted. -/
theorem triple_deliver (url : String) (payload : Payload) (dedupKey status : String)
    (hstatus : ∀ t, (Delivery.of payload t).status = status) :
    Triple alerting (fun w => Idle start w ∧ DueAt start dedupKey status minutes w.clock)
      (NotificationService.deliver url payload dedupKey status)
      (fun accepted w => if accepted then Done start dedupKey (Delivery.of payload) minutes w
        else Idle start w ∧ DueAt start dedupKey status minutes w.clock)
      (fun _ w => Idle start w ∧ DueAt start dedupKey status minutes w.clock) fun _ => True := by
  refine Triple.bind (R := fun code w => if 200 ≤ code ∧ code < 300 then
      ∃ t, t ≤ w.clock ∧ start.clock ≤ w.clock ∧ DueAt start dedupKey status minutes t ∧ w.database = start.database ∧
        w.delivered = start.delivered ++ [Delivery.of payload t] ∧ w.recorded = start.recorded
    else Idle start w ∧ DueAt start dedupKey status minutes w.clock) ?_ fun code => ?_
  · refine Triple.perform (fun _ _ => trivial) (fun w code w' hw he => ⟨?_, trivial⟩) fun w x w' hw he => ⟨?_, trivial⟩
    · obtain ⟨hclock, hposted⟩ := he
      dsimp only at hposted
      split_ifs at hposted ⊢ with hcode
      · obtain ⟨t, hle, hle', hdatabase, hdelivered, hrecorded⟩ := hposted
        exact ⟨t, hle', Int.le_trans hw.1.1 hclock, hw.2.later hle, hdatabase.trans hw.1.2.1, by rw [hdelivered, hw.1.2.2.1],
          hrecorded.trans hw.1.2.2.2⟩
      · exact ⟨idle_quiet hw.1 hclock hposted, hw.2.later hclock⟩
    · exact ⟨idle_quiet hw.1 he.1 he.2, hw.2.later he.1⟩
  · split_ifs with hcode hrefused
    · refine Triple.bind (R := fun _ w => Done start dedupKey (Delivery.of payload) minutes w) ?_ fun _ =>
        Triple.ret (fun w hw => hw) fun _ _ => trivial
      refine (Triple.of_exists fun t => ?_ : Triple alerting (fun w => ∃ t, t ≤ w.clock ∧ start.clock ≤ w.clock ∧
        DueAt start dedupKey status minutes t ∧ w.database = start.database ∧
          w.delivered = start.delivered ++ [Delivery.of payload t] ∧ w.recorded = start.recorded) _ _ _ _)
      refine Triple.bind (R := fun sent w => t < (sent + 1) * 1000000 ∧ start.clock ≤ w.clock ∧
        DueAt start dedupKey status minutes t ∧ w.database = start.database ∧
          w.delivered = start.delivered ++ [Delivery.of payload t] ∧ w.recorded = start.recorded) ?_ fun sent => ?_
      · refine Triple.bind (triple_now (Q := fun now w => t ≤ now ∧ start.clock ≤ w.clock ∧
          DueAt start dedupKey status minutes t ∧ w.database = start.database ∧
            w.delivered = start.delivered ++ [Delivery.of payload t] ∧ w.recorded = start.recorded)
              fun w w' now hw hle hle' hquiet => ?_) fun now => Triple.ret (fun w hw => ?_) fun _ _ => trivial
        · exact ⟨Int.le_trans hw.1 hle, Int.le_trans hw.2.1 (Int.le_trans hle hle'), hw.2.2.1, hquiet.1.trans hw.2.2.2.1,
            hquiet.2.1.trans hw.2.2.2.2.1, hquiet.2.2.trans hw.2.2.2.2.2⟩
        · exact ⟨Int.lt_of_le_of_lt hw.1 (Int.lt_ediv_add_one_mul_self now (by decide)), hw.2⟩
      · refine triple_sql fun w w' reply hw hclock hstep hdelivered hrecorded => ?_
        obtain ⟨hsent, hstart, hdue, hdatabase, hbefore, hnone⟩ := hw
        refine ⟨t, sent, Int.le_trans hstart hclock, by rwa [hstatus], hsent, hdelivered.trans hbefore, ?_, ?_⟩
        · rw [hrecorded, hnone, hstatus]
          rfl
        · have hdb : w'.database = { w.database with alerts := w.database.alertsUpdated ⟨dedupKey, sent, status⟩ } := hstep
          rw [hdb, hdatabase, hstatus]
    · exact Triple.raise (fun w hw => hw) fun _ _ => trivial
    · exact Triple.ret (fun w hw => hw) fun _ _ => trivial

/-- The attempts deliver and record the alert, or raise and nothing was accepted. -/
theorem triple_attempts (url : String) (payload : Payload) (dedupKey status : String)
    (hstatus : ∀ t, (Delivery.of payload t).status = status) (remaining : Nat) :
    Triple alerting (fun w => Idle start w ∧ DueAt start dedupKey status minutes w.clock)
      (NotificationService.attempts url payload dedupKey status remaining)
      (fun sent w => sent = true ∧ Done start dedupKey (Delivery.of payload) minutes w) (fun _ w => Idle start w) fun _ => True := by
  induction remaining with
  | zero =>
    rw [NotificationService.attempts]
    exact Triple.raise (fun w hw => hw.1) fun _ _ => trivial
  | succ remaining ih =>
    have hagain : Triple alerting (fun w => Idle start w ∧ DueAt start dedupKey status minutes w.clock)
        (NotificationService.again remaining (NotificationService.attempts url payload dedupKey status remaining))
        (fun sent w => sent = true ∧ Done start dedupKey (Delivery.of payload) minutes w) (fun _ w => Idle start w)
          fun _ => True := by
      unfold NotificationService.again
      split_ifs
      · refine Triple.bind (R := fun _ w => Idle start w ∧ DueAt start dedupKey status minutes w.clock) ?_ fun _ => ih
        exact Triple.perform (fun _ _ => trivial)
          (fun w _ w' hw he => ⟨⟨idle_quiet hw.1 he.1 he.2, hw.2.later he.1⟩, trivial⟩)
          fun w _ w' hw he => ⟨idle_quiet hw.1 he.1 he.2, trivial⟩
      · exact ih
    rw [NotificationService.attempts]
    refine Triple.bind (Triple.attempt (triple_deliver url payload dedupKey status hstatus) (fun _ _ _ => trivial)
      fun _ _ _ => trivial) fun outcome => ?_
    cases outcome with
    | ok accepted =>
      cases accepted with
      | true => exact Triple.ret (fun w hw => ⟨rfl, hw⟩) fun _ _ => trivial
      | false => exact hagain
    | error x =>
      dsimp only
      split_ifs
      · exact Triple.raise (fun w hw => hw.1) fun _ _ => trivial
      · exact hagain
      · exact Triple.raise (fun w hw => hw.1) fun _ _ => trivial

theorem payload_delivery (event : String) (fields : List (String × String)) (t : Instant) :
    Delivery.of (NotificationService.payloadFor configuration event fields) t =
      ⟨event, (fields.lookup "certificate_id").getD "", (fields.lookup "status").getD event, t⟩ := by
  unfold NotificationService.payloadFor
  split_ifs <;> rfl

/-- Reading the credential changes nothing. -/
theorem triple_idle {α : Type} {p : Action α} (hp : p.Uses fun op => ∃ path, op = Op.readFile path) {φ : Alerting → Prop}
    (hφ : ∀ w w', φ w → w.clock ≤ w'.clock → w.Quiet w' → φ w') (hidle : ∀ w, φ w → Idle start w) :
    Triple alerting φ p (fun _ => φ) (fun _ w => Idle start w) fun _ => True := by
  refine (Triple.frame hp fun w op r w' hop hw he => ?_).conseq (fun _ hw => hw) (fun _ _ hw => hw) (fun _ w hw => hidle w hw)
    fun _ _ => trivial
  obtain ⟨path, rfl⟩ := hop
  exact hφ w w' hw he.1 he.2

theorem uses_secret (path : String) : (NotificationService.readSecret path).Uses fun op => ∃ path, op = Op.readFile path := by
  refine Program.uses_bind (Program.uses_attempt (Program.uses_perform.2 ⟨path, rfl⟩)) fun content => ?_
  cases content with
  | error x =>
    dsimp only
    split <;> trivial
  | ok raw =>
    dsimp only
    split <;> trivial

/-- One call: it delivers and records its alert, or nothing is delivered and recorded; it is suppressed by a row that is not old
enough. -/
theorem triple_notify (call : AlertCall) :
    Triple alerting (fun w => w = start) (call.run Γ configuration)
      (fun sent w => (sent = true ∧ Done start call.dedupKey (fun t => ⟨call.event, call.certificateId, call.status, t⟩)
          configuration.minimumRepeatIntervalMinutes w) ∨
        (sent = false ∧ Idle start w ∧ (configuration.enabled = true →
          Suppressed start w call.dedupKey call.status configuration.minimumRepeatIntervalMinutes)))
      (fun _ w => Idle start w) fun _ => True := by
  have hstart : ∀ w, w = start → Idle start w := by
    rintro w rfl
    exact ⟨Int.le_refl _, rfl, rfl, rfl⟩
  unfold AlertCall.run NotificationService.notify
  split_ifs with henabled
  · refine Triple.ret (fun w hw => Or.inr ⟨rfl, hstart w hw, fun htrue => ?_⟩) fun _ _ => trivial
    rw [henabled] at htrue
    cases htrue
  · refine Triple.bind ((triple_shouldSendAlert call.dedupKey call.status).pre hstart) fun due => ?_
    cases due with
    | false => exact Triple.ret (fun w hw => Or.inr ⟨rfl, hw.1, fun _ => hw.2⟩) fun _ _ => trivial
    | true =>
      have hlater : ∀ w w' : Alerting,
          (Idle start w ∧ DueAt start call.dedupKey call.status configuration.minimumRepeatIntervalMinutes w.clock) →
            w.clock ≤ w'.clock → w.Quiet w' →
              Idle start w' ∧ DueAt start call.dedupKey call.status configuration.minimumRepeatIntervalMinutes w'.clock :=
        fun w w' hw hclock hquiet => ⟨idle_quiet hw.1 hclock hquiet, hw.2.later hclock⟩
      cases hcredential : configuration.credentialRef with
      | none => exact Triple.raise (fun w hw => hw.1) fun _ _ => trivial
      | some reference =>
        refine Triple.bind (triple_idle uses_ofExcept hlater fun _ hw => hw.1) fun path => ?_
        refine Triple.bind (triple_idle (uses_secret path) hlater fun _ hw => hw.1) fun secret => ?_
        refine Triple.bind (triple_idle uses_ofExcept hlater fun _ hw => hw.1) fun url => ?_
        have hpayload : ∀ t, Delivery.of (NotificationService.payloadFor configuration call.event call.fields) t =
            ⟨call.event, call.certificateId, call.status, t⟩ := payload_delivery call.event call.fields
        refine (triple_attempts url _ call.dedupKey call.status (fun t => by rw [hpayload]) 2).post fun sent w hw => Or.inl ?_
        rwa [funext hpayload] at hw

end Call

/-! ## Whole sequences -/

section Runs

variable {Γ : Ctx} {configuration : NotificationsConfig} {start w w' : Alerting} {minutes : Nat}

/-- A certificate without a colon is told apart from the event in a key. -/
theorem key_injective {a b : Delivery} (ha : ':' ∉ a.certificateId.toList) (hb : ':' ∉ b.certificateId.toList) :
    a.dedupKey = b.dedupKey ↔ a.event = b.event ∧ a.certificateId = b.certificateId := by
  constructor
  · intro h
    have hlists := congrArg String.toList h
    simp only [Delivery.dedupKey, String.toList_append, List.append_assoc] at hlists
    have hcolon : ":".toList = [':'] := rfl
    rw [hcolon, List.singleton_append, List.singleton_append] at hlists
    rcases List.append_eq_append_iff.1 hlists with ⟨more, hevent, hrest⟩ | ⟨more, hevent, hrest⟩
    · cases more with
      | nil =>
        rw [List.append_nil] at hevent
        exact ⟨(String.toList_injective hevent).symm, String.toList_injective (List.cons.inj hrest).2⟩
      | cons c more =>
        refine absurd ?_ ha
        rw [(List.cons.inj hrest).2]
        simp
    · cases more with
      | nil =>
        rw [List.append_nil] at hevent
        exact ⟨String.toList_injective hevent, (String.toList_injective (List.cons.inj hrest).2).symm⟩
      | cons c more =>
        refine absurd ?_ hb
        rw [(List.cons.inj hrest).2]
        simp
  · rintro ⟨hevent, hcertificate⟩
    rw [Delivery.dedupKey, Delivery.dedupKey, hevent, hcertificate]

/-- An identifier has no colon. -/
theorem no_colon (call : AlertCall) : ':' ∉ call.certificateId.toList := by
  have hid := call.certificate
  unfold AlertCall.certificateId
  cases hlookup : call.fields.lookup "certificate_id" with
  | none => simp
  | some id =>
    rw [hlookup, Option.all_some] at hid
    unfold isIdentifier at hid
    rw [Option.getD_some]
    intro hcolon
    split at hid
    · cases hid
    · rename_i first rest hlist
      rw [hlist] at hcolon
      simp only [Bool.and_eq_true, List.all_eq_true] at hid
      rcases List.mem_cons.1 hcolon with rfl | hrest
      · exact absurd hid.1.1 (by decide)
      · exact absurd (hid.2 ':' hrest) (by decide)

/-- The row under a key once the alert is recorded. -/
theorem done_row {dedupKey : String} {delivery : Instant → Delivery} (h : Done w dedupKey delivery minutes w') :
    ∃ t row, w'.delivered = w.delivered ++ [delivery t] ∧ w'.recorded = w.recorded ++ [row] ∧ row.dedupKey = dedupKey ∧
      row.lastStatus = (delivery t).status ∧ t < (row.lastSentAt + 1) * 1000000 ∧
        DueAt w dedupKey (delivery t).status minutes t ∧
          ∀ key, Alerting.row w' key = if dedupKey = key then some row else Alerting.row w key := by
  obtain ⟨t, sent, -, hdue, hsent, hdelivered, hrecorded, hdatabase⟩ := h
  refine ⟨t, ⟨dedupKey, sent, (delivery t).status⟩, hdelivered, hrecorded, rfl, rfl, hsent, hdue, fun key => ?_⟩
  unfold Alerting.row
  rw [hdatabase]
  unfold Database.alertsUpdated
  rw [Tables.Table.find?_upsert]
  by_cases hkey : dedupKey = key
  · rw [if_pos hkey, if_pos hkey]
    cases hfound : w.database.alerts.rows.find? (fun x => x.dedupKey = key) with
    | none => rfl
    | some old =>
      have hold : old.dedupKey = key := by simpa using List.find?_some hfound
      simp only [Option.elim_some, hold, hkey]
  · rw [if_neg hkey, if_neg hkey]

/-- The invariant of a sequence of calls. -/
structure Cooled (minutes : Nat) (start w : Alerting) : Prop where
  records : List.Forall₂ Records w.delivered w.recorded
  rows : ∀ key, Alerting.row w key = lastRecorded start w key
  plain : ∀ d ∈ w.delivered, ':' ∉ d.certificateId.toList
  latest : ∀ before a middle, w.delivered = before ++ a :: middle → (∀ d ∈ middle, d.dedupKey ≠ a.dedupKey) →
    ∃ row, Alerting.row w a.dedupKey = some row ∧ Records a row
  spaced : ∀ a b, Consecutive w.delivered a b → a.status = b.status →
    seconds (60 * minutes) - 1000000 < b.instant - a.instant

theorem Cooled.idle (h : Cooled minutes start w) (hidle : Idle w w') : Cooled minutes start w' := by
  obtain ⟨-, hdatabase, hdelivered, hrecorded⟩ := hidle
  have hrow : ∀ key, Alerting.row w' key = Alerting.row w key := fun key => by rw [Alerting.row, hdatabase, Alerting.row]
  refine ⟨by rw [hdelivered, hrecorded]; exact h.records, fun key => ?_, by rw [hdelivered]; exact h.plain, ?_,
    by rw [hdelivered]; exact h.spaced⟩
  · rw [hrow, h.rows, lastRecorded, lastRecorded, hrecorded]
  · rw [hdelivered]
    simp only [hrow]
    exact h.latest

/-- The truncation costs less than a second. -/
theorem spaced_of_due {i t t' : Int} {sent : Int} (hsent : t < (sent + 1) * 1000000) (hdue : sent * 1000000 < t' - i) :
    i - 1000000 < t' - t := by
  omega

/-- The last of a list with one more, or before it. -/
theorem append_cons_eq_snoc {α : Type} {before middle l : List α} {a d : α} (h : l ++ [d] = before ++ a :: middle) :
    (middle = [] ∧ before = l ∧ a = d) ∨ ∃ middle', middle = middle' ++ [d] ∧ l = before ++ a :: middle' := by
  rcases List.eq_nil_or_concat' middle with rfl | ⟨middle', x, rfl⟩
  · obtain ⟨hl, hd⟩ := List.append_inj' h rfl
    cases hd
    exact Or.inl ⟨rfl, hl.symm, rfl⟩
  · have hassoc : l ++ [d] = (before ++ a :: middle') ++ [x] := by
      rw [h, List.append_assoc, List.cons_append]
    obtain ⟨hl, hd⟩ := List.append_inj' hassoc rfl
    cases hd
    exact Or.inr ⟨middle', rfl, hl⟩

theorem Cooled.done (h : Cooled minutes start w) {call : AlertCall}
    (hdone : Done w call.dedupKey (fun t => ⟨call.event, call.certificateId, call.status, t⟩) minutes w') :
    Cooled minutes start w' := by
  obtain ⟨t, row, hdelivered, hrecorded, hkey, hstatus, hsent, hdue, hrows⟩ := done_row hdone
  -- the new delivery and its row
  have hnew : Records ⟨call.event, call.certificateId, call.status, t⟩ row := ⟨hkey, hstatus, hsent⟩
  refine ⟨?_, fun key => ?_, ?_, fun before a middle hsplit hmiddle => ?_, fun a b hab hsame => ?_⟩
  · rw [hdelivered, hrecorded]
    exact List.rel_append h.records (.cons hnew .nil)
  · rw [hrows, lastRecorded, hrecorded, List.filter_append]
    by_cases hsame : call.dedupKey = key
    · have hin : [row].filter (fun r => r.dedupKey = key) = [row] := by simp [hkey, hsame]
      rw [if_pos hsame, hin, List.getLast?_append, List.getLast?_singleton, Option.some_or, Option.some_or]
    · have hout : [row].filter (fun r => r.dedupKey = key) = [] := by simp [hkey, hsame]
      rw [if_neg hsame, hout, List.append_nil, h.rows, lastRecorded]
  · rw [hdelivered]
    exact List.forall_mem_append.2 ⟨h.plain, List.forall_mem_singleton.2 (no_colon call)⟩
  · rw [hdelivered] at hsplit
    rcases append_cons_eq_snoc hsplit with ⟨rfl, rfl, rfl⟩ | ⟨middle', rfl, hbefore⟩
    · exact ⟨row, by rw [hrows]; exact if_pos rfl, hnew⟩
    · have hother : call.dedupKey ≠ a.dedupKey := hmiddle _ (List.mem_append_right _ (List.mem_singleton_self _))
      obtain ⟨own, hown, hrecords⟩ := h.latest before a middle' hbefore fun d hd => hmiddle d (List.mem_append_left _ hd)
      exact ⟨own, by rw [hrows, if_neg hother, hown], hrecords⟩
  · obtain ⟨before, middle, after, hsplit, hevent, hcertificate, hmiddle⟩ := hab
    rw [hdelivered] at hsplit
    have hsplit' : w.delivered ++ [⟨call.event, call.certificateId, call.status, t⟩] =
        (before ++ a :: middle) ++ b :: after := by
      rw [hsplit, List.append_assoc, List.cons_append]
    rcases append_cons_eq_snoc hsplit' with ⟨rfl, hbefore, rfl⟩ | ⟨after', rfl, hbefore⟩
    · -- the pair ends with the new delivery: its check found the row of the one before
      have hplain : ∀ d ∈ before ++ a :: middle, ':' ∉ d.certificateId.toList := hbefore ▸ h.plain
      have hother : ∀ d ∈ middle, d.dedupKey ≠ a.dedupKey := fun d hd heq =>
        hmiddle d hd ((key_injective (hplain d (by simp [hd])) (hplain a (by simp))).1 heq)
      obtain ⟨own, hown, hrecords⟩ := h.latest before a middle hbefore.symm hother
      have hsamekey : a.dedupKey = call.dedupKey := by
        rw [Delivery.dedupKey, hevent, hcertificate]
        rfl
      exact spaced_of_due hrecords.instant (hdue own (hsamekey ▸ hown) (hrecords.status.trans hsame))
    · refine h.spaced a b ⟨before, middle, after', ?_, hevent, hcertificate, hmiddle⟩ hsame
      rw [hbefore, List.append_assoc, List.cons_append]

/-- A call keeps the invariant. -/
theorem Cooled.call (h : Cooled configuration.minimumRepeatIntervalMinutes start w) {call : AlertCall} {o : Outcome Exc Bool}
    (hrun : Exec alerting (call.run Γ configuration) w o w') (ho : o ≠ .crashed) :
    Cooled configuration.minimumRepeatIntervalMinutes start w' := by
  have hpost := triple_notify call w rfl o w' hrun
  cases o with
  | returned sent =>
    rcases hpost with ⟨-, hdone⟩ | ⟨-, hidle, -⟩
    · exact h.done hdone
    · exact h.idle hidle
  | raised x => exact h.idle hpost
  | crashed => exact absurd rfl ho

theorem cooled_run {calls : List (AlertCall × Outcome Exc Bool)}
    (hrun : History alerting (AlertCall.run Γ configuration) start calls w) (hended : ∀ entry ∈ calls, entry.2 ≠ .crashed)
    (hdelivered : start.delivered = []) (hrecorded : start.recorded = []) :
    Cooled configuration.minimumRepeatIntervalMinutes start w := by
  induction hrun with
  | nil =>
    refine ⟨?_, fun key => ?_, ?_, fun before a middle hsplit => ?_, fun a b hab => ?_⟩
    · rw [hdelivered, hrecorded]
      exact .nil
    · rw [lastRecorded, hrecorded]
      rfl
    · rw [hdelivered]
      exact fun d hd => absurd hd List.not_mem_nil
    · rw [hdelivered] at hsplit
      simp at hsplit
    · obtain ⟨before, middle, after, hsplit, -⟩ := hab
      rw [hdelivered] at hsplit
      simp at hsplit
  | snoc _ hcall ih =>
    have hlast := hended _ (List.mem_append_right _ (List.mem_singleton_self _))
    exact (ih (fun entry hentry => hended entry (List.mem_append_left _ hentry))).call hcall hlast

end Runs

end AlertCooldownAux

open AlertCooldownAux

/-- The cooldown neither floods nor loses. Two consecutive deliveries with the same event, certificate and status are more than the
interval less one second apart; what was recorded are the deliveries, in their order; and a call is suppressed only where the last
row recorded for its key has its status and a time at most the interval ago. -/
theorem alert_cooldown (Γ : Ctx) (configuration : NotificationsConfig) {start w : Alerting}
    {calls : List (AlertCall × Outcome Exc Bool)} (hdelivered : start.delivered = []) (hrecorded : start.recorded = [])
    (hrun : History alerting (AlertCall.run Γ configuration) start calls w) (hended : ∀ entry ∈ calls, entry.2 ≠ .crashed) :
    (∀ a b, Consecutive w.delivered a b → a.status = b.status →
        seconds (60 * configuration.minimumRepeatIntervalMinutes) - 1000000 < b.instant - a.instant) ∧
      List.Forall₂ Records w.delivered w.recorded ∧
        ∀ (call : AlertCall) (w' : Alerting), configuration.enabled = true →
          Exec alerting (call.run Γ configuration) w (.returned false) w' →
            ∃ row, lastRecorded start w call.dedupKey = some row ∧ row.lastStatus = call.status ∧ ∃ t, w.clock ≤ t ∧ t ≤ w'.clock ∧
              t - seconds (60 * configuration.minimumRepeatIntervalMinutes) ≤ row.lastSentAt * 1000000 := by
  have hcooled := cooled_run hrun hended hdelivered hrecorded
  refine ⟨hcooled.spaced, hcooled.records, fun call w' henabled hcall => ?_⟩
  rcases triple_notify call w rfl _ w' hcall with ⟨hsent, -⟩ | ⟨-, -, hsuppressed⟩
  · cases hsent
  · obtain ⟨row, hrow, hstatus, t, hle, hle', hrecent⟩ := hsuppressed henabled
    exact ⟨row, by rw [← hcooled.rows, hrow], hstatus, t, hle, hle', hrecent⟩

namespace Sample

/-- The clock stands still, the store answers, and the endpoint accepts the alerts of one certificate. -/
def answerAlerts : Handler publisher Exc Alerting := fun w op =>
  match op with
  | .now => some (.ok w.clock, w)
  | .readFile _ => some (.ok [104], w)
  | .sql (.selectAlert dedupKey) =>
    some (.ok ((w.database.alerts.rows.find? (·.dedupKey = dedupKey)).map fun r => (r.lastSentAt, r.lastStatus)), w)
  | .sql (.upsertAlert row) =>
    some (.ok (), { w with
      database := { w.database with alerts := w.database.alertsUpdated row }
      recorded := w.recorded ++ [row] })
  | .post _ payload =>
    if (Delivery.of payload w.clock).certificateId = "web" then
      some (.ok (204 : Nat), { w with delivered := w.delivered ++ [Delivery.of payload w.clock] })
    else some (.ok (400 : Nat), w)
  | _ => none

theorem answerAlerts_allowed : answerAlerts.Allowed alerting := by
  intro w op r w' h
  unfold answerAlerts at h
  split at h
  · cases h
    exact ⟨Int.le_refl _, w.clock, rfl, Int.le_refl _, Int.le_refl _, rfl, rfl, rfl⟩
  · cases h
    exact ⟨Int.le_refl _, rfl, rfl, rfl⟩
  · cases h
    exact ⟨Int.le_refl _, _, rfl, ⟨rfl, rfl⟩, rfl, (List.append_nil _).symm⟩
  · cases h
    exact ⟨Int.le_refl _, (), rfl, rfl, rfl, rfl⟩
  · split at h
    · cases h
      exact ⟨Int.le_refl _, w.clock, Int.le_refl _, Int.le_refl _, rfl, rfl, rfl⟩
    · cases h
      exact ⟨Int.le_refl _, rfl, rfl, rfl⟩
  · cases h

def alerts : NotificationsConfig where
  enabled := true
  credentialRef := some "systemd-credential:hook"
  allowedHosts := ["hooks.example"]

def failedAlert : AlertCall := ⟨"ACME_FAILED", [("certificate_id", "web")], by decide +kernel⟩

/-- The alert of a certificate that the endpoint does not accept. -/
def refusedAlert : AlertCall := ⟨"ACME_FAILED", [("certificate_id", "mail")], by decide +kernel⟩

/-- A call from a state on. -/
def notified (call : AlertCall) (w : Alerting) : Outcome Exc Bool × Alerting :=
  (call.run ctx alerts).runFor answerAlerts 40 w

/-- Ten minutes past the epoch, without a row. -/
def unalerted : Alerting := ⟨{}, 600000000, [], []⟩

def delivered : Alerting := (notified failedAlert unalerted).2

def refused : Alerting := (notified refusedAlert delivered).2

def suppressed : Alerting := (notified failedAlert refused).2

end Sample

/-- Of three calls one delivers, the one for another certificate fails, and the third is suppressed; a fourth would be suppressed
as well, by the row that the first has recorded. -/
theorem alert_cooldown_sample :
    Sample.suppressed.delivered = [⟨"ACME_FAILED", "web", "ACME_FAILED", 600000000⟩] ∧
      ∃ w', Exec alerting (Sample.failedAlert.run Sample.ctx Sample.alerts) Sample.suppressed (.returned false) w' ∧
        ∃ row, lastRecorded Sample.unalerted Sample.suppressed Sample.failedAlert.dedupKey = some row ∧
          row.lastStatus = "ACME_FAILED" := by
  have hdelivered : (Sample.notified Sample.failedAlert Sample.unalerted).1 = .returned true := by decide +kernel
  have hrefused : (Sample.notified Sample.refusedAlert Sample.delivered).1 =
      .raised (notificationError "notification endpoint returned non-success status") := by decide +kernel
  have hsuppressed : (Sample.notified Sample.failedAlert Sample.refused).1 = .returned false := by decide +kernel
  have hagain : (Sample.notified Sample.failedAlert Sample.suppressed).1 = .returned false := by decide +kernel
  have hcall : Exec alerting (Sample.failedAlert.run Sample.ctx Sample.alerts) Sample.suppressed (.returned false)
      (Sample.notified Sample.failedAlert Sample.suppressed).2 := exec_of_runFor Sample.answerAlerts_allowed hagain
  have hhistory : History alerting (AlertCall.run Sample.ctx Sample.alerts) Sample.unalerted
      [(Sample.failedAlert, .returned true),
        (Sample.refusedAlert, .raised (notificationError "notification endpoint returned non-success status")),
        (Sample.failedAlert, .returned false)] Sample.suppressed :=
    .snoc (.snoc (.snoc (.nil _) (exec_of_runFor Sample.answerAlerts_allowed hdelivered))
      (exec_of_runFor Sample.answerAlerts_allowed hrefused)) (exec_of_runFor Sample.answerAlerts_allowed hsuppressed)
  obtain ⟨row, hrow, hstatus, -⟩ := (alert_cooldown Sample.ctx Sample.alerts rfl rfl hhistory (by decide)).2.2 Sample.failedAlert _
    rfl hcall
  exact ⟨by decide +kernel, _, hcall, row, hrow, hstatus⟩

end OciAcmePublisher
