import Mathlib.Data.List.Forall2
import OciAcmePublisher.LogLines
import OciAcmePublisher.Scanning.JsonRoundTrip

/-!
# Reading the journal

Every record is one line, the lines are read back as JSON one by one, and the dictionary of a line says of its record what `shown`
says.
-/

namespace OciAcmePublisher

open Scanning
open Json (Written AllWritten MembersWritten)

/-! ## Dictionaries -/

/-- Setting an item keeps the keys of a dictionary apart. -/
theorem nodup_set {κ ω : Type} [BEq κ] [LawfulBEq κ] {items : List (κ × ω)} (h : (items.map Prod.fst).Nodup) (key : κ)
    (value : ω) :
    ((if items.any (·.1 == key) then items.map fun item => if item.1 == key then (key, value) else item
      else items ++ [(key, value)]).map Prod.fst).Nodup := by
  split
  · have hkeys : (items.map fun item => if item.1 == key then (key, value) else item).map Prod.fst = items.map Prod.fst := by
      rw [List.map_map]
      refine List.map_congr_left fun item _ => ?_
      show (if item.1 == key then (key, value) else item).1 = item.1
      split
      · rename_i heq
        exact (beq_iff_eq.1 heq).symm
      · rfl
    rw [hkeys]
    exact h
  · rename_i hnew
    rw [List.map_append, List.nodup_append]
    refine ⟨h, List.nodup_singleton _, ?_⟩
    intro other hother _ hkey heq
    obtain ⟨item, hitem, rfl⟩ := List.mem_map.1 hother
    refine hnew (List.any_eq_true.2 ⟨item, hitem, beq_iff_eq.2 ?_⟩)
    rw [heq]
    exact List.mem_singleton.1 hkey

/-- An item of the dictionary is an old one or the one that is set. -/
theorem mem_set {κ ω : Type} [BEq κ] {items : List (κ × ω)} {key : κ} {value : ω} {item : κ × ω}
    (h : item ∈ if items.any (·.1 == key) then items.map fun item => if item.1 == key then (key, value) else item
      else items ++ [(key, value)]) : item ∈ items ∨ item = (key, value) := by
  split at h
  · obtain ⟨other, hother, rfl⟩ := List.mem_map.1 h
    split
    · exact Or.inr rfl
    · exact Or.inl hother
  · rcases List.mem_append.1 h with hold | hnew
    · exact Or.inl hold
    · exact Or.inr (List.mem_singleton.1 hnew)

theorem lookup_setMember (members : List (String × Json.Value)) (member : String × Json.Value) (key : String) :
    (Json.setMember members member).lookup key = if key = member.1 then some member.2 else members.lookup key := by
  induction members with
  | nil =>
    show [member].lookup key = _
    rw [List.lookup_cons]
    split <;> simp_all
  | cons other members ih =>
    unfold Json.setMember at ih ⊢
    by_cases hother : other.1 = member.1
    · have hany : (other :: members).any (·.1 == member.1) = true := by simp [hother]
      rw [if_pos hany, List.map_cons, if_pos (beq_iff_eq.2 hother), List.lookup_cons, List.lookup_cons, hother]
      split
      · rename_i hkey
        rw [if_pos (beq_iff_eq.1 hkey)]
      · rename_i hkey
        have hne : key ≠ member.1 := by simpa using hkey
        rw [if_neg hne] at ih ⊢
        split at ih
        · exact ih
        · rename_i hnone
          have hid : (members.map fun item => if item.1 == member.1 then member else item) = members := by
            refine (List.map_congr_left fun item hitem => ?_).trans (List.map_id members)
            exact if_neg fun heq => hnone (List.any_eq_true.2 ⟨item, hitem, heq⟩)
          rw [hid]
    · have hfirst : (other.1 == member.1) = false := beq_eq_false_iff_ne.2 hother
      rw [List.any_cons, hfirst, Bool.false_or, List.map_cons, hfirst]
      have hcons : (if members.any (·.1 == member.1) then
            other :: (members.map fun item => if item.1 == member.1 then member else item)
          else other :: members ++ [member]) =
          other :: (if members.any (·.1 == member.1) then
            members.map fun item => if item.1 == member.1 then member else item else members ++ [member]) := by
        split <;> rfl
      rw [if_neg Bool.false_ne_true, hcons, List.lookup_cons, List.lookup_cons, ih]
      split
      · rename_i hkey
        have hne : key ≠ member.1 := fun heq => hother ((beq_iff_eq.1 hkey).symm.trans heq)
        rw [if_neg hne]
      · rfl

namespace JsonFormatter

/-! ## What is written -/

/-- The value can be written, and is not too deep for it. -/
def Fit (depth : Nat) (value : Json.Value) : Prop := Written value ∧ Json.Supported depth value = true

/-- The items are of a dictionary, and each of their values fits. -/
def Clean (depth : Nat) (items : List (List Char × EventValue LogScalar)) : Prop :=
  (items.map Prod.fst).Nodup ∧ ∀ item ∈ items, Fit depth (valueOf item.2)

theorem clean_nil {depth : Nat} : Clean depth [] := ⟨List.nodup_nil, fun _ h => absurd h List.not_mem_nil⟩

theorem clean_setItem {depth : Nat} {items : List (List Char × EventValue LogScalar)} (h : Clean depth items) (key : List Char)
    {value : EventValue LogScalar} (hvalue : Fit depth (valueOf value)) : Clean depth (EventValue.setItem items key value) := by
  refine ⟨nodup_set h.1 key value, fun item hitem => ?_⟩
  rcases mem_set hitem with hold | rfl
  · exact h.2 item hold
  · exact hvalue

theorem keys_membersOf (items : List (List Char × EventValue LogScalar)) :
    (membersOf items).map Prod.fst = (items.map Prod.fst).map String.ofList := by
  induction items with
  | nil => rfl
  | cons item items ih => rw [membersOf, List.map_cons, List.map_cons, List.map_cons, ih]

/-- The dictionary of clean items fits one level further out. -/
theorem Clean.fit {depth : Nat} {items : List (List Char × EventValue LogScalar)} (h : Clean depth items) :
    Fit (depth + 1) (.object (membersOf items)) := by
  have hkeys : ((membersOf items).map Prod.fst).Nodup := by
    rw [keys_membersOf]
    exact h.1.map fun _ _ heq => String.ofList_injective heq
  have hmembers := h.2
  clear h
  induction items with
  | nil => exact ⟨⟨hkeys, trivial⟩, rfl⟩
  | cons item items ih =>
    have hfirst := hmembers item List.mem_cons_self
    obtain ⟨hwritten, hsupported⟩ := ih (List.nodup_cons.1 hkeys).2 fun other hother => hmembers other
      (List.mem_cons_of_mem _ hother)
    exact ⟨⟨hkeys, hfirst.1, hwritten.2⟩, Bool.and_eq_true_iff.2 ⟨hfirst.2, hsupported⟩⟩

mutual

/-- What is left of a supported field fits. -/
theorem fit_redacted : ∀ (value : EventValue LogScalar) (depth : Nat), value.supported depth = true →
    Fit depth (valueOf value.redactValue)
  | .text _ | .scalar .none | .scalar (.bool _) | .unsupported => fun _ _ =>
    ⟨trivial, by simp [EventValue.redactValue, valueOf, scalarValue, Json.Supported]⟩
  | .scalar (.int n) => fun depth h => by
    refine ⟨trivial, ?_⟩
    simp only [EventValue.supported] at h
    simpa only [EventValue.redactValue, valueOf, scalarValue, Json.Supported] using h
  | .mapping items => fun depth h => by
    cases depth with
    | zero => cases h
    | succ depth => exact (clean_redacted items depth h clean_nil).fit
  | .sequence items => fun depth h => by
    cases depth with
    | zero => cases h
    | succ depth => exact fit_all items depth h

theorem clean_redacted : ∀ (items : List (List Char × EventValue LogScalar)) (depth : Nat)
    {redacted : List (List Char × EventValue LogScalar)}, EventValue.itemsSupported depth items = true → Clean depth redacted →
      Clean depth (EventValue.redactItems items redacted)
  | [] => fun _ _ _ h => h
  | (key, value) :: items => fun depth _ hsupported h => by
    obtain ⟨hvalue, hitems⟩ := Bool.and_eq_true_iff.1 hsupported
    exact clean_redacted items depth hitems (clean_setItem h (Redaction.redact key) (fit_redacted value depth hvalue))

theorem fit_all : ∀ (items : List (EventValue LogScalar)) (depth : Nat), EventValue.allSupported depth items = true →
    Fit (depth + 1) (.array (itemsOf (EventValue.redactAll items)))
  | [] => fun _ _ => ⟨trivial, rfl⟩
  | value :: items => fun depth h => by
    obtain ⟨hvalue, hitems⟩ := Bool.and_eq_true_iff.1 h
    have hfirst := fit_redacted value depth hvalue
    have hrest := fit_all items depth hitems
    exact ⟨⟨hfirst.1, hrest.1⟩, Bool.and_eq_true_iff.2 ⟨hfirst.2, hrest.2⟩⟩

end

/-! ## What a payload holds -/

/-- The payload is a dictionary, and each of its values fits. -/
def Holds (members : List (String × Json.Value)) : Prop := (members.map Prod.fst).Nodup ∧ ∀ member ∈ members, Fit 99 member.2

theorem fit_text (text : String) : Fit 99 (.text text) := ⟨trivial, rfl⟩

theorem holds_setMember {members : List (String × Json.Value)} (h : Holds members) (key : String) {value : Json.Value}
    (hvalue : Fit 99 value) : Holds (Json.setMember members (key, value)) := by
  refine ⟨nodup_set h.1 key value, fun member hmember => ?_⟩
  rcases mem_set hmember with hold | rfl
  · exact h.2 member hold
  · exact hvalue

theorem holds_addField {members : List (String × Json.Value)} (h : Holds members) {field : String × EventValue LogScalar}
    (hfield : field.2.supported 99 = true) : Holds (addField members field) := by
  unfold addField
  split
  · exact h
  · exact holds_setMember h _ (fit_redacted _ _ hfield)

theorem holds_fields {members : List (String × Json.Value)} (h : Holds members) {fields : List (String × EventValue LogScalar)}
    (hfields : ∀ field ∈ fields, field.2.supported 99 = true) : Holds (fields.foldl addField members) := by
  induction fields generalizing members with
  | nil => exact h
  | cons field fields ih =>
    exact ih (holds_addField h (hfields field List.mem_cons_self)) fun other hother => hfields other (List.mem_cons_of_mem _ hother)

theorem holds_payload (timestamp : String) {record : LogRecord} (h : record.Supported) : Holds (payload timestamp record) := by
  have hstart : Holds [("timestamp", .text timestamp), ("level", .text record.levelname),
      ("event", .text (record.event.getD record.name))] := by
    refine ⟨by simp, fun member hmember => ?_⟩
    simp only [List.mem_cons, List.not_mem_nil, or_false] at hmember
    rcases hmember with rfl | rfl | rfl <;> exact fit_text _
  have hfields := holds_fields hstart h
  unfold payload
  split
  · exact holds_setMember hfields _ (fit_text _)
  · exact hfields

theorem supported_payload (timestamp : String) {record : LogRecord} (h : record.Supported) :
    Json.Supported 100 (.object (payload timestamp record)) = true :=
  Json.membersSupported_iff.2 fun member hmember => ((holds_payload timestamp h).2 member hmember).2

/-- One field says what is under its own key, unless the key is reserved. -/
theorem lookup_addField (members : List (String × Json.Value)) (field : String × EventValue LogScalar) (key : String) :
    (addField members field).lookup key =
      if key = field.1 ∧ key ∉ reservedFields then some (valueOf field.2.redactValue) else members.lookup key := by
  unfold addField
  split
  · rename_i hreserved
    rw [if_neg]
    rintro ⟨rfl, hfree⟩
    exact hfree hreserved
  · rename_i hfree
    rw [lookup_setMember]
    by_cases hkey : key = field.1
    · rw [if_pos hkey, if_pos ⟨hkey, hkey ▸ hfree⟩]
    · rw [if_neg hkey, if_neg fun h => hkey h.1]

/-- What the fields say of a key. -/
def shownField (fields : List (String × EventValue LogScalar)) (key : String) : Option Json.Value :=
  if key ∈ reservedFields then none else (fields.lookup key).map fun value => valueOf value.redactValue

theorem lookup_fields {fields : List (String × EventValue LogScalar)} (h : (fields.map Prod.fst).Nodup)
    (members : List (String × Json.Value)) (key : String) :
    (fields.foldl addField members).lookup key = (shownField fields key).or (members.lookup key) := by
  induction fields generalizing members with
  | nil =>
    unfold shownField
    split <;> rfl
  | cons field fields ih =>
    obtain ⟨hnew, hrest⟩ := List.nodup_cons.1 h
    rw [List.foldl_cons, ih hrest, lookup_addField]
    unfold shownField
    rw [List.lookup_cons]
    by_cases hreserved : key ∈ reservedFields
    · rw [if_pos hreserved, if_pos hreserved, if_neg fun h => h.2 hreserved]
    · rw [if_neg hreserved, if_neg hreserved]
      by_cases hkey : key = field.1
      · have hnone : fields.lookup key = none := by
          rw [List.lookup_eq_none_iff]
          intro other hother
          exact bne_iff_ne.2 fun heq => hnew (hkey ▸ heq ▸ List.mem_map_of_mem hother)
        rw [if_pos ⟨hkey, hreserved⟩, hnone, beq_iff_eq.2 hkey]
        rfl
      · rw [if_neg fun h => hkey h.1, beq_eq_false_iff_ne.2 hkey]

end JsonFormatter

/-! ## What is read back -/

/-- The name of the class of the exception that a record came with. -/
def LogRecord.errorClass (record : LogRecord) : Option String := record.excInfo.join

/-- What the line of a record says under a key: the time, the level and the event of the record itself, the class of the
exception, and for any other key that is not reserved the field, redacted. -/
def LogRecord.shown (timestamp : String) (record : LogRecord) (key : String) : Option Json.Value :=
  if key = "timestamp" then some (.text timestamp)
  else if key = "level" then some (.text record.levelname)
  else if key = "event" then some (.text (record.event.getD record.name))
  else if key = "error_class" ∧ record.errorClass.isSome then record.errorClass.map .text
  else JsonFormatter.shownField record.fields key

namespace JsonFormatter

theorem lookup_start (timestamp level event key : String) :
    [("timestamp", Json.Value.text timestamp), ("level", .text level), ("event", .text event)].lookup key =
      if key = "timestamp" then some (.text timestamp) else if key = "level" then some (.text level)
      else if key = "event" then some (.text event) else none := by
  simp only [List.lookup_cons, List.lookup_nil, beq_eq_decide]
  split_ifs with htime hlevel hevent <;> simp [*]

theorem shownField_reserved (fields : List (String × EventValue LogScalar)) {key : String} (h : key ∈ reservedFields) :
    shownField fields key = none := if_pos h

theorem lookup_payload (timestamp : String) (record : LogRecord) (key : String) :
    (payload timestamp record).lookup key = record.shown timestamp key := by
  have hfields := lookup_fields record.distinct [("timestamp", .text timestamp), ("level", .text record.levelname),
    ("event", .text (record.event.getD record.name))] key
  rw [lookup_start] at hfields
  have hplain : (record.fields.foldl addField [("timestamp", .text timestamp), ("level", .text record.levelname),
      ("event", .text (record.event.getD record.name))]).lookup key =
        if key = "timestamp" then some (.text timestamp) else if key = "level" then some (.text record.levelname)
        else if key = "event" then some (.text (record.event.getD record.name)) else shownField record.fields key := by
    rw [hfields]
    split_ifs with htime hlevel hevent
    · rw [shownField_reserved _ (htime ▸ by decide)]
      rfl
    · rw [shownField_reserved _ (hlevel ▸ by decide)]
      rfl
    · rw [shownField_reserved _ (hevent ▸ by decide)]
      rfl
    · exact Option.or_none
  unfold payload LogRecord.shown LogRecord.errorClass
  rcases record.excInfo with _ | _ | exceptionType
  · simpa using hplain
  · simpa using hplain
  · show (Json.setMember _ _).lookup key = _
    rw [lookup_setMember, hplain]
    by_cases hkey : key = "error_class"
    · subst hkey
      rfl
    · rw [if_neg hkey]
      simp [hkey]

variable {dumps : Json.Value → Except Exc (List Char)} {loads : List Char → Option Json.Value} {record : LogRecord}

/-- The line of a supported record. -/
theorem format_supported (hjson : JsonModule dumps loads) (timestamp : String) (h : record.Supported) :
    format dumps timestamp record = .ok (Json.dumps none (.object (payload timestamp record))) :=
  hjson.writes (supported_payload timestamp h)

/-- A line is ASCII without a new line in it. -/
theorem printed_format (hjson : JsonModule dumps loads) {timestamp : String} (h : record.Supported) {line : List Char}
    (hline : format dumps timestamp record = .ok line) : ∀ c ∈ line, ' ' ≤ c ∧ c ≤ '~' := by
  rw [format_supported hjson timestamp h] at hline
  cases hline
  intro c hc
  rcases Json.printed_render _ 0 c hc with hprinted | ⟨-, hindent⟩
  · exact hprinted
  · exact absurd rfl hindent

/-- A line is read back as a dictionary that says of the record what is shown of it. -/
theorem loads_format (hjson : JsonModule dumps loads) {timestamp : String} (h : record.Supported) {line : List Char}
    (hline : format dumps timestamp record = .ok line) :
    ∃ members, loads line = some (.object members) ∧ (members.map Prod.fst).Nodup ∧
      ∀ key, members.lookup key = (record.shown timestamp key).map Json.sorted := by
  rw [format_supported hjson timestamp h] at hline
  cases hline
  have hholds := holds_payload timestamp h
  have hwritten : Written (.object (payload timestamp record)) :=
    ⟨hholds.1, Json.membersWritten_iff.2 fun member hmember => (hholds.2 member hmember).1⟩
  have hloads := Json.loads_dumps none hwritten (fun _ h => absurd h List.not_mem_nil)
  rw [List.append_nil] at hloads
  refine ⟨_, hjson.reads hloads (Json.supported_sorted _ _ (supported_payload timestamp h)), (Json.sorted_written hwritten).1,
    fun key => ?_⟩
  rw [Json.lookup_sorted hholds.1, lookup_payload]

end JsonFormatter

variable {dumps : Json.Value → Except Exc (List Char)} {loads : List Char → Option Json.Value} {records : List (String × LogRecord)}

/-- The journal of supported records is cut at its new lines into their lines. -/
theorem journal_lines (hjson : JsonModule dumps loads) (h : ∀ record ∈ records, record.2.Supported) :
    ∃ lines, (journal dumps records).splitOn '\n' = lines ++ [[]] ∧
      List.Forall₂ (fun record line => JsonFormatter.format dumps record.1 record.2 = .ok line) records lines := by
  induction records with
  | nil => exact ⟨[], List.splitOn_nil _, .nil⟩
  | cons record records ih =>
    obtain ⟨lines, hlines, hformats⟩ := ih fun other hother => h other (List.mem_cons_of_mem _ hother)
    have hrecord := h record List.mem_cons_self
    have hformat := JsonFormatter.format_supported hjson record.1 hrecord
    have hline : '\n' ∉ Json.dumps none (.object (JsonFormatter.payload record.1 record.2)) := fun hmem =>
      absurd (JsonFormatter.printed_format hjson hrecord hformat _ hmem).1 (by decide)
    refine ⟨Json.dumps none (.object (JsonFormatter.payload record.1 record.2)) :: lines, ?_, .cons hformat hformats⟩
    rw [journal, List.flatMap_cons, hformat, List.append_assoc, List.singleton_append,
      List.splitOn_append_cons_self_of_not_mem hline]
    rw [journal] at hlines
    rw [hlines]
    rfl

/-- Of any records that are not too deep and have no number that is too long, whatever texts they hold, the journal is cut at its
new lines into one line a record and nothing after the last; the lines are read back as dictionaries, in the order of the
records, and under every key a dictionary has what its record shows. -/
theorem journal_read_back (hjson : JsonModule dumps loads) (h : ∀ record ∈ records, record.2.Supported) :
    ∃ dictionaries : List (List (String × Json.Value)),
      ((journal dumps records).splitOn '\n').getLast? = some [] ∧
      ((journal dumps records).splitOn '\n').dropLast.map loads = dictionaries.map (fun members => some (.object members)) ∧
      List.Forall₂ (fun record members => (members.map Prod.fst).Nodup ∧
        ∀ key, members.lookup key = (record.2.shown record.1 key).map Json.sorted) records dictionaries := by
  obtain ⟨lines, hlines, hformats⟩ := journal_lines hjson h
  rw [hlines, List.getLast?_concat, List.dropLast_concat]
  clear hlines
  induction hformats with
  | nil => exact ⟨[], rfl, rfl, .nil⟩
  | @cons record line records lines hformat _ ih =>
    obtain ⟨dictionaries, hlast, hread, hshown⟩ := ih fun other hother => h other (List.mem_cons_of_mem _ hother)
    obtain ⟨members, hloads, hmembers⟩ := JsonFormatter.loads_format hjson (h record List.mem_cons_self) hformat
    refine ⟨members :: dictionaries, hlast, ?_, .cons hmembers hshown⟩
    rw [List.map_cons, List.map_cons, hread, hloads]

namespace LogLinesSample

/-- A module that writes and reads nothing else. -/
def dumpsSupported (value : Json.Value) : Except Exc (List Char) :=
  if Json.Supported 100 value then .ok (Json.dumps none value) else .error (.of .valueError "")

def loadsSupported (text : List Char) : Option Json.Value := (Json.loads text).filter (Json.Supported 100)

theorem jsonModule : JsonModule dumpsSupported loadsSupported where
  writes h := if_pos h
  reads hloads h := by
    unfold loadsSupported
    rw [hloads]
    exact if_pos h

/-- A failed delivery, with an exception, and a nested field under a URL. -/
def failed : LogRecord where
  levelname := "ERROR"
  name := "oci_acme_publisher"
  event := some "notification_failed"
  fields := [("level", .text "spoofed".toList), ("attempt", .scalar (.int 2)),
    ("request", .mapping [("https://hooks.example/secret".toList, .sequence [.text "bearer abc".toList, .unsupported])])]
  distinct := by decide
  excInfo := some (some "NotificationError")

/-- A record without fields. -/
def started : LogRecord where
  levelname := "INFO"
  name := "oci_acme_publisher"
  event := none
  fields := []
  distinct := List.nodup_nil
  excInfo := none

def twoRecords : List (String × LogRecord) := [("2026-01-01T00:00:00Z", started), ("2026-01-01T00:00:01Z", failed)]

theorem twoRecords_supported : ∀ record ∈ twoRecords, record.2.Supported := by
  unfold twoRecords LogRecord.Supported
  decide +kernel

end LogLinesSample

open LogLinesSample in
/-- The level of the failed delivery is its own, and neither the URL nor the token of its request is left. -/
theorem journal_read_back_two :
    ∃ first second : List (String × Json.Value),
      ((journal dumpsSupported twoRecords).splitOn '\n').dropLast.map loadsSupported =
        [some (.object first), some (.object second)] ∧
          first.lookup "event" = some (.text "oci_acme_publisher") ∧ second.lookup "level" = some (.text "ERROR") ∧
            second.lookup "error_class" = some (.text "NotificationError") ∧
              second.lookup "request" = some (.object [("[REDACTED_HTTPS_URL]",
                .array [.text "Bearer [REDACTED]", .text "[REDACTED_UNSUPPORTED_VALUE]"])]) := by
  obtain ⟨dictionaries, -, hread, hshown⟩ := journal_read_back jsonModule twoRecords_supported
  obtain ⟨first, rest, ⟨-, hfirst⟩, hrest, rfl⟩ := List.forall₂_cons_left_iff.1 hshown
  obtain ⟨second, none, ⟨-, hsecond⟩, hnone, rfl⟩ := List.forall₂_cons_left_iff.1 hrest
  obtain rfl := List.forall₂_nil_left_iff.1 hnone
  refine ⟨first, second, hread, (hfirst _).trans rfl, (hsecond _).trans rfl, (hsecond _).trans rfl, (hsecond _).trans ?_⟩
  rfl

end OciAcmePublisher
