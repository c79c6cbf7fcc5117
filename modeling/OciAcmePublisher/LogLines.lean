import OciAcmePublisher.Errors
import OciAcmePublisher.Redaction
import OciAcmePublisher.Scanning.Json

/-!
# Log lines

`logging_config.py`: the JSON object a logger record is rendered as, on one line.
-/

namespace OciAcmePublisher

open Scanning

/-- A scalar of an event; records with a `float` are left out. -/
inductive LogScalar where
  | none
  | bool (value : Bool)
  | int (value : Int)
  deriving DecidableEq, Repr

/-- What the formatter reads of a `logging.LogRecord`. -/
structure LogRecord where
  levelname : String
  name : String
  /-- The attribute `event`, where the record has one. -/
  event : Option String
  /-- The items of `event_fields` under a `str`, by their keys. -/
  fields : List (String × EventValue LogScalar)
  distinct : (fields.map Prod.fst).Nodup
  /-- `exc_info`, with the name of the class of the exception where it has one. -/
  excInfo : Option (Option String)

namespace JsonFormatter

/-- `_RESERVED_FIELDS`. -/
def reservedFields : List String := ["timestamp", "level", "event", "message", "exc_info", "stack_info"]

def scalarValue : LogScalar → Json.Value
  | .none => .null
  | .bool value => .bool value
  | .int value => .int value

mutual

/-- A redacted field as JSON. -/
def valueOf : EventValue LogScalar → Json.Value
  | .text value => .text (String.ofList value)
  | .scalar value => scalarValue value
  | .mapping items => .object (membersOf items)
  | .sequence items => .array (itemsOf items)
  | .unsupported => .other

def membersOf : List (List Char × EventValue LogScalar) → List (String × Json.Value)
  | [] => []
  | (key, value) :: items => (String.ofList key, valueOf value) :: membersOf items

def itemsOf : List (EventValue LogScalar) → List Json.Value
  | [] => []
  | value :: items => valueOf value :: itemsOf items

end

/-- One round of the loop over the fields. -/
def addField (payload : List (String × Json.Value)) (field : String × EventValue LogScalar) : List (String × Json.Value) :=
  if field.1 ∈ reservedFields then payload else Json.setMember payload (field.1, valueOf field.2.redactValue)

/-- The payload of a record that is rendered at a time. -/
def payload (timestamp : String) (record : LogRecord) : List (String × Json.Value) :=
  let start : List (String × Json.Value) :=
    [("timestamp", .text timestamp), ("level", .text record.levelname), ("event", .text (record.event.getD record.name))]
  let fields := record.fields.foldl addField start
  match record.excInfo with
  | some (some exceptionType) => Json.setMember fields ("error_class", .text exceptionType)
  | _ => fields

variable (dumps : Json.Value → Except Exc (List Char))

/-- `format`: render logger records as one redacted JSON object per stdout line. -/
def format (timestamp : String) (record : LogRecord) : Except Exc (List Char) := dumps (.object (payload timestamp record))

end JsonFormatter

/-- What the handler of `configure_json_logging` writes of the records, with their times; one whose rendering raises leaves no
line. -/
def journal (dumps : Json.Value → Except Exc (List Char)) (records : List (String × LogRecord)) : List Char :=
  records.flatMap fun record =>
    match JsonFormatter.format dumps record.1 record.2 with
    | .ok line => line ++ ['\n']
    | .error _ => []

/-! ## Limits -/

mutual

/-- The field is nested less deep than `depth`, and has no `int` of more digits than `str` writes. -/
def EventValue.supported : Nat → EventValue LogScalar → Bool
  | _, .scalar (.int n) => n.natAbs < 10 ^ 4300
  | depth + 1, .mapping items => EventValue.itemsSupported depth items
  | depth + 1, .sequence items => EventValue.allSupported depth items
  | 0, .mapping _ | 0, .sequence _ => false
  | _, _ => true

def EventValue.itemsSupported : Nat → List (List Char × EventValue LogScalar) → Bool
  | _, [] => true
  | depth, (_, value) :: items => EventValue.supported depth value && EventValue.itemsSupported depth items

def EventValue.allSupported : Nat → List (EventValue LogScalar) → Bool
  | _, [] => true
  | depth, value :: items => EventValue.supported depth value && EventValue.allSupported depth items

end

/-- No field of the record is too deep or has a number that is too long. -/
def LogRecord.Supported (record : LogRecord) : Prop := ∀ field ∈ record.fields, field.2.supported 99 = true

/-- What is documented of the `json` module: it writes a value as JSON and reads the value that a text is. Deep values and
long numbers are left to it. -/
structure JsonModule (dumps : Json.Value → Except Exc (List Char)) (loads : List Char → Option Json.Value) : Prop where
  writes : ∀ {value : Json.Value}, Json.Supported 100 value = true → dumps value = .ok (Json.dumps none value)
  reads : ∀ {text : List Char} {value : Json.Value}, Json.loads text = some value → Json.Supported 100 value = true →
    loads text = some value

end OciAcmePublisher
