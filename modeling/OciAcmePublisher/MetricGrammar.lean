import OciAcmePublisher.Scanning.Readers

/-!
# The text format of samples

The grammar by which a scrape reads a sample line: a name, labels in braces, a value. Blanks may stand between the tokens, and a comma
behind the last label; in a quoted value a backslash stands before a backslash, a double quote and the `n` of a line feed.
-/

namespace OciAcmePublisher.MetricGrammar

open Scanning Reader

def isLabelStart (c : Char) : Bool := c.isAlpha || c == '_'

def isLabelCharacter (c : Char) : Bool := c.isAlphanum || c == '_'

def isNameStart (c : Char) : Bool := isLabelStart c || c == ':'

def isNameCharacter (c : Char) : Bool := isLabelCharacter c || c == ':'

def isBlank (c : Char) : Bool := c == ' ' || c == '\t'

def isValueCharacter (c : Char) : Bool := !isBlank c && c != '\n'

/-- A word whose first character is of the one class and the others of the other. -/
def isWord (first rest : Char → Bool) (text : String) : Bool :=
  match text.toList with
  | [] => false
  | c :: l => first c && l.all rest

/-- A label name. -/
def isLabelName : String → Bool := isWord isLabelStart isLabelCharacter

/-- A metric name. -/
def isMetricName : String → Bool := isWord isNameStart isNameCharacter

/-- What stands behind a backslash for what. -/
def escapeCode : Char → Option Char
  | '\\' => some '\\'
  | '"' => some '"'
  | 'n' => some '\n'
  | _ => none

/-- `name="value"`. -/
def label : Reader Char (String × String) := do
  let key ← word isLabelStart isLabelCharacter
  skip isBlank
  symbol '='
  skip isBlank
  symbol '"'
  let value ← quoted '"' '\\' (· != '\n') escapeCode
  skip isBlank
  return (String.ofList key, String.ofList value)

/-- The labels in their braces; they may be left out. -/
def labelBlock : Reader Char (List (String × String)) :=
  openedBy '{' (do skip isBlank; items label (skip isBlank) ',' '}') []

/-- The text of the value, up to the end of the line. -/
def sampleValue : Reader Char String := do
  skip isBlank
  let value ← word isValueCharacter isValueCharacter
  skip isBlank
  symbol '\n'
  return String.ofList value

/-- What stands behind the name. -/
def sampleBody : Reader Char (List (String × String) × String) := do
  skip isBlank
  let labels ← labelBlock
  let value ← sampleValue
  return (labels, value)

/-- A sample line without a timestamp: the name, the labels, the text of the value. -/
def sampleLine : Reader Char (String × List (String × String) × String) := do
  let name ← word isNameStart isNameCharacter
  let body ← sampleBody
  return (String.ofList name, body)

/-- Blanks and a comma behind the last label are read over. -/
example : (sampleLine.run "m \x7b a = \"x\\\\\\\"\\n\" , \x7d 1\n".toList).map Prod.fst = some ("m", [("a", "x\\\"\n")], "1") := by
  decide +kernel

end OciAcmePublisher.MetricGrammar
