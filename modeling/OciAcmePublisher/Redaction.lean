import OciAcmePublisher.Certificates
import OciAcmePublisher.Scanning.Matchers

/-!
# Redaction

The five substitutions of `redaction.py` and the walk over the fields of an event. No pattern has a choice to take back: what follows a
repeated class never begins with an element of it.
-/

namespace OciAcmePublisher

open Scanning

namespace Redaction

/-- The characters of a literal. -/
def literal (s : String) : List (Char → Bool) := s.toList.map fun c d => d == c

/-- A small letter under `re.IGNORECASE`. -/
def caselessChar (c d : Char) : Bool := d == c || d == c.toUpper || c == 'i' && (d == 'İ' || d == 'ı')

/-- The letters of a word under `re.IGNORECASE`. -/
def caseless (s : String) : List (Char → Bool) := s.toList.map caselessChar

/-- `[^-]`. -/
def notDash (c : Char) : Bool := c != '-'

/-- `[^\s]`, also `\S`. -/
def notSpace (c : Char) : Bool := !isSpace c

/-- `.` without `re.DOTALL`. -/
def inLine (c : Char) : Bool := c != '\n'

/-- `[^\s/@:]`. -/
def userChar (c : Char) : Bool := !(isSpace c || c == '/' || c == '@' || c == ':')

/-- `[^\s/@]`. -/
def passwordChar (c : Char) : Bool := !(isSpace c || c == '/' || c == '@')

/-- `[A-Za-z0-9]`. -/
def letterOrDigit (c : Char) : Bool :=
  (65 ≤ c.toNat && c.toNat ≤ 90) || (97 ≤ c.toNat && c.toNat ≤ 122) || (48 ≤ c.toNat && c.toNat ≤ 57)

/-- The class of `_BEARER_TOKEN`; `re.IGNORECASE` adds four letters. -/
def tokenChar (c : Char) : Bool := letterOrDigit c || c ∈ ['.', '_', '~', '+', '/', '-', 'İ', 'ı', 'ſ', '\u212A']

/-- A word, `[^-]+` and five dashes. -/
def pemLine (word : String) : Matcher Char := andThen (each (literal word)) (andThen (many1 notDash) (each (literal "-----")))

/-- `-----BEGIN [^-]+-----`. -/
def pemHeader : Matcher Char := pemLine "-----BEGIN "

/-- `-----END [^-]+-----`. -/
def pemFooter : Matcher Char := pemLine "-----END "

/-- `_PEM_BLOCK`: up to the first footer behind the header. -/
def pemBlock : Matcher Char := andThen pemHeader (search pemFooter)

/-- The group of `_AUTHORIZATION`. -/
def authorizationName : Matcher Char :=
  andThen (each (caseless "authorization")) (andThen (many isSpace) (andThen (each [fun c => c == ':' || c == '=']) (many isSpace)))

/-- The rest of `_AUTHORIZATION`, up to the end of the line. -/
def authorizationValue : Matcher Char := andThen (many1 notSpace) (many inLine)

/-- `_URL_CREDENTIAL`. -/
def urlCredential : Matcher Char :=
  andThen (each (literal "https://"))
    (andThen (many1 userChar) (andThen (each (literal ":")) (andThen (many1 passwordChar) (each (literal "@")))))

/-- `_HTTPS_URL`. -/
def httpsUrl : Matcher Char := andThen (each (literal "https://")) (many1 notSpace)

/-- `_BEARER_TOKEN`. -/
def bearerToken : Matcher Char :=
  andThen (each (caseless "bearer")) (andThen (many1 isSpace) (andThen (many1 tokenChar) (many (· == '='))))

/-- `_AUTHORIZATION` matches where a line starts, and its replacement keeps the group. -/
def authorization : Rule Char := fun start l =>
  if start then
    (authorizationName l).bind fun value =>
      (authorizationValue value).map fun rest => (l.take (l.length - value.length) ++ "[REDACTED]".toList, rest)
  else none

/-- `pattern.sub(replacement, value)`. -/
def substitute (ρ : Rule Char) (value : List Char) : List Char := sub (· == '\n') ρ 0 true value

def withoutPem (value : List Char) : List Char := substitute (always pemBlock "[REDACTED_PEM]".toList) value

def withoutAuth (value : List Char) : List Char := substitute authorization value

def withoutCredentials (value : List Char) : List Char := substitute (always urlCredential "https://[REDACTED]@".toList) value

def withoutBearer (value : List Char) : List Char := substitute (always bearerToken "Bearer [REDACTED]".toList) value

def withoutUrls (value : List Char) : List Char := substitute (always httpsUrl "[REDACTED_HTTPS_URL]".toList) value

def redact (value : List Char) : List Char := withoutUrls (withoutBearer (withoutCredentials (withoutAuth (withoutPem value))))

end Redaction

/-- A field of an event. A number, a truth value or `None` is a scalar, a key of a mapping is what `str` makes of it, and a tuple is a
sequence too. -/
inductive EventValue (Scalar : Type) where
  | text (value : List Char)
  | scalar (value : Scalar)
  | mapping (items : List (List Char × EventValue Scalar))
  | sequence (items : List (EventValue Scalar))
  | unsupported

namespace EventValue

variable {Scalar : Type}

/-- `items[key] = value` of a dictionary. -/
def setItem (items : List (List Char × EventValue Scalar)) (key : List Char) (value : EventValue Scalar) :
    List (List Char × EventValue Scalar) :=
  if items.any (·.1 == key) then items.map fun item => if item.1 == key then (key, value) else item else items ++ [(key, value)]

mutual

def redactValue : EventValue Scalar → EventValue Scalar
  | .text value => .text (Redaction.redact value)
  | .scalar value => .scalar value
  | .mapping items => .mapping (redactItems items [])
  | .sequence items => .sequence (redactAll items)
  | .unsupported => .text "[REDACTED_UNSUPPORTED_VALUE]".toList

/-- The dictionary comprehension; of two keys that become one the later has the value. -/
def redactItems : List (List Char × EventValue Scalar) → List (List Char × EventValue Scalar) → List (List Char × EventValue Scalar)
  | [], redacted => redacted
  | (key, value) :: items, redacted => redactItems items (setItem redacted (Redaction.redact key) (redactValue value))

def redactAll : List (EventValue Scalar) → List (EventValue Scalar)
  | [] => []
  | value :: items => redactValue value :: redactAll items

end

end EventValue

end OciAcmePublisher
