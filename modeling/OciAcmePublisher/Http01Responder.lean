import OciAcmePublisher.ConfigValidation
import OciAcmePublisher.Http01Paths

/-!
# HTTP-01 responder

The host routing of `http01_responder.py`. A request carries raw headers, key and value in bytes. The host is read from the one
Host header and looked up in the map of configured domains, a dict whose later entries replace earlier ones.
-/

namespace OciAcmePublisher

/-- `bytes.lower` of one byte. -/
def lowerByte (b : UInt8) : UInt8 := if 65 ≤ b ∧ b ≤ 90 then b + 32 else b

/-- `port.isascii() and port.isdecimal()`. -/
def isAsciiDecimal (port : List Char) : Bool := !port.isEmpty && port.all Char.isDigit

/-- The number that decimal digits denote. -/
def decimalValue (digits : List Char) : Nat := digits.foldl (fun n c => 10 * n + (c.toNat - 48)) 0

/-- The longest text of digits that the interpreter converts to an integer. -/
def intMaxStrDigits : Nat := 4300

/-- `int(port)` of ASCII decimal digits. -/
def intOfDigits (port : List Char) : Except Exc Nat :=
  if intMaxStrDigits < port.length then
    .error (.of .valueError s!"Exceeds the limit (4300 digits) for integer string conversion: value has {port.length} digits")
  else .ok (decimalValue port)

/-- `value.rpartition(":")` of a text with a colon: what stands before the last colon and what stands after it. -/
def rpartitionColon (value : List Char) : List Char × List Char :=
  (((value.reverse.dropWhile (· != ':')).drop 1).reverse, (value.reverse.takeWhile (· != ':')).reverse)

/-- The characters a Host header must not contain. -/
def forbiddenHostCharacters : List Char := ['%', '/', '\\', '@', '[', ']']

/-- The `HostHeaderError` of `normalize_host_header`. -/
def invalidHostHeader : Exc := .of .hostHeaderError "invalid Host header"

/-- `normalize_domain(host)`, its `ValueError` raised as a `HostHeaderError`. -/
def normalizeHost (Γ : Ctx) (host : List Char) : Except Exc String :=
  match normalizeDomain Γ (String.ofList host) with
  | .ok domain => .ok domain
  | .error x => if x.isInstance .valueError then .error invalidHostHeader else .error x

/-- The host that stands before a port, the port checked. -/
def hostBeforePort (value : List Char) : Except Exc (List Char) := do
  let (host, port) := rpartitionColon value
  if host = [] ∨ ¬isAsciiDecimal port then
    throw invalidHostHeader
  let number ← intOfDigits port
  if ¬(1 ≤ number ∧ number ≤ 65535) then
    throw invalidHostHeader
  return host

/-- `normalize_host_header`. -/
def normalizeHostHeader (Γ : Ctx) (value : List Char) : Except Exc String := do
  if value = [] ∨ value.any isSpace ∨ '%' ∈ value then
    throw invalidHostHeader
  if value.any (fun c => ['/', '\\', '@', '[', ']'].contains c) then
    throw invalidHostHeader
  let host ← if ':' ∈ value then hostBeforePort value else pure value
  normalizeHost Γ host

/-- A request header as received. -/
abbrev RawHeader := Bytes × Bytes

/-- `b"host"`. -/
def hostKey : Bytes := [104, 111, 115, 116]

/-- The values of the Host headers of a request. -/
def hostValues (headers : List RawHeader) : List Bytes :=
  (headers.filter (fun header => header.1.map lowerByte == hostKey)).map (·.2)

/-- `_single_host`. -/
def singleHost (Γ : Ctx) (headers : List RawHeader) : Except Exc String :=
  match hostValues headers with
  | [raw] =>
    match decodeAscii raw with
    | some value => normalizeHostHeader Γ value.toList
    | none => .error (.of .unicodeError "ordinal not in range(128)")
  | _ => .error (.of .hostHeaderError "Host must appear exactly once")

/-- The entries of `config_host_webroots` in the order they are written. -/
def configHostWebroots (config : AppConfig) : List (String × String) :=
  config.certificates.flatMap (fun certificate => certificate.domains.map (fun domain => (domain, certificate.webrootId)))

/-- `host_webroots[host]`: the entry written last. -/
def lookupHost (hostWebroots : List (String × String)) (host : String) : Except Exc String :=
  match hostWebroots.reverse.lookup host with
  | some webrootId => .ok webrootId
  | none => .error (.of .keyError host)

/-- `_single_host` followed by the lookup in the map of the configuration, as `_challenge` does it. -/
def routeHost (Γ : Ctx) (config : AppConfig) (headers : List RawHeader) : Except Exc String := do
  let host ← singleHost Γ headers
  lookupHost (configHostWebroots config) host

/-- `TOKEN_PATTERN.fullmatch(token)`. -/
def matchesToken (token : String) : Bool :=
  20 ≤ token.length && token.length ≤ 256 &&
    token.toList.all fun c => ('A' ≤ c && c ≤ 'Z') || ('a' ≤ c && c ≤ 'z') || ('0' ≤ c && c ≤ '9') || c == '_' || c == '-'

/-- The answer to a request. -/
structure HttpResponse where
  status : Nat
  body : Bytes
  deriving DecidableEq, Repr

/-- `raise web.HTTPNotFound()`. -/
def notFound : HttpResponse := ⟨404, "404: Not Found".toList.map (fun c => c.val.toUInt8)⟩

/-- The challenge reader of `create_app`. -/
def challengeReader (config : AppConfig) (ownerUid : Nat) : ChallengeFileReader where
  webrootBase := config.http01.webrootBase
  maxFileBytes := config.http01.responder.maxChallengeFileBytes
  expectedOwnerUid := ownerUid

/-- `_challenge`: the response to a request for a token, or the exception left to the middleware. -/
def challengeHandler (Γ : Ctx) (config : AppConfig) (ownerUid : Nat) (tree : Entries) (headers : List RawHeader) (token : String) :
    Except Exc HttpResponse :=
  if !matchesToken token then .ok notFound
  else
    match routeHost Γ config headers with
    | .error x => if x.isOneOf [.hostHeaderError, .keyError, .unicodeError] then .ok notFound else .error x
    | .ok webrootId =>
      match (challengeReader config ownerUid).read webrootId token tree with
      | .error x => if x.isOneOf [.challengeFileError, .timeoutError] then .ok notFound else .error x
      | .ok content => .ok ⟨200, content⟩

end OciAcmePublisher
