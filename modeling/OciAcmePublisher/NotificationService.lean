import OciAcmePublisher.StateStore

/-!
# Notifications

`NotificationService.notify`: one small event, with a bounded retry and a durable cooldown, to a webhook whose URL is a systemd
credential. The deduplicator is always the state store.
-/

namespace OciAcmePublisher

open Effects

/-- `NotificationError` with its text. -/
def notificationError (message : String) : Exc := .of .notificationError message

/-- `credential_path`: resolve only a named systemd credential in the standard credential directory. -/
def credentialPath (reference : String) : Except Exc String :=
  match "systemd-credential:".toList.isPrefixOf reference.toList with
  | false => .error (notificationError "notification credential reference is invalid")
  | true =>
    let name := String.ofList (reference.toList.drop "systemd-credential:".length)
    if name = "" ∨ containsText "/" name = true ∨ containsText ".." name = true then
      .error (notificationError "notification credential name is invalid")
    else .ok ("/run/credentials/oci-acme-renew.service/" ++ name)

/-- A string attribute of a parsed URL is truthy. -/
def isTruthy : Option String → Bool
  | some text => text ≠ ""
  | none => false

/-- `webhook_url`: validate a credential-provided webhook URL against HTTPS and an explicit allowlist. -/
def webhookUrl (Γ : Ctx) (configuration : NotificationsConfig) (secret : String) : Except Exc String :=
  match Γ.parseUrl secret with
  | none => .error (.of .valueError "invalid URL")
  | some parsed =>
    if parsed.scheme ≠ "https" ∨ isTruthy parsed.hostname = false ∨ isTruthy parsed.username = true ∨
        isTruthy parsed.password = true then
      .error (notificationError "notification webhook must be a credential-provided HTTPS URL")
    else if ∀ hostname ∈ parsed.hostname, hostname ∉ configuration.allowedHosts then
      .error (notificationError "notification webhook host is not allowlisted")
    else .ok secret

namespace NotificationService

/-- The secret of the credential file: its text, stripped. -/
def readSecret (path : String) : Action String := do
  let content ← (perform (.readFile path)).attempt
  match content with
  | .error error =>
    if error.isInstance .osError then .raise (notificationError "notification credential cannot be read")
    else .raise error
  | .ok raw =>
    match String.fromUTF8? ⟨raw.toArray⟩ with
    | none => .raise (.of .unicodeError "invalid start byte")
    | some text => return strip text

/-- The payload of the provider. -/
def payloadFor (configuration : NotificationsConfig) (event : String) (fields : List (String × String)) : Payload :=
  if configuration.provider = "slack" then .slack event fields else .webhook event fields

/-- One delivery attempt: whether the event was delivered; an HTTP client error is left to the loop. -/
def deliver (url : String) (payload : Payload) (dedupKey status : String) : Action Bool := do
  let code ← perform (.post url payload)
  if 200 ≤ code ∧ code < 300 then do
    StateStore.recordAlertSent dedupKey status
    return true
  else if code < 500 ∧ code ≠ 429 then
    .raise (notificationError "notification endpoint returned non-success status")
  else return false

/-- What follows a failed attempt: the next one, a quarter of a second after the first. -/
def again (remaining : Nat) (next : Action Bool) : Action Bool :=
  if remaining = 1 then (perform (.sleep (1 / 4))).bind fun _ => next else next

/-- The attempts that are left of the two. -/
def attempts (url : String) (payload : Payload) (dedupKey status : String) : Nat → Action Bool
  | 0 => .raise (notificationError "notification endpoint returned non-success status")
  | remaining + 1 => do
    let outcome ← (deliver url payload dedupKey status).attempt
    match outcome with
    | .ok true => return true
    | .ok false => again remaining (attempts url payload dedupKey status remaining)
    | .error error =>
      if error.isInstance .clientError then
        if remaining = 0 then .raise (notificationError "notification delivery failed")
        else again remaining (attempts url payload dedupKey status remaining)
      else .raise error

/-- `NotificationService.notify`: deliver one redacted event with bounded retry and durable cooldown. -/
def notify (Γ : Ctx) (configuration : NotificationsConfig) (event : String) (fields : List (String × String)) :
    Action Bool :=
  if configuration.enabled = false then return false
  else do
    let certificateId := (fields.lookup "certificate_id").getD ""
    let status := (fields.lookup "status").getD event
    let dedupKey := event ++ ":" ++ certificateId
    let due ← StateStore.shouldSendAlert dedupKey status configuration.minimumRepeatIntervalMinutes
    if due = false then return false
    else
      match configuration.credentialRef with
      | none => .raise (notificationError "enabled notifier has no credential reference")
      | some reference => do
        let path ← ofExcept (credentialPath reference)
        let secret ← readSecret path
        let url ← ofExcept (webhookUrl Γ configuration secret)
        attempts url (payloadFor configuration event fields) dedupKey status 2

end NotificationService

end OciAcmePublisher
