import OciAcmePublisher.Effects.Triple
import OciAcmePublisher.ChainBuilder
import OciAcmePublisher.Database

/-!
# Ports

The records the OCI adapters return and the operations the publisher performs on the outside: the two OCI adapters, the state
database, the clock, randomness, logging, the local lineages, the ACME server, the audited endpoints and the notification
endpoint. Closing a store or an executor has no effect on any of them and is left out, as are the threads and the event loop
that carry the calls.
-/

namespace OciAcmePublisher

open Effects

/-- A stage name of a certificate version. -/
inductive Stage where
  | current | pending | latest | previous | deprecated | pendingActivation
  | other (name : String)
  deriving DecidableEq, Repr

/-- Safe management metadata required by reconciliation. -/
structure OciCertificate where
  certificateId : String
  etag : Option String
  currentVersionNumber : Option Int
  deriving DecidableEq, Repr

/-- A compact certificate-version record without private material. -/
structure OciCertificateVersion where
  versionNumber : Int
  versionName : Option String := none
  stages : List Stage
  timeCreated : Option Instant := none
  timeOfDeletion : Option Instant := none
  etag : Option String := none
  deriving DecidableEq, Repr

/-- Public-only certificate bundle returned by the retrieval API. -/
structure OciPublicBundle where
  certificatePem : String
  certChainPem : String
  versionNumber : Int
  versionName : Option String
  stages : List Stage
  deriving DecidableEq, Repr

/-- The PEM files and the name of an imported version. -/
structure ImportedVersion where
  versionName : String
  certificatePem : Bytes
  certChainPem : Bytes
  privateKeyPem : Bytes
  deriving DecidableEq, Repr

/-- `version_name`: the deterministic idempotency name mandated for imported versions. -/
def versionName (Γ : Ctx) (now : Instant) (fingerprint : String) : Except Exc String :=
  if fingerprint.length < 12 ∨ fingerprint.toList.any (fun c => !"0123456789abcdef".toList.contains c) then
    .error (.of .valueError "fingerprint must be lower-case hexadecimal SHA-256")
  else .ok ("le-" ++ Γ.compactTimestamp now ++ "-" ++ String.ofList (fingerprint.toList.take 12))

/-- The CA-independent properties a staging gate qualifies. -/
structure CertificateProfile where
  identifierCount : Nat
  commonNameIsFirstIdentifier : Bool
  containsWildcard : Bool
  key : KeyConfig
  deriving DecidableEq, Repr

/-- The fields of a retained evidence record that qualification reads; `none` where they are missing or of another type. -/
structure Evidence where
  schemaVersion : Option Int
  result : Option String
  qualifiedProfile : Option CertificateProfile
  deriving DecidableEq, Repr

/-- A challenge of an authorization. -/
inductive Challenge where
  | http01 (token validation : String)
  | other (kind : String)
  deriving DecidableEq, Repr

structure Authorization where
  identifier : String
  challenges : List Challenge
  deriving DecidableEq, Repr

structure Order where
  uri : String
  authorizations : List Authorization
  deriving DecidableEq, Repr

/-- The full chains of a finalized order. -/
structure FinalizedOrder where
  fullchainPem : String
  alternativeFullchainsPem : List String
  deriving DecidableEq, Repr

/-- A generation to commit to the certificate store. -/
structure Generation where
  leafPem : Bytes
  chainPem : Bytes
  privateKeyPem : Bytes
  name : String
  deriving DecidableEq, Repr

inductive LogLevel where
  | info | error
  deriving DecidableEq, Repr

/-- A field of a log event. -/
inductive FieldValue where
  | text (value : String)
  | number (value : Int)
  deriving DecidableEq, Repr

/-- The JSON payload a notification posts: the Slack shape, or the plain one. -/
inductive Payload where
  | slack (text : String) (fields : List (String × String))
  | webhook (event : String) (fields : List (String × String))
  deriving DecidableEq, Repr

/-- The operations of the publisher, in the order of the module's list. -/
inductive Op where
  | getCertificate (certificateId opcRequestId : String)
  | listVersions (certificateId opcRequestId : String)
  | getVersion (certificateId : String) (versionNumber : Int) (opcRequestId : String)
  | createImportedCertificate (compartmentId certificateName : String) (imported : ImportedVersion)
      (opcRequestId : String)
  | uploadPendingVersion (certificateId : String) (etag : Option String) (imported : ImportedVersion)
      (opcRequestId : String)
  | promoteCurrent (certificateId : String) (versionNumber : Int) (etag : Option String) (opcRequestId : String)
  | scheduleVersionDeletion (certificateId : String) (versionNumber : Int) (timeOfDeletion : Instant)
      (etag : Option String) (opcRequestId : String)
  | getPublicBundle (certificateId : String) (versionNumber : Option Int) (opcRequestId : String)
  | createAdapters (region : String)
  | openStore (stateDir : String)
  | sql (statement : Statement)
  | now
  | monotonic
  | sleep (seconds : Rat)
  | uniform (ceiling : Rat)
  | uuid4
  | tokenHex (size : Nat)
  | logEvent (level : LogLevel) (event : String) (fields : List (String × FieldValue))
  | readFile (path : String)
  | readEvidence (path : String)
  | lineageExists (certificateId : String)
  | loadLineage (certificateId : String)
  | commitLineage (certificateId : String) (generation : Generation)
  | preflight (webrootId : String) (domains : List String)
  | acmeClient
  | generateKey (key : KeyConfig)
  | newOrder (csrPem : Bytes) (profile : Option String)
  | writeChallenge (path : String) (validation : String)
  | removeChallenge (path : String)
  | answerChallenge (order token : String)
  | pollAuthorizations (order : String) (deadline : Instant)
  | finalizeOrder (order : String) (deadline : Instant)
  | resolve (hostname : String)
  | wait (seconds : Nat)
  | probe (address hostname : String) (port timeoutSeconds : Nat)
  | post (url : String) (payload : Payload)
  deriving DecidableEq

/-- The type of an operation's replies. -/
@[reducible] def Op.Reply : Op → Type
  | .getCertificate .. => OciCertificate
  | .listVersions .. => List OciCertificateVersion
  | .getVersion .. => OciCertificateVersion
  | .createImportedCertificate .. => String
  | .uploadPendingVersion .. | .promoteCurrent .. | .scheduleVersionDeletion .. => Unit
  | .getPublicBundle .. => OciPublicBundle
  | .createAdapters _ | .openStore _ => Unit
  | .sql statement => statement.Reply
  | .now => Instant
  | .monotonic => Rat
  | .sleep _ => Unit
  | .uniform _ => Rat
  | .uuid4 | .tokenHex _ => String
  | .logEvent .. => Unit
  | .readFile _ => Bytes
  | .readEvidence _ => Evidence
  | .lineageExists _ => Bool
  | .loadLineage _ | .commitLineage .. => LineageMaterial
  | .preflight .. | .acmeClient => Unit
  | .generateKey _ => PrivateKey
  | .newOrder .. => Order
  | .writeChallenge .. | .removeChallenge _ | .answerChallenge .. | .pollAuthorizations .. => Unit
  | .finalizeOrder .. => FinalizedOrder
  | .resolve _ => List String
  | .wait _ => Unit
  | .probe .. => String
  | .post .. => Nat

/-- The signature of the publisher. -/
@[reducible] def publisher : Signature where
  Op := Op
  Reply := Op.Reply

/-- An action of the publisher. -/
abbrev Action (α : Type) := Program publisher Exc α

/-- Perform one operation. -/
abbrev perform (op : Op) : Action op.Reply := Program.perform (S := publisher) op

/-- A pure computation that may raise, as an action. -/
def ofExcept {S : Signature} {α : Type} : Except Exc α → Program S Exc α
  | .ok a => .ret a
  | .error x => .raise x

/-- A pure computation raises or returns where it is. -/
theorem Triple.ofExcept {S : Signature} {α W : Type} {env : Env S Exc W} {P C : W → Prop} {Q : α → W → Prop}
    {E : Exc → W → Prop} {e : Except Exc α} (hok : ∀ a w, e = .ok a → P w → Q a w) (herr : ∀ x w, P w → E x w)
    (hC : ∀ w, P w → C w) : Triple env P (ofExcept e) Q E C := by
  cases e with
  | ok a => exact Triple.ret (fun w hw => hok a w rfl hw) hC
  | error x => exact Triple.raise (fun w hw => herr x w hw) hC

theorem uses_ofExcept {S : Signature} {α : Type} {A : S.Op → Prop} {e : Except Exc α} : (ofExcept e).Uses A := by
  cases e <;> trivial

theorem yields_ofExcept {S : Signature} {α : Type} {φ : α → Prop} {e : Except Exc α} (h : ∀ a, e = .ok a → φ a) :
    (ofExcept e : Program S Exc α).Yields φ := by
  cases e with
  | ok a => exact h a rfl
  | error x => trivial

theorem eval_ofExcept {S : Signature} {α W : Type} {h : W → (op : S.Op) → Except Exc (S.Reply op) × W} (e : Except Exc α)
    (w : W) : (ofExcept e).eval h w = (Outcome.ofExcept e, w) := by
  cases e <;> rfl

/-- `log_event`. -/
def logEvent (level : LogLevel) (event : String) (fields : List (String × FieldValue)) : Action Unit :=
  perform (.logEvent level event fields)

/-- `utc_now_rfc3339`: the current instant with second precision. -/
def utcNow : Action Timestamp := do
  let now ← perform .now
  return now / 1000000

/-! ## What the operations act on -/

/-- The operation asks OCI to change a certificate. -/
def Op.mutatesOci : Op → Bool
  | .createImportedCertificate .. | .uploadPendingVersion .. | .promoteCurrent .. | .scheduleVersionDeletion .. => true
  | _ => false

/-- The operation observes the audited endpoints, reads the clock that bounds the audit or waits between two rounds of it. -/
def Op.observes : Op → Bool
  | .resolve _ | .probe .. | .monotonic | .wait _ => true
  | _ => false

/-- The operation commits a local generation. -/
def Op.commits : Op → Bool
  | .commitLineage .. => true
  | _ => false

/-- The operation executes a statement of the state store. -/
def Op.isSql : Op → Bool
  | .sql _ => true
  | _ => false

end OciAcmePublisher
