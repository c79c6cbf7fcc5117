import Mathlib.Tactic.Common

/-!
# Exceptions

The exception classes the publisher raises, catches or lets through, with their class hierarchy. An exception carries the text
it was raised with; the SDK's `ServiceError` carries the status, the code and the `retry-after` header its handlers read.
-/

namespace OciAcmePublisher

/-- The exception classes: the publisher's own, those of its libraries, and the builtin ones between them. -/
inductive ExcClass where
  | auditError | certificateValidationError | chainBuildError | configurationError | lockUnavailableError
  | ociAuthenticationError | ociCertificateError | acmeOperationError | certificateStoreError | preflightError
  | challengeFileError | hostHeaderError | publicationServiceError | reconciliationError | rollbackError | notificationError
  | compatibilityProbeError | publisherError
  | serviceError | acmeError | requestException | clientError | sqliteError
  | osError | timeoutError | valueError | unicodeError | typeError | keyError | runtimeError | lookupError
  | exception | keyboardInterrupt | baseException
  deriving DecidableEq, Repr

/-- The direct base class. The SDK's, the ACME library's and the HTTP client's errors derive from `Exception`; `requests`
derives its error from `OSError`; a timeout is an `OSError`. -/
def ExcClass.base : ExcClass → Option ExcClass
  | .baseException => none
  | .exception | .keyboardInterrupt => some .baseException
  | .osError | .valueError | .typeError | .lookupError | .runtimeError | .serviceError | .acmeError | .clientError
  | .sqliteError | .publisherError | .challengeFileError => some .exception
  | .timeoutError | .requestException => some .osError
  | .unicodeError | .certificateValidationError | .certificateStoreError | .hostHeaderError => some .valueError
  | .chainBuildError => some .certificateValidationError
  | .keyError => some .lookupError
  | .configurationError | .lockUnavailableError => some .publisherError
  | .auditError | .ociAuthenticationError | .ociCertificateError | .acmeOperationError | .preflightError
  | .publicationServiceError | .reconciliationError | .rollbackError | .notificationError
  | .compatibilityProbeError => some .runtimeError

/-- The class and its base classes, nearest first. The hierarchy is five classes deep. -/
def ExcClass.mro (c : ExcClass) : List ExcClass :=
  let up : Option ExcClass → Option ExcClass := fun o => o.bind ExcClass.base
  [some c, up (some c), up (up (some c)), up (up (up (some c))), up (up (up (up (some c))))].filterMap id

/-- The value of a `retry-after` header read by `float`. -/
inductive HeaderSeconds where
  | finite (seconds : Rat)
  | infinite
  | nan
  deriving DecidableEq, Repr

/-- A raised exception: its class and text, or a `ServiceError` of the SDK. -/
inductive Exc where
  | of (cls : ExcClass) (message : String)
  | service (status : Nat) (code : String) (retryAfter : Option HeaderSeconds)
  deriving DecidableEq, Repr

/-- The class of an exception. -/
def Exc.cls : Exc → ExcClass
  | .of cls _ => cls
  | .service .. => .serviceError

/-- `isinstance(error, cls)`. -/
def Exc.isInstance (x : Exc) (c : ExcClass) : Bool := x.cls.mro.contains c

/-- `except (A, B, ...)`: the exception is an instance of one of the classes. -/
def Exc.isOneOf (x : Exc) (cs : List ExcClass) : Bool := cs.any x.isInstance

/-- A timeout is caught by `except OSError`. -/
example (m : String) : (Exc.of .timeoutError m).isInstance .osError = true := rfl

/-! ## What a computation raises -/

variable {α β : Type} {c : ExcClass}

theorem bind_eq_ok_iff {ε : Type} {x : Except ε α} {f : α → Except ε β} {b : β} :
    (x >>= f) = .ok b ↔ ∃ a, x = .ok a ∧ f a = .ok b := by
  cases x with
  | error e =>
    refine ⟨fun h => ?_, ?_⟩
    · cases h
    · rintro ⟨a, h, -⟩
      cases h
  | ok a =>
    refine ⟨fun h => ⟨a, rfl, h⟩, ?_⟩
    rintro ⟨a', h, hf⟩
    cases h
    exact hf

/-- The computation raises nothing but instances of the class. -/
def RaisesOnly (c : ExcClass) (e : Except Exc α) : Prop := ∀ x, e = .error x → x.isInstance c = true

theorem raisesOnly_ok (a : α) : RaisesOnly c (.ok a) := nofun

theorem raisesOnly_error {x : Exc} (hx : x.isInstance c = true) : RaisesOnly c (.error x : Except Exc α) := by
  rintro y ⟨⟩
  exact hx

theorem RaisesOnly.bind {e : Except Exc α} {f : α → Except Exc β} (he : RaisesOnly c e) (hf : ∀ a, RaisesOnly c (f a)) :
    RaisesOnly c (e >>= f) := by
  cases e with
  | ok a => exact hf a
  | error x =>
    rintro y ⟨⟩
    exact he x rfl

theorem raisesOnly_mapM {f : α → Except Exc β} (hf : ∀ a, RaisesOnly c (f a)) (l : List α) : RaisesOnly c (l.mapM f) := by
  induction l with
  | nil => exact raisesOnly_ok _
  | cons a rest ih =>
    rw [List.mapM_cons]
    exact (hf a).bind fun _ => ih.bind fun _ => raisesOnly_ok _

end OciAcmePublisher
