import OciAcmePublisher.AcmeService
import OciAcmePublisher.Effects.Eval
import OciAcmePublisher.Simulation

/-!
# Chain selection

The finalized order offers a primary chain and alternatives, and `_select_chain` looks at them in turn. What a look at one of them
shows is its verdict. A candidate that is blank, that does not parse or that the validator or the chain builder refuses is passed
over, and the first accepted one is returned. A candidate of a single certificate is not passed over: the `AcmeOperationError` it
raises inside the `try` is none of the classes the loop catches, so the search ends there, whatever comes after.
-/

namespace OciAcmePublisher

open Effects

namespace ChainSelectionAux

/-! ## The exceptions of the validators -/

/-- The computation raises nothing but refusals of the certificate. -/
def Refuses {α : Type} (e : Except Exc α) : Prop :=
  ∀ x, e = .error x → x.isInstance .certificateValidationError = true

theorem Refuses.bind {α β : Type} {e : Except Exc α} {f : α → Except Exc β} (he : Refuses e) (hf : ∀ a, Refuses (f a)) :
    Refuses (e >>= f) :=
  RaisesOnly.bind he hf

end ChainSelectionAux

namespace NativeAcmeService

/-! ## Verdicts -/

/-- What a look at one candidate of the finalized order shows. -/
inductive Verdict where
  /-- The text is empty. -/
  | blank
  /-- The text is not ASCII, or is no sequence of PEM certificates. -/
  | unreadable
  /-- It parses to fewer than two certificates. -/
  | leafOnly
  /-- It parses to at least two, and the validator or the chain builder refuses them. -/
  | refused
  | accepted (material : LineageMaterial)
  deriving DecidableEq

section

variable {W : Type} (Γ : Ctx) (config : AppConfig) (certificate : CertificateConfig) (privateKey : PrivateKey)
  (privateKeyPem : Bytes) (h : Answers publisher Exc W)

end

namespace ChainSelectionAux

open OciAcmePublisher.ChainSelectionAux

variable {W : Type} {Γ : Ctx} {config : AppConfig} {certificate : CertificateConfig} {privateKey : PrivateKey}
  {privateKeyPem : Bytes} {h : Answers publisher Exc W} {w w' : W}

/-- The classes the loop catches. -/
abbrev passedOver (x : Exc) : Prop := x.isOneOf [.certificateValidationError, .chainBuildError, .valueError] = true

/-- What the examination of a candidate's certificates comes to. -/
def Concludes (p : Action LineageMaterial) (h : Answers publisher Exc W) (w : W) : Verdict × W → Prop
  | (.accepted material, w') => p.eval h w = (.returned material, w')
  | (.leafOnly, w') =>
    p.eval h w = (.raised (acmeOperationError "ACME response did not contain an intermediate chain"), w')
  | (.blank, _) => True
  | (.unreadable, w') | (.refused, w') => ∃ x, p.eval h w = (.raised x, w') ∧ passedOver x

end ChainSelectionAux

/-- The candidates of the finalized order, the primary chain first. -/
def candidates (order : FinalizedOrder) : List String := order.fullchainPem :: order.alternativeFullchainsPem

end NativeAcmeService

end OciAcmePublisher
