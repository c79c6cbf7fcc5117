import OciAcmePublisher.Lemmas.RedactedBlocks
import OciAcmePublisher.Lemmas.RedactedUrls

/-!
# What redaction hides

The body of a PEM block is hidden where no earlier block is left open, and the remainder of a URL where no bearer token takes its
beginning or begins at its end. A field is redacted as its texts and keys are.
-/

namespace OciAcmePublisher

namespace Redaction

/-- Texts that are the same, or differ in one secret that is hidden: the body of a PEM block, or the remainder of a URL. -/
inductive OneSecret : List Char → List Char → Prop
  | same (value) : OneSecret value value
  | body {before label body body'} (after) : Sealed before → label ≠ [] → '-' ∉ label → '-' ∉ body → '-' ∉ body' →
      OneSecret (before ++ (pemText label body ++ after)) (before ++ (pemText label body' ++ after))
  | remainder {before after u u'} : Covered before after → Delimited after → Remainder u → Remainder u' →
      OneSecret (before ++ (scheme ++ (u ++ after))) (before ++ (scheme ++ (u' ++ after)))

end Redaction

namespace EventValue

variable {Scalar : Type}

mutual

/-- Values that differ only in their texts and keys, related at each of them. -/
inductive Related (R : List Char → List Char → Prop) : EventValue Scalar → EventValue Scalar → Prop
  | text {value value'} : R value value' → Related R (.text value) (.text value')
  | scalar (value) : Related R (.scalar value) (.scalar value)
  | mapping {items items'} : RelatedItems R items items' → Related R (.mapping items) (.mapping items')
  | sequence {items items'} : RelatedAll R items items' → Related R (.sequence items) (.sequence items')
  | unsupported : Related R .unsupported .unsupported

inductive RelatedItems (R : List Char → List Char → Prop) :
    List (List Char × EventValue Scalar) → List (List Char × EventValue Scalar) → Prop
  | nil : RelatedItems R [] []
  | cons {key key' value value' items items'} : R key key' → Related R value value' → RelatedItems R items items' →
      RelatedItems R ((key, value) :: items) ((key', value') :: items')

inductive RelatedAll (R : List Char → List Char → Prop) : List (EventValue Scalar) → List (EventValue Scalar) → Prop
  | nil : RelatedAll R [] []
  | cons {value value' items items'} : Related R value value' → RelatedAll R items items' → RelatedAll R (value :: items) (value' :: items')

end

end EventValue

namespace RedactionAux

open Redaction

/-! ## Fields -/

section Fields

variable {Scalar : Type} {R : List Char → List Char → Prop}

open EventValue

mutual

/-- The walk makes the same of values that are redacted alike at each text and key. -/
theorem redactValue_eq (hR : ∀ value value', R value value' → redact value = redact value') :
    ∀ {value value' : EventValue Scalar}, Related R value value' → redactValue value = redactValue value'
  | _, _, .text h => by rw [redactValue, redactValue, hR _ _ h]
  | _, _, .scalar _ => rfl
  | _, _, .mapping h => by rw [redactValue, redactValue, redactItems_eq hR h]
  | _, _, .sequence h => by rw [redactValue, redactValue, redactAll_eq hR h]
  | _, _, .unsupported => rfl

theorem redactItems_eq (hR : ∀ value value', R value value' → redact value = redact value') :
    ∀ {items items' : List (List Char × EventValue Scalar)} {redacted}, RelatedItems R items items' →
      redactItems items redacted = redactItems items' redacted
  | _, _, _, .nil => rfl
  | _, _, _, .cons hkey hvalue hitems => by
    rw [redactItems, redactItems, hR _ _ hkey, redactValue_eq hR hvalue]
    exact redactItems_eq hR hitems

theorem redactAll_eq (hR : ∀ value value', R value value' → redact value = redact value') :
    ∀ {items items' : List (EventValue Scalar)}, RelatedAll R items items' → redactAll items = redactAll items'
  | _, _, .nil => rfl
  | _, _, .cons hvalue hitems => by rw [redactAll, redactAll, redactValue_eq hR hvalue, redactAll_eq hR hitems]

end

end Fields

end RedactionAux

open Redaction RedactionAux

/-- Redaction hides the body of a PEM block behind a text if and only if no header in it is left open, and the remainder of a URL between
two texts if and only if a match takes the URL early, or no bearer token takes its beginning or begins at its end. It hides as much at
every key and leaf of a field. -/
theorem secrets_hidden_iff {Scalar : Type} (before after : List Char) (value value' : EventValue Scalar) :
    (HidesBody before ↔ Sealed before) ∧ (Delimited after → (HidesRemainder before after ↔ Covered before after)) ∧
      (value.Related OneSecret value' → value.redactValue = value'.redactValue) := by
  refine ⟨⟨sealed_of_hidden, hidden_of_sealed⟩, fun hq => ⟨covered_of_hidden hq, hidden_of_covered hq⟩, fun h => ?_⟩
  refine redactValue_eq (fun text text' htext => ?_) h
  cases htext with
  | same => rfl
  | body after hsealed hne hlabel hbody hbody' => exact hidden_of_sealed hsealed _ _ _ after hne hlabel hbody hbody'
  | remainder hcovered hq hu hu' => exact hidden_of_covered hq hcovered _ _ hu hu'

namespace RedactedSecretsSample

/-- A field with a URL for a key, and a PEM block in the list below it. -/
def field (remainder body : String) : EventValue Nat :=
  .mapping [([] ++ (scheme ++ (remainder.toList ++ " (webhook)".toList)),
    .sequence [.text ("key ".toList ++ (pemText "PRIVATE KEY".toList body.toList ++ "\n".toList)), .scalar 7])]

theorem sealed_key : Sealed "key ".toList :=
  .keep (by decide) (.keep (by decide) (.keep (by decide) (.keep (by decide) .nil)))

theorem covered_webhook : Covered [] " (webhook)".toList :=
  Or.inr ⟨fun h => (by cases h), by decide +kernel⟩

end RedactedSecretsSample

open RedactedSecretsSample

/-- Another address and another key leave the same field. -/
theorem secrets_hidden_iff_sample : HidesBody "key ".toList ∧ HidesRemainder [] " (webhook)".toList ∧
    (field "hooks.example/a" "\nMIIE\n").redactValue = (field "b_1" "\nMIIC+/=\n").redactValue := by
  have hq : Delimited " (webhook)".toList := fun c l h => by
    cases h
    rfl
  have hfields : (field "hooks.example/a" "\nMIIE\n").Related OneSecret (field "b_1" "\nMIIC+/=\n") :=
    .mapping (.cons (.remainder covered_webhook hq (remainder_of_all (by decide)) (remainder_of_all (by decide)))
      (.sequence (.cons (.text (.body _ sealed_key (by decide) (by decide) (by decide) (by decide))) (.cons (.scalar 7) .nil))) .nil)
  obtain ⟨hbody, -, hvalue⟩ := secrets_hidden_iff "key ".toList [] (field "hooks.example/a" "\nMIIE\n") (field "b_1" "\nMIIC+/=\n")
  obtain ⟨-, hremainder, -⟩ := secrets_hidden_iff [] " (webhook)".toList (.scalar 7) (.scalar 7)
  exact ⟨hbody.2 sealed_key, (hremainder hq).2 covered_webhook, hvalue hfields⟩

/-- An open header takes a block for its contents, which a body ends early; a bearer token takes the `https` of a URL and leaves the
rest. -/
theorem secrets_hidden_false : ¬HidesBody "-----BEGIN A-----".toList ∧ Delimited [] ∧ ¬HidesRemainder "bearer ".toList [] := by
  refine ⟨fun h => ?_, fun c l h => (by cases h), fun h => ?_⟩
  · have hsame := h "B".toList "END q".toList "a".toList [] (by decide) (by decide) (by decide) (by decide)
    exact absurd hsame (by decide +kernel)
  · have hsame := h "x".toList "y".toList (remainder_of_all (by decide)) (remainder_of_all (by decide))
    exact absurd hsame (by decide +kernel)

end OciAcmePublisher
