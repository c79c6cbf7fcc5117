import Mathlib.Data.List.Nodup
import Mathlib.Data.List.Perm.Subperm

/-!
# Outranked elements

Keeping the `k` first elements of a strict order means giving up those that `k` others outrank. Which these are does not depend on
how the elements are listed, and giving some of them up changes nothing for the rest: what outranks an element that is given up can
be taken among the kept ones.
-/

namespace Orders

variable {α : Type} {r : α → α → Prop} {P Q : α → Prop} {k : Nat} {x : α} {s : List α}

/-- At least `k` elements with `P` stand before `x`. -/
def Outranked (r : α → α → Prop) (k : Nat) (P : α → Prop) (x : α) : Prop :=
  ∃ kept : List α, kept.Nodup ∧ kept.length = k ∧ ∀ u ∈ kept, P u ∧ r u x

theorem Outranked.mono (h : Outranked r k P x) (hPQ : ∀ u, P u → r u x → Q u) : Outranked r k Q x := by
  obtain ⟨kept, hnodup, hlength, hkept⟩ := h
  exact ⟨kept, hnodup, hlength, fun u hu => ⟨hPQ u (hkept u hu).1 (hkept u hu).2, (hkept u hu).2⟩⟩

section

variable (hs : s.Pairwise r) (hasymm : ∀ a b, r a b → ¬r b a)
include hs hasymm

theorem nodup_of_strict : s.Nodup := by
  refine hs.imp fun {a b} hab heq => ?_
  subst heq
  exact hasymm a a hab hab

/-- What stands in the first part of a strictly ordered list is not in the rest. -/
theorem not_mem_drop_of_mem_take {u : α} (hu : u ∈ s.take k) : u ∉ s.drop k := by
  intro hd
  rw [← List.take_append_drop k s, List.pairwise_append] at hs
  have huu := hs.2.2 u hu u hd
  exact hasymm u u huu huu

omit hasymm in
theorem before_of_take_drop {u : α} (hu : u ∈ s.take k) (hx : x ∈ s.drop k) : r u x := by
  rw [← List.take_append_drop k s, List.pairwise_append] at hs
  exact hs.2.2 u hu x hx

/-- Behind the first `k` of a strictly ordered list stand the elements that `k` others outrank. -/
theorem mem_drop_iff : x ∈ s.drop k ↔ x ∈ s ∧ Outranked r k (· ∈ s) x := by
  have hnodup := nodup_of_strict hs hasymm
  constructor
  · intro hx
    refine ⟨List.mem_of_mem_drop hx, s.take k, hnodup.sublist (List.take_sublist k s), ?_, fun u hu => ?_⟩
    · have hlong : 0 < (s.drop k).length := List.length_pos_of_mem hx
      rw [List.length_drop] at hlong
      rw [List.length_take]
      omega
    · exact ⟨List.mem_of_mem_take hu, before_of_take_drop hs hu hx⟩
  · rintro ⟨hx, kept, hkeptNodup, hlength, hkept⟩
    by_contra hdrop
    have htake : x ∈ s.take k := by
      rw [← List.take_append_drop k s, List.mem_append] at hx
      exact hx.resolve_right hdrop
    have hsub : ∀ u ∈ x :: kept, u ∈ s.take k := by
      intro u hu
      rcases List.mem_cons.1 hu with rfl | hu
      · exact htake
      · obtain ⟨hus, hux⟩ := hkept u hu
        rw [← List.take_append_drop k s, List.mem_append] at hus
        exact hus.resolve_right fun hlate => hasymm u x hux (before_of_take_drop hs htake hlate)
    have hfresh : x ∉ kept := fun hmem => hasymm x x (hkept x hmem).2 (hkept x hmem).2
    have hle := ((List.nodup_cons.2 ⟨hfresh, hkeptNodup⟩).subperm hsub).length_le
    rw [List.length_cons, hlength, List.length_take] at hle
    omega

/-- An outranked element is outranked by elements that are not outranked themselves. -/
theorem outranked_by_kept (hx : x ∈ s) (h : Outranked r k (· ∈ s) x) :
    Outranked r k (fun u => u ∈ s ∧ ¬Outranked r k (· ∈ s) u) x := by
  have hdrop := (mem_drop_iff hs hasymm).2 ⟨hx, h⟩
  obtain ⟨hnodup, hlength⟩ : (s.take k).Nodup ∧ (s.take k).length = k := by
    have hlong : 0 < (s.drop k).length := List.length_pos_of_mem hdrop
    rw [List.length_drop] at hlong
    refine ⟨(nodup_of_strict hs hasymm).sublist (List.take_sublist k s), ?_⟩
    rw [List.length_take]
    omega
  refine ⟨s.take k, hnodup, hlength, fun u hu => ⟨⟨List.mem_of_mem_take hu, fun hout => ?_⟩, before_of_take_drop hs hu hdrop⟩⟩
  exact not_mem_drop_of_mem_take hs hasymm hu ((mem_drop_iff hs hasymm).2 ⟨List.mem_of_mem_take hu, hout⟩)

end

end Orders
