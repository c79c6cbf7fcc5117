import Mathlib.Data.List.Nodup
import Mathlib.Tactic.Common

/-!
# Tables with a primary key

A table is a list of rows, in the order they were inserted, with pairwise distinct keys. The operations are the ones SQL
statements need: insert, conditional update, upsert, and the number of rows an update changed.
-/

namespace Tables

/-- Rows with pairwise distinct keys. -/
structure Table (Row Key : Type) (key : Row → Key) where
  rows : List Row
  nodup : (rows.map key).Nodup

variable {Row Key : Type} {key : Row → Key}

namespace Table

def empty : Table Row Key key := ⟨[], List.nodup_nil⟩

/-- `INSERT`: none where a row has the key already. -/
def insert [DecidableEq Key] (t : Table Row Key key) (r : Row) : Option (Table Row Key key) :=
  if h : key r ∈ t.rows.map key then none
  else some ⟨t.rows ++ [r], by
    rw [List.map_append, List.map_singleton, List.nodup_append]
    refine ⟨t.nodup, List.nodup_singleton _, ?_⟩
    intro a ha b hb
    rw [List.mem_singleton] at hb
    subst hb
    exact fun hab => h (hab ▸ ha)⟩

/-- `UPDATE .. SET f WHERE p`, for an assignment that leaves the key alone. -/
def updateWhere (t : Table Row Key key) (p : Row → Bool) (f : Row → Row) (hf : ∀ r, key (f r) = key r) :
    Table Row Key key :=
  ⟨t.rows.map fun r => if p r then f r else r, by
    have hk : (t.rows.map fun r => if p r then f r else r).map key = t.rows.map key := by
      rw [List.map_map]
      refine List.map_congr_left fun r _ => ?_
      simp only [Function.comp]
      split
      · exact hf r
      · rfl
    rw [hk]
    exact t.nodup⟩

/-- `cursor.rowcount` of an update. -/
def countWhere (t : Table Row Key key) (p : Row → Bool) : Nat := (t.rows.filter p).length

/-- `INSERT .. ON CONFLICT DO UPDATE SET f`: update the row with the key of `r`, or insert `r`. -/
def upsert [DecidableEq Key] (t : Table Row Key key) (r : Row) (f : Row → Row) (hf : ∀ r, key (f r) = key r) :
    Table Row Key key :=
  match t.insert r with
  | some t' => t'
  | none => t.updateWhere (fun x => key x = key r) f hf

theorem insert_eq_some_iff [DecidableEq Key] {t t' : Table Row Key key} {r : Row} :
    t.insert r = some t' ↔ key r ∉ t.rows.map key ∧ t'.rows = t.rows ++ [r] := by
  unfold insert
  split
  · simp_all
  · rename_i h
    simp only [Option.some.injEq]
    constructor
    · rintro rfl
      exact ⟨h, rfl⟩
    · rintro ⟨-, hr⟩
      cases t'
      simp only at hr
      simp [hr]

theorem rows_updateWhere (t : Table Row Key key) (p : Row → Bool) (f : Row → Row) (hf : ∀ r, key (f r) = key r) :
    (t.updateWhere p f hf).rows = t.rows.map fun r => if p r then f r else r := rfl

/-- A row of an updated table is a row the condition spares, or the update of a row it selects. -/
theorem mem_updateWhere {t : Table Row Key key} {p : Row → Bool} {f : Row → Row} {hf : ∀ r, key (f r) = key r}
    {x : Row} :
    x ∈ (t.updateWhere p f hf).rows ↔ (∃ r ∈ t.rows, p r = true ∧ f r = x) ∨ (x ∈ t.rows ∧ p x = false) := by
  rw [rows_updateWhere, List.mem_map]
  constructor
  · rintro ⟨r, hr, hx⟩
    cases hp : p r with
    | true =>
      rw [hp, if_pos rfl] at hx
      exact Or.inl ⟨r, hr, hp, hx⟩
    | false =>
      rw [hp, if_neg (by simp)] at hx
      subst hx
      exact Or.inr ⟨hr, hp⟩
  · rintro (⟨r, hr, hp, hx⟩ | ⟨hr, hp⟩)
    · exact ⟨r, hr, by rw [hp, if_pos rfl, hx]⟩
    · exact ⟨x, hr, by rw [hp, if_neg (by simp)]⟩

/-- Two rows of a table with one key are one row. -/
theorem eq_of_key_eq {t : Table Row Key key} {a b : Row} (ha : a ∈ t.rows) (hb : b ∈ t.rows) (h : key a = key b) :
    a = b :=
  List.inj_on_of_nodup_map t.nodup ha hb h

/-- The rows with a key that is there are one row. -/
theorem countWhere_key [DecidableEq Key] {t : Table Row Key key} {r : Row} (hr : r ∈ t.rows) :
    t.countWhere (fun x => key x = key r) = 1 := by
  have hcount : (t.rows.map key).count (key r) = 1 :=
    List.count_eq_one_of_mem t.nodup (List.mem_map_of_mem hr)
  rw [List.count_eq_countP, List.countP_map] at hcount
  rw [countWhere, ← List.countP_eq_length_filter, ← hcount]
  refine List.countP_congr fun x _ => ?_
  simp only [Function.comp, decide_eq_true_eq, beq_iff_eq]

/-- The row under a key after an upsert: the update of the row that was there, else the new one. -/
theorem find?_upsert [DecidableEq Key] (t : Table Row Key key) (r : Row) {f : Row → Row} (hf : ∀ r, key (f r) = key r) (k : Key) :
    (t.upsert r f hf).rows.find? (fun x => key x = k) =
      if key r = k then some ((t.rows.find? fun x => key x = k).elim r f) else t.rows.find? fun x => key x = k := by
  unfold upsert
  cases hinsert : t.insert r with
  | some t' =>
    obtain ⟨hnew, hrows⟩ := insert_eq_some_iff.1 hinsert
    simp only [hrows, List.find?_append, List.find?_singleton]
    by_cases hk : key r = k
    · have hnone : t.rows.find? (fun x => key x = k) = none := by
        rw [List.find?_eq_none]
        intro x hx hxk
        rw [decide_eq_true_eq, ← hk] at hxk
        exact hnew (hxk ▸ List.mem_map_of_mem hx)
      simp [hnone, hk]
    · simp [hk]
  | none =>
    have hthere : key r ∈ t.rows.map key := by
      by_contra hnew
      unfold insert at hinsert
      rw [dif_neg hnew] at hinsert
      cases hinsert
    simp only [rows_updateWhere, decide_eq_true_eq]
    rw [List.find?_map]
    have hkeys : ((fun x => decide (key x = k)) ∘ fun x => if key x = key r then f x else x) = fun x => decide (key x = k) := by
      funext x
      by_cases hx : key x = key r <;> simp [hx, hf]
    rw [hkeys]
    by_cases hk : key r = k
    · obtain ⟨x, hx, hxr⟩ := List.mem_map.1 hthere
      cases hfound : t.rows.find? fun x => key x = k with
      | none => exact absurd (decide_eq_true (hxr.trans hk)) (List.find?_eq_none.1 hfound x hx)
      | some y =>
        have hy : key y = k := by simpa using List.find?_some hfound
        simp [hk, hy]
    · cases hfound : t.rows.find? fun x => key x = k with
      | none => simp [hk]
      | some y =>
        have hy : key y = k := by simpa using List.find?_some hfound
        simp [hk, hy, Ne.symm hk]

end Table

end Tables
