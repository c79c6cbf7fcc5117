import OciAcmePublisher.Tables

/-!
# Tagged tables

A table whose rows carry a tag, with a tag of the whole: every change issues new tags, for the rows it touches and for the whole. A
tag that is still the same after any number of changes names what it named before.
-/

namespace Tables

/-- A table with tags, and the tags issued so far. -/
structure Tagged (Row Key Tag : Type) (key : Row → Key) (tag : Row → Tag) where
  table : Table Row Key key
  whole : Tag
  issued : List Tag
  whole_issued : whole ∈ issued
  rows_issued : ∀ r ∈ table.rows, tag r ∈ issued

namespace Tagged

variable {Row Key Tag : Type} {key : Row → Key} {tag : Row → Tag}

/-- `b` comes of `a` by changes, each with new tags for the whole and for the rows it touches. -/
structure Moves (a b : Tagged Row Key Tag key tag) : Prop where
  kept : ∀ t ∈ a.issued, t ∈ b.issued
  whole : (b.whole = a.whole ∧ b.table = a.table) ∨ b.whole ∉ a.issued
  rows : ∀ r ∈ b.table.rows, r ∈ a.table.rows ∨ tag r ∉ a.issued

variable {a b c : Tagged Row Key Tag key tag}

theorem Moves.refl (a : Tagged Row Key Tag key tag) : Moves a a :=
  ⟨fun _ h => h, Or.inl ⟨rfl, rfl⟩, fun _ h => Or.inl h⟩

theorem Moves.trans (hab : Moves a b) (hbc : Moves b c) : Moves a c := by
  refine ⟨fun t h => hbc.kept t (hab.kept t h), ?_, fun r hr => ?_⟩
  · rcases hbc.whole with ⟨hw, ht⟩ | hnew
    · rw [hw, ht]
      exact hab.whole
    · exact Or.inr fun h => hnew (hab.kept _ h)
  · rcases hbc.rows r hr with hr | hnew
    · exact hab.rows r hr
    · exact Or.inr fun h => hnew (hab.kept _ h)

/-- A row with the tag it had is the row it was. -/
theorem Moves.row_eq (h : Moves a b) {r s : Row} (hr : r ∈ a.table.rows) (hs : s ∈ b.table.rows) (hkey : key s = key r)
    (htag : tag s = tag r) : s = r := by
  rcases h.rows s hs with hmem | hnew
  · exact Table.eq_of_key_eq hmem hr hkey
  · rw [htag] at hnew
    exact absurd (a.rows_issued r hr) hnew

/-- A whole with the tag it had is what it was. -/
theorem Moves.table_eq (h : Moves a b) (htag : b.whole = a.whole) : b.table = a.table := by
  rcases h.whole with ⟨-, ht⟩ | hnew
  · exact ht
  · rw [htag] at hnew
    exact absurd a.whole_issued hnew

end Tagged

end Tables
