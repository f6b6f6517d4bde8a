import Mathlib.Data.List.Infix

/-!
First occurrence of a pattern in a list, from the front or from a given position on. This
is the search of `strstr` and of the string class's `find`.
-/

namespace EasyStressTest.Search

variable {α : Type*} [DecidableEq α]

/-- The pattern stands in the text at this position. -/
def OccursAt (pattern text : List α) (position : Nat) : Prop := pattern <+: text.drop position

instance (pattern text : List α) (position : Nat) : Decidable (OccursAt pattern text position) :=
  inferInstanceAs (Decidable (pattern <+: text.drop position))

/-- Position of the first occurrence. -/
def search (pattern : List α) : List α → Option Nat
  | [] => if pattern = [] then some 0 else none
  | first :: rest =>
      if pattern <+: first :: rest then some 0 else (search pattern rest).map (· + 1)

/-- Position of the first occurrence that does not begin before `offset`. -/
def find (pattern text : List α) (offset : Nat) : Option Nat :=
  (search pattern (text.drop offset)).map (· + offset)

omit [DecidableEq α] in
theorem occursAt_drop (pattern text : List α) (offset position : Nat) :
    OccursAt pattern (text.drop offset) position ↔ OccursAt pattern text (offset + position) := by
  simp only [OccursAt, List.drop_drop]

omit [DecidableEq α] in
theorem occursAt_bound {pattern text : List α} {position : Nat} (nonempty : pattern ≠ [])
    (occurs : OccursAt pattern text position) : position + pattern.length ≤ text.length := by
  have short := List.IsPrefix.length_le occurs
  have positive := List.length_pos_of_ne_nil nonempty
  rw [List.length_drop] at short
  omega

omit [DecidableEq α] in
/-- An occurrence in a prefix of the text is an occurrence that ends inside the prefix. -/
theorem occursAt_take {pattern text : List α} {position size : Nat} (nonempty : pattern ≠ []) :
    OccursAt pattern (text.take size) position ↔
      OccursAt pattern text position ∧ position + pattern.length ≤ size := by
  apply Iff.intro
  · intro occurs
    have inside := occursAt_bound nonempty occurs
    rw [List.length_take] at inside
    refine ⟨?_, by omega⟩
    exact List.IsPrefix.trans occurs ((List.take_prefix size text).drop position)
  · rintro ⟨occurs, inside⟩
    have covered : pattern.length ≤ size - position := by omega
    have cut := List.IsPrefix.take occurs (size - position)
    rw [List.take_of_length_le covered] at cut
    simpa only [OccursAt, List.drop_take] using cut

theorem search_eq_some {pattern text : List α} {position : Nat} (nonempty : pattern ≠ []) :
    search pattern text = some position ↔
      OccursAt pattern text position ∧ ∀ earlier < position, ¬OccursAt pattern text earlier := by
  induction text generalizing position with
  | nil =>
    simp [search, nonempty, OccursAt]
  | cons first rest ih =>
    have here : OccursAt pattern (first :: rest) 0 ↔ pattern <+: first :: rest := Iff.rfl
    have later : ∀ k, OccursAt pattern (first :: rest) (k + 1) ↔ OccursAt pattern rest k :=
      fun _ => Iff.rfl
    by_cases now : pattern <+: first :: rest
    · simp only [search, if_pos now, Option.some.injEq]
      apply Iff.intro
      · intro same
        subst same
        exact ⟨now, fun earlier impossible => absurd impossible (Nat.not_lt_zero _)⟩
      · intro found
        by_contra different
        exact found.2 0 (by omega) now
    · simp only [search, if_neg now, Option.map_eq_some_iff]
      apply Iff.intro
      · rintro ⟨k, found, same⟩
        subst same
        have tail := ih.mp found
        refine ⟨(later k).mpr tail.1, ?_⟩
        intro earlier before
        cases earlier with
        | zero => exact fun occurs => now (here.mp occurs)
        | succ earlier => exact fun occurs => tail.2 earlier (by omega) ((later earlier).mp occurs)
      · intro found
        cases position with
        | zero => exact absurd (here.mp found.1) now
        | succ k =>
          refine ⟨k, ih.mpr ⟨(later k).mp found.1, ?_⟩, rfl⟩
          intro earlier before occurs
          exact found.2 (earlier + 1) (by omega) ((later earlier).mpr occurs)

theorem search_eq_none {pattern text : List α} (nonempty : pattern ≠ []) :
    search pattern text = none ↔ ∀ position, ¬OccursAt pattern text position := by
  induction text with
  | nil => simp [search, nonempty, OccursAt]
  | cons first rest ih =>
    by_cases now : pattern <+: first :: rest
    · simp only [search, if_pos now]
      apply Iff.intro
      · intro impossible
        cases impossible
      · intro absent
        exact absurd now (absent 0)
    · simp only [search, if_neg now, Option.map_eq_none_iff, ih]
      apply Iff.intro
      · intro absent position
        cases position with
        | zero => exact now
        | succ position => exact absent position
      · intro absent position
        exact absent (position + 1)

theorem find_eq_some {pattern text : List α} {offset position : Nat} (nonempty : pattern ≠ []) :
    find pattern text offset = some position ↔
      offset ≤ position ∧ OccursAt pattern text position ∧
        ∀ earlier, offset ≤ earlier → earlier < position → ¬OccursAt pattern text earlier := by
  simp only [find, Option.map_eq_some_iff, search_eq_some nonempty, occursAt_drop]
  apply Iff.intro
  · rintro ⟨k, found, same⟩
    subst same
    refine ⟨by omega, by simpa only [Nat.add_comm] using found.1, ?_⟩
    intro earlier after before occurs
    exact found.2 (earlier - offset) (by omega) (by rwa [Nat.add_sub_cancel' after])
  · rintro ⟨after, occurs, first⟩
    refine ⟨position - offset, ⟨by rwa [Nat.add_sub_cancel' after], ?_⟩, by omega⟩
    intro earlier before
    exact first (offset + earlier) (by omega) (by omega)

theorem find_eq_none {pattern text : List α} {offset : Nat} (nonempty : pattern ≠ []) :
    find pattern text offset = none ↔ ∀ position, offset ≤ position → ¬OccursAt pattern text position := by
  simp only [find, Option.map_eq_none_iff, search_eq_none nonempty, occursAt_drop]
  apply Iff.intro
  · intro absent position after occurs
    exact absent (position - offset) (by rwa [Nat.add_sub_cancel' after])
  · intro absent position
    exact absent (offset + position) (by omega)

theorem find_isSome {pattern text : List α} {offset : Nat} (nonempty : pattern ≠ []) :
    (find pattern text offset).isSome = true ↔
      ∃ position, offset ≤ position ∧ OccursAt pattern text position := by
  rw [Option.isSome_iff_ne_none, ne_eq, find_eq_none nonempty]
  push Not
  rfl

end EasyStressTest.Search
