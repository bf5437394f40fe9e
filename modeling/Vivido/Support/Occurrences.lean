import Mathlib.Data.List.Basic
import Mathlib.Data.Nat.Notation

/-!
Occurrences of one list in another, and the search that takes them from the left
and goes on after each: what it reports lies apart, and no occurrence begins
outside of what is reported.
-/

namespace Vivido

open List

variable {α : Type*} {needle hay : List α} {i start : ℕ}

/-- A list stands in another one from an index on. -/
def OccursAt (needle hay : List α) (i : ℕ) : Prop :=
  ∃ before after, hay = before ++ needle ++ after ∧ before.length = i

/-- The ranges of the occurrences of a list in another one, from the left and without overlap. -/
structure Leftmost (needle hay : List α) (ranges : List (ℕ × ℕ)) : Prop where
  found : ∀ range ∈ ranges, OccursAt needle hay range.1 ∧ range.2 = range.1 + needle.length
  apart : ranges.Pairwise fun front back => front.2 ≤ back.1
  complete : ∀ i, OccursAt needle hay i → ∃ range ∈ ranges, range.1 ≤ i ∧ i < range.2

theorem occursAt_iff : OccursAt needle hay i ↔
      i + needle.length ≤ hay.length ∧ (hay.drop i).take needle.length = needle := by
  constructor
  · rintro ⟨_, _, rfl, rfl⟩
    rw [append_assoc, drop_left, take_left]
    refine ⟨?_, rfl⟩
    rw [length_append, length_append]
    omega
  · rintro ⟨_, htake⟩
    refine ⟨hay.take i, (hay.drop i).drop needle.length, ?_, ?_⟩
    · have hsplit := take_append_drop needle.length (hay.drop i)
      rw [htake] at hsplit
      rw [append_assoc, hsplit, take_append_drop]
    · rw [length_take]
      omega

theorem occursAt_drop (hstart : start ≤ hay.length) :
    OccursAt needle (hay.drop start) i ↔ OccursAt needle hay (start + i) := by
  rw [occursAt_iff, occursAt_iff, length_drop, drop_drop]
  have hlength : i + needle.length ≤ hay.length - start ↔
      start + i + needle.length ≤ hay.length := by omega
  rw [hlength]

/-- No occurrence begins too late to fit. -/
theorem not_occursAt_of_lt (h : hay.length < i + needle.length) : ¬OccursAt needle hay i :=
  fun hoccurs => absurd (occursAt_iff.mp hoccurs).1 (Nat.not_le.mpr h)

end Vivido
