import Mathlib.Data.List.Infix
import Mathlib.Data.Nat.Notation

/-!
A text cut at the first occurrence of another one, and all of the occurrences
replaced from the left, none of which overlaps the one before.
-/

namespace Vivido

open List

variable {α : Type*} [DecidableEq α] {needle text before after : List α}

def splitOnce (needle : List α) : List α → Option (List α × List α)
  | [] => if needle = [] then some ([], []) else none
  | item :: rest =>
    if needle.isPrefixOf (item :: rest) then some ([], (item :: rest).drop needle.length)
    else (splitOnce needle rest).map fun parts => (item :: parts.1, parts.2)

theorem splitOnce_eq_none : splitOnce needle text = none ↔ ¬needle <:+: text := by
  induction text with
  | nil => simp [splitOnce]
  | cons item rest ih =>
    rw [splitOnce, infix_cons_iff]
    split <;> rename_i h <;> rw [List.isPrefixOf_iff_prefix] at h <;> simp [h, ih]

/-- The front part is as short as can be: the text does not occur earlier, even in part. -/
theorem splitOnce_eq_some (hneedle : needle ≠ []) : splitOnce needle text = some (before, after) ↔
      text = before ++ needle ++ after ∧ ¬needle <:+: before ++ needle.dropLast := by
  induction text generalizing before with
  | nil => simp [splitOnce, hneedle]
  | cons item rest ih =>
    rw [splitOnce]
    split
    · rename_i hstarts
      obtain ⟨more, hmore⟩ := List.isPrefixOf_iff_prefix.mp hstarts
      rw [← hmore, drop_left, Option.some.injEq, Prod.mk.injEq]
      constructor
      · rintro ⟨rfl, rfl⟩
        refine ⟨rfl, fun hoccurs => ?_⟩
        have hle := hoccurs.length_le
        have hpos := List.length_pos_iff.mpr hneedle
        rw [nil_append, length_dropLast] at hle
        omega
      · rintro ⟨htext, hnot⟩
        have hshort : needle <+: before ++ needle ++ after := ⟨more, htext⟩
        cases before with
        | nil => exact ⟨rfl, append_cancel_left htext⟩
        | cons first before =>
          refine absurd (List.IsPrefix.isInfix ?_) hnot
          have hlong : first :: before ++ needle.dropLast <+: first :: before ++ needle ++ after :=
            ((prefix_append_right_inj _).mpr ( dropLast_prefix _)).trans
              (prefix_append _ _)
          apply prefix_of_prefix_length_le hshort hlong
          simp
          omega
    · rename_i hstarts
      rw [List.isPrefixOf_iff_prefix] at hstarts
      simp only [Option.map_eq_some_iff, Prod.exists, Prod.mk.injEq]
      constructor
      · rintro ⟨before, after, hrest, rfl, rfl⟩
        obtain ⟨rfl, hnot⟩ := ih.mp hrest
        refine ⟨rfl, fun hoccurs => ?_⟩
        rcases List.infix_cons_iff.mp hoccurs with hfirst | hlater
        · apply hstarts
          refine hfirst.trans ?_
          rw [append_assoc]
          exact List.cons_prefix_cons.mpr ⟨rfl, (prefix_append_right_inj _).mpr
            (( dropLast_prefix _).trans (prefix_append _ _))⟩
        · exact hnot hlater
      · rintro ⟨htext, hnot⟩
        cases before with
        | nil => exact absurd ⟨after, htext.symm⟩ hstarts
        | cons _ before =>
          obtain ⟨rfl, rfl⟩ := List.cons.inj htext
          exact ⟨before, after, ih.mpr ⟨rfl, fun hoccurs =>
            hnot (List.infix_cons_iff.mpr (Or.inr hoccurs))⟩, rfl, rfl⟩

end Vivido
