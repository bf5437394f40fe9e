import Mathlib.Data.List.Basic
import Mathlib.Algebra.GroupWithZero.Nat

/-!
The longest beginning of a list whose weights fit a capacity.
-/

namespace Vivido.Fitting

open List

variable {α : Type*} (weight : α → ℕ)

def total (items : List α) : ℕ := (items.map weight).sum

/-- Takes items as long as they fit. -/
def fitting : ℕ → List α → List α
  | _, [] => []
  | room, item :: rest =>
    if weight item ≤ room then item :: fitting (room - weight item) rest else []

@[simp] theorem total_nil : total weight [] = 0 := rfl

@[simp] theorem total_cons (item : α) (rest : List α) :
    total weight (item :: rest) = weight item + total weight rest := by
  simp [total]

@[simp] theorem total_reverse (items : List α) :
    total weight items.reverse = total weight items := by
  simp [total, sum_reverse]

theorem fitting_isPrefix (room : ℕ) (items : List α) : fitting weight room items <+: items := by
  induction items generalizing room with
  | nil => exact prefix_refl _
  | cons _ _ ih =>
    unfold fitting
    split
    · exact List.cons_prefix_cons.mpr ⟨rfl, ih _⟩
    · exact nil_prefix

theorem total_fitting_le (room : ℕ) (items : List α) :
    total weight (fitting weight room items) ≤ room := by
  induction items generalizing room with
  | nil => exact Nat.zero_le _
  | cons item _ ih =>
    unfold fitting
    split
    · have := ih (room - weight item)
      rw [total_cons]
      omega
    · exact Nat.zero_le _

/-- No other beginning that fits is longer. -/
theorem prefix_fitting {room : ℕ} {part items : List α} (hpart : part <+: items)
    (hfits : total weight part ≤ room) : part <+: fitting weight room items := by
  induction items generalizing room part with
  | nil => exact hpart
  | cons _ _ ih =>
    cases part with
    | nil => exact nil_prefix
    | cons =>
      obtain ⟨rfl, hrest⟩ := List.cons_prefix_cons.mp hpart
      rw [total_cons] at hfits
      unfold fitting
      rw [if_pos (by omega)]
      exact List.cons_prefix_cons.mpr ⟨rfl, ih hrest (by omega)⟩

theorem fitting_of_total_le {room : ℕ} {items : List α} (h : total weight items ≤ room) :
    fitting weight room items = items :=
  (prefix_fitting weight (prefix_refl _) h).eq_of_length_le
    (fitting_isPrefix weight room items).length_le |>.symm

end Vivido.Fitting
