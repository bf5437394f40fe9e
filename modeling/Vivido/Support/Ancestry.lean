import Mathlib.Data.Finset.Card
import Mathlib.Data.Finset.Insert

/-!
Elements with links to their parents. The ones that come under a root are found
by sweeps over all elements, until a sweep finds no more; the depth of one is
found by a walk to the top.
-/

namespace Vivido

variable {α : Type*} (parent : α → Option α)

/-- A root and all that come under it. -/
inductive Below (root : α) : α → Prop
  | self : Below root root
  | child {a b : α} (h : parent a = some b) (hb : Below root b) : Below root a

/-- The steps from an element to the top. -/
def depth : ℕ → α → Option ℕ
  | 0, _ => none
  | fuel + 1, a =>
    match parent a with
    | none => some 0
    | some b => (depth fuel b).map (· + 1)

/-- No element is above itself: a parent has the lesser rank. -/
def Ranked (rank : α → ℕ) : Prop := ∀ a b, parent a = some b → rank b < rank a

section Sweeping

variable [DecidableEq α]

/-- Go through all elements once; those whose parent is found are found too. -/
def sweep (order : List α) (found : Finset α) : Finset α :=
  order.foldl (fun found a => if (parent a).any (· ∈ found) then insert a found else found) found

/-- Sweep until nothing more is found. -/
def saturate (order : List α) : ℕ → Finset α → Option (Finset α)
  | 0, _ => none
  | fuel + 1, found =>
    let swept := sweep parent order found
    if swept.card = found.card then some swept else saturate order fuel swept

variable {parent} {order : List α} {found : Finset α} {root a b : α}

theorem sweep_cons : sweep parent (a :: order) found =
      sweep parent order (if (parent a).any (· ∈ found) then insert a found else found) :=
  rfl

theorem subset_ite (a : α) (found : Finset α) :
    found ⊆ if (parent a).any (· ∈ found) then insert a found else found := by
  split
  · exact Finset.subset_insert a found
  · exact subset_rfl

theorem subset_sweep (order : List α) (found : Finset α) : found ⊆ sweep parent order found := by
  induction order generalizing found with
  | nil => exact subset_rfl
  | cons a _ ih => exact (subset_ite a found).trans (ih _)

theorem below_sweep (order : List α) (h : ∀ a ∈ found, Below parent root a) :
    ∀ a ∈ sweep parent order found, Below parent root a := by
  induction order generalizing found with
  | nil => exact h
  | cons a order ih =>
    rw [sweep_cons]
    refine ih fun other hother => ?_
    split at hother
    · rename_i hparent
      obtain ⟨b, hb, hfound⟩ := (Option.any_eq_true _ _).mp hparent
      rcases Finset.mem_insert.mp hother with rfl | hother
      · exact .child hb (h b (of_decide_eq_true hfound))
      · exact h other hother
    · exact h other hother

theorem mem_sweep (ha : a ∈ order) (hparent : parent a = some b) (hb : b ∈ found) :
    a ∈ sweep parent order found := by
  induction order generalizing found with
  | nil => cases ha
  | cons other order ih =>
    rw [sweep_cons]
    rcases List.mem_cons.mp ha with rfl | ha
    · refine subset_sweep order _ ?_
      rw [if_pos (by rw [hparent]; exact decide_eq_true hb)]
      exact Finset.mem_insert_self a found
    · exact ih ha (subset_ite other found hb)

theorem sweep_subset (order : List α) (found : Finset α) :
    sweep parent order found ⊆ found ∪ order.toFinset := by
  induction order generalizing found with
  | nil => exact Finset.subset_union_left
  | cons _ _ ih =>
    rw [sweep_cons]
    refine (ih _).trans ?_
    rw [List.toFinset_cons]
    intro _ hother
    rcases Finset.mem_union.mp hother with hother | hother
    · split at hother
      · rcases Finset.mem_insert.mp hother with rfl | hother
        · exact Finset.mem_union_right _ (Finset.mem_insert_self _ _)
        · exact Finset.mem_union_left _ hother
      · exact Finset.mem_union_left _ hother
    · exact Finset.mem_union_right _ (Finset.mem_insert_of_mem hother)

/-- What is found when the sweeps end comes under the root, and is closed under links. -/
theorem saturate_closed {fuel : ℕ} {result : Finset α}
    (h : saturate parent order fuel found = some result)
    (hbelow : ∀ a ∈ found, Below parent root a) :
    found ⊆ result ∧ (∀ a ∈ result, Below parent root a) ∧
      ∀ a ∈ order, ∀ b ∈ result, parent a = some b → a ∈ result := by
  induction fuel generalizing found with
  | zero => cases h
  | succ fuel ih =>
    unfold saturate at h
    dsimp only at h
    split at h
    · rename_i hcard
      cases h
      have hsame : sweep parent order found = found :=
        (Finset.eq_of_subset_of_card_le (subset_sweep order found) hcard.le).symm
      refine ⟨subset_sweep order found, below_sweep order hbelow, fun a ha b hb hparent => ?_⟩
      rw [hsame] at hb
      exact mem_sweep ha hparent hb
    · obtain ⟨hsubset, hrest⟩ := ih h (below_sweep order hbelow)
      exact ⟨(subset_sweep order found).trans hsubset, hrest⟩

/-- The sweeps from a root find just what comes under it. -/
theorem mem_saturate {fuel : ℕ} {result : Finset α}
    (h : saturate parent order fuel {root} = some result)
    (horder : ∀ a b, parent a = some b → a ∈ order) (a : α) : a ∈ result ↔ Below parent root a := by
  have hroot : ∀ a ∈ ({root} : Finset α), Below parent root a := fun a ha => by
    rw [Finset.mem_singleton.mp ha]
    exact .self
  obtain ⟨hsubset, hbelow, hclosed⟩ := saturate_closed h hroot
  refine ⟨hbelow a, fun hunder => ?_⟩
  induction hunder with
  | self => exact hsubset (Finset.mem_singleton_self root)
  | child hparent _ ih => exact hclosed _ (horder _ _ hparent) _ ih hparent

/-- The sweeps end: each but the last finds one element more. -/
theorem saturate_isSome {fuel : ℕ} (h : (order.toFinset \ found).card < fuel) :
    (saturate parent order fuel found).isSome = true := by
  induction fuel generalizing found with
  | zero => exact absurd h (Nat.not_lt_zero _)
  | succ fuel ih =>
    unfold saturate
    dsimp only
    split
    · rfl
    rename_i hcard
    refine ih (lt_of_lt_of_le ?_ (Nat.le_of_lt_succ h))
    refine Finset.card_lt_card (Finset.ssubset_iff_subset_ne.mpr ⟨?_, fun heq => hcard ?_⟩)
    · exact Finset.sdiff_subset_sdiff subset_rfl (subset_sweep order found)
    refine congrArg Finset.card (Finset.Subset.antisymm (fun a ha => ?_)
      (subset_sweep order found))
    by_contra hnot
    have horder := (Finset.mem_union.mp (sweep_subset order found ha)).resolve_left hnot
    have hmem : a ∈ order.toFinset \ sweep parent order found := by
      rw [heq]
      exact Finset.mem_sdiff.mpr ⟨horder, hnot⟩
    exact (Finset.mem_sdiff.mp hmem).2 ha

end Sweeping

variable {parent} {rank : α → ℕ}

/-- The walk to the top ends. -/
theorem depth_isSome (h : Ranked parent rank) {fuel : ℕ} {a : α} (hfuel : rank a < fuel) :
    (depth parent fuel a).isSome = true := by
  induction fuel generalizing a with
  | zero => exact absurd hfuel (Nat.not_lt_zero _)
  | succ fuel ih =>
    unfold depth
    split
    · rfl
    · rename_i b hparent
      rw [Option.isSome_map]
      exact ih (lt_of_lt_of_le (h a b hparent) (Nat.le_of_lt_succ hfuel))

/-- The walk passes each element that has a parent once at most. -/
theorem depth_isSome_of_card (h : Ranked parent rank) {elements : Finset α}
    (helements : ∀ a b, parent a = some b → a ∈ elements) {fuel : ℕ} {a : α}
    (hfuel : (elements.filter (rank · ≤ rank a)).card < fuel) :
    (depth parent fuel a).isSome = true := by
  induction fuel generalizing a with
  | zero => exact absurd hfuel (Nat.not_lt_zero _)
  | succ fuel ih =>
    unfold depth
    split
    · rfl
    rename_i b hparent
    rw [Option.isSome_map]
    have hrank := h a b hparent
    have hless : (elements.filter (rank · ≤ rank b)).card <
        (elements.filter (rank · ≤ rank a)).card := by
      refine Finset.card_lt_card ((Finset.ssubset_iff_of_subset fun c hc => ?_).mpr ⟨a, ?_, ?_⟩)
      · obtain ⟨hmem, hle⟩ := Finset.mem_filter.mp hc
        exact Finset.mem_filter.mpr ⟨hmem, hle.trans hrank.le⟩
      · exact Finset.mem_filter.mpr ⟨helements a b hparent, le_rfl⟩
      · exact fun hmem => absurd (Finset.mem_filter.mp hmem).2 (Nat.not_le.mpr hrank)
    exact ih (by omega)

end Vivido
