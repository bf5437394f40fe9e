import Mathlib.Data.List.Rotate
import Mathlib.Data.Nat.ModEq

/-!
Lists rearranged by index swaps, and lists read through a rotation. A loop of
swaps at a fixed distance moves a block across the one before it, leaving the
displaced block rotated. A ring stored from a moving start is the rotation of
the stored list, so updates through the start are updates of the rotation.
-/

namespace Vivido.SwapLoop

open List

variable {α : Type*}

/-- Exchange two positions; nothing happens when one of them is outside. -/
def swapAt (l : List α) (i j : ℕ) : List α :=
  match l[i]?, l[j]? with
  | some x, some y => (l.set i y).set j x
  | _, _ => l

/-- For `i` from `start` on, `count` times: exchange `i` and `i + gap`. -/
def swapLoop (start gap count : ℕ) (l : List α) : List α :=
  ((List.range count).map (start + ·)).foldl (fun l i => swapAt l i (i + gap)) l

variable (pre l : List α) (i j : ℕ)

@[simp] theorem length_swapAt : (swapAt l i j).length = l.length := by
  unfold swapAt
  split <;> simp

theorem swapAt_self : swapAt l i i = l := by
  unfold swapAt
  cases h : l[i]? with
  | none => rfl
  | some =>
    obtain ⟨_, hx⟩ := List.getElem?_eq_some_iff.mp h
    simp [← hx]

theorem swapAt_comm : swapAt l i j = swapAt l j i := by
  by_cases hij : i = j
  · rw [hij]
  unfold swapAt
  cases l[i]? <;> cases l[j]? <;> simp only
  exact set_comm _ _ hij

theorem swapAt_append (mid post : List α) (x y : α) :
    swapAt (pre ++ x :: (mid ++ y :: post)) pre.length (pre.length + 1 + mid.length) =
      pre ++ y :: (mid ++ x :: post) := by
  have hx : (pre ++ x :: (mid ++ y :: post))[pre.length]? = some x := by simp
  have hy : (pre ++ x :: (mid ++ y :: post))[pre.length + 1 + mid.length]? = some y := by
    rw [getElem?_append_right (by omega),
      show pre.length + 1 + mid.length - pre.length = mid.length + 1 by omega]
    simp
  unfold swapAt
  rw [hx, hy]
  dsimp only
  rw [set_append_right _ _ (Nat.le_refl _), Nat.sub_self, set_cons_zero,
    set_append_right _ _ (by omega),
    show pre.length + 1 + mid.length - pre.length = mid.length + 1 by omega,
    set_cons_succ, set_append_right _ _ (Nat.le_refl _), Nat.sub_self, set_cons_zero]

theorem swapAt_append_right :
    swapAt (pre ++ l) (pre.length + i) (pre.length + j) = pre ++ swapAt l i j := by
  unfold swapAt
  rw [getElem?_append_right (Nat.le_add_right ..),
    getElem?_append_right (Nat.le_add_right ..), Nat.add_sub_cancel_left,
    Nat.add_sub_cancel_left]
  cases l[i]? with
  | none => rfl
  | some =>
    cases l[j]? with
    | none => rfl
    | some =>
      dsimp only
      rw [set_append_right _ _ (Nat.le_add_right ..),
        set_append_right _ _ (Nat.le_add_right ..), Nat.add_sub_cancel_left,
        Nat.add_sub_cancel_left]

theorem swapAt_perm : (swapAt l i j).Perm l := by
  unfold swapAt
  split
  · rename_i x y hx hy
    obtain ⟨hi, rfl⟩ := List.getElem?_eq_some_iff.mp hx
    obtain ⟨hj, rfl⟩ := List.getElem?_eq_some_iff.mp hy
    exact set_set_perm hi hj
  · exact List.Perm.refl _

theorem swapLoop_zero (start gap : ℕ) (l : List α) : swapLoop start gap 0 l = l := rfl

theorem swapLoop_succ (start gap count : ℕ) (l : List α) : swapLoop start gap (count + 1) l =
      swapLoop (start + 1) gap count (swapAt l start (start + gap)) := by
  have hmap : (List.range (count + 1)).map (start + ·) =
      start :: (List.range count).map (start + 1 + ·) := by
    rw [range_succ_eq_map, map_cons, map_map]
    congr 1
    exact map_congr_left fun i _ => by simp only [Function.comp]; omega
  unfold swapLoop
  rw [hmap, foldl_cons]

theorem swapLoop_append (block moved post : List α) :
    swapLoop pre.length block.length moved.length (pre ++ block ++ moved ++ post) =
      pre ++ moved ++ block.rotate moved.length ++ post := by
  induction moved generalizing pre block with
  | nil => simp [swapLoop_zero]
  | cons y moved ih =>
    rw [length_cons, swapLoop_succ]
    cases block with
    | nil =>
      have h := ih (pre ++ [y]) []
      simp only [length_nil, Nat.add_zero, swapAt_self]
      simpa using h
    | cons x block =>
      have hswap := swapAt_append pre block (moved ++ post) x y
      have h := ih (pre ++ [y]) (block ++ [x])
      have hlist : pre ++ (x :: block) ++ (y :: moved) ++ post =
          pre ++ x :: (block ++ y :: (moved ++ post)) := by simp
      have hlist' : pre ++ y :: (block ++ x :: (moved ++ post)) =
          pre ++ [y] ++ (block ++ [x]) ++ moved ++ post := by simp
      rw [hlist, show (x :: block).length = 1 + block.length by simp; omega,
        ← Nat.add_assoc, hswap, hlist', show 1 + block.length = (block ++ [x]).length by simp; omega,
        show pre.length + 1 = (pre ++ [y]).length by simp, h, rotate_cons_succ]
      simp

theorem rotate_set {start i : ℕ} (hi : i < l.length) (x : α) :
    (l.set ((start + i) % l.length) x).rotate start = (l.rotate start).set i x := by
  have hpos : 0 < l.length := by omega
  apply ext_getElem (by simp)
  intro j hj _
  simp only [length_rotate, length_set] at hj
  rw [getElem_rotate, getElem_set, getElem_set, getElem_rotate]
  simp only [length_set]
  have hinj : (start + i) % l.length = (j + start) % l.length ↔ i = j := by
    rw [Nat.add_comm j start]
    constructor
    · intro h
      have := Nat.ModEq.add_left_cancel' start (show start + i ≡ start + j [MOD l.length] from h)
      rwa [Nat.ModEq, Nat.mod_eq_of_lt hi, Nat.mod_eq_of_lt hj] at this
    · intro h
      rw [h]
  by_cases hij : i = j
  · rw [if_pos (hinj.mpr hij), if_pos hij]
  · rw [if_neg (fun h => hij (hinj.mp h)), if_neg hij]

theorem swapAt_rotate {start i j : ℕ} (hi : i < l.length) (hj : j < l.length) :
    (swapAt l ((start + i) % l.length) ((start + j) % l.length)).rotate start =
      swapAt (l.rotate start) i j := by
  have hget : ∀ k, k < l.length → (l.rotate start)[k]? = l[(start + k) % l.length]? := by
    intro k hk
    rw [getElem?_rotate hk, Nat.add_comm]
  unfold swapAt
  rw [hget i hi, hget j hj]
  cases l[(start + i) % l.length]? with
  | none => rfl
  | some x =>
    cases l[(start + j) % l.length]? with
    | none => rfl
    | some y =>
      dsimp only
      have h := @rotate_set _ (l.set ((start + i) % l.length) y) start _
        (show j < _ by simpa using hj) x
      rw [length_set] at h
      rw [h, rotate_set l hi]

theorem set_reverse {i : ℕ} (hi : i < l.length) (x : α) :
    (l.set i x).reverse = l.reverse.set (l.length - 1 - i) x := by
  apply ext_getElem (by simp)
  intro j hj _
  simp only [length_reverse, length_set] at hj
  rw [getElem_reverse, getElem_set, getElem_set, getElem_reverse]
  simp only [length_set]
  by_cases h : i = l.length - 1 - j
  · rw [if_pos h, if_pos (by omega)]
  · rw [if_neg h, if_neg (by omega)]

theorem swapAt_reverse {i j : ℕ} (hi : i < l.length) (hj : j < l.length) :
    (swapAt l i j).reverse = swapAt l.reverse (l.length - 1 - i) (l.length - 1 - j) := by
  have hget : ∀ k, k < l.length → l.reverse[l.length - 1 - k]? = l[k]? := by
    intro k _
    rw [getElem?_reverse (by omega)]
    congr 1
    omega
  unfold swapAt
  rw [hget i hi, hget j hj, getElem?_eq_getElem hi, getElem?_eq_getElem hj]
  dsimp only
  rw [set_reverse _ (by simpa using hj), set_reverse _ hi, length_set]

end Vivido.SwapLoop
