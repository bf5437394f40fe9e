import Vivido.Graphics.Accounting

/-!
The limits of a store. Only a new image can put a store over its limits, and
evicting the others then suffices, because one image alone is within them.
-/

namespace Vivido.Graphics

open SortedMap List

variable {F : Type}

namespace ImageStore

variable {s s' s'' : ImageStore F}

/-- An image is the one it was and looks the same. -/
structure Same (image image' : Image) : Prop where
  uid : image'.uid = image.uid
  width : image'.width = image.width
  height : image'.height = image.height
  pixels : image'.pixels = image.pixels
  isOpaque : image'.isOpaque = image.isOpaque

theorem Same.refl (image : Image) : Same image image := ⟨rfl, rfl, rfl, rfl, rfl⟩

theorem Same.trans {image image' image'' : Image} (h : Same image image')
    (h' : Same image' image'') : Same image image'' where
  uid := h'.uid.trans h.uid
  width := h'.width.trans h.width
  height := h'.height.trans h.height
  pixels := h'.pixels.trans h.pixels
  isOpaque := h'.isOpaque.trans h.isOpaque

/-- Nothing was added to what counts against the limits, and no image is new. -/
structure Shrinks (s s' : ImageStore F) : Prop where
  stored : s'.stored ≤ s.stored
  size : s'.images.size ≤ s.images.size
  images : ∀ key image', s'.images.lookup key = some image' →
    ∃ image, s.images.lookup key = some image ∧ Same image image'

namespace Shrinks

/-- A change of neither the images nor what they take. -/
theorem of_eq (hstored : s'.stored = s.stored) (himages : s'.images = s.images) : Shrinks s s' where
  stored := hstored.le
  size := by rw [himages]
  images := fun key image himage => ⟨image, himages ▸ himage, Same.refl image⟩

theorem refl (s : ImageStore F) : Shrinks s s := of_eq rfl rfl

theorem trans (h : Shrinks s s') (h' : Shrinks s' s'') : Shrinks s s'' where
  stored := h'.stored.trans h.stored
  size := h'.size.trans h.size
  images := by
    intro key image'' himage''
    obtain ⟨image', himage', hsame'⟩ := h'.images key image'' himage''
    obtain ⟨image, himage, hsame⟩ := h.images key image' himage'
    exact ⟨image, himage, hsame.trans hsame'⟩

/-- Images change without becoming others. -/
theorem of_mapValues {f : ℕ → Image → Image} (hf : ∀ key image, Same image (f key image))
    (hstored : s'.stored = s.stored) (himages : s'.images = s.images.mapValues f) :
    Shrinks s s' where
  stored := hstored.le
  size := by rw [himages, size_mapValues]
  images := by
    intro key _ himage'
    rw [himages, lookup_mapValues] at himage'
    obtain ⟨image, himage, rfl⟩ := Option.map_eq_some_iff.mp himage'
    exact ⟨image, himage, hf key image⟩

theorem of_adjust {key : ℕ} {g : Image → Image} (hg : ∀ image, Same image (g image))
    (hstored : s'.stored = s.stored) (himages : s'.images = s.images.adjust key g) :
    Shrinks s s' := by
  refine of_mapValues (fun other image => ?_) hstored himages
  split
  · exact hg image
  · exact Same.refl image

theorem within (h : Shrinks s s') (hwithin : s.overLimit = false) : s'.overLimit = false := by
  have hstored := h.stored
  have hsize := h.size
  simp only [overLimit, Bool.or_eq_false_iff, decide_eq_false_iff_not, not_lt] at hwithin ⊢
  exact ⟨hstored.trans hwithin.1, hsize.trans hwithin.2⟩

theorem removeImage (s : ImageStore F) (key : ℕ) : Shrinks s (s.removeImage key) := by
  unfold ImageStore.removeImage
  split
  · exact refl s
  have hsize : (s.images.erase key).size ≤ s.images.size := length_filter_le _ _
  have himages : ∀ other image, (s.images.erase key).lookup other = some image →
      ∃ image', s.images.lookup other = some image' ∧ Same image' image := by
    intro _ image himage
    rw [lookup_erase] at himage
    split at himage
    · cases himage
    · exact ⟨image, himage, Same.refl image⟩
  dsimp only
  split
  · exact ⟨Nat.sub_le _ _, hsize, himages⟩
  · exact ⟨Nat.sub_le _ _, hsize, himages⟩

theorem removeImages (s : ImageStore F) (keys : List ℕ) : Shrinks s (s.removeImages keys) := by
  unfold ImageStore.removeImages
  induction keys generalizing s with
  | nil => exact refl s
  | cons key _ ih => exact (removeImage s key).trans (ih _)

theorem removeById (s : ImageStore F) (id : ℕ) : Shrinks s (s.removeById id) := by
  unfold ImageStore.removeById
  split
  · exact refl s
  · exact removeImage s _

theorem reap (s : ImageStore F) (reap : Reap) : Shrinks s (s.reap reap) := by
  have hcleared : Shrinks s { s with
      images := s.images.mapValues fun _ image => { image with matched := false } } :=
    of_mapValues (f := fun _ image => { image with matched := false })
      (fun _ _ => ⟨rfl, rfl, rfl, rfl, rfl⟩) rfl rfl
  exact hcleared.trans (removeImages _ _)

theorem sweepOne (move : Placement F → Image → Option (Placement F)) (s : ImageStore F)
    (p : Placement F) : Shrinks s (sweepOne move s p) := by
  unfold ImageStore.sweepOne
  split
  · exact refl s
  · split
    · exact of_eq rfl rfl
    · exact of_adjust (g := Image.release) (fun _ => ⟨rfl, rfl, rfl, rfl, rfl⟩) rfl rfl

theorem removeWhere (s : ImageStore F) (move : Placement F → Image → Option (Placement F))
    (reap : Reap) : Shrinks s (s.removeWhere move reap) := by
  have hsweep : ∀ (todo : List (Placement F)) (s : ImageStore F),
      Shrinks s (todo.foldl (ImageStore.sweepOne move) s) := by
    intro todo
    induction todo with
    | nil => exact refl
    | cons p _ ih => exact fun s => (sweepOne move s p).trans (ih _)
  have hcleared : Shrinks s { s with placements := [] } := of_eq rfl rfl
  exact (hcleared.trans (hsweep s.placements _)).trans (Shrinks.reap _ reap)

theorem removeIf (s : ImageStore F) (remove : Placement F → Image → Bool) (reap : Reap) :
    Shrinks s (s.removeIf remove reap) := removeWhere s _ reap

theorem limitPlacements (s : ImageStore F) : Shrinks s s.limitPlacements := by
  unfold ImageStore.limitPlacements
  split
  · exact refl s
  · split
    · exact removeIf s _ _
    · exact refl s

theorem addPlacement (s : ImageStore F) (placement : Placement F) :
    Shrinks s (s.addPlacement placement).1 := by
  unfold ImageStore.addPlacement
  dsimp only
  split
  · exact of_eq rfl rfl
  · exact of_adjust (g := fun image => { image with refs := image.refs + 1 })
      (fun _ => ⟨rfl, rfl, rfl, rfl, rfl⟩) rfl rfl

theorem deleteImage (s : ImageStore F) (key : Option ℕ) (placement : ℕ) (reap : Reap) :
    Shrinks s (s.deleteImage key placement reap) := by
  unfold ImageStore.deleteImage
  split
  · exact refl s
  dsimp only
  split
  · split
    · exact removeImage s _
    · exact refl s
  · exact removeIf s _ _

theorem deleteRange (s : ImageStore F) (first last : ℕ) (reap : Reap) :
    Shrinks s (s.deleteRange first last reap) := by
  unfold ImageStore.deleteRange
  dsimp only
  split
  · exact (removeImages s _).trans (removeIf _ _ _)
  · exact removeIf s _ _

theorem delete (s : ImageStore F) (command : Command) (row col : ℤ) :
    Shrinks s (s.delete command row col) := by
  unfold ImageStore.delete
  dsimp only
  split
  · exact removeIf s _ _
  · exact deleteImage s _ _ _
  · exact deleteImage s _ _ _
  · exact deleteRange s _ _ _
  all_goals first | exact removeIf s _ _ | exact refl s

variable [F32 F]

theorem position (s : ImageStore F) (image : Image) (key : ℕ) (command : Command) (row col : ℤ)
    (cell : CellPixels) : Shrinks s (s.position image key command row col cell).1 := by
  have hused : Shrinks s { s with
      clock := s.clock + 1
      images := s.images.adjust key fun image => { image with used := s.clock + 1 } } :=
    of_adjust (g := fun image => { image with used := s.clock + 1 })
      (fun _ => ⟨rfl, rfl, rfl, rfl, rfl⟩) rfl rfl
  exact hused.trans (addPlacement _ _)

theorem put (s : ImageStore F) (key : ℕ) (command : Command) (row col : ℤ) (cell : CellPixels) :
    Shrinks s (s.put key command row col cell).1 := by
  unfold ImageStore.put
  split
  · exact of_eq rfl rfl
  rename_i image _
  have hplaced := position s image key command row col cell
  dsimp only
  split
  · exact (hplaced.trans (removeIf _ _ _)).trans (limitPlacements _)
  · exact hplaced.trans (limitPlacements _)

theorem scroll (s : ImageStore F) (scroll : Scroll) (cell : CellPixels) :
    Shrinks s (s.scroll scroll cell) := by
  unfold ImageStore.scroll
  split
  · exact refl s
  · split
    · exact removeWhere s _ _
    · exact removeWhere s _ _

theorem rescale (s : ImageStore F) (cell : CellPixels) : Shrinks s (s.rescale cell) := of_eq rfl rfl

end Shrinks

/-! ### Coming back under the limits -/

variable {entries : List (ℕ × Image)}

theorem oldestOf_eq_none : oldestOf entries = none ↔ entries = [] := by
  cases entries with
  | nil => exact ⟨fun _ => rfl, fun _ => rfl⟩
  | cons =>
    unfold oldestOf
    constructor
    · intro h
      split at h
      · cases h
      · split at h <;> cases h
    · intro h
      cases h

theorem mem_of_oldestOf {oldest : ℕ × Image} (h : oldestOf entries = some oldest) :
    oldest ∈ entries := by
  induction entries with
  | nil => cases h
  | cons entry entries ih =>
    unfold oldestOf at h
    split at h
    · cases h
      exact mem_cons_self ..
    · rename_i other hother
      split at h
      · cases h
        exact mem_cons_of_mem _ (ih hother)
      · cases h
        exact mem_cons_self ..

theorem Consistent.within_of_subsingleton (h : s.Consistent) (hsize : s.images.size ≤ 1) :
    s.overLimit = false := by
  have hstored : s.stored ≤ maxDimension * maxDimension * 4 := by
    rw [h.stored]
    unfold SortedMap.size at hsize
    rcases hentries : s.images.entries with _ | ⟨⟨key, image⟩, _ | ⟨_, _⟩⟩
    · exact Nat.zero_le _
    · have himage : (key, image) ∈ s.images.entries := by rw [hentries]; exact List.mem_singleton.mpr rfl
      obtain ⟨hwidth, hheight⟩ := h.sized key image (mem_entries.mp himage)
      rw [map_singleton, sum_singleton]
      exact Nat.mul_le_mul_right 4 (Nat.mul_le_mul hwidth hheight)
    · rw [hentries, length_cons, length_cons] at hsize
      omega
  simp only [overLimit, Bool.or_eq_false_iff, decide_eq_false_iff_not, not_lt]
  exact ⟨hstored.trans (by decide), hsize.trans (by decide)⟩

theorem Consistent.evict_within (keep : Option ℕ) (fuel : ℕ) (h : s.Consistent)
    (hfuel : s.images.size ≤ fuel) : (evict keep fuel s).overLimit = false := by
  induction fuel generalizing s with
  | zero => exact h.within_of_subsingleton (by omega)
  | succ fuel ih =>
    unfold evict
    split
    · split
      · rename_i hnone
        have hkeep : ∀ entry ∈ s.images.entries, some entry.1 = keep := by
          intro entry hentry
          have hnot := List.filter_eq_nil_iff.mp (oldestOf_eq_none.mp hnone) entry hentry
          simpa using hnot
        refine h.within_of_subsingleton ?_
        have hsorted := s.images.sorted
        unfold SortedMap.size
        rcases hentries : s.images.entries with _ | ⟨first, _ | ⟨second, _⟩⟩
        · exact Nat.zero_le 1
        · exact le_rfl
        rw [hentries] at hkeep hsorted
        have hfirst := hkeep first (mem_cons_self ..)
        have hsecond := hkeep second (mem_cons_of_mem _ (mem_cons_self ..))
        have hlt := rel_of_pairwise_cons hsorted (mem_cons_self ..)
        have heq := Option.some_inj.mp (hfirst.trans hsecond.symm)
        omega
      · rename_i oldest holdest
        have hmem := (List.mem_filter.mp (mem_of_oldestOf holdest)).1
        have himage := mem_entries.mp hmem
        refine ih (h.removeImage _) ?_
        rw [h.removeImage_eq himage]
        have hsize := size_erase himage
        dsimp only
        omega
    · rename_i hwithin
      exact eq_false_of_ne_true hwithin

theorem Shrinks.enforceQuota (s : ImageStore F) (keep : Option ℕ) :
    Shrinks s (s.enforceQuota keep) := by
  have hevict : ∀ (fuel : ℕ) (s : ImageStore F), Shrinks s (evict keep fuel s) := by
    intro fuel
    induction fuel with
    | zero => exact Shrinks.refl
    | succ _ ih =>
      intro s
      unfold evict
      split
      · split
        · exact Shrinks.refl s
        · exact (Shrinks.removeImage s _).trans (ih _)
      · exact Shrinks.refl s
  unfold ImageStore.enforceQuota
  split
  · exact Shrinks.refl s
  · exact (Shrinks.removeImages s _).trans (hevict _ _)

/-- Evicting always suffices. -/
theorem Consistent.enforceQuota_within (h : s.Consistent) (keep : Option ℕ) :
    (s.enforceQuota keep).overLimit = false := by
  unfold ImageStore.enforceQuota
  split
  · rename_i hwithin
    simpa using hwithin
  · exact (h.removeImages _).evict_within keep _ le_rfl

theorem overLimit_setPixels (s : ImageStore F) (key : ℕ) (pixels : List UInt8) (isOpaque : Bool) :
    (s.setPixels key pixels isOpaque).overLimit = s.overLimit := by
  unfold overLimit setPixels
  rw [size_adjust]

/-! ### Sound stores -/

/-- A store is consistent and within its limits. -/
structure Sound (s : ImageStore F) : Prop where
  consistent : s.Consistent
  within : s.overLimit = false

theorem sound_empty : ({} : ImageStore F).Sound := ⟨consistent_empty, rfl⟩

namespace Sound

theorem removeImage (h : s.Sound) (key : ℕ) : (s.removeImage key).Sound :=
  ⟨h.consistent.removeImage key, (Shrinks.removeImage s key).within h.within⟩

theorem removeById (h : s.Sound) (id : ℕ) : (s.removeById id).Sound :=
  ⟨h.consistent.removeById id, (Shrinks.removeById s id).within h.within⟩

theorem delete (h : s.Sound) (command : Command) (row col : ℤ) : (s.delete command row col).Sound :=
  ⟨h.consistent.delete command row col, (Shrinks.delete s command row col).within h.within⟩

theorem clear (h : s.Sound) (history : Bool) : (s.clear history).Sound :=
  ⟨h.consistent.clear history, (Shrinks.removeIf s _ _).within h.within⟩

theorem clearHistory (h : s.Sound) : s.clearHistory.Sound :=
  ⟨h.consistent.clearHistory, (Shrinks.removeIf s _ _).within h.within⟩

theorem applyAnchors (h : s.Sound) (moved : ℕ → Option (ℤ × ℤ)) : (s.applyAnchors moved).Sound :=
  ⟨h.consistent.applyAnchors moved, (Shrinks.removeWhere s _ _).within h.within⟩

theorem setPixels (h : s.Sound) (key : ℕ) {pixels : List UInt8} (isOpaque : Bool)
    (hpixels : ∀ image, s.images.lookup key = some image → pixels.length = image.bytes) :
    (s.setPixels key pixels isOpaque).Sound :=
  ⟨h.consistent.setPixels key isOpaque hpixels,
    (overLimit_setPixels s key pixels isOpaque).trans h.within⟩

variable [F32 F]

theorem put (h : s.Sound) (key : ℕ) (command : Command) (row col : ℤ) (cell : CellPixels) :
    (s.put key command row col cell).1.Sound :=
  ⟨h.consistent.put key command row col cell,
    (Shrinks.put s key command row col cell).within h.within⟩

theorem scroll (h : s.Sound) (scroll : Scroll) (cell : CellPixels) : (s.scroll scroll cell).Sound :=
  ⟨h.consistent.scroll scroll cell, (Shrinks.scroll s scroll cell).within h.within⟩

theorem rescale (h : s.Sound) (cell : CellPixels) : (s.rescale cell).Sound :=
  ⟨h.consistent.rescale cell, h.within⟩

end Sound

end ImageStore

end Vivido.Graphics
