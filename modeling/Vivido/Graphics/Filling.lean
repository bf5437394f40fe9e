import Vivido.Graphics.Load
import Vivido.Graphics.Quota

/-!
Decodes in hindsight. Images that still wait for their pixels are given them from
the outside, and every operation of a store turns out to do the same before and
after: only putting an image looks at what is in it.
-/

namespace Vivido.Graphics

open SortedMap List Option

variable {F : Type}

/-- What images look like once they are decoded, by `uid`. -/
abbrev Paint : Type := ℕ → Pixels

/-- The pixels and opacity of an image, from its decode if it waits for one. -/
def Paint.on (paint : Paint) (uid : ℕ) (pixels : Option (List UInt8)) (isOpaque : Bool) :
    Option (List UInt8) × Bool :=
  match pixels with
  | none => (some (paint uid).rgba, (paint uid).isOpaque)
  | some pixels => (some pixels, isOpaque)

/-- An image with the pixels it waits for. -/
def Image.fill (paint : Paint) (image : Image) : Image :=
  { image with
    pixels := (paint.on image.uid image.pixels image.isOpaque).1
    isOpaque := (paint.on image.uid image.pixels image.isOpaque).2 }

theorem Image.fill_of_pixels {paint : Paint} {image : Image} (h : image.pixels ≠ none) :
    image.fill paint = image := by
  obtain ⟨_, _, _, _, _, pixels, _, _, _, _⟩ := image
  cases pixels with
  | none => exact (h rfl).elim
  | some => rfl

namespace ImageStore

variable {paint : Paint} {s : ImageStore F}

/-- A store with the pixels its images wait for. -/
def fill (paint : Paint) (s : ImageStore F) : ImageStore F :=
  { s with images := s.images.mapValues fun _ => Image.fill paint }

theorem lookup_fill (key : ℕ) :
    (s.fill paint).images.lookup key = (s.images.lookup key).map (Image.fill paint) :=
  lookup_mapValues _

theorem keys_fill (select : ℕ × Image → Bool)
    (hselect : ∀ key image, select (key, image.fill paint) = select (key, image)) :
    ((s.fill paint).images.entries.filter select).map Prod.fst =
      (s.images.entries.filter select).map Prod.fst := by
  change ((s.images.entries.map _).filter select).map Prod.fst = _
  rw [List.filter_map, List.map_map]
  refine congrArg (List.map Prod.fst) (filter_congr fun entry _ => ?_)
  exact hselect entry.1 entry.2

theorem fill_removeImage (key : ℕ) :
    (s.removeImage key).fill paint = (s.fill paint).removeImage key := by
  unfold removeImage
  rw [lookup_fill]
  cases s.images.lookup key with
  | none => rfl
  | some image =>
    dsimp only [map_some]
    have herase := @erase_mapValues _ _ _ _ s.images key fun _ => Image.fill paint
    by_cases hrefs : 0 < image.refs
    · have hfilled : 0 < (image.fill paint).refs := hrefs
      rw [if_pos hrefs, if_pos hfilled]
      unfold fill
      dsimp only
      rw [herase]
      rfl
    · have hfilled : ¬0 < (image.fill paint).refs := hrefs
      rw [if_neg hrefs, if_neg hfilled]
      unfold fill
      dsimp only
      rw [herase]
      rfl

theorem fill_removeImages (keys : List ℕ) :
    (s.removeImages keys).fill paint = (s.fill paint).removeImages keys := by
  unfold removeImages
  induction keys generalizing s with
  | nil => rfl
  | cons _ _ ih =>
    rw [foldl_cons, foldl_cons, ← fill_removeImage]
    exact ih

theorem fill_removeById (id : ℕ) : (s.removeById id).fill paint = (s.fill paint).removeById id := by
  unfold removeById
  rw [show (s.fill paint).keyById id = s.keyById id from rfl]
  cases s.keyById id with
  | none => rfl
  | some key => exact fill_removeImage key

theorem fill_reap (reap : Reap) : (s.reap reap).fill paint = (s.fill paint).reap reap := by
  unfold ImageStore.reap
  rw [keys_fill, fill_removeImages]
  · congr 1
    unfold fill
    dsimp only
    rw [mapValues_mapValues, mapValues_mapValues]
    rfl
  · intro _ _
    cases reap <;> rfl

/-! ### Placements -/

theorem adjust_fill {key : ℕ} {g : Image → Image}
    (hg : ∀ image, g (image.fill paint) = (g image).fill paint) :
    ((s.fill paint).images.adjust key g) =
      (s.images.adjust key g).mapValues fun _ => Image.fill paint :=
  adjust_mapValues (fun _ => Image.fill paint) hg

variable {move : Placement F → Image → Option (Placement F)} {remove : Placement F → Image → Bool}

theorem fill_sweepOne (hmove : ∀ p image, move p (image.fill paint) = move p image)
    (p : Placement F) : (sweepOne move s p).fill paint = sweepOne move (s.fill paint) p := by
  unfold sweepOne
  rw [lookup_fill]
  cases s.images.lookup p.image with
  | none => rfl
  | some image =>
    dsimp only [map_some]
    rw [hmove]
    cases move p image with
    | some => rfl
    | none =>
      dsimp only
      rw [adjust_fill (g := Image.release) fun _ => rfl]
      rfl

theorem fill_removeWhere (hmove : ∀ p image, move p (image.fill paint) = move p image)
    (reap : Reap) :
    (s.removeWhere move reap).fill paint = (s.fill paint).removeWhere move reap := by
  have hsweep : ∀ (todo : List (Placement F)) (s : ImageStore F),
      (todo.foldl (sweepOne move) s).fill paint = todo.foldl (sweepOne move) (s.fill paint) := by
    intro todo
    induction todo with
    | nil => exact fun s => rfl
    | cons _ _ ih =>
      intro s
      rw [foldl_cons, foldl_cons, ← fill_sweepOne hmove]
      exact ih _
  unfold removeWhere
  rw [fill_reap, hsweep]
  rfl

theorem fill_removeIf (hremove : ∀ p image, remove p (image.fill paint) = remove p image)
    (reap : Reap) : (s.removeIf remove reap).fill paint = (s.fill paint).removeIf remove reap :=
  fill_removeWhere (fun p image => by rw [hremove]) reap

theorem fill_addPlacement (placement : Placement F) :
    ((s.addPlacement placement).1.fill paint, (s.addPlacement placement).2) =
      (s.fill paint).addPlacement placement := by
  have hsame : (s.fill paint).placements = s.placements := rfl
  unfold addPlacement
  rw [hsame]
  dsimp only
  generalize Option.bind _ _ = existing
  cases existing with
  | some => rfl
  | none =>
    dsimp only
    rw [adjust_fill (g := fun image => { image with refs := image.refs + 1 }) fun _ => rfl]
    rfl

theorem fill_limitPlacements : s.limitPlacements.fill paint = (s.fill paint).limitPlacements := by
  have hsame : (s.fill paint).placements = s.placements := rfl
  unfold limitPlacements
  rw [hsame]
  cases s.placements with
  | nil => rfl
  | cons oldest rest =>
    dsimp only
    by_cases hmany : maxPlacements < (oldest :: rest).length
    · rw [if_pos hmany, if_pos hmany]
      exact fill_removeIf (fun _ _ => rfl) _
    · rw [if_neg hmany, if_neg hmany]

/-! ### The operations -/

theorem oldestOf_map (entries : List (ℕ × Image)) :
    oldestOf (entries.map fun entry => (entry.1, entry.2.fill paint)) =
      (oldestOf entries).map fun entry => (entry.1, entry.2.fill paint) := by
  induction entries with
  | nil => rfl
  | cons entry entries ih =>
    rw [map_cons]
    unfold oldestOf
    rw [ih]
    cases oldestOf entries with
    | none => rfl
    | some other =>
      dsimp only [map_some]
      by_cases hused : other.2.used < entry.2.used
      · have hfilled : (other.2.fill paint).used < (entry.2.fill paint).used := hused
        rw [if_pos hused, if_pos hfilled]
        rfl
      · have hfilled : ¬(other.2.fill paint).used < (entry.2.fill paint).used := hused
        rw [if_neg hused, if_neg hfilled]
        rfl

theorem overLimit_fill : (s.fill paint).overLimit = s.overLimit := by
  unfold overLimit fill
  dsimp only
  rw [size_mapValues]

theorem fill_evict (keep : Option ℕ) (fuel : ℕ) :
    (evict keep fuel s).fill paint = evict keep fuel (s.fill paint) := by
  induction fuel generalizing s with
  | zero => rfl
  | succ _ ih =>
    unfold evict
    rw [overLimit_fill]
    split
    · have hentries : ((s.fill paint).images.entries.filter fun entry => some entry.1 ≠ keep) =
          (s.images.entries.filter fun entry => some entry.1 ≠ keep).map
            fun entry => (entry.1, entry.2.fill paint) := filter_map
      rw [hentries, oldestOf_map]
      cases oldestOf (s.images.entries.filter fun entry => some entry.1 ≠ keep) with
      | none => rfl
      | some =>
        dsimp only [map_some]
        rw [ih, fill_removeImage]
    · rfl

theorem fill_enforceQuota (keep : Option ℕ) :
    (s.enforceQuota keep).fill paint = (s.fill paint).enforceQuota keep := by
  unfold enforceQuota
  rw [overLimit_fill, keys_fill _ fun _ _ => rfl]
  split
  · rfl
  · dsimp only
    rw [fill_evict, fill_removeImages]
    congr 1
    rw [← fill_removeImages]
    exact (size_mapValues _).symm

theorem fill_insert (uid id number : ℕ) (size : ℕ × ℕ) (pixels : Option (List UInt8))
    (isOpaque : Bool) : ((s.insert uid id number size pixels isOpaque).1.fill paint,
      (s.insert uid id number size pixels isOpaque).2) =
      (s.fill paint).insert uid id number size (paint.on uid pixels isOpaque).1
        (paint.on uid pixels isOpaque).2 := by
  unfold insert
  rw [← fill_reap]
  dsimp only
  unfold fill
  dsimp only
  rw [← insert_mapValues]
  rfl

theorem keyByNumber_fill (number : ℕ) :
    (s.fill paint).keyByNumber number = s.keyByNumber number := by
  unfold keyByNumber
  change ((s.images.entries.map _).reverse.find? _).map _ = _
  rw [← map_reverse, find?_map, Option.map_map]
  rfl

theorem fill_deleteImage (key : Option ℕ) (placement : ℕ) (reap : Reap) :
    (s.deleteImage key placement reap).fill paint =
      (s.fill paint).deleteImage key placement reap := by
  unfold deleteImage
  cases key with
  | none => rfl
  | some key =>
    have hidle : (((s.fill paint).images.lookup key).any fun image => image.refs = 0) =
        (s.images.lookup key).any fun image => image.refs = 0 := by
      rw [lookup_fill, Option.any_map]
      rfl
    dsimp only
    rw [hidle]
    split
    · split
      · exact fill_removeImage key
      · rfl
    · exact fill_removeIf (fun _ _ => rfl) reap

theorem fill_deleteRange (first last : ℕ) (reap : Reap) :
    (s.deleteRange first last reap).fill paint = (s.fill paint).deleteRange first last reap := by
  unfold deleteRange
  dsimp only
  rw [keys_fill _ fun _ _ => rfl, fill_removeIf fun _ _ => rfl]
  split
  · rw [fill_removeImages]
  · rfl

theorem fill_delete (command : Command) (row col : ℤ) :
    (s.delete command row col).fill paint = (s.fill paint).delete command row col := by
  have hif : ∀ (remove : Placement F → Bool) (reap : Reap),
      (s.removeIf (fun p _ => remove p) reap).fill paint =
        (s.fill paint).removeIf (fun p _ => remove p) reap :=
    fun remove reap => fill_removeIf (fun _ _ => rfl) reap
  unfold delete
  rw [keyByNumber_fill]
  dsimp only
  split
  · exact hif _ _
  · exact fill_deleteImage _ _ _
  · exact fill_deleteImage _ _ _
  · exact fill_deleteRange _ _ _
  · exact hif _ _
  · exact hif _ _
  · exact hif _ _
  · exact hif _ _
  · exact hif _ _
  · exact hif _ _
  · rfl

theorem fill_clear (history : Bool) : (s.clear history).fill paint = (s.fill paint).clear history :=
  fill_removeIf (fun _ _ => rfl) _

theorem fill_clearHistory : s.clearHistory.fill paint = (s.fill paint).clearHistory :=
  fill_removeIf (fun _ _ => rfl) _

theorem fill_applyAnchors (moved : ℕ → Option (ℤ × ℤ)) :
    (s.applyAnchors moved).fill paint = (s.fill paint).applyAnchors moved :=
  fill_removeWhere (fun _ _ => rfl) _

/-! ### Marks -/

/-- Marks are only set while placements are being removed. -/
def Unmarked (s : ImageStore F) : Prop :=
  ∀ key image, s.images.lookup key = some image → image.matched = false

/-- A sweep that selects nothing, where no image waits to be freed, does nothing. -/
theorem removeIf_eq_self (h : s.Consistent) (hmarks : s.Unmarked) {reap : Reap}
    (hremove : ∀ p ∈ s.placements, ∀ image, s.images.lookup p.image = some image →
      remove p image = false) (hidle : ∀ key image, s.images.lookup key = some image →
      (image.refs = 0 && reap.frees image) = false) : s.removeIf remove reap = s := by
  have hsweep : ∀ (todo done : List (Placement F)), done ++ todo = s.placements →
      todo.foldl (sweepOne fun p image => if remove p image then none else some p)
        { s with placements := done } = s := by
    intro todo
    induction todo with
    | nil =>
      intro done heq
      rw [append_nil] at heq
      rw [heq]
      rfl
    | cons p _ ih =>
      intro done heq
      have hp : p ∈ s.placements := heq ▸ mem_append_right _ (mem_cons_self ..)
      obtain ⟨image, himage⟩ := h.shown p hp
      have hstep : sweepOne (fun p image => if remove p image then none else some p)
          { s with placements := done } p = { s with placements := done ++ [p] } := by
        unfold sweepOne
        rw [himage]
        dsimp only
        rw [hremove p hp image himage]
        rfl
      rw [foldl_cons, hstep]
      exact ih _ (by rw [append_assoc]; exact heq)
  have hdoomed : (s.images.entries.filter fun entry =>
      entry.2.refs = 0 && reap.frees entry.2) = [] := by
    refine List.filter_eq_nil_iff.mpr fun entry hentry => ?_
    have hkept := hidle entry.1 entry.2 (mem_entries.mp hentry)
    exact ne_true_of_eq_false hkept
  unfold removeIf removeWhere
  rw [hsweep s.placements [] rfl]
  unfold ImageStore.reap
  rw [hdoomed, mapValues_eq_self fun key image himage => ?_]
  · rfl
  · have hmark := hmarks key image himage
    rw [← hmark]

theorem unmarked_removeImage (h : s.Unmarked) (key : ℕ) : (s.removeImage key).Unmarked := by
  unfold removeImage
  split
  · exact h
  have herased : ∀ other image, (s.images.erase key).lookup other = some image →
      image.matched = false := by
    intro other image himage
    rw [lookup_erase] at himage
    split at himage
    · cases himage
    · exact h other image himage
  dsimp only
  split
  · exact herased
  · exact herased

theorem unmarked_removeImages (h : s.Unmarked) (keys : List ℕ) : (s.removeImages keys).Unmarked := by
  unfold removeImages
  induction keys generalizing s with
  | nil => exact h
  | cons key _ ih => exact ih (unmarked_removeImage h key)

theorem unmarked_removeById (h : s.Unmarked) (id : ℕ) : (s.removeById id).Unmarked := by
  unfold removeById
  split
  · exact h
  · exact unmarked_removeImage h _

/-- A change of one image that sets no mark. -/
theorem unmarked_adjust {s' : ImageStore F} {key : ℕ} {g : Image → Image} (h : s.Unmarked)
    (hg : ∀ image, image.matched = false → (g image).matched = false)
    (hs' : s'.images = s.images.adjust key g) : s'.Unmarked := by
  intro other image himage
  rw [hs', lookup_adjust] at himage
  split at himage
  · obtain ⟨old, hold, rfl⟩ := Option.map_eq_some_iff.mp himage
    exact hg old (h other old hold)
  · exact h other image himage

theorem unmarked_reap (s : ImageStore F) (reap : Reap) : (s.reap reap).Unmarked := by
  refine unmarked_removeImages (fun key image himage => ?_) _
  obtain ⟨_, -, rfl⟩ := Option.map_eq_some_iff.mp
    ((lookup_mapValues (m := s.images) _).symm.trans himage)
  rfl

theorem unmarked_removeWhere (s : ImageStore F)
    (move : Placement F → Image → Option (Placement F)) (reap : Reap) :
    (s.removeWhere move reap).Unmarked := unmarked_reap _ _

theorem unmarked_removeIf (s : ImageStore F) (remove : Placement F → Image → Bool) (reap : Reap) :
    (s.removeIf remove reap).Unmarked := unmarked_reap _ _

theorem unmarked_insert (s : ImageStore F) (uid id number : ℕ) (size : ℕ × ℕ)
    (pixels : Option (List UInt8)) (isOpaque : Bool) :
    (s.insert uid id number size pixels isOpaque).1.Unmarked := by
  intro key image himage
  unfold insert at himage
  dsimp only at himage
  rw [lookup_insert] at himage
  split at himage
  · cases himage
    rfl
  · exact unmarked_reap s .unaddressable key image himage

theorem unmarked_setPixels (h : s.Unmarked) (key : ℕ) (pixels : List UInt8) (isOpaque : Bool) :
    (s.setPixels key pixels isOpaque).Unmarked :=
  unmarked_adjust (g := fun image => { image with pixels := some pixels, isOpaque := isOpaque }) h
    (fun _ hmark => hmark) rfl

theorem unmarked_enforceQuota (h : s.Unmarked) (keep : Option ℕ) :
    (s.enforceQuota keep).Unmarked := by
  have hevict : ∀ (fuel : ℕ) (s : ImageStore F), s.Unmarked → (evict keep fuel s).Unmarked := by
    intro fuel
    induction fuel with
    | zero => exact fun s h => h
    | succ _ ih =>
      intro s h
      unfold evict
      split
      · split
        · exact h
        · exact ih _ (unmarked_removeImage h _)
      · exact h
  unfold enforceQuota
  split
  · exact h
  · exact hevict _ _ (unmarked_removeImages h _)

theorem unmarked_addPlacement (h : s.Unmarked) (placement : Placement F) :
    (s.addPlacement placement).1.Unmarked := by
  unfold addPlacement
  dsimp only
  split
  · exact h
  · exact unmarked_adjust (g := fun image => { image with refs := image.refs + 1 }) h
      (fun _ hmark => hmark) rfl

theorem unmarked_limitPlacements (h : s.Unmarked) : s.limitPlacements.Unmarked := by
  unfold limitPlacements
  split
  · exact h
  · split
    · exact unmarked_removeIf _ _ _
    · exact h

theorem unmarked_delete (h : s.Unmarked) (command : Command) (row col : ℤ) :
    (s.delete command row col).Unmarked := by
  have himage : ∀ key placement reap, (s.deleteImage key placement reap).Unmarked := by
    intro _ _ _
    unfold deleteImage
    split
    · exact h
    dsimp only
    split
    · split
      · exact unmarked_removeImage h _
      · exact h
    · exact unmarked_removeIf _ _ _
  unfold delete
  dsimp only
  split
  · exact unmarked_removeIf _ _ _
  · exact himage _ _ _
  · exact himage _ _ _
  · exact unmarked_removeIf _ _ _
  · exact unmarked_removeIf _ _ _
  · exact unmarked_removeIf _ _ _
  · exact unmarked_removeIf _ _ _
  · exact unmarked_removeIf _ _ _
  · exact unmarked_removeIf _ _ _
  · exact unmarked_removeIf _ _ _
  · exact h

variable [F32 F]

theorem fill_scroll (scroll : Scroll) (cell : CellPixels) :
    (s.scroll scroll cell).fill paint = (s.fill paint).scroll scroll cell := by
  unfold ImageStore.scroll
  have hsame : (s.fill paint).hasPlacements = s.hasPlacements := rfl
  rw [hsame]
  split
  · rfl
  · split
    · exact fill_removeWhere (fun _ _ => rfl) _
    · exact fill_removeWhere (fun _ _ => rfl) _

theorem fill_position (image : Image) (key : ℕ) (command : Command) (row col : ℤ)
    (cell : CellPixels) : ((s.position image key command row col cell).1.fill paint,
      (s.position image key command row col cell).2) =
      (s.fill paint).position (image.fill paint) key command row col cell := by
  have hstamp : ({ s with
      clock := s.clock + 1
      images := s.images.adjust key fun image => { image with used := s.clock + 1 }
      } : ImageStore F).fill paint = { s.fill paint with
        clock := s.clock + 1
        images := (s.fill paint).images.adjust key fun image =>
          { image with used := s.clock + 1 } } := by
    rw [adjust_fill (g := fun image => { image with used := s.clock + 1 }) fun _ => rfl]
    rfl
  refine (fill_addPlacement _).trans ?_
  rw [hstamp]
  rfl

/-- Whether putting an image, if it were opaque, would take anything else away. -/
def sweeps (s : ImageStore F) (key : ℕ) (command : Command) (row col : ℤ) (cell : CellPixels) :
    Bool :=
  (s.images.lookup key).any fun image =>
    let placed := s.position image key command row col cell
    !placed.2.isVirtual && ((placed.1.placements.any fun p =>
      (placed.1.images.lookup p.image).any fun other => covered placed.2 key cell p other) ||
        placed.1.images.entries.any fun entry => entry.2.refs = 0 && entry.2.id = 0)

theorem unmarked_scroll (h : s.Unmarked) (scroll : Scroll) (cell : CellPixels) :
    (s.scroll scroll cell).Unmarked := by
  unfold ImageStore.scroll
  split
  · exact h
  · split
    · exact unmarked_removeWhere _ _ _
    · exact unmarked_removeWhere _ _ _

theorem unmarked_position (h : s.Unmarked) (image : Image) (key : ℕ) (command : Command)
    (row col : ℤ) (cell : CellPixels) : (s.position image key command row col cell).1.Unmarked := by
  exact unmarked_addPlacement (unmarked_adjust
    (g := fun image => { image with used := s.clock + 1 }) h (fun _ hmark => hmark) rfl) _

theorem unmarked_put (h : s.Unmarked) (key : ℕ) (command : Command) (row col : ℤ)
    (cell : CellPixels) : (s.put key command row col cell).1.Unmarked := by
  unfold put
  split
  · exact h
  · have hplaced := unmarked_position h
    dsimp only
    split
    · exact unmarked_limitPlacements (unmarked_removeIf _ _ _)
    · exact unmarked_limitPlacements (hplaced _ _ _ _ _ _)

/-- Putting an image is the same before and after it has its pixels, if its opacity is already
known or would not matter. -/
theorem fill_put (h : s.Consistent) (hmarks : s.Unmarked) (key : ℕ) (command : Command)
    (row col : ℤ) (cell : CellPixels) (hcalm : ∀ image, s.images.lookup key = some image →
      (image.fill paint).isOpaque = image.isOpaque ∨ s.sweeps key command row col cell = false) :
    ((s.put key command row col cell).1.fill paint, (s.put key command row col cell).2) =
      (s.fill paint).put key command row col cell := by
  have hsweeps := hcalm
  unfold put
  unfold sweeps at hsweeps
  rw [lookup_fill]
  cases himage : s.images.lookup key with
  | none => rfl
  | some image =>
    have hplaced := @fill_position _ paint s _ image key command row col cell
    have hconsistent := h.position himage command row col cell
    have hunmarked := unmarked_position hmarks image key command row col cell
    have hsweep := hsweeps image himage
    rw [himage] at hsweep
    dsimp only [map_some, any_some] at hsweep ⊢
    rw [← hplaced]
    generalize s.position image key command row col cell = placed at hconsistent hunmarked hsweep ⊢
    dsimp only
    have hfilled : (placed.1.removeIf (covered placed.2 key cell) .unaddressable).fill paint =
        (placed.1.fill paint).removeIf (covered placed.2 key cell) .unaddressable :=
      fill_removeIf (fun _ _ => rfl) _
    refine Prod.ext ?_ rfl
    dsimp only
    rw [fill_limitPlacements]
    congr 1
    rcases hsweep with hshade | hnone
    · rw [hshade]
      split
      · exact hfilled
      · rfl
    · cases hvirtual : placed.2.isVirtual with
      | true =>
        rw [Bool.not_true, Bool.and_false, Bool.and_false]
        rfl
      | false =>
        rw [hvirtual, Bool.not_false, Bool.true_and, Bool.or_eq_false_iff] at hnone
        obtain ⟨hcovered, hidle⟩ := hnone
        have hself : placed.1.removeIf (covered placed.2 key cell) .unaddressable = placed.1 := by
          refine removeIf_eq_self hconsistent hunmarked (fun p hp other hother => ?_)
            fun other image hother => ?_
          · have hp := List.any_eq_false.mp hcovered p hp
            rw [hother] at hp
            exact eq_false_of_ne_true hp
          · exact eq_false_of_ne_true
              (List.any_eq_false.mp hidle _ (mem_entries.mpr hother))
        rw [← hfilled, hself, ite_self, ite_self]

end ImageStore

end Vivido.Graphics
