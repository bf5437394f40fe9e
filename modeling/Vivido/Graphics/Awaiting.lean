import Vivido.Graphics.Filling

/-!
What is still to come. The images of a store that have no pixels each wait for a
decode under way; the others look as they always will. No operation but the
arrival of pixels changes that, and a store where nothing is awaited is the same
in hindsight.
-/

namespace Vivido.Graphics

open SortedMap

variable {F : Type}

namespace ImageStore

variable {paint : Paint} {s : ImageStore F}

/-- An image that was created is as large as it will turn out, and looks as it will or waits. -/
structure Kept (paint : Paint) (nextUid : ℕ) (awaited : Prop) (image : Image) : Prop where
  created : image.uid < nextUid
  width : image.width = (paint image.uid).width
  height : image.height = (paint image.uid).height
  drawn : (image.pixels = none ∧ image.isOpaque = false ∧ awaited) ∨
    (image.pixels = some (paint image.uid).rgba ∧ image.isOpaque = (paint image.uid).isOpaque)

theorem Kept.of_same {nextUid : ℕ} {awaited : Prop} {image image' : Image}
    (h : Kept paint nextUid awaited image) (hsame : Same image image') :
    Kept paint nextUid awaited image' where
  created := hsame.uid ▸ h.created
  width := by rw [hsame.width, hsame.uid, h.width]
  height := by rw [hsame.height, hsame.uid, h.height]
  drawn := by
    rw [hsame.pixels, hsame.isOpaque, hsame.uid]
    exact h.drawn

/-- A store whose images wait, as far as they do, for decodes under way. -/
structure Ready (paint : Paint) (nextUid : ℕ) (awaited : ℕ → ℕ → Prop) (s : ImageStore F) :
    Prop where
  consistent : s.Consistent
  unmarked : s.Unmarked
  kept : ∀ key image, s.images.lookup key = some image →
    Kept paint nextUid (awaited key image.uid) image

namespace Ready

variable {paint' : Paint} {nextUid nextUid' : ℕ} {awaited awaited' : ℕ → ℕ → Prop}

theorem empty : ({} : ImageStore F).Ready paint nextUid awaited where
  consistent := consistent_empty
  unmarked := fun key image himage => by cases himage
  kept := fun key image himage => by cases himage

section

variable (h : s.Ready paint nextUid awaited)
include h

/-- An operation that creates no image and finishes none. -/
theorem shrink {s' : ImageStore F} (hconsistent : s'.Consistent)
    (hunmarked : s'.Unmarked) (hshrinks : Shrinks s s') : s'.Ready paint nextUid awaited where
  consistent := hconsistent
  unmarked := hunmarked
  kept := by
    intro key image' himage'
    obtain ⟨image, himage, hsame⟩ := hshrinks.images key image' himage'
    rw [hsame.uid]
    exact (h.kept key image himage).of_same hsame

theorem mono (hpaint : ∀ uid < nextUid, paint' uid = paint uid)
    (huid : nextUid ≤ nextUid') (hawaited : ∀ key uid, awaited key uid → awaited' key uid) :
    s.Ready paint' nextUid' awaited' where
  consistent := h.consistent
  unmarked := h.unmarked
  kept := by
    intro key image himage
    obtain ⟨hcreated, hwidth, hheight, hdrawn⟩ := h.kept key image himage
    rw [← hpaint _ hcreated] at hwidth hheight hdrawn
    exact ⟨hcreated.trans_le huid, hwidth, hheight,
      hdrawn.imp_left fun hwaits => ⟨hwaits.1, hwaits.2.1, hawaited _ _ hwaits.2.2⟩⟩

/-- What is not created yet does not show. -/
theorem fill_congr
    (hpaint : ∀ uid < nextUid, paint' uid = paint uid) : s.fill paint' = s.fill paint := by
  unfold fill
  rw [mapValues_congr fun key image himage => ?_]
  unfold Image.fill Paint.on
  rw [hpaint _ (h.kept key image himage).created]

/-- Where nothing is awaited, hindsight adds nothing. -/
theorem fill_eq_self (hawaited : ∀ key uid, ¬awaited key uid) : s.fill paint = s := by
  unfold fill
  rw [mapValues_eq_self fun key image himage => ?_]
  rcases (h.kept key image himage).drawn with ⟨-, -, hwaits⟩ | ⟨hpixels, -⟩
  · exact (hawaited _ _ hwaits).elim
  · refine Image.fill_of_pixels ?_
    rw [hpixels]
    exact Option.some_ne_none _

theorem removeById (id : ℕ) : (s.removeById id).Ready paint nextUid awaited :=
  h.shrink (h.consistent.removeById id) (unmarked_removeById h.unmarked id) (Shrinks.removeById s id)

theorem removeWhere {move : Placement F → Image → Option (Placement F)} {reap : Reap}
    (hconsistent : (s.removeWhere move reap).Consistent) :
    (s.removeWhere move reap).Ready paint nextUid awaited :=
  h.shrink hconsistent (unmarked_removeWhere s move reap) (Shrinks.removeWhere s move reap)

theorem delete (command : Command) (row col : ℤ) :
    (s.delete command row col).Ready paint nextUid awaited :=
  h.shrink (h.consistent.delete command row col) (unmarked_delete h.unmarked command row col)
    (Shrinks.delete s command row col)

theorem enforceQuota (keep : Option ℕ) : (s.enforceQuota keep).Ready paint nextUid awaited :=
  h.shrink (h.consistent.enforceQuota keep) (unmarked_enforceQuota h.unmarked keep)
    (Shrinks.enforceQuota s keep)

/-- A new image, with its pixels or a decode that will bring them. -/
theorem insert (id number : ℕ) (drawing : Pixels)
    (hfits : drawing.width ≤ maxDimension ∧ drawing.height ≤ maxDimension)
    (hlength : drawing.rgba.length = drawing.width * drawing.height * 4) (arrived : Bool)
    (hawaited : arrived = false → awaited ((s.reap .unaddressable).lastKey + 1) nextUid) :
    (s.insert nextUid id number (drawing.width, drawing.height)
      (if arrived then some drawing.rgba else none) (arrived && drawing.isOpaque)).1.Ready
        (Function.update paint nextUid drawing) (nextUid + 1) awaited := by
  have hold := @mono _ paint s _ nextUid _ awaited awaited h
    (fun uid huid => Function.update_of_ne huid.ne drawing paint) (Nat.le_succ nextUid)
    fun key uid hwaits => hwaits
  refine ⟨@Consistent.insert _ s h.consistent _ _ _ (drawing.width, drawing.height) hfits _
    (fun rgba hrgba => ?_) _, unmarked_insert _ _ _ _ _ _ _, fun key image himage => ?_⟩
  · cases arrived with
    | true =>
      cases hrgba
      exact hlength
    | false => cases hrgba
  · unfold ImageStore.insert at himage
    dsimp only at himage
    rw [lookup_insert] at himage
    split at himage
    · rename_i hkey
      cases himage
      refine ⟨Nat.lt_succ_self _, ?_, ?_, ?_⟩
      · rw [Function.update_self]
      · rw [Function.update_self]
      · dsimp only
        rw [Function.update_self]
        cases arrived with
        | true => exact Or.inr ⟨rfl, rfl⟩
        | false => exact Or.inl ⟨rfl, rfl, hkey ▸ hawaited rfl⟩
    · obtain ⟨old, himage, hsame⟩ := (Shrinks.reap s .unaddressable).images key image himage
      rw [hsame.uid]
      exact (hold.kept key old himage).of_same hsame

theorem setPixels {key : ℕ} {image : Image}
    (himage : s.images.lookup key = some image) (hlength : (paint image.uid).rgba.length =
      (paint image.uid).width * (paint image.uid).height * 4)
    (hawaited : ∀ other uid, ¬(other = key ∧ uid = image.uid) → awaited other uid →
      awaited' other uid) :
    (s.setPixels key (paint image.uid).rgba (paint image.uid).isOpaque).Ready paint nextUid
      awaited' := by
  obtain ⟨hcreated, hwidth, hheight, -⟩ := h.kept key image himage
  refine ⟨h.consistent.setPixels key _ fun other hother => ?_, unmarked_setPixels h.unmarked _ _ _,
    fun other image' himage' => ?_⟩
  · rw [himage] at hother
    cases hother
    unfold Image.bytes
    rw [hwidth, hheight, hlength]
  · unfold ImageStore.setPixels at himage'
    dsimp only at himage'
    rw [lookup_adjust] at himage'
    split at himage'
    · rename_i hkey
      rw [hkey, himage] at himage'
      cases himage'
      exact ⟨hcreated, hwidth, hheight, Or.inr ⟨rfl, rfl⟩⟩
    · rename_i hkey
      obtain ⟨hcreated', hwidth', hheight', hdrawn'⟩ := h.kept other image' himage'
      exact ⟨hcreated', hwidth', hheight', hdrawn'.imp_left fun hwaits =>
        ⟨hwaits.1, hwaits.2.1, hawaited _ _ (fun heq => hkey heq.1) hwaits.2.2⟩⟩

/-- In hindsight the pixels were there already. -/
theorem fill_setPixels_self {key : ℕ} {image : Image}
    (himage : s.images.lookup key = some image) :
    (s.setPixels key (paint image.uid).rgba (paint image.uid).isOpaque).fill paint =
      s.fill paint := by
  unfold fill ImageStore.setPixels
  dsimp only
  unfold SortedMap.adjust
  rw [mapValues_mapValues, mapValues_congr fun other image' himage' => ?_]
  split
  · rename_i hkey
    rw [hkey, himage] at himage'
    cases himage'
    rcases (h.kept key image himage).drawn with ⟨hpixels, -, -⟩ | ⟨hpixels, hshade⟩
    · unfold Image.fill Paint.on
      rw [hpixels]
    · rw [← hpixels, ← hshade]
  · rfl

end

variable [F32 F]

theorem put (h : s.Ready paint nextUid awaited) (key : ℕ) (command : Command) (row col : ℤ)
    (cell : CellPixels) : (s.put key command row col cell).1.Ready paint nextUid awaited :=
  h.shrink (h.consistent.put key command row col cell)
    (unmarked_put h.unmarked key command row col cell) (Shrinks.put s key command row col cell)

theorem scroll (h : s.Ready paint nextUid awaited) (scroll : Scroll) (cell : CellPixels) :
    (s.scroll scroll cell).Ready paint nextUid awaited :=
  h.shrink (h.consistent.scroll scroll cell) (unmarked_scroll h.unmarked scroll cell)
    (Shrinks.scroll s scroll cell)

theorem rescale (h : s.Ready paint nextUid awaited) (cell : CellPixels) :
    (s.rescale cell).Ready paint nextUid awaited :=
  h.shrink (h.consistent.rescale cell) h.unmarked (Shrinks.rescale s cell)

end Ready

end ImageStore

end Vivido.Graphics
