import Vivido.Graphics.Filling
import Vivido.Graphics.Sound

/-!
Ids name images. Between two commands no image is marked, and the image a store
lists under an id is the only one that has it: a transmission frees its id when it
starts, and no other image can take the id before it ends.
-/

namespace Vivido.Graphics

open SortedMap List

variable {F : Type}

namespace ImageStore

variable {s s' s'' : ImageStore F}

/-- Images become fewer, and those that stay keep their ids and what the ids list them under. -/
structure Narrows (s s' : ImageStore F) : Prop where
  images : ∀ key image', s'.images.lookup key = some image' →
    ∃ image, s.images.lookup key = some image ∧ image'.id = image.id
  listed : ∀ id key, s.ids.lookup id = some key → (s'.images.lookup key).isSome →
    s'.ids.lookup id = some key
  free : ∀ id, s.ids.lookup id = none → s'.ids.lookup id = none

namespace Narrows

theorem of_mapValues {f : ℕ → Image → Image} (hf : ∀ key image, (f key image).id = image.id)
    (himages : s'.images = s.images.mapValues f) (hids : s'.ids = s.ids) : Narrows s s' where
  images := by
    intro key _ himage'
    rw [himages, lookup_mapValues] at himage'
    obtain ⟨image, himage, rfl⟩ := Option.map_eq_some_iff.mp himage'
    exact ⟨image, himage, hf key image⟩
  listed := fun id key hid _ => hids ▸ hid
  free := fun id hid => hids ▸ hid

theorem of_adjust {key : ℕ} {g : Image → Image} (hg : ∀ image, (g image).id = image.id)
    (himages : s'.images = s.images.adjust key g) (hids : s'.ids = s.ids) : Narrows s s' := by
  refine of_mapValues (fun other image => ?_) himages hids
  split
  · exact hg image
  · rfl

theorem of_eq (himages : s'.images = s.images) (hids : s'.ids = s.ids) : Narrows s s' where
  images := fun _ image himage => ⟨image, himages ▸ himage, rfl⟩
  listed := fun _ _ hid _ => hids ▸ hid
  free := fun _ hid => hids ▸ hid

theorem refl (s : ImageStore F) : Narrows s s := of_eq rfl rfl

theorem trans (h : Narrows s s') (h' : Narrows s' s'') : Narrows s s'' where
  images := by
    intro key image'' himage''
    obtain ⟨image', himage', hid'⟩ := h'.images key image'' himage''
    obtain ⟨image, himage, hid⟩ := h.images key image' himage'
    exact ⟨image, himage, hid'.trans hid⟩
  listed := by
    intro id key hid hkey
    obtain ⟨image'', himage''⟩ := Option.isSome_iff_exists.mp hkey
    obtain ⟨_, himage', -⟩ := h'.images key image'' himage''
    exact h'.listed id key (h.listed id key hid (Option.isSome_of_eq_some himage')) hkey
  free := fun id hid => h'.free id (h.free id hid)

theorem removeImage (s : ImageStore F) (key : ℕ) : Narrows s (s.removeImage key) := by
  unfold ImageStore.removeImage
  split
  · exact refl s
  rename_i image himage
  suffices herased : Narrows s { s with
      images := s.images.erase key
      stored := s.stored - image.bytes
      ids := if image.id ≠ 0 ∧ s.ids.lookup image.id = some key then s.ids.erase image.id
        else s.ids } by
    dsimp only
    split
    · exact herased.trans (of_eq rfl rfl)
    · exact herased
  refine ⟨fun other image' himage' => ?_, fun id other hid hother => ?_, fun id hid => ?_⟩
  · exact ⟨image', (lookup_erase_some himage').2, rfl⟩
  · dsimp only at hother ⊢
    split
    · rename_i hnamed
      rw [lookup_erase, if_neg ?_]
      · exact hid
      · intro heq
        rw [heq, hnamed.2] at hid
        cases hid
        rw [lookup_erase, if_pos rfl] at hother
        cases hother
    · exact hid
  · dsimp only
    split
    · rw [lookup_erase]
      split
      · rfl
      · exact hid
    · exact hid

theorem removeImages (s : ImageStore F) (keys : List ℕ) : Narrows s (s.removeImages keys) := by
  unfold ImageStore.removeImages
  induction keys generalizing s with
  | nil => exact refl s
  | cons key _ ih => exact (removeImage s key).trans (ih _)

theorem reap (s : ImageStore F) (reap : Reap) : Narrows s (s.reap reap) := by
  have hcleared : Narrows s { s with
      images := s.images.mapValues fun _ image => { image with matched := false } } :=
    of_mapValues (f := fun _ image => { image with matched := false }) (fun _ _ => rfl) rfl rfl
  exact hcleared.trans (removeImages _ _)

theorem sweepOne (move : Placement F → Image → Option (Placement F)) (s : ImageStore F)
    (p : Placement F) : Narrows s (sweepOne move s p) := by
  unfold ImageStore.sweepOne
  split
  · exact refl s
  · split
    · exact of_eq rfl rfl
    · exact of_adjust (g := Image.release) (fun _ => rfl) rfl rfl

theorem removeWhere (s : ImageStore F) (move : Placement F → Image → Option (Placement F))
    (reap : Reap) : Narrows s (s.removeWhere move reap) := by
  have hsweep : ∀ (todo : List (Placement F)) (s : ImageStore F),
      Narrows s (todo.foldl (ImageStore.sweepOne move) s) := by
    intro todo
    induction todo with
    | nil => exact refl
    | cons p _ ih => exact fun s => (sweepOne move s p).trans (ih _)
  have hcleared : Narrows s { s with placements := [] } := of_eq rfl rfl
  exact (hcleared.trans (hsweep s.placements _)).trans (Narrows.reap _ reap)

theorem addPlacement (s : ImageStore F) (placement : Placement F) :
    Narrows s (s.addPlacement placement).1 := by
  unfold ImageStore.addPlacement
  dsimp only
  split
  · exact of_eq rfl rfl
  · exact of_adjust (g := fun image => { image with refs := image.refs + 1 })
      (fun _ => rfl) rfl rfl

end Narrows

/-! ### What holds of a store between commands -/

/-- No image is marked, an image that has an id is the one listed under it, and some ids are
not in use. -/
structure Named (unused : ℕ → Prop) (s : ImageStore F) : Prop where
  unmarked : s.Unmarked
  listed : ∀ key image, s.images.lookup key = some image → image.id ≠ 0 →
    s.ids.lookup image.id = some key
  unused : ∀ id, unused id → s.ids.lookup id = none

variable {unused : ℕ → Prop}

theorem named_empty : ({} : ImageStore F).Named unused where
  unmarked := fun key image himage => by cases himage
  listed := fun key image himage => by cases himage
  unused := fun _ _ => rfl

theorem Named.mono {fewer : ℕ → Prop} (h : s.Named unused)
    (hfewer : ∀ id, fewer id → unused id) : s.Named fewer :=
  ⟨h.unmarked, h.listed, fun id hid => h.unused id (hfewer id hid)⟩

theorem Named.narrows (h : s.Named unused) (hnarrows : Narrows s s') (hunmarked : s'.Unmarked) :
    s'.Named unused where
  unmarked := hunmarked
  listed := by
    intro key image' himage' hid
    obtain ⟨image, himage, heq⟩ := hnarrows.images key image' himage'
    rw [heq] at hid ⊢
    exact hnarrows.listed _ key (h.listed key image himage hid)
      (Option.isSome_of_eq_some himage')
  unused := fun id hid => hnarrows.free id (h.unused id hid)

namespace Named

section

variable (h : s.Named unused)
include h

theorem removeImage (key : ℕ) : (s.removeImage key).Named unused :=
  h.narrows (Narrows.removeImage s key) (unmarked_removeImage h.unmarked key)

theorem removeImages (keys : List ℕ) : (s.removeImages keys).Named unused :=
  h.narrows (Narrows.removeImages s keys) (unmarked_removeImages h.unmarked keys)

theorem removeById (id : ℕ) : (s.removeById id).Named unused := by
  unfold ImageStore.removeById
  split
  · exact h
  · exact h.removeImage _

theorem removeWhere (move : Placement F → Image → Option (Placement F))
    (reap : Reap) : (s.removeWhere move reap).Named unused :=
  h.narrows (Narrows.removeWhere s move reap) (unmarked_reap _ reap)

theorem removeIf (remove : Placement F → Image → Bool) (reap : Reap) :
    (s.removeIf remove reap).Named unused := h.removeWhere _ reap

theorem limitPlacements : s.limitPlacements.Named unused := by
  unfold ImageStore.limitPlacements
  split
  · exact h
  · split
    · exact h.removeIf _ _
    · exact h

theorem addPlacement (placement : Placement F) : (s.addPlacement placement).1.Named unused := by
  refine h.narrows (Narrows.addPlacement s placement) ?_
  unfold ImageStore.addPlacement
  dsimp only
  split
  · exact h.unmarked
  · exact unmarked_adjust (g := fun image => { image with refs := image.refs + 1 }) h.unmarked
      (fun _ hmark => hmark) rfl

theorem deleteImage (key : Option ℕ) (placement : ℕ) (reap : Reap) :
    (s.deleteImage key placement reap).Named unused := by
  unfold ImageStore.deleteImage
  split
  · exact h
  dsimp only
  split
  · split
    · exact h.removeImage _
    · exact h
  · exact h.removeIf _ _

theorem deleteRange (first last : ℕ) (reap : Reap) :
    (s.deleteRange first last reap).Named unused := by
  unfold ImageStore.deleteRange
  dsimp only
  split
  · exact (h.removeImages _).removeIf _ _
  · exact h.removeIf _ _

theorem delete (command : Command) (row col : ℤ) : (s.delete command row col).Named unused := by
  unfold ImageStore.delete
  dsimp only
  split
  · exact h.removeIf _ _
  · exact h.deleteImage _ _ _
  · exact h.deleteImage _ _ _
  · exact h.deleteRange _ _ _
  all_goals first | exact h.removeIf _ _ | exact h

theorem clear (history : Bool) : (s.clear history).Named unused :=
  h.removeIf _ _

theorem clearHistory : s.clearHistory.Named unused := h.removeIf _ _

theorem applyAnchors (moved : ℕ → Option (ℤ × ℤ)) : (s.applyAnchors moved).Named unused :=
  h.removeWhere _ _

theorem setPixels (key : ℕ) (pixels : List UInt8) (isOpaque : Bool) :
    (s.setPixels key pixels isOpaque).Named unused := by
  let filled := fun image : Image => { image with pixels := some pixels, isOpaque := isOpaque }
  exact h.narrows (Narrows.of_adjust (g := filled) (fun _ => rfl) rfl rfl)
    (unmarked_adjust (g := filled) h.unmarked (fun _ hmark => hmark) rfl)

theorem evict (keep : Option ℕ) (fuel : ℕ) : (ImageStore.evict keep fuel s).Named unused := by
  induction fuel generalizing s with
  | zero => exact h
  | succ _ ih =>
    unfold ImageStore.evict
    split
    · split
      · exact h
      · exact ih (h.removeImage _)
    · exact h

theorem enforceQuota (keep : Option ℕ) : (s.enforceQuota keep).Named unused := by
  unfold ImageStore.enforceQuota
  split
  · exact h
  · exact (h.removeImages _).evict _ _

/-- A new image takes an id that is not in use. -/
theorem insert (uid id number : ℕ) (size : ℕ × ℕ)
    (pixels : Option (List UInt8)) (isOpaque : Bool) (hid : id ≠ 0 → unused id) :
    (s.insert uid id number size pixels isOpaque).1.Named fun _ => False := by
  have hreaped : (s.reap .unaddressable).Named unused :=
    h.narrows (Narrows.reap s _) (unmarked_reap s _)
  unfold ImageStore.insert
  dsimp only
  generalize s.reap .unaddressable = reaped at hreaped
  refine ⟨fun key image himage => ?_, fun key image himage hnamed => ?_,
    fun _ hfalse => hfalse.elim⟩
  · rw [lookup_insert] at himage
    split at himage
    · cases himage
      rfl
    · exact hreaped.unmarked key image himage
  · rw [lookup_insert] at himage
    split at himage
    · rename_i hkey
      cases himage
      dsimp only at hnamed ⊢
      rw [if_pos hnamed, hkey]
      exact lookup_insert_self
    · have hlisted := hreaped.listed key image himage hnamed
      split
      · rename_i hne
        rw [lookup_insert, if_neg ?_]
        · exact hlisted
        · intro heq
          rw [heq, hreaped.unused id (hid hne)] at hlisted
          cases hlisted
      · exact hlisted

end

variable [F32 F]

theorem put (h : s.Named unused) (key : ℕ) (command : Command) (row col : ℤ) (cell : CellPixels) :
    (s.put key command row col cell).1.Named unused := by
  unfold ImageStore.put
  split
  · exact ⟨h.unmarked, h.listed, h.unused⟩
  rename_i image _
  let stamped := fun image : Image => { image with used := s.clock + 1 }
  have hstamped : ({ s with
      clock := s.clock + 1
      images := s.images.adjust key stamped } : ImageStore F).Named unused :=
    h.narrows (Narrows.of_adjust (g := stamped) (fun _ => rfl) rfl rfl)
      (unmarked_adjust (g := stamped) h.unmarked (fun _ hmark => hmark) rfl)
  have hplaced := hstamped.addPlacement ((placementOf image key command row col cell).fit cell)
  dsimp only
  split
  · exact (Named.removeIf hplaced _ _).limitPlacements
  · exact Named.limitPlacements hplaced

theorem scroll (h : s.Named unused) (scroll : Scroll) (cell : CellPixels) :
    (s.scroll scroll cell).Named unused := by
  unfold ImageStore.scroll
  split
  · exact h
  · split
    · exact h.removeWhere _ _
    · exact h.removeWhere _ _

theorem rescale (h : s.Named unused) (cell : CellPixels) : (s.rescale cell).Named unused :=
  ⟨h.unmarked, h.listed, h.unused⟩

end Named

/-! ### Finding an id that is not in use -/

theorem freeFrom_fresh {ids : List ℕ} {free : ℕ} (hsorted : ids.Pairwise (· < ·))
    (hleast : ∀ id ∈ ids, free ≤ id) (hroom : free + ids.length < 2 ^ 32) :
    freeFrom free ids ∉ ids ∧ free ≤ freeFrom free ids := by
  induction ids generalizing free with
  | nil => exact ⟨not_mem_nil, le_refl free⟩
  | cons id ids ih =>
    obtain ⟨hrest, hsorted⟩ := List.pairwise_cons.mp hsorted
    have hid := hleast id mem_cons_self
    rw [length_cons] at hroom
    unfold freeFrom
    split
    · rename_i hne
      refine ⟨fun hmem => ?_, le_refl free⟩
      rcases List.mem_cons.mp hmem with heq | hmem
      · exact hne heq.symm
      · have := hrest free hmem
        omega
    · rename_i heq
      have heq : id = free := not_not.mp heq
      have hnext : min (free + 1) (2 ^ 32 - 1) = free + 1 := by omega
      rw [hnext]
      have hnextLeast : ∀ other ∈ ids, free + 1 ≤ other := by
        intro other hother
        have := hrest other hother
        omega
      obtain ⟨hfresh, _⟩ := ih hsorted hnextLeast (by omega)
      refine ⟨fun hmem => ?_, by omega⟩
      rcases List.mem_cons.mp hmem with _ | hmem
      · omega
      · exact hfresh hmem

theorem Consistent.size_ids_le (h : s.Consistent) : s.ids.size ≤ s.images.size := by
  have hnodup : (s.ids.entries.map Prod.snd).Nodup := by
    refine List.Nodup.map_on ?_ (List.Nodup.of_map Prod.fst s.ids.nodup_keys)
    rintro ⟨id, key⟩ hentry ⟨id', key'⟩ hentry' heq
    obtain ⟨-, image, himage, rfl⟩ := h.named id key (mem_entries.mp hentry)
    obtain ⟨-, _, himage', rfl⟩ := h.named id' key' (mem_entries.mp hentry')
    have heq : key = key' := heq
    subst heq
    cases himage.symm.trans himage'
    rfl
  have hsub : s.ids.entries.map Prod.snd ⊆ s.images.entries.map Prod.fst := by
    intro _ hkey
    obtain ⟨⟨id, other⟩, hentry, rfl⟩ := List.mem_map.mp hkey
    obtain ⟨-, image, himage, -⟩ := h.named id other (mem_entries.mp hentry)
    exact List.mem_map.mpr ⟨(other, image), mem_entries.mpr himage, rfl⟩
  have hle := (subperm_of_subset hnodup hsub).length_le
  rw [length_map, length_map] at hle
  exact hle

theorem Sound.lookup_freeId (h : s.Sound) : s.ids.lookup s.freeId = none := by
  have hsize := h.consistent.size_ids_le
  have hwithin := h.within
  simp only [overLimit, Bool.or_eq_false_iff, decide_eq_false_iff_not, not_lt] at hwithin
  have hlength : (s.ids.entries.map Prod.fst).length ≤ maxImages := by
    rw [length_map]
    exact hsize.trans hwithin.2
  have hroom : 1 + (s.ids.entries.map Prod.fst).length < 2 ^ 32 := by
    unfold maxImages at hlength
    omega
  have hleast : ∀ id ∈ s.ids.entries.map Prod.fst, 1 ≤ id := by
    intro _ hid
    obtain ⟨⟨other, key⟩, hentry, rfl⟩ := List.mem_map.mp hid
    have hlisted := h.consistent.named other key (mem_entries.mp hentry)
    exact Nat.one_le_iff_ne_zero.mpr hlisted.1
  refine lookup_eq_none.mpr fun key hentry => ?_
  exact (freeFrom_fresh s.ids.sorted hleast hroom).1 (List.mem_map.mpr ⟨_, hentry, rfl⟩)

theorem Consistent.lookup_removeById (h : s.Consistent) (id : ℕ) :
    (s.removeById id).ids.lookup id = none := by
  unfold ImageStore.removeById keyById
  split
  · assumption
  · rename_i key hkey
    obtain ⟨hid, _, himage, rfl⟩ := h.named id key hkey
    rw [h.removeImage_eq himage]
    dsimp only
    rw [if_pos ⟨hid, hkey⟩, lookup_erase, if_pos rfl]

end ImageStore

/-! ### Every command -/

namespace KittyGraphics

/-- An id that a transmission in progress will give to its image. -/
def Pending (loader : Option Load) (id : ℕ) : Prop :=
  ∃ load, loader = some load ∧ load.start.id = id ∧ id ≠ 0 ∧ load.isRejected = false ∧
    load.start.action ≠ ascii 'q'

variable {load : Load}

theorem pending_of_continues {loader : Option Load} {load' : Load} {id : ℕ}
    (hload : loader = some load) (hcontinues : Load.Continues load load')
    (h : Pending (some load') id) : Pending loader id := by
  obtain ⟨_, hother, hid, hne, haccepted, haction⟩ := h
  cases hother
  rw [hcontinues.start] at hid haction
  refine ⟨load, hload, hid, hne, ?_, haction⟩
  rcases hcontinues.target with htarget | ⟨_, htarget⟩
  · unfold Load.isRejected at haccepted ⊢
    rw [htarget] at haccepted
    exact haccepted
  · unfold Load.isRejected at haccepted
    rw [htarget] at haccepted
    cases haccepted

/-- Images are named in both stores, and the displayed one has room for the image in progress. -/
def Named (g : KittyGraphics F) : Prop :=
  ∀ screen, (g.screen screen).Named fun id => screen = g.active ∧ Pending g.loader id

variable {g g' : KittyGraphics F} {decoders : Decoders}

theorem named_fresh : ({} : KittyGraphics F).Named := by
  intro screen
  cases screen <;> exact ImageStore.named_empty

theorem Named.store (h : g.Named) : g.store.Named (Pending g.loader) :=
  ImageStore.Named.mono (h g.active) fun _ hid => ⟨rfl, hid⟩

/-- A change of the displayed store that keeps the names, of whatever is pending. -/
theorem named_change (h : g.Named) (hactive : g'.active = g.active)
    (hother : ∀ screen, screen ≠ g.active → g'.screen screen = g.screen screen)
    (hstore : g'.store.Named (Pending g'.loader)) : g'.Named := by
  intro screen
  by_cases hscreen : screen = g'.active
  · subst hscreen
    exact ImageStore.Named.mono hstore fun _ hid => hid.2
  · rw [hother screen (hactive ▸ hscreen)]
    exact ImageStore.Named.mono (h screen) fun _ hid => (hscreen hid.1).elim

theorem Change.named (loader : Option Load)
    (hchange : Change (ImageStore.Named (Pending loader)) g g') (h : g.Named)
    (hloader : ∀ id, Pending loader id → Pending g.loader id)
    (hpending : ∀ id, Pending g'.loader id → Pending loader id) : g'.Named :=
  named_change h hchange.active hchange.other
    (ImageStore.Named.mono (hchange.keeps (ImageStore.Named.mono h.store hloader)) hpending)

theorem named_of_eq (h : g.Named) (hactive : g'.active = g.active)
    (hprimary : g'.primary = g.primary) (halternate : g'.alternate = g.alternate)
    (hpending : ∀ id, Pending g'.loader id → Pending g.loader id) : g'.Named :=
  Change.named g.loader (Change.of_eq hactive hprimary halternate) h (fun _ hid => hid) hpending

theorem not_pending_none {id : ℕ} (h : Pending none id) : False := by
  obtain ⟨_, hload, -⟩ := h
  cases hload

theorem not_pending_rejected {id : ℕ} (h : Pending (some load) id)
    (hrejected : load.isRejected = true) : False := by
  obtain ⟨_, hother, -, -, haccepted, -⟩ := h
  cases hother
  rw [hrejected] at haccepted
  cases haccepted

theorem start_begin (start : Command) : (Load.begin start).start = start := by
  unfold Load.begin
  split <;> rfl

/-- A transmission starts with its id unused, by removing what has it or by choosing it. -/
theorem unused_beginLoad (hsound : g.store.Sound) (start : Command) {id : ℕ}
    (h : Pending (g.beginLoad start).loader id) :
    (g.beginLoad start).store.ids.lookup id = none := by
  obtain ⟨_, hload, hid, hne, haccepted, haction⟩ := h
  unfold beginLoad at hload ⊢
  dsimp only at hload ⊢
  cases hload
  by_cases hboth : start.id ≠ 0 ∧ start.number ≠ 0
  · rw [if_pos hboth, Load.isRejected_reject] at haccepted
    cases haccepted
  rw [if_neg hboth, start_begin] at hid haction
  by_cases hquery : start.action = ascii 'q'
  · refine absurd ?_ haction
    split <;> exact hquery
  by_cases hstart : start.id = 0
  · rw [if_neg fun hnamed => hnamed.2 hstart]
    by_cases hnumber : start.number = 0
    · rw [if_neg fun hnamed => hnamed.2.2 hnumber] at hid
      exact absurd (hid.symm.trans hstart) hne
    · rw [if_pos ⟨⟨hboth, hquery⟩, hstart, hnumber⟩] at hid
      subst hid
      exact hsound.lookup_freeId
  · rw [if_neg fun hnamed => hstart hnamed.2.1] at hid
    subst hid
    rw [if_pos ⟨⟨hboth, hquery⟩, hstart⟩]
    change (g.modifyStore (·.removeById start.id)).store.ids.lookup start.id = none
    rw [store_modifyStore]
    exact hsound.consistent.lookup_removeById start.id

theorem stable_named (unused : ℕ → Prop) : Stable (@ImageStore.Named F unused) where
  removeById := fun _ id h => h.removeById id
  delete := fun _ command row col h => h.delete command row col

theorem named_beginLoad (h : g.Named) (hsound : g.store.Sound) (start : Command) :
    (g.beginLoad start).Named := by
  have hchange := change_beginLoad (stable_named (Pending g.loader)) g start
  have hstore := hchange.keeps h.store
  exact named_change h hchange.active hchange.other
    ⟨hstore.unmarked, hstore.listed, fun id hid => unused_beginLoad hsound start hid⟩

theorem Reads.named (hreads : Reads decoders g g') (h : g.Named) (hsound : g.store.Sound) :
    g'.Named := by
  induction hreads with
  | noted => exact named_of_eq h rfl rfl rfl fun _ hid => hid
  | begun start => exact named_beginLoad h hsound start
  | refused =>
    refine named_of_eq h rfl rfl rfl fun id hid => ?_
    exact (not_pending_rejected hid (Load.isRejected_reject _ _)).elim
  | @fed g bytes =>
    refine named_of_eq h rfl rfl rfl fun id hid => ?_
    unfold putPayload at hid
    dsimp only at hid
    cases hloader : g.loader with
    | none =>
      rw [hloader] at hid
      exact hid
    | some load =>
      rw [hloader] at hid
      exact pending_of_continues rfl (Load.continues_push load bytes) hid
  | trans hfirst _ ih ih' => exact ih' (ih h hsound) ((hfirst.change stable_sound).keeps hsound)

/-! ### Running a command -/

/-- Nothing is known of what is pending. -/
theorem Named.settled (h : g.Named) : g.store.Named fun _ => False :=
  ImageStore.Named.mono h.store fun _ hid => hid.elim

theorem change_insertImage_named (g : KittyGraphics F) (start : Command) (size : ℕ × ℕ)
    (pixels : Option Pixels) (hunused : start.id ≠ 0 → g.store.ids.lookup start.id = none) :
    Change (ImageStore.Named fun _ => False) g (g.insertImage start size pixels).1 := by
  unfold insertImage
  dsimp only
  generalize hinserted : g.store.insert _ _ _ _ _ _ = inserted
  have hmodified : Change (ImageStore.Named fun _ => False) g
      (g.modifyStore fun _ => inserted.1) := by
    refine change_modifyStore fun h => ?_
    have hroom : g.store.Named fun id => id = start.id ∧ id ≠ 0 :=
      ⟨h.unmarked, h.listed, fun id hid => hid.1 ▸ hunused (hid.1 ▸ hid.2)⟩
    rw [← hinserted]
    exact hroom.insert _ _ _ _ _ _ fun hne => ⟨rfl, hne⟩
  exact hmodified.trans (Change.of_eq rfl rfl rfl)

variable [F32 F]

theorem change_storeImage_named (g : KittyGraphics F) (start : Command) (cursor : Cursor)
    (size : ℕ × ℕ) (pixels : Option Pixels) (job : Option DecodeJob)
    (hunused : start.id ≠ 0 → g.store.ids.lookup start.id = none) :
    Change (ImageStore.Named fun _ => False) g (g.storeImage start cursor size pixels job).1 := by
  unfold storeImage
  dsimp only
  have hinsert := change_insertImage_named g start size pixels hunused
  generalize g.insertImage start size pixels = inserted at hinsert
  have hanswer := hinsert.trans (change_answer inserted.1 start inserted.2 g.nextUid job)
  generalize inserted.1.answer start inserted.2 g.nextUid job = answered at hanswer
  have hplaced : Change (ImageStore.Named fun _ => False) g
      (if start.action = ascii 'T' then answered.put inserted.2 start cursor
        else (answered, {})).1 := by
    refine hanswer.trans ?_
    split
    · exact change_put _ _ _ _ fun h => ImageStore.Named.put h _ _ _ _ _
    · exact Change.refl _
  exact hplaced.trans (change_modifyStore (f := (·.enforceQuota (some inserted.2)))
    fun h => ImageStore.Named.enforceQuota h _)

theorem isRejected_of_finish {received : Received} (h : load.finish = .ok received) :
    load.isRejected = false := by
  unfold Load.finish at h
  unfold Load.isRejected
  dsimp only at h
  split at h
  · cases h
  · rename_i htarget
    rw [htarget]
  · split
    · rename_i hrejected _ _ failure htarget
      exact (hrejected failure htarget).elim
    · rfl

theorem change_loadComplete_named (decoders : Decoders) (g : KittyGraphics F) (load : Load)
    (cursor : Cursor) (hunused : ∀ id, Pending (some load) id → g.store.ids.lookup id = none) :
    Change (ImageStore.Named fun _ => False) g (g.loadComplete decoders load cursor).1 := by
  unfold loadComplete
  dsimp only
  split
  · exact Change.refl g
  split
  · exact change_reply _ _ _
  rename_i hreceived
  obtain ⟨_, hfinish, -⟩ := ok_of_bind hreceived
  split
  · split
    · exact change_queue _ _ _ _
    · exact change_reply _ _ _
  · rename_i haction
    refine change_storeImage_named g _ cursor _ _ _ fun hne => ?_
    exact hunused _ ⟨load, rfl, rfl, hne, isRejected_of_finish hfinish, haction⟩

/-- The end of a chunk changes nothing of a transmission but what it may answer. -/
theorem pending_closeChunk {loader : Option Load} (command : Command) {id : ℕ}
    (hload : loader = some load) (h : Pending (some (load.closeChunk decoders command)) id) :
    Pending loader id := by
  refine pending_of_continues hload (@Load.continues_endChunk decoders load) ?_
  unfold Load.closeChunk at h
  dsimp only at h
  split at h
  · obtain ⟨_, hother, hid, hne, haccepted, haction⟩ := h
    cases hother
    exact ⟨_, rfl, hid, hne, haccepted, haction⟩
  · exact h

theorem named_chunkComplete (h : g.Named) (command : Command) (cursor : Cursor) :
    (g.chunkComplete decoders command cursor).1.Named := by
  unfold chunkComplete
  split
  · exact h
  rename_i load hload
  dsimp only
  split
  · exact named_of_eq h rfl rfl rfl fun id hid => pending_closeChunk command hload hid
  have hopen : ({ g with loader := none } : KittyGraphics F).Named :=
    named_of_eq h rfl rfl rfl fun id hid => (not_pending_none hid).elim
  have hchange := change_loadComplete_named decoders
    ({ g with loader := none } : KittyGraphics F) (load.closeChunk decoders command) cursor
    fun id hid => h.store.unused id (pending_closeChunk command hload hid)
  refine named_change hopen hchange.active hchange.other ?_
  refine ImageStore.Named.mono (hchange.keeps hopen.settled) fun id hid => ?_
  rw [loader_loadComplete] at hid
  exact (not_pending_none hid).elim

theorem named_execute (h : g.Named) (feeding : Bool) (command : Command) (cursor : Cursor) :
    (g.execute decoders feeding command cursor).1.Named := by
  unfold execute
  split
  · exact named_chunkComplete h command cursor
  split
  · have hchange : Change (ImageStore.Named (Pending g.loader)) g (g.place command cursor).1 :=
      change_place g command cursor fun s key hs =>
        hs.put key command cursor.row cursor.col g.cell
    refine hchange.named _ h (fun _ hid => hid) fun id hid => ?_
    rw [loader_place] at hid
    exact hid
  · split
    · have hopen : ({ g with loader := none } : KittyGraphics F).Named :=
        named_of_eq h rfl rfl rfl fun id hid => (not_pending_none hid).elim
      refine Change.named none (change_modifyStore
        (f := (·.delete command cursor.row cursor.col))
        ((stable_named _).delete _ _ _ _)) hopen (fun _ hid => hid) fun id hid => ?_
      rw [modifyStore, loader_modifyScreen] at hid
      exact hid
    · split
      · refine (change_reply _ _ _).named _ h (fun _ hid => hid) fun id hid => ?_
        rw [loader_reply] at hid
        exact hid
      · exact h

theorem named_apcEnd (h : g.Named) (hsound : g.store.Sound) (cancelled : Bool) (cursor : Cursor) :
    (g.apcEnd decoders cancelled cursor).1.Named := by
  have hclosed := (reads_apcClose decoders g cancelled).named h hsound
  unfold apcEnd
  generalize g.apcClose cancelled = closed at hclosed
  obtain ⟨closed, _, _⟩ := closed
  dsimp only at hclosed ⊢
  split
  · split
    · dsimp only
      split
      · exact named_of_eq hclosed rfl rfl rfl fun id hid => (not_pending_none hid).elim
      · exact hclosed
    · split
      · exact hclosed
      · exact named_execute hclosed _ _ _
  · exact hclosed

/-! ### Whatever happens -/

omit [F32 F] in
theorem named_modifyScreen (h : g.Named) (alternate : Bool) {f : ImageStore F → ImageStore F}
    (hf : ∀ unused, (g.screen alternate).Named unused → (f (g.screen alternate)).Named unused) :
    (g.modifyScreen alternate f).Named := by
  intro screen
  rw [screen_modifyScreen, active_modifyScreen, loader_modifyScreen]
  split
  · rename_i heq
    subst heq
    exact hf _ (h screen)
  · exact h screen

omit [F32 F] in
theorem named_finishJob (h : g.Named) (job : FinishedJob) : (g.finishJob job).Named := by
  suffices hinstalled : (g.install job).1.Named from
    named_of_eq hinstalled rfl rfl rfl fun _ hid => hid
  unfold install
  split
  · rename_i target _ _
    dsimp only
    split
    · exact named_modifyScreen h target.screen (f := (·.setPixels target.key _ _))
        fun _ hs => hs.setPixels _ _ _
    · exact named_modifyScreen h target.screen (f := (·.removeImage target.key))
        fun _ hs => hs.removeImage _
  · exact h
  · rename_i target _ _
    exact named_modifyScreen h target.screen (f := (·.removeImage target.key))
      fun _ hs => hs.removeImage _
  · exact h

theorem named_apply (h : g.Named) (hvalid : g.Valid) (op : Op) : (g.apply decoders op).Named := by
  have hsound := hvalid.sound g.active
  cases op with
  | apcPut bytes => exact (reads_apcPut decoders g bytes).named h hsound
  | apcEnd cancelled cursor => exact named_apcEnd h hsound cancelled cursor
  | finishJobs jobs =>
    unfold apply finishJobs
    dsimp only
    clear hvalid hsound
    generalize jobs.map (QueuedJob.run decoders) = finished
    induction finished generalizing g with
    | nil => exact h
    | cons job _ ih => exact ih (named_finishJob h job)
  | popReply =>
    unfold apply popReply
    dsimp only
    split
    · exact named_of_eq h rfl rfl rfl fun _ hid => hid
    · exact h
  | setCell cell =>
    unfold apply setCell
    dsimp only
    split
    · exact h
    · intro screen
      cases screen
      · exact (h false).rescale cell
      · exact (h true).rescale cell
  | scroll scroll =>
    exact named_modifyScreen h g.active (f := (·.scroll scroll g.cell)) fun _ hs =>
      hs.scroll scroll g.cell
  | clearScreen history =>
    exact named_modifyScreen h g.active (f := (·.clear history)) fun _ hs => hs.clear history
  | clearHistory =>
    exact named_modifyScreen h g.active (f := (·.clearHistory)) fun _ hs => hs.clearHistory
  | setAlternate alternate =>
    unfold apply setAlternate
    dsimp only
    split
    · exact h
    intro screen
    have hnone : ∀ id, (screen = alternate ∧ Pending none id) → False :=
      fun id hid => not_pending_none hid.2
    cases screen
    · exact ImageStore.Named.mono (h false) fun id hid => (hnone id hid).elim
    · exact ImageStore.Named.mono ((h true).clear true) fun id hid => (hnone id hid).elim
  | reset =>
    intro screen
    cases screen <;> exact ImageStore.named_empty
  | applyAnchors =>
    intro screen
    cases screen
    · exact (h false).applyAnchors _
    · exact (h true).applyAnchors _
  | _ => exact named_of_eq h rfl rfl rfl fun _ hid => hid

theorem named_applyAll (hdec : decoders.Limited) (h : g.Named) (hvalid : g.Valid)
    (ops : List Op) : (g.applyAll decoders ops).Named := by
  unfold applyAll
  induction ops generalizing g with
  | nil => exact h
  | cons op _ ih => exact ih (named_apply h hvalid op) (valid_apply hdec hvalid op)

/-- On either screen an id finds the one image that has it. -/
theorem ids_lookup_iff (hdec : decoders.Limited) (ops : List Op) (screen : Bool) (id key : ℕ) :
    let s := (({} : KittyGraphics F).applyAll decoders ops).screen screen
    s.ids.lookup id = some key ↔
      id ≠ 0 ∧ ∃ image, s.images.lookup key = some image ∧ image.id = id := by
  have hvalid := valid_applyAll hdec (valid_fresh (F := F)) ops
  have hnamed := named_applyAll hdec named_fresh (valid_fresh (F := F)) ops screen
  refine ⟨(hvalid.sound screen).consistent.named id key, ?_⟩
  rintro ⟨hid, image, himage, rfl⟩
  exact hnamed.listed key image himage hid

theorem ids_lookup_iff_shown : ∃ image, ((({} : KittyGraphics Rat).applyAll .uncompressed
    (whole "Ga=t,f=24,s=1,v=1,i=7;AAAA")).screen false).images.lookup 1 = some image ∧
      image.id = 7 :=
  ((ids_lookup_iff limited_uncompressed _ false 7 1).mp (by decide +kernel)).2

end KittyGraphics

end Vivido.Graphics
