import Vivido.Graphics.Store

/-!
The summaries a store keeps of its images and placements: reference counts, the
bytes stored, the ids in use and the number of virtual placements. Each operation
updates them by a difference. What they are differences of is stated here as one
invariant, and kept by removing an image, by removing or moving placements, and
by adding either.
-/

namespace Vivido.Graphics

open SortedMap List

variable {F : Type}

namespace ImageStore

/-- The summaries of a store are those of its images and placements. -/
structure Consistent (s : ImageStore F) : Prop where
  shown : ∀ p ∈ s.placements, ∃ image, s.images.lookup p.image = some image
  refs : ∀ key image, s.images.lookup key = some image →
    image.refs = s.placements.countP fun p => p.image = key
  stored : s.stored = (s.images.entries.map fun entry => entry.2.bytes).sum
  named : ∀ id key, s.ids.lookup id = some key →
    id ≠ 0 ∧ ∃ image, s.images.lookup key = some image ∧ image.id = id
  virtuals : s.virtualCount = s.placements.countP Placement.isVirtual
  ordered : (s.placements.map Placement.key).Pairwise (· < ·)
  placementKeys : ∀ p ∈ s.placements, p.key ≤ s.lastKey
  imageKeys : ∀ key image, s.images.lookup key = some image → key ≤ s.lastKey
  sized : ∀ key image, s.images.lookup key = some image →
    image.width ≤ maxDimension ∧ image.height ≤ maxDimension
  filled : ∀ key image pixels, s.images.lookup key = some image → image.pixels = some pixels →
    pixels.length = image.bytes

theorem consistent_empty : ({} : ImageStore F).Consistent where
  shown := fun p hp => by cases hp
  refs := fun key image h => by cases h
  stored := rfl
  named := fun id key h => by cases h
  virtuals := rfl
  ordered := List.Pairwise.nil
  placementKeys := fun p hp => by cases hp
  imageKeys := fun key image h => by cases h
  sized := fun key image h => by cases h
  filled := fun key image pixels h => by cases h

variable {s : ImageStore F}

/-! ### Changing images in place -/

/-- What a change of an image may not touch. -/
structure Retained (image image' : Image) : Prop where
  id : image'.id = image.id
  width : image'.width = image.width
  height : image'.height = image.height
  pixels : ∀ pixels, image'.pixels = some pixels →
    image.pixels = some pixels ∨ pixels.length = image.bytes

theorem Retained.bytes {image image' : Image} (h : Retained image image') :
    image'.bytes = image.bytes := by
  unfold Image.bytes
  rw [h.width, h.height]

section

variable (h : s.Consistent) (f : ℕ → Image → Image)
  (hf : ∀ key image, s.images.lookup key = some image → Retained image (f key image))
include h f hf

/-- The placements may change together with the images, if the counts agree with them again. -/
theorem Consistent.update (placements : List (Placement F)) (virtualCount lastKey : ℕ)
    (hshown : ∀ p ∈ placements, ∃ image, s.images.lookup p.image = some image)
    (hrefs : ∀ key image, s.images.lookup key = some image →
      (f key image).refs = placements.countP fun p => p.image = key)
    (hvirtuals : virtualCount = placements.countP Placement.isVirtual)
    (hordered : (placements.map Placement.key).Pairwise (· < ·))
    (hkeys : ∀ p ∈ placements, p.key ≤ lastKey) (hlast : s.lastKey ≤ lastKey) : ({ s with
      images := s.images.mapValues f, placements := placements, virtualCount := virtualCount
      lastKey := lastKey } : ImageStore F).Consistent := by
  have hlookup : ∀ key image', (s.images.mapValues f).lookup key = some image' →
      ∃ image, s.images.lookup key = some image ∧ image' = f key image := by
    intro key image' himage
    rw [lookup_mapValues] at himage
    obtain ⟨image, hold, rfl⟩ := Option.map_eq_some_iff.mp himage
    exact ⟨image, hold, rfl⟩
  constructor
  case shown =>
    intro p hp
    obtain ⟨image, himage⟩ := hshown p hp
    exact ⟨f p.image image, by rw [lookup_mapValues, himage]; rfl⟩
  case refs =>
    intro key image' himage
    obtain ⟨image, hold, rfl⟩ := hlookup key image' himage
    exact hrefs key image hold
  case stored =>
    rw [sum_mapValues f _ (fun entry => entry.2.bytes) fun key image himage =>
      (hf key image himage).bytes]
    exact h.stored
  case named =>
    intro id key hid
    obtain ⟨hid, image, himage, heq⟩ := h.named id key hid
    refine ⟨hid, f key image, by rw [lookup_mapValues, himage]; rfl, ?_⟩
    rw [(hf key image himage).id, heq]
  case virtuals => exact hvirtuals
  case ordered => exact hordered
  case placementKeys => exact hkeys
  case imageKeys =>
    intro key image' himage
    obtain ⟨image, hold, rfl⟩ := hlookup key image' himage
    exact le_trans (h.imageKeys key image hold) hlast
  case sized =>
    intro key image' himage
    obtain ⟨image, hold, rfl⟩ := hlookup key image' himage
    rw [(hf key image hold).width, (hf key image hold).height]
    exact h.sized key image hold
  case filled =>
    intro key image' pixels himage hpixels
    obtain ⟨image, hold, rfl⟩ := hlookup key image' himage
    rw [(hf key image hold).bytes]
    rcases (hf key image hold).pixels pixels hpixels with hkept | hnew
    · exact h.filled key image pixels hold hkept
    · exact hnew

/-- A change of the images alone that leaves the reference counts. -/
theorem Consistent.mapImages (hrefs : ∀ key image, (f key image).refs = image.refs) :
    ({ s with images := s.images.mapValues f } : ImageStore F).Consistent :=
  h.update f hf s.placements s.virtualCount s.lastKey h.shown
    (fun key image himage => (hrefs key image).trans (h.refs key image himage)) h.virtuals
    h.ordered h.placementKeys le_rfl

end

theorem Consistent.tick (h : s.Consistent) (clock : ℕ) :
    ({ s with clock := clock } : ImageStore F).Consistent :=
  ⟨h.shown, h.refs, h.stored, h.named, h.virtuals, h.ordered, h.placementKeys, h.imageKeys,
    h.sized, h.filled⟩

theorem Retained.ite {image image' : Image} {c : Prop} [Decidable c] (h : Retained image image') :
    Retained image (if c then image' else image) := by
  split
  · exact h
  · exact ⟨rfl, rfl, rfl, fun _ hpixels => Or.inl hpixels⟩

/-! ### Removing images -/

/-- Removing an image removes the placements of it, of which there may be none. -/
theorem Consistent.removeImage_eq (h : s.Consistent) {key : ℕ} {image : Image}
    (himage : s.images.lookup key = some image) : s.removeImage key = { s with
      images := s.images.erase key, stored := s.stored - image.bytes
      ids := if image.id ≠ 0 ∧ s.ids.lookup image.id = some key then s.ids.erase image.id
        else s.ids, placements := s.placements.filter fun p => p.image ≠ key
      virtualCount := s.virtualCount -
        s.placements.countP fun p => p.image = key && p.isVirtual } := by
  unfold removeImage
  rw [himage]
  dsimp only
  split
  · rfl
  rename_i hrefs
  have hnone : ∀ p ∈ s.placements, p.image ≠ key := by
    intro p hp heq
    refine hrefs ?_
    rw [h.refs key image himage]
    exact List.countP_pos_iff.mpr ⟨p, hp, decide_eq_true heq⟩
  have hcount : (s.placements.countP fun p => p.image = key && p.isVirtual) = 0 := by
    refine List.countP_eq_zero.mpr fun p hp => ?_
    simp [hnone p hp]
  rw [List.filter_eq_self.mpr fun p hp => decide_eq_true (hnone p hp), hcount, Nat.sub_zero]

theorem Consistent.removeImage (h : s.Consistent) (key : ℕ) : (s.removeImage key).Consistent := by
  cases himage : s.images.lookup key with
  | none =>
    unfold ImageStore.removeImage
    rw [himage]
    exact h
  | some image =>
    rw [h.removeImage_eq himage]
    have hlookup : ∀ other image', (s.images.erase key).lookup other = some image' →
        other ≠ key ∧ s.images.lookup other = some image' := by
      intro other image' hother
      rw [lookup_erase] at hother
      split at hother
      · cases hother
      · exact ⟨‹_›, hother⟩
    constructor
    case shown =>
      intro p hp
      obtain ⟨hp, hne⟩ := List.mem_filter.mp hp
      obtain ⟨shown, hshown⟩ := h.shown p hp
      exact ⟨shown, by rw [lookup_erase, if_neg (of_decide_eq_true hne)]; exact hshown⟩
    case refs =>
      intro other image' hother
      obtain ⟨hne, hold⟩ := hlookup other image' hother
      rw [h.refs other image' hold, countP_filter]
      refine countP_congr fun p _ => ?_
      simp only [decide_eq_true_eq, Bool.and_eq_true]
      exact ⟨fun heq => ⟨heq, heq ▸ hne⟩, And.left⟩
    case stored =>
      have hsum := sum_erase (fun entry => entry.2.bytes) himage
      dsimp only at hsum ⊢
      rw [h.stored, ← hsum, Nat.add_sub_cancel_left]
    case named =>
      intro id other hid
      have hid' : s.ids.lookup id = some other ∧ other ≠ key := by
        dsimp only at hid
        split at hid
        · rename_i hnamed
          rw [lookup_erase] at hid
          split at hid
          · cases hid
          rename_i hne
          refine ⟨hid, fun heq => hne ?_⟩
          obtain ⟨-, named, hnamed, hnamedid⟩ := h.named id other hid
          rw [heq, himage] at hnamed
          cases hnamed
          exact hnamedid.symm
        · rename_i hother
          refine ⟨hid, fun heq => hother ?_⟩
          obtain ⟨hid0, named, hnamed, hnamedid⟩ := h.named id other hid
          rw [heq, himage] at hnamed
          cases hnamed
          rw [hnamedid, ← heq]
          exact ⟨hid0, hid⟩
      obtain ⟨hold, hne⟩ := hid'
      obtain ⟨hid0, named, hstored, hnamedid⟩ := h.named id other hold
      exact ⟨hid0, named, by rw [lookup_erase, if_neg hne]; exact hstored, hnamedid⟩
    case virtuals =>
      have hsplit := countP_eq_countP_filter_add s.placements Placement.isVirtual
        fun p => decide (p.image ≠ key)
      have hgone : (s.placements.filter fun p => !decide (p.image ≠ key)).countP
          Placement.isVirtual = s.placements.countP fun p => p.image = key && p.isVirtual := by
        rw [countP_filter]
        refine countP_congr fun p _ => ?_
        simp [and_comm]
      dsimp only
      rw [h.virtuals]
      omega
    case ordered => exact h.ordered.sublist (List.filter_sublist.map _)
    case placementKeys => exact fun p hp => h.placementKeys p (List.mem_filter.mp hp).1
    case imageKeys =>
      exact fun other image' hother => h.imageKeys other image' (hlookup other image' hother).2
    case sized => exact fun other image' hother => h.sized other image' (hlookup other image' hother).2
    case filled =>
      exact fun other image' pixels hother =>
        h.filled other image' pixels (hlookup other image' hother).2

theorem Consistent.removeImages (h : s.Consistent) (keys : List ℕ) :
    (s.removeImages keys).Consistent := by
  unfold ImageStore.removeImages
  induction keys generalizing s with
  | nil => exact h
  | cons key _ ih => exact ih (h.removeImage key)

theorem Consistent.removeById (h : s.Consistent) (id : ℕ) : (s.removeById id).Consistent := by
  unfold ImageStore.removeById
  split
  · exact h
  · exact h.removeImage _

theorem Consistent.reap (h : s.Consistent) (reap : Reap) : (s.reap reap).Consistent := by
  have hclear := h.mapImages (fun _ image => { image with matched := false })
    (fun _ _ _ => ⟨rfl, rfl, rfl, fun _ hpixels => Or.inl hpixels⟩) fun _ _ => rfl
  exact hclear.removeImages _

/-! ### Removing and moving placements -/

/-- What the summaries see of a placement. -/
def traits (p : Placement F) : ℕ × ℕ × Bool := (p.key, p.image, p.isVirtual)

theorem Consistent.movePlacements (h : s.Consistent) {placements : List (Placement F)}
    (hsame : placements.map traits = s.placements.map traits) :
    ({ s with placements := placements } : ImageStore F).Consistent := by
  have hold : ∀ p ∈ placements, ∃ old ∈ s.placements, traits old = traits p := by
    intro p hp
    exact List.mem_map.mp (hsame ▸ mem_map_of_mem hp)
  have hcount : ∀ select : ℕ × ℕ × Bool → Bool,
      (placements.countP fun p => select (traits p)) =
        s.placements.countP fun p => select (traits p) := by
    intro select
    have hmapped := congrArg (List.countP select) hsame
    rw [countP_map, countP_map] at hmapped
    exact hmapped
  constructor
  case shown =>
    intro p hp
    obtain ⟨old, hin, heq⟩ := hold p hp
    obtain ⟨image, himage⟩ := h.shown old hin
    exact ⟨image, (congrArg (fun t => s.images.lookup t.2.1) heq).symm.trans himage⟩
  case refs =>
    intro key image himage
    exact (h.refs key image himage).trans (hcount fun t => t.2.1 = key).symm
  case stored => exact h.stored
  case named => exact h.named
  case virtuals => exact h.virtuals.trans (hcount fun t => t.2.2).symm
  case ordered =>
    have hkeys : placements.map Placement.key = s.placements.map Placement.key := by
      have hmapped := congrArg (List.map Prod.fst) hsame
      rw [map_map, map_map] at hmapped
      exact hmapped
    exact hkeys ▸ h.ordered
  case placementKeys =>
    intro p hp
    obtain ⟨old, hin, heq⟩ := hold p hp
    exact le_of_eq_of_le (congrArg Prod.fst heq).symm (h.placementKeys old hin)
  case imageKeys => exact h.imageKeys
  case sized => exact h.sized
  case filled => exact h.filled

/-- A placement is removed: its image loses a reference. -/
theorem Consistent.dropPlacement {before after : List (Placement F)} {p : Placement F}
    (h : s.Consistent) (hsplit : s.placements = before ++ p :: after) : ({ s with
      images := s.images.adjust p.image Image.release, placements := before ++ after
      virtualCount := s.virtualCount - if p.isVirtual then 1 else 0 } : ImageStore F).Consistent := by
  have hsub : (before ++ after).Sublist s.placements := by
    rw [hsplit]
    exact (sublist_cons_self p after).append_left before
  have hcount : ∀ select : Placement F → Bool, s.placements.countP select =
      (before ++ after).countP select + if select p then 1 else 0 := by
    intro _
    rw [hsplit, countP_append, countP_append, countP_cons, Nat.add_assoc]
  refine h.update _ (fun key image _ => ?_) _ _ s.lastKey (fun q hq => h.shown q (hsub.subset hq))
    (fun key image himage => ?_) ?_ (h.ordered.sublist (hsub.map _))
    (fun q hq => h.placementKeys q (hsub.subset hq)) le_rfl
  · exact Retained.ite ⟨rfl, rfl, rfl, fun _ hpixels => Or.inl hpixels⟩
  · have hrefs := h.refs key image himage
    rw [hcount] at hrefs
    split
    · rename_i heq
      rw [if_pos (decide_eq_true heq.symm)] at hrefs
      change image.refs - 1 = _
      omega
    · rename_i hne
      rw [if_neg (by simpa using Ne.symm hne)] at hrefs
      exact hrefs
  · rw [h.virtuals, hcount, Nat.add_sub_cancel]

/-- A sweep moves placements without changing which they are. -/
def Faithful (move : Placement F → Image → Option (Placement F)) : Prop :=
  ∀ p image moved, move p image = some moved → traits moved = traits p

/-- In the middle of a sweep the placements are those kept so far and those to come. -/
theorem Consistent.sweepOne {move : Placement F → Image → Option (Placement F)}
    (hmove : Faithful move) {p : Placement F} {rest : List (Placement F)}
    (h : ({ s with placements := s.placements ++ p :: rest } : ImageStore F).Consistent) :
    ({ sweepOne move s p with
      placements := (sweepOne move s p).placements ++ rest } : ImageStore F).Consistent := by
  obtain ⟨image, himage⟩ := h.shown p (mem_append_right _ (mem_cons_self ..))
  dsimp only at himage
  unfold ImageStore.sweepOne
  rw [himage]
  dsimp only
  cases hmoved : move p image with
  | some moved =>
    refine h.movePlacements ?_
    rw [append_assoc, singleton_append, map_append, map_append, map_cons,
      map_cons, hmove p image moved hmoved]
  | none => exact h.dropPlacement rfl

section

variable (h : s.Consistent)
include h

theorem Consistent.removeWhere
    {move : Placement F → Image → Option (Placement F)} (hmove : Faithful move) (reap : Reap) :
    (s.removeWhere move reap).Consistent := by
  have hsweep : ∀ (todo : List (Placement F)) (s : ImageStore F),
      ({ s with placements := s.placements ++ todo } : ImageStore F).Consistent →
      (todo.foldl (ImageStore.sweepOne move) s).Consistent := by
    intro todo
    induction todo with
    | nil =>
      intro s h
      rw [append_nil] at h
      exact h
    | cons _ _ ih => exact fun s h => ih _ (h.sweepOne hmove)
  exact (hsweep s.placements { s with placements := [] } h).reap reap

theorem Consistent.removeIf (remove : Placement F → Image → Bool)
    (reap : Reap) : (s.removeIf remove reap).Consistent := by
  refine h.removeWhere (fun p image moved hmoved => ?_) reap
  split at hmoved
  · cases hmoved
  · cases hmoved
    rfl

/-! ### Adding an image -/

/-- A list of entries ends before a key above all of theirs. -/
theorem Consistent.entries_insert (image : Image) :
    (s.images.insert (s.lastKey + 1) image).entries =
      s.images.entries ++ [(s.lastKey + 1, image)] := by
  refine entries_insert_last fun entry hentry => ?_
  exact Nat.lt_succ_of_le (h.imageKeys _ _ (mem_entries.mp hentry))

theorem Consistent.lookup_fresh : s.images.lookup (s.lastKey + 1) = none := by
  cases himage : s.images.lookup (s.lastKey + 1) with
  | none => rfl
  | some image => exact absurd (h.imageKeys _ image himage) (Nat.not_succ_le_self _)

theorem Consistent.addImage {image : Image} (hrefs : image.refs = 0)
    (hsize : image.width ≤ maxDimension ∧ image.height ≤ maxDimension)
    (hpixels : ∀ pixels, image.pixels = some pixels → pixels.length = image.bytes) : ({ s with
      lastKey := s.lastKey + 1, stored := s.stored + image.bytes
      images := s.images.insert (s.lastKey + 1) image
      ids := if image.id ≠ 0 then s.ids.insert image.id (s.lastKey + 1) else s.ids
      } : ImageStore F).Consistent := by
  have hfresh := h.lookup_fresh
  have hlookup : ∀ key other, (s.images.insert (s.lastKey + 1) image).lookup key = some other →
      key = s.lastKey + 1 ∧ other = image ∨ s.images.lookup key = some other := by
    intro key other hother
    rw [lookup_insert] at hother
    split at hother
    · cases hother
      exact Or.inl ⟨‹_›, rfl⟩
    · exact Or.inr hother
  have hold : ∀ key other, s.images.lookup key = some other →
      (s.images.insert (s.lastKey + 1) image).lookup key = some other := by
    intro key other hother
    rw [lookup_insert, if_neg, hother]
    rintro rfl
    rw [hfresh] at hother
    cases hother
  constructor
  case shown =>
    intro p hp
    obtain ⟨other, hother⟩ := h.shown p hp
    exact ⟨other, hold _ other hother⟩
  case refs =>
    intro key other hother
    rcases hlookup key other hother with ⟨rfl, rfl⟩ | hstored
    · rw [hrefs]
      refine (List.countP_eq_zero.mpr fun p hp heq => ?_).symm
      obtain ⟨_, hshown⟩ := h.shown p hp
      rw [of_decide_eq_true heq, hfresh] at hshown
      cases hshown
    · exact h.refs key other hstored
  case stored =>
    dsimp only
    rw [h.entries_insert, map_append, sum_append, ← h.stored]
    simp
  case named =>
    intro id key hid
    have hcases : id = image.id ∧ image.id ≠ 0 ∧ key = s.lastKey + 1 ∨
        s.ids.lookup id = some key := by
      dsimp only at hid
      split at hid
      · rename_i hid0
        rw [lookup_insert] at hid
        split at hid
        · cases hid
          exact Or.inl ⟨‹_›, hid0, rfl⟩
        · exact Or.inr hid
      · exact Or.inr hid
    rcases hcases with ⟨rfl, hid0, rfl⟩ | hbound
    · exact ⟨hid0, image, by rw [lookup_insert, if_pos rfl], rfl⟩
    · obtain ⟨hid0, named, hnamed, heq⟩ := h.named id key hbound
      exact ⟨hid0, named, hold key named hnamed, heq⟩
  case virtuals => exact h.virtuals
  case ordered => exact h.ordered
  case placementKeys => exact fun p hp => Nat.le_succ_of_le (h.placementKeys p hp)
  case imageKeys =>
    intro key other hother
    rcases hlookup key other hother with ⟨rfl, -⟩ | hstored
    · exact le_rfl
    · exact Nat.le_succ_of_le (h.imageKeys key other hstored)
  case sized =>
    intro key other hother
    rcases hlookup key other hother with ⟨-, rfl⟩ | hstored
    · exact hsize
    · exact h.sized key other hstored
  case filled =>
    intro key other pixels hother hfull
    rcases hlookup key other hother with ⟨-, rfl⟩ | hstored
    · exact hpixels pixels hfull
    · exact h.filled key other pixels hstored hfull

theorem Consistent.insert (uid id number : ℕ) {size : ℕ × ℕ}
    (hsize : size.1 ≤ maxDimension ∧ size.2 ≤ maxDimension) {pixels : Option (List UInt8)}
    (hpixels : ∀ rgba, pixels = some rgba → rgba.length = size.1 * size.2 * 4) (isOpaque : Bool) :
    (s.insert uid id number size pixels isOpaque).1.Consistent := by
  have hrefs : Image.refs ⟨uid, id, number, size.1, size.2, pixels, isOpaque, 0,
      (s.reap .unaddressable).clock + 1, false⟩ = 0 := rfl
  exact ((h.reap .unaddressable).addImage hrefs hsize hpixels).tick _

/-- The pixels of a decode, if they are as many as the image has. -/
theorem Consistent.setPixels (key : ℕ) {pixels : List UInt8} (isOpaque : Bool)
    (hpixels : ∀ image, s.images.lookup key = some image → pixels.length = image.bytes) :
    (s.setPixels key pixels isOpaque).Consistent := by
  refine h.mapImages _ (fun other image himage => ?_) fun other image => ?_
  · split
    · rename_i heq
      refine ⟨rfl, rfl, rfl, fun filled hfilled => Or.inr ?_⟩
      cases hfilled
      exact hpixels image (heq ▸ himage)
    · exact ⟨rfl, rfl, rfl, fun _ hkept => Or.inl hkept⟩
  · split <;> rfl

/-! ### Adding a placement -/

theorem Consistent.appendPlacement {placement : Placement F}
    (himage : ∃ image, s.images.lookup placement.image = some image)
    (hkey : placement.key = s.lastKey + 1) : ({ s with
      lastKey := s.lastKey + 1, virtualCount := s.virtualCount + if placement.isVirtual then 1 else 0
      placements := s.placements ++ [placement]
      images := s.images.adjust placement.image fun image =>
        { image with refs := image.refs + 1 } } : ImageStore F).Consistent := by
  have hcount : ∀ select : Placement F → Bool, (s.placements ++ [placement]).countP select =
      s.placements.countP select + if select placement then 1 else 0 := by
    intro _
    rw [countP_append, countP_singleton]
  have hmem : ∀ p ∈ s.placements ++ [placement], p ∈ s.placements ∨ p = placement := by
    intro p hp
    simpa using hp
  refine h.update _ (fun key image _ => ?_) _ _ _ (fun p hp => ?_) (fun key image hstored => ?_) ?_ ?_
    (fun p hp => ?_) (Nat.le_succ _)
  · exact Retained.ite ⟨rfl, rfl, rfl, fun _ hpixels => Or.inl hpixels⟩
  · rcases hmem p hp with hold | rfl
    · exact h.shown p hold
    · exact himage
  · rw [hcount, ← h.refs key image hstored]
    split
    · rename_i heq
      rw [if_pos (decide_eq_true heq.symm)]
    · rename_i hne
      rw [if_neg (by simpa using Ne.symm hne)]
      rfl
  · rw [hcount, h.virtuals]
  · rw [map_append, pairwise_append]
    refine ⟨h.ordered, pairwise_singleton _ _, fun key hold new hnew => ?_⟩
    obtain ⟨p, hp, rfl⟩ := List.mem_map.mp hold
    rw [map_singleton, mem_singleton] at hnew
    rw [hnew, hkey]
    exact Nat.lt_succ_of_le (h.placementKeys p hp)
  · rcases hmem p hp with hold | rfl
    · exact Nat.le_succ_of_le (h.placementKeys p hold)
    · exact hkey.le

/-- A placement of the same image takes the place of another. -/
theorem Consistent.setPlacement {index : ℕ} {old placement : Placement F}
    (hold : s.placements[index]? = some old) (hkey : placement.key = old.key)
    (himage : placement.image = old.image) : ({ s with
      virtualCount := s.virtualCount - (if old.isVirtual then 1 else 0) +
        if placement.isVirtual then 1 else 0
      placements := s.placements.set index placement } : ImageStore F).Consistent := by
  obtain ⟨hlt, hget⟩ := List.getElem?_eq_some_iff.mp hold
  have hmem : ∀ p ∈ s.placements.set index placement, p ∈ s.placements ∨ p = placement :=
    fun p hp => mem_or_eq_of_mem_set hp
  have hin : old ∈ s.placements := mem_of_getElem? hold
  have hkeys : (s.placements.set index placement).map Placement.key =
      s.placements.map Placement.key := by
    rw [map_set, hkey, ← map_set, ← hget, set_getElem_self]
  constructor
  case shown =>
    intro p hp
    rcases hmem p hp with hkept | rfl
    · exact h.shown p hkept
    · rw [himage]
      exact h.shown old hin
  case refs =>
    intro key image hstored
    dsimp only at hstored ⊢
    rw [h.refs key image hstored, countP_set hlt, hget, himage]
    have hle := boole_getElem_le_countP (p := fun p : Placement F => p.image = key) hlt
    rw [hget] at hle
    omega
  case stored => exact h.stored
  case named => exact h.named
  case virtuals =>
    dsimp only
    rw [h.virtuals, countP_set hlt, hget]
  case ordered => exact hkeys ▸ h.ordered
  case placementKeys =>
    intro p hp
    rcases hmem p hp with hkept | rfl
    · exact h.placementKeys p hkept
    · rw [hkey]
      exact h.placementKeys old hin
  case imageKeys => exact h.imageKeys
  case sized => exact h.sized
  case filled => exact h.filled

theorem Consistent.addPlacement {placement : Placement F}
    (himage : ∃ image, s.images.lookup placement.image = some image) :
    (s.addPlacement placement).1.Consistent := by
  unfold ImageStore.addPlacement
  dsimp only
  split
  · rename_i index old hexisting
    obtain ⟨_, hfound, hold⟩ := Option.bind_eq_some_iff.mp hexisting
    obtain ⟨_, hat, heq⟩ := Option.map_eq_some_iff.mp hold
    cases heq
    refine h.setPlacement hat rfl ?_
    split at hfound
    · have hsame := List.findIdx?_eq_some_iff_getElem.mp hfound
      obtain ⟨_, hselected, -⟩ := hsame
      rw [(List.getElem?_eq_some_iff.mp hat).2] at hselected
      simp only [Bool.and_eq_true, decide_eq_true_eq] at hselected
      exact hselected.1.symm
    · cases hfound
  · exact @appendPlacement _ _ h { placement with key := s.lastKey + 1 } himage rfl

theorem Consistent.limitPlacements : s.limitPlacements.Consistent := by
  unfold ImageStore.limitPlacements
  split
  · exact h
  · split
    · exact h.removeIf _ _
    · exact h

/-! ### The operations -/

theorem Consistent.enforceQuota (keep : Option ℕ) : (s.enforceQuota keep).Consistent := by
  have hevict : ∀ (fuel : ℕ) (s : ImageStore F), s.Consistent → (evict keep fuel s).Consistent := by
    intro fuel
    induction fuel with
    | zero => exact fun s h => h
    | succ _ ih =>
      intro s h
      unfold evict
      split
      · split
        · exact h
        · exact ih _ (h.removeImage _)
      · exact h
  unfold ImageStore.enforceQuota
  split
  · exact h
  · exact hevict _ _ (h.removeImages _)

theorem Consistent.deleteImage (key : Option ℕ) (placement : ℕ) (reap : Reap) :
    (s.deleteImage key placement reap).Consistent := by
  unfold ImageStore.deleteImage
  split
  · exact h
  dsimp only
  split
  · split
    · exact h.removeImage _
    · exact h
  · exact h.removeIf _ _

theorem Consistent.deleteRange (first last : ℕ) (reap : Reap) :
    (s.deleteRange first last reap).Consistent := by
  unfold ImageStore.deleteRange
  dsimp only
  split
  · exact (h.removeImages _).removeIf _ _
  · exact h.removeIf _ _

theorem Consistent.delete (command : Command) (row col : ℤ) :
    (s.delete command row col).Consistent := by
  unfold ImageStore.delete
  dsimp only
  split
  · exact h.removeIf _ _
  · exact h.deleteImage _ _ _
  · exact h.deleteImage _ _ _
  · exact h.deleteRange _ _ _
  all_goals first | exact h.removeIf _ _ | exact h

theorem Consistent.clear (history : Bool) : (s.clear history).Consistent :=
  h.removeIf _ _

theorem Consistent.clearHistory : s.clearHistory.Consistent := h.removeIf _ _

theorem Consistent.applyAnchors (moved : ℕ → Option (ℤ × ℤ)) :
    (s.applyAnchors moved).Consistent := by
  refine h.removeWhere (fun p image q hq => ?_) _
  split at hq
  · cases hq
    rfl
  · obtain ⟨_, -, rfl⟩ := Option.map_eq_some_iff.mp hq
    rfl

end

variable [F32 F]

theorem Consistent.position (h : s.Consistent) {image : Image} {key : ℕ}
    (himage : s.images.lookup key = some image) (command : Command) (row col : ℤ)
    (cell : CellPixels) : (s.position image key command row col cell).1.Consistent := by
  let used := fun (other : ℕ) (image : Image) =>
    if other = key then { image with used := s.clock + 1 } else image
  have hused := (h.tick (s.clock + 1)).mapImages used
    (fun other image _ => Retained.ite ⟨rfl, rfl, rfl, fun _ hpixels => Or.inl hpixels⟩)
    (fun other image => by dsimp only [used]; split <;> rfl)
  have hstored : (s.images.mapValues used).lookup key = some (used key image) := by
    rw [lookup_mapValues, himage]
    rfl
  exact @addPlacement _ _ hused ((placementOf image key command row col cell).fit cell)
    ⟨_, hstored⟩

theorem Consistent.put (h : s.Consistent) (key : ℕ) (command : Command) (row col : ℤ)
    (cell : CellPixels) : (s.put key command row col cell).1.Consistent := by
  unfold ImageStore.put
  split
  · exact h.tick _
  rename_i image himage
  have hplaced := h.position himage command row col cell
  dsimp only
  split
  · exact (hplaced.removeIf _ _).limitPlacements
  · exact hplaced.limitPlacements

theorem traits_scrollInRegion {p q : Placement F} {scroll : Scroll} {delta : ℤ} {cell : CellPixels}
    (h : scrollInRegion p scroll delta cell = some q) : traits q = traits p := by
  have hunless : ∀ {p q : Placement F}, (if p.endRow ≤ scroll.top ∨ scroll.stop - 1 < p.row then none
      else some p) = some q → q = p := by
    intro p q hq
    split at hq
    · cases hq
    · exact (Option.some_inj.mp hq).symm
  unfold scrollInRegion at h
  dsimp only at h
  split at h
  · exact congrArg traits (Option.some_inj.mp h).symm
  obtain ⟨_, hmoved, hrest⟩ := Option.bind_eq_some_iff.mp h
  have hmoved := congrArg traits (hunless hmoved)
  refine Eq.trans ?_ hmoved
  split at hrest
  · split at hrest
    · cases hrest
    · rw [hunless hrest]
      rfl
  · split at hrest
    · split at hrest
      · cases hrest
      · rw [hunless hrest]
        rfl
    · rw [hunless hrest]

theorem Consistent.scroll (h : s.Consistent) (scroll : Scroll) (cell : CellPixels) :
    (s.scroll scroll cell).Consistent := by
  unfold ImageStore.scroll
  split
  · exact h
  split
  · refine h.removeWhere (fun p image q hq => ?_) _
    unfold scrollWhole at hq
    split at hq
    · exact congrArg traits (Option.some_inj.mp hq).symm
    · dsimp only at hq
      split at hq
      · cases hq
      · cases hq
        rfl
  · refine h.removeWhere (fun p image q hq => ?_) _
    split at hq
    · exact congrArg traits (Option.some_inj.mp hq).symm
    · exact traits_scrollInRegion hq

theorem Consistent.rescale (h : s.Consistent) (cell : CellPixels) : (s.rescale cell).Consistent := by
  refine h.movePlacements ?_
  rw [map_map]
  refine map_congr_left fun p _ => ?_
  dsimp only [Function.comp_apply]
  split <;> rfl

end ImageStore

end Vivido.Graphics
