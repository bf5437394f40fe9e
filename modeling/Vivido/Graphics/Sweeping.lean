import Vivido.Graphics.Naming

/-!
Removing placements and images, read as one map of the store. A sweep releases
the images of the placements it takes, which then decide by their counts and marks
whether they go too; what is left is the store without some placements and some
images, everything else as it was.
-/

namespace Vivido.Graphics

open SortedMap List Option

variable {F : Type}

namespace ImageStore

variable {s s' : ImageStore F}

/-- The store without some placements and images. -/
def without (s : ImageStore F) (gone : Placement F → Bool) (freed : ℕ → Image → Bool) :
    ImageStore F :=
  let placements := s.placements.filter fun p => !gone p
  let images := s.images.filter fun entry => !freed entry.1 entry.2
  { s with
    placements := placements
    images := images.mapValues fun key image =>
      { image with refs := placements.countP fun p => p.image = key }
    ids := s.ids.filter fun entry => (images.lookup entry.2).isSome
    stored := (images.entries.map fun entry => entry.2.bytes).sum
    virtualCount := placements.countP Placement.isVirtual }

/-! ### Images that nothing shows -/

theorem lookup_removeImage (s : ImageStore F) (key other : ℕ) :
    (s.removeImage key).images.lookup other =
      if other = key then none else s.images.lookup other := by
  unfold removeImage
  split
  · rename_i hnone
    split
    · rename_i heq
      rw [heq, hnone]
    · rfl
  · dsimp only
    split <;> exact lookup_erase

theorem lookup_removeImages (s : ImageStore F) (keys : List ℕ) (other : ℕ) :
    (s.removeImages keys).images.lookup other =
      if other ∈ keys then none else s.images.lookup other := by
  unfold removeImages
  induction keys generalizing s with
  | nil => rw [if_neg not_mem_nil, foldl_nil]
  | cons key keys ih =>
    rw [foldl_cons, ih, lookup_removeImage]
    by_cases hmem : other ∈ keys
    · rw [if_pos hmem, if_pos (mem_cons_of_mem key hmem)]
    · rw [if_neg hmem]
      by_cases heq : other = key
      · rw [if_pos heq, if_pos (heq ▸ mem_cons_self)]
      · rw [if_neg heq, if_neg fun h => (List.mem_cons.mp h).elim heq hmem]

/-- An image that no placement shows goes alone. -/
theorem idle_removeImage {key : ℕ}
    (h : ∀ image, s.images.lookup key = some image → image.refs = 0) :
    (s.removeImage key).placements = s.placements ∧ (s.removeImage key).lastKey = s.lastKey ∧
      (s.removeImage key).clock = s.clock := by
  unfold removeImage
  split
  · exact ⟨rfl, rfl, rfl⟩
  · rename_i image himage
    have hrefs := h image himage
    dsimp only
    rw [if_neg (by omega)]
    exact ⟨rfl, rfl, rfl⟩

theorem idle_removeImages {keys : List ℕ}
    (h : ∀ key ∈ keys, ∀ image, s.images.lookup key = some image → image.refs = 0) :
    (s.removeImages keys).placements = s.placements ∧
      (s.removeImages keys).lastKey = s.lastKey ∧ (s.removeImages keys).clock = s.clock := by
  unfold removeImages
  induction keys generalizing s with
  | nil => exact ⟨rfl, rfl, rfl⟩
  | cons key keys ih =>
    obtain ⟨hplacements, hlastKey, hclock⟩ := idle_removeImage (h key mem_cons_self)
    have hrest : ∀ other ∈ keys, ∀ image, (s.removeImage key).images.lookup other = some image →
        image.refs = 0 := by
      intro other hother image himage
      rw [lookup_removeImage] at himage
      split at himage
      · cases himage
      · exact h other (mem_cons_of_mem key hother) image himage
    obtain ⟨hplacements', hlastKey', hclock'⟩ := ih hrest
    exact ⟨hplacements'.trans hplacements, hlastKey'.trans hlastKey, hclock'.trans hclock⟩

/-- An image after some of its placements were removed. -/
def releaseBy (count : ℕ) (image : Image) : Image :=
  { image with refs := image.refs - count, matched := image.matched || 0 < count }

/-- Whether a sweep removes a placement, which it also does if there is no such image. -/
def swept (s : ImageStore F) (remove : Placement F → Image → Bool) (p : Placement F) : Bool :=
  (s.images.lookup p.image).all (remove p)

/-- Whether a placement is removed does not depend on how many others show its image. -/
def Steady (remove : Placement F → Image → Bool) : Prop :=
  ∀ p image, remove p image.release = remove p image

/-- Placements of an image that a sweep removes, where there is one. -/
def sweptOf (s : ImageStore F) (remove : Placement F → Image → Bool)
    (todo : List (Placement F)) (key : ℕ) : ℕ :=
  todo.countP fun p => s.swept remove p && p.image = key

variable {unused : ℕ → Prop} {remove : Placement F → Image → Bool} {gone : Placement F → Bool}
  {freed : ℕ → Image → Bool}

theorem swept_adjust (hremove : Steady remove) {images : SortedMap ℕ Image} {key : ℕ}
    (himages : images = s.images.adjust key Image.release) (hs : s'.images = images) :
    s'.swept remove = s.swept remove := by
  funext p
  unfold swept
  rw [hs, himages, lookup_adjust]
  split
  · cases s.images.lookup p.image with
    | none => rfl
    | some image => exact hremove p image
  · rfl

theorem releaseBy_zero (image : Image) : releaseBy 0 image = image := by
  simp [releaseBy]

theorem releaseBy_release (count : ℕ) (image : Image) :
    releaseBy count image.release = releaseBy (count + 1) image := by
  unfold releaseBy Image.release
  simp [Nat.sub_sub, Nat.add_comm]

/-- A sweep keeps the other placements and releases the images of those it removes. -/
theorem sweep_eq (hremove : Steady remove) (todo : List (Placement F)) (s : ImageStore F) :
    ∃ virtualCount, todo.foldl (sweepOne fun p image => if remove p image then none else some p) s =
        { s with
          placements := s.placements ++ todo.filter fun p => !s.swept remove p
          images := s.images.mapValues fun key image => releaseBy (s.sweptOf remove todo key) image
          virtualCount := virtualCount } := by
  induction todo generalizing s with
  | nil =>
    refine ⟨s.virtualCount, ?_⟩
    have himages : (s.images.mapValues fun key image =>
        releaseBy (s.sweptOf remove [] key) image) = s.images := by
      refine ext_lookup fun key => ?_
      rw [lookup_mapValues]
      change (s.images.lookup key).map (releaseBy 0) = _
      rw [funext releaseBy_zero]
      exact Option.map_id'
    rw [himages, filter_nil, append_nil, foldl_nil]
  | cons p todo ih =>
    obtain ⟨virtualCount, hfold⟩ :=
      ih (sweepOne (fun p image => if remove p image then none else some p) s p)
    refine ⟨virtualCount, ?_⟩
    rw [foldl_cons, hfold]
    unfold sweepOne
    cases himage : s.images.lookup p.image with
    | none =>
      have hswept : s.swept remove p = true := by
        unfold swept
        rw [himage]
        rfl
      have himages : (s.images.mapValues fun key image =>
          releaseBy (s.sweptOf remove (p :: todo) key) image) =
          s.images.mapValues fun key image => releaseBy (s.sweptOf remove todo key) image := by
        refine ext_lookup fun key => ?_
        rw [lookup_mapValues, lookup_mapValues]
        by_cases hkey : p.image = key
        · rw [← hkey, himage]
          rfl
        · unfold sweptOf
          rw [countP_cons_of_neg (by simp [hkey])]
      dsimp only
      rw [himages, filter_cons_of_neg (by simp [hswept])]
    | some image =>
      dsimp only
      by_cases hremoved : remove p image = true
      · have hswept : s.swept remove p = true := by
          unfold swept
          rw [himage]
          exact hremoved
        rw [if_pos hremoved]
        dsimp only
        have hsame : ∀ virtualCount, swept
            ({ s with
              images := s.images.adjust p.image Image.release
              virtualCount := virtualCount } : ImageStore F) remove = s.swept remove :=
          fun _ => swept_adjust hremove rfl rfl
        have himages : ((s.images.adjust p.image Image.release).mapValues fun key image =>
            releaseBy (s.sweptOf remove todo key) image) =
            s.images.mapValues fun key image =>
              releaseBy (s.sweptOf remove (p :: todo) key) image := by
          refine ext_lookup fun key => ?_
          rw [lookup_mapValues, lookup_mapValues, lookup_adjust]
          unfold sweptOf
          by_cases hkey : key = p.image
          · subst hkey
            rw [if_pos rfl, himage, countP_cons_of_pos (by simp [hswept])]
            exact congrArg some (releaseBy_release _ image)
          · rw [if_neg hkey, countP_cons_of_neg (by simp [Ne.symm hkey])]
        unfold sweptOf at himages ⊢
        rw [hsame, himages, filter_cons_of_neg (by simp [hswept])]
      · have hswept : s.swept remove p = false := by
          unfold swept
          rw [himage]
          exact Bool.eq_false_iff.mpr hremoved
        rw [if_neg hremoved]
        have himages : (s.images.mapValues fun key image =>
            releaseBy (s.sweptOf remove (p :: todo) key) image) =
            s.images.mapValues fun key image => releaseBy (s.sweptOf remove todo key) image := by
          unfold sweptOf
          simp only [countP_cons_of_neg, hswept, Bool.false_and, Bool.false_eq_true,
            not_false_eq_true]
        rw [himages, filter_cons_of_pos (by simp [hswept])]
        dsimp only
        rw [append_assoc, singleton_append]
        rfl

theorem mem_doomed {reap : Reap} {key : ℕ} : key ∈ (s.images.entries.filter fun entry =>
      entry.2.refs = 0 && reap.frees entry.2).map Prod.fst ↔
      ∃ image, s.images.lookup key = some image ∧ image.refs = 0 ∧ reap.frees image = true := by
  constructor
  · intro hmem
    obtain ⟨⟨_, image⟩, hentry, rfl⟩ := List.mem_map.mp hmem
    obtain ⟨hentry, hdoomed⟩ := List.mem_filter.mp hentry
    rw [Bool.and_eq_true, decide_eq_true_eq] at hdoomed
    exact ⟨image, mem_entries.mp hentry, hdoomed⟩
  · rintro ⟨image, himage, hrefs, hfrees⟩
    refine List.mem_map.mpr
      ⟨(key, image), List.mem_filter.mpr ⟨mem_entries.mpr himage, ?_⟩, rfl⟩
    simp [hrefs, hfrees]

theorem lookup_reap (s : ImageStore F) (reap : Reap) (key : ℕ) :
    (s.reap reap).images.lookup key = ((s.images.lookup key).filter fun image =>
      !(image.refs = 0 && reap.frees image)).map fun image => { image with matched := false } := by
  unfold ImageStore.reap
  dsimp only
  rw [lookup_removeImages]
  dsimp only
  rw [lookup_mapValues]
  cases himage : s.images.lookup key with
  | none => exact ite_self none
  | some image =>
    by_cases hdoomed : image.refs = 0 ∧ reap.frees image = true
    · rw [if_pos (mem_doomed.mpr ⟨image, himage, hdoomed⟩)]
      simp [hdoomed]
    have hkept : (!(decide (image.refs = 0) && reap.frees image)) = true := by
      rw [Bool.not_eq_true', Bool.eq_false_iff]
      simpa using hdoomed
    rw [if_neg, filter_some, if_pos hkept]
    intro hmem
    obtain ⟨_, hother, hdoomed'⟩ := mem_doomed.mp hmem
    cases himage.symm.trans hother
    exact hdoomed hdoomed'

theorem idle_reap (s : ImageStore F) (reap : Reap) :
    (s.reap reap).placements = s.placements ∧ (s.reap reap).lastKey = s.lastKey ∧
      (s.reap reap).clock = s.clock := by
  unfold ImageStore.reap
  refine idle_removeImages fun key hkey image himage => ?_
  obtain ⟨_, hother, hrefs, -⟩ := mem_doomed.mp hkey
  rw [lookup_mapValues, hother] at himage
  cases himage
  exact hrefs

/-- A sweep that also frees images: which placements stay, and what comes of each image. -/
theorem removeIf_parts (hunmarked : s.Unmarked) (reap : Reap) (hremove : Steady remove) :
    (s.removeIf remove reap).placements = (s.placements.filter fun p => !s.swept remove p) ∧
      (s.removeIf remove reap).lastKey = s.lastKey ∧ (s.removeIf remove reap).clock = s.clock ∧
      ∀ key, (s.removeIf remove reap).images.lookup key = ((s.images.lookup key).filter fun image =>
          !(image.refs - s.sweptOf remove s.placements key = 0 &&
            reap.frees (releaseBy (s.sweptOf remove s.placements key) image))).map
          fun image => { image with refs := image.refs - s.sweptOf remove s.placements key } := by
  obtain ⟨virtualCount, hsweep⟩ := sweep_eq hremove s.placements { s with placements := [] }
  unfold removeIf removeWhere
  rw [hsweep]
  obtain ⟨hplacements, hlastKey, hclock⟩ := idle_reap
    ({ s with
      placements := [] ++ s.placements.filter fun p => !s.swept remove p
      images := s.images.mapValues fun key image =>
        releaseBy (s.sweptOf remove s.placements key) image
      virtualCount := virtualCount } : ImageStore F) reap
  refine ⟨hplacements.trans (nil_append _), hlastKey, hclock, fun key => ?_⟩
  rw [lookup_reap]
  dsimp only
  rw [lookup_mapValues]
  cases himage : s.images.lookup key with
  | none => rfl
  | some image =>
    have hmatched := hunmarked key image himage
    rw [map_some, filter_some, filter_some]
    change Option.map _ (if (!(decide (image.refs - s.sweptOf remove s.placements key = 0) &&
      reap.frees (releaseBy (s.sweptOf remove s.placements key) image))) = true
      then some (releaseBy (s.sweptOf remove s.placements key) image) else none) = _
    split
    · change some _ = some _
      dsimp only
      rw [hmatched]
      rfl
    · rfl

/-! ### The store left, as a map of the store before -/

/-- An id is listed exactly for the image that has it. -/
theorem lookup_ids_iff (hs : s.Consistent) (hn : s.Named unused) {id key : ℕ} :
    s.ids.lookup id = some key ↔
      id ≠ 0 ∧ ∃ image, s.images.lookup key = some image ∧ image.id = id := by
  constructor
  · exact hs.named id key
  · rintro ⟨hne, image, himage, rfl⟩
    exact hn.listed key image himage hne

/-- A store is known from its placements, its images up to their counts, its keys and clock. -/
theorem eq_without {unused' : ℕ → Prop} (hs : s.Consistent) (hn : s.Named unused)
    (hs' : s'.Consistent) (hn' : s'.Named unused') (refs : ℕ → Image → ℕ)
    (hplacements : s'.placements = s.placements.filter fun p => !gone p)
    (himages : ∀ key, s'.images.lookup key = ((s.images.lookup key).filter fun image =>
      !freed key image).map fun image => { image with refs := refs key image })
    (hlastKey : s'.lastKey = s.lastKey) (hclock : s'.clock = s.clock) :
    s' = s.without gone freed := by
  have hlookup : s'.images = (s.images.filter fun entry =>
      !freed entry.1 entry.2).mapValues fun key image =>
        { image with refs := s'.placements.countP fun p => p.image = key } := by
    refine ext_lookup fun key => ?_
    rw [lookup_mapValues, lookup_filter]
    cases himage' : s'.images.lookup key with
    | none =>
      rw [himages, map_eq_none_iff] at himage'
      rw [himage', map_none]
    | some image' =>
      have hrefs := hs'.refs key image' himage'
      rw [himages, map_eq_some_iff] at himage'
      obtain ⟨image, hkept, rfl⟩ := himage'
      rw [hkept, map_some, ← hrefs]
  have hids : s'.ids = s.ids.filter fun entry =>
      ((s.images.filter fun entry => !freed entry.1 entry.2).lookup entry.2).isSome := by
    refine ext_lookup fun id => Option.ext fun key => ?_
    rw [lookup_ids_iff hs' hn', lookup_filter, filter_eq_some_iff,
      lookup_ids_iff hs hn, himages, lookup_filter]
    dsimp only
    constructor
    · rintro ⟨hne, _, himage', rfl⟩
      obtain ⟨image, hkept, rfl⟩ := Option.map_eq_some_iff.mp himage'
      exact ⟨⟨hne, image, (Option.filter_eq_some_iff.mp hkept).1, rfl⟩,
        isSome_of_eq_some hkept⟩
    · rintro ⟨⟨hne, image, himage, rfl⟩, hkept⟩
      obtain ⟨_, hother⟩ := Option.isSome_iff_exists.mp hkept
      cases himage.symm.trans (Option.filter_eq_some_iff.mp hother).1
      exact ⟨hne, _, Option.map_eq_some_iff.mpr ⟨image, hother, rfl⟩, rfl⟩
  have hstored : s'.stored = ((s.images.filter fun entry =>
      !freed entry.1 entry.2).entries.map fun entry => entry.2.bytes).sum := by
    rw [hs'.stored, hlookup]
    unfold SortedMap.mapValues
    rw [List.map_map]
    rfl
  have hvirtuals := hs'.virtuals
  rw [hplacements] at hlookup hvirtuals
  unfold without
  dsimp only
  rw [← hlookup, ← hids, ← hstored, ← hvirtuals, ← hplacements, ← hlastKey, ← hclock]

theorem without_congr {gone' : Placement F → Bool} {freed' : ℕ → Image → Bool}
    (hgone : ∀ p ∈ s.placements, gone p = gone' p)
    (hfreed : ∀ key image, s.images.lookup key = some image → freed key image = freed' key image) :
    s.without gone freed = s.without gone' freed' := by
  have hplacements : (s.placements.filter fun p => !gone p) =
      s.placements.filter fun p => !gone' p := filter_congr fun p hp => by rw [hgone p hp]
  have himages : (s.images.filter fun entry => !freed entry.1 entry.2) =
      s.images.filter fun entry => !freed' entry.1 entry.2 := by
    refine SortedMap.ext (filter_congr fun entry hentry => ?_)
    rw [hfreed entry.1 entry.2 (mem_entries.mp hentry)]
  unfold without
  rw [hplacements, himages]

/-! ### Each way of removing -/

section

variable (hs : s.Consistent) (hn : s.Named unused)
include hs hn

/-- What a sweep for a delete command leaves. An image goes if the sweep took its last placement,
and it has no id or the command is uppercase. -/
theorem removeIf_eq (hremove : Steady remove)
    {reap : Reap} (hreap : reap = .matched ∨ reap = .matchedUnaddressable) :
    s.removeIf remove reap = s.without (s.swept remove) fun key image =>
      let shown := s.placements.filter fun p => p.image = key
      shown ≠ [] && shown.all (s.swept remove) && (reap = .matched || image.id = 0) := by
  obtain ⟨hplacements, hlastKey, hclock, himages⟩ := removeIf_parts hn.unmarked reap hremove
  refine eq_without hs hn (hs.removeIf remove reap) (hn.removeIf remove reap)
    (fun key image => image.refs - s.sweptOf remove s.placements key) hplacements
    (fun key => ?_) hlastKey hclock
  rw [himages]
  cases himage : s.images.lookup key with
  | none => rfl
  | some image =>
    rw [filter_some, filter_some]
    refine congrArg _ (if_congr (Bool.coe_iff_coe.mpr (congrArg _ ?_)) rfl rfl)
    -- The placements of the image are counted twice: all of them, and those the sweep takes.
    have hrefs : image.refs = (s.placements.filter fun p => p.image = key).length := by
      rw [hs.refs key image himage, countP_eq_length_filter]
    have hswept : s.sweptOf remove s.placements key =
        (s.placements.filter fun p => p.image = key).countP (s.swept remove) := by
      unfold sweptOf
      rw [countP_filter]
    rw [hrefs, hswept]
    dsimp only
    generalize (s.placements.filter fun p => p.image = key) = shown
    have hle := countP_le_length (p := s.swept remove) (l := shown)
    have hall : shown.length - shown.countP (s.swept remove) = 0 ↔
        shown.all (s.swept remove) = true := by
      rw [List.all_eq_true, ← countP_eq_length]
      omega
    have hmatched : (releaseBy (shown.countP (s.swept remove)) image).matched =
        decide (0 < shown.countP (s.swept remove)) := by
      unfold releaseBy
      dsimp only
      rw [hn.unmarked key image himage, Bool.false_or]
    have hsome : shown.all (s.swept remove) = true →
        (0 < shown.countP (s.swept remove) ↔ shown ≠ []) := by
      intro h
      rw [← length_pos_iff]
      have := hall.mpr h
      omega
    rw [Bool.eq_iff_iff]
    rcases hreap with rfl | rfl
    · simp only [Reap.frees, hmatched, Bool.and_eq_true, decide_eq_true_eq, hall, Bool.or_eq_true,
        true_or, and_true]
      exact ⟨fun h => ⟨(hsome h.1).mp h.2, h.1⟩, fun h => ⟨h.2, (hsome h.2).mpr h.1⟩⟩
    · simp only [Reap.frees, hmatched, Bool.and_eq_true, decide_eq_true_eq, hall, Bool.or_eq_true,
        reduceCtorEq, false_or]
      constructor
      · exact fun h => ⟨⟨(hsome h.1).mp h.2.1, h.1⟩, h.2.2⟩
      · exact fun h => ⟨h.1.2, (hsome h.1.2).mpr h.1.1, h.2⟩

theorem without_self (hgone : ∀ p ∈ s.placements, gone p = false)
    (hfreed : ∀ key image, s.images.lookup key = some image → freed key image = false) :
    s.without gone freed = s := by
  symm
  refine eq_without hs hn hs hn (fun _ image => image.refs) ?_ (fun key => ?_) rfl rfl
  · exact (List.filter_eq_self.mpr fun p hp => by rw [hgone p hp]; rfl).symm
  · cases himage : s.images.lookup key with
    | none => rfl
    | some image =>
      rw [filter_some, hfreed key image himage]
      rfl

/-- Images that no placement shows go without any. -/
theorem removeImages_eq (keys : List ℕ)
    (h : ∀ key ∈ keys, ∀ image, s.images.lookup key = some image → image.refs = 0) :
    s.removeImages keys = s.without (fun _ => false) fun key _ => key ∈ keys := by
  obtain ⟨hplacements, hlastKey, hclock⟩ := idle_removeImages h
  refine eq_without hs hn (hs.removeImages keys) (hn.removeImages keys)
    (fun _ image => image.refs) ?_ (fun key => ?_) hlastKey hclock
  · exact hplacements.trans (List.filter_eq_self.mpr fun _ _ => rfl).symm
  rw [lookup_removeImages]
  cases s.images.lookup key with
  | none => exact ite_self none
  | some =>
    rw [filter_some]
    by_cases hkey : key ∈ keys
    · simp [hkey]
    · simp [hkey]

end

theorem shown_eq_nil (hs : s.Consistent) {key : ℕ} {image : Image}
    (himage : s.images.lookup key = some image) :
    (s.placements.filter fun p => p.image = key) = [] ↔ image.refs = 0 := by
  rw [hs.refs key image himage, countP_eq_length_filter, length_eq_zero_iff]

end ImageStore

end Vivido.Graphics
