import Vivido.Scene.Caching
import Vivido.Support.Since
import Vivido.Texture.Renderer

/-!
Each texture holds the frame that it was last uploaded for. An upload of only the
damage keeps it so if and only if the frame agrees, outside the damage, with the
frame of the last upload; a delta that applies to that frame does. Frames that
were published in between and not drawn break it.
-/

namespace Vivido.Texture

open Scene SortedMap List

variable {P : Protocol}

/-- Every texture holds what its last upload was to show. -/
def Current (s : State P) : Prop :=
  ∀ key track, s.tracks.lookup key = some track → track.texels = track.shown.rgba

/-- What is not written of the picture is in the frame of the last upload. -/
def Suits (track : SourceTexture) (picture : Picture) : Prop :=
  (track.Unchanged picture → track.shown.rgba = picture.frame.rgba) ∧
    (¬ track.Unchanged picture → track.Fits picture → ∀ damage ∈ picture.frame.damage,
      AgreeOutside picture.frame.width damage track.shown.rgba picture.frame.rgba)

instance (track : SourceTexture) (picture : Picture) : Decidable (Suits track picture) :=
  inferInstanceAs (Decidable (_ ∧ _))

/-- Each upload of a pass to a texture that is there suits it. -/
def Agrees (s : State P) : Act P → Prop
  | .render rendered address _ => ∀ key ∈ rendered, ∀ item ∈ s.items.find? (·.trackKey = key),
      ∀ track ∈ s.tracks.lookup key, Suits track ⟨item.frame, address key⟩
  | _ => True

instance : DecidableRel (Agrees (P := P)) := fun _ act =>
  match act with
  | .render _ _ _ => inferInstanceAs (Decidable (∀ key ∈ _, _))
  | .request _ | .snapshot => inferInstanceAs (Decidable True)

/-- After a pass the texture of each track that it drew holds the frame that is shown. -/
def Shows (s : State P) : Act P → Prop
  | .render rendered address now => ∀ key ∈ rendered, ∀ item ∈ s.items.find? (·.trackKey = key),
      ((s.step (.render rendered address now)).tracks.lookup key).map (·.texels) =
        some item.frame.rgba
  | _ => True

instance : DecidableRel (Shows (P := P)) := fun _ act =>
  match act with
  | .render _ _ _ => inferInstanceAs (Decidable (∀ key ∈ _, _))
  | .request _ | .snapshot => inferInstanceAs (Decidable True)

/-! ### Writing -/

/-- Where the data begins at the rectangle's first byte and has the picture's rows, a byte of the
rectangle is taken from its own place in the picture. -/
theorem getElem?_writeTexture (frame : Frame) (rect : RasterDamageRect) (texels : List UInt8)
    (index : ℕ) :
    (writeTexture frame.width rect (frame.rgba.drop ((rect.y * frame.width + rect.x) * 4))
        (frame.width * 4) texels)[index]? = texels[index]?.map fun texel =>
        if Covers frame.width rect index then frame.rgba[index]?.getD texel else texel := by
  unfold writeTexture
  rw [getElem?_mapIdx]
  refine congrArg (Option.map · _) (funext fun texel => ?_)
  by_cases hcovers : Covers frame.width rect index
  · rw [if_pos hcovers, if_pos hcovers, getElem?_drop]
    obtain ⟨⟨hleft, -⟩, htop, -⟩ := hcovers
    obtain ⟨_, hcolumn⟩ := Nat.exists_eq_add_of_le hleft
    obtain ⟨_, hrow⟩ := Nat.exists_eq_add_of_le htop
    have hpixel := Nat.div_add_mod (index / 4) frame.width
    have hbyte := Nat.div_add_mod index 4
    rw [hcolumn, hrow, Nat.mul_add, Nat.mul_comm frame.width, Nat.mul_comm frame.width] at hpixel
    have hplace : (rect.y * frame.width + rect.x) * 4 +
        ((index / 4 / frame.width - rect.y) * (frame.width * 4) +
          (index / 4 % frame.width - rect.x) * 4 + index % 4) = index := by
      rw [hcolumn, hrow, Nat.add_sub_cancel_left, Nat.add_sub_cancel_left, ← Nat.mul_assoc]
      omega
    rw [hplace]
  · rw [if_neg hcovers, if_neg hcovers]

section

variable (frame : Frame) (damage : List RasterDamageRect) (texels : List UInt8)
include frame damage texels

theorem getElem?_writeDamage (index : ℕ) : (writeDamage frame damage texels)[index]? =
      texels[index]?.map fun texel =>
        if ∃ rect ∈ damage, Covers frame.width rect index then frame.rgba[index]?.getD texel
        else texel := by
  induction damage generalizing texels with
  | nil => simp [writeDamage]
  | cons rect rest ih =>
    have hrest := ih (writeTexture frame.width rect
      (frame.rgba.drop ((rect.y * frame.width + rect.x) * 4)) (frame.width * 4) texels)
    change (writeDamage frame rest _)[index]? = _
    rw [hrest, getElem?_writeTexture, Option.map_map]
    refine congrArg (Option.map · _) (funext fun texel => ?_)
    simp only [Function.comp, exists_mem_cons_iff]
    by_cases hrect : Covers frame.width rect index
    · by_cases hlater : ∃ rect ∈ rest, Covers frame.width rect index
      · cases frame.rgba[index]? <;> simp [hrect, hlater]
      · simp [hrect, hlater]
    · simp [hrect]

theorem length_writeDamage : (writeDamage frame damage texels).length = texels.length := by
  induction damage generalizing texels with
  | nil => rfl
  | cons _ rest ih =>
    change (writeDamage frame rest _).length = _
    rw [ih]
    exact length_mapIdx

/-- Writing the damage brings the picture if and only if the rest of it was there. -/
theorem writeDamage_eq_iff : writeDamage frame damage texels = frame.rgba ↔
      AgreeOutside frame.width damage texels frame.rgba := by
  constructor
  · intro h
    have hlength : texels.length = frame.rgba.length := by
      rw [← length_writeDamage frame damage texels, h]
    refine ⟨hlength, fun index hindex houtside => ?_⟩
    have hbyte := getElem?_writeDamage frame damage texels index
    have hnone : ¬ ∃ rect ∈ damage, Covers frame.width rect index := by
      rintro ⟨rect, hrect, hcovers⟩
      exact houtside rect hrect hcovers
    simp only [hnone, if_false, Option.map_id'] at hbyte
    rw [← hbyte, h]
  · intro h
    refine ext_getElem? fun index => ?_
    rw [getElem?_writeDamage]
    by_cases hindex : index < frame.rgba.length
    · by_cases hcovered : ∃ rect ∈ damage, Covers frame.width rect index
      · have hold : index < texels.length := h.length ▸ hindex
        simp [hcovered, hindex, hold]
      · have houtside : ∀ rect ∈ damage, ¬ Covers frame.width rect index :=
          fun rect hrect hcovers => hcovered ⟨rect, hrect, hcovers⟩
        simp only [hcovered, if_false, Option.map_id']
        exact h.bytes index hindex houtside
    · rw [Nat.not_lt] at hindex
      rw [getElem?_eq_none hindex, getElem?_eq_none (h.length ▸ hindex), Option.map_none]

end

/-! ### A pass -/

theorem shown_uploaded (track : Option SourceTexture) (picture : Picture) (now : ℕ) :
    (uploaded track picture now).shown = picture.frame := by
  unfold uploaded
  split
  · rfl
  · split
    · rfl
    · split <;> rfl

variable {rendered : List TrackIdentity} {retained : List (TrackIdentity × ℕ × ℕ)}
  {track : SourceTexture} {key : TrackIdentity}

/-- A texture that is current stays so in an upload if and only if the upload suits it. -/
theorem uploaded_current_iff (h : track.texels = track.shown.rgba) (picture : Picture) (now : ℕ) :
    (uploaded (some track) picture now).texels = picture.frame.rgba ↔ Suits track picture := by
  unfold uploaded Suits
  dsimp only
  by_cases hunchanged : track.Unchanged picture
  · rw [if_pos hunchanged]
    dsimp only
    rw [h]
    exact ⟨fun heq => ⟨fun _ => heq, fun hnot => absurd hunchanged hnot⟩,
      fun hsuits => hsuits.1 hunchanged⟩
  · rw [if_neg hunchanged]
    by_cases hfits : track.Fits picture
    · rw [if_pos hfits]
      unfold SourceTexture.write
      dsimp only
      cases hdamage : picture.frame.damage with
      | none => simp [hunchanged]
      | some damage =>
        dsimp only
        rw [writeDamage_eq_iff, h]
        constructor
        · intro hagree
          refine ⟨fun hsame => absurd hsame hunchanged, fun _ _ other hother => ?_⟩
          cases hother
          exact hagree
        · exact fun hsuits => hsuits.2 hunchanged hfits damage rfl
    · rw [if_neg hfits]
      exact ⟨fun _ => ⟨fun hsame => absurd hsame hunchanged, fun _ hfit => absurd hfit hfits⟩,
        fun _ => rfl⟩

/-- The texture of a track after its upload, if an item shows it. -/
def drawn (items : List RenderItem) (address : TrackIdentity → ℕ) (now : ℕ) (key : TrackIdentity)
    (track : Option SourceTexture) : Option SourceTexture :=
  match items.find? (·.trackKey = key) with
  | none => track
  | some item => some (uploaded track ⟨item.frame, address key⟩ now)

variable {items : List RenderItem} {address : TrackIdentity → ℕ} {now : ℕ}

theorem lookup_uploadTrack (tracks : Textures) (key other : TrackIdentity) :
    (uploadTrack items address now tracks key).lookup other =
      if other = key then drawn items address now key (tracks.lookup key)
      else tracks.lookup other := by
  unfold uploadTrack drawn
  cases items.find? (·.trackKey = key) with
  | none =>
    dsimp only
    split
    · rename_i heq
      rw [heq]
    · rfl
  | some => exact lookup_insert

theorem lookup_uploadAll {keys : List TrackIdentity} (hnodup : keys.Nodup) (tracks : Textures)
    (key : TrackIdentity) : (keys.foldl (uploadTrack items address now) tracks).lookup key =
      if key ∈ keys then drawn items address now key (tracks.lookup key)
      else tracks.lookup key := by
  induction keys generalizing tracks with
  | nil => rfl
  | cons first _ ih =>
    obtain ⟨hfirst, hrest⟩ := List.nodup_cons.mp hnodup
    rw [foldl_cons, ih hrest, lookup_uploadTrack]
    by_cases hkey : key = first
    · subst hkey
      rw [if_neg hfirst, if_pos rfl, if_pos mem_cons_self]
    · simp only [hkey, if_false, mem_cons, false_or]

theorem mem_evictOver {total : ℕ} (h : key ∈ evictOver total retained) :
    ∃ entry ∈ retained, entry.1 = key := by
  induction retained generalizing total with
  | nil => cases h
  | cons entry _ ih =>
    obtain ⟨_, _, _⟩ := entry
    unfold evictOver at h
    split at h
    · cases h
    · rcases List.mem_cons.mp h with rfl | h
      · exact ⟨_, mem_cons_self, rfl⟩
      · obtain ⟨entry, hentry, hkey⟩ := ih h
        exact ⟨entry, mem_cons_of_mem _ hentry, hkey⟩

/-- Only textures that were offered are evicted. -/
theorem mem_evictions (h : key ∈ evictions retained) : ∃ entry ∈ retained, entry.1 = key := by
  unfold evictions at h
  rw [partition_eq_filter_filter] at h
  dsimp only at h
  rcases List.mem_append.mp h with h | h
  · obtain ⟨entry, hentry, hkey⟩ := List.mem_map.mp h
    exact ⟨entry, (List.mem_filter.mp hentry).1, hkey⟩
  · split at h
    · cases h
    · obtain ⟨entry, hentry, hkey⟩ := mem_evictOver h
      rw [mem_insertionSort] at hentry
      exact ⟨entry, (List.mem_filter.mp hentry).1, hkey⟩

/-- A texture that is drawn is kept. -/
theorem lookup_retainTracks (hkey : key ∈ rendered) (tracks : Textures) :
    (retainTracks rendered now tracks).lookup key =
      (tracks.lookup key).map ({ · with lastRendered := now }) := by
  unfold retainTracks
  dsimp only
  rw [lookup_filter_kept, lookup_mapValues]
  · simp only [hkey, if_true]
  intro _
  rw [decide_eq_true_eq]
  intro hevicted
  obtain ⟨_, hentry, rfl⟩ := mem_evictions hevicted
  obtain ⟨_, -, hsource⟩ := List.mem_filterMap.mp hentry
  split at hsource
  · cases hsource
  · rename_i hidle
    cases hsource
    exact hidle hkey

theorem lookup_renderTracks (items : List RenderItem) (rendered : List TrackIdentity)
    (address : TrackIdentity → ℕ) (now : ℕ) (tracks : Textures) (key : TrackIdentity) :
    (renderTracks items rendered address now tracks).lookup key =
      if key ∈ rendered then
        drawn items address now key ((tracks.lookup key).map ({ · with lastRendered := now }))
      else (retainTracks rendered now tracks).lookup key := by
  unfold renderTracks
  rw [lookup_uploadAll rendered.nodup_dedup]
  by_cases hkey : key ∈ rendered
  · rw [if_pos hkey, if_pos (List.mem_dedup.mpr hkey), lookup_retainTracks hkey]
  · rw [if_neg hkey, if_neg fun hmem => hkey (List.mem_dedup.mp hmem)]

/-- What is kept was there, and holds what it held. -/
theorem retained_of_lookup {tracks : Textures}
    (h : (retainTracks rendered now tracks).lookup key = some track) :
    ∃ before, tracks.lookup key = some before ∧ track.texels = before.texels ∧
      track.shown = before.shown := by
  unfold retainTracks at h
  dsimp only at h
  have hkept := lookup_of_filter h
  rw [lookup_mapValues] at hkept
  obtain ⟨before, hbefore, rfl⟩ := Option.map_eq_some_iff.mp hkept
  refine ⟨before, hbefore, ?_⟩
  split <;> exact ⟨rfl, rfl⟩

/-- A pass shows what it draws if and only if each upload suits the texture. -/
theorem shows_iff {s : State P} (h : Current s) (act : Act P) : Shows s act ↔ Agrees s act := by
  cases act with
  | request | snapshot => exact Iff.rfl
  | render rendered address now =>
    refine forall₂_congr fun key hkey => forall₂_congr fun item hitem => ?_
    change ((renderTracks s.items rendered address now s.tracks).lookup key).map (·.texels) = _ ↔ _
    rw [lookup_renderTracks, if_pos hkey]
    unfold drawn
    rw [Option.mem_def.mp hitem]
    cases htrack : s.tracks.lookup key with
    | none =>
      refine ⟨fun _ track hnone => ?_, fun _ => rfl⟩
      cases hnone
    | some track =>
      have hsame : ({ track with lastRendered := now } : SourceTexture).texels =
        ({ track with lastRendered := now } : SourceTexture).shown.rgba := h key track htrack
      have hiff := uploaded_current_iff hsame ⟨item.frame, address key⟩ now
      constructor
      · intro hshows _ hother
        cases hother
        exact hiff.mp (Option.some.inj hshows)
      · exact fun hagrees => congrArg some (hiff.mpr (hagrees track rfl))

/-- Where a pass shows what it draws, the textures hold what they were uploaded for. -/
theorem Current.step {s : State P} (h : Current s) {act : Act P} (hshows : Shows s act) :
    Current (s.step act) := by
  cases act with
  | request | snapshot => exact h
  | render rendered address now =>
    intro key track htrack
    change (renderTracks s.items rendered address now s.tracks).lookup key = some track at htrack
    by_cases hkey : key ∈ rendered
    · cases hitem : s.items.find? (·.trackKey = key) with
      | none =>
        rw [lookup_renderTracks, if_pos hkey] at htrack
        unfold drawn at htrack
        rw [hitem] at htrack
        obtain ⟨before, hbefore, rfl⟩ := Option.map_eq_some_iff.mp htrack
        exact h key before hbefore
      | some item =>
        have htexels := hshows key hkey item hitem
        change ((renderTracks s.items rendered address now s.tracks).lookup key).map (·.texels) = _
          at htexels
        rw [htrack] at htexels
        rw [lookup_renderTracks, if_pos hkey] at htrack
        unfold drawn at htrack
        rw [hitem] at htrack
        cases htrack
        rw [shown_uploaded]
        exact Option.some.inj htexels
    · rw [lookup_renderTracks, if_neg hkey] at htrack
      obtain ⟨before, hbefore, htexels, hshown⟩ := retained_of_lookup htrack
      rw [htexels, hshown]
      exact h key before hbefore

/-- A delta that was applied to the frame of the last upload suits the texture. -/
theorem suits_of_delta {frame : Frame} {address : ℕ}
    {delta : ParsedRasterDeltaFrame track.shown.width track.shown.height}
    (hdelta : applyRasterDelta track.shown delta = .ok frame)
    (hchanged : ¬ track.Unchanged ⟨frame, address⟩) : Suits track ⟨frame, address⟩ := by
  obtain ⟨damage, hdamage, -, -, -, hagree⟩ := agreeOutside_delta hdelta
  refine ⟨fun hsame => absurd hsame hchanged, fun _ _ other hother => ?_⟩
  have heq : some damage = some other := hdamage.symm.trans hother
  cases heq
  exact hagree

/-! ### Runs -/

theorem current_start (scene : Scene.State P) : Current (run scene []) :=
  nofun

/-- All along a run each upload leaves the frame that is shown, if and only if each upload to a
texture that is there agrees with the frame that the texture was last uploaded for. -/
theorem run_shows_iff (scene : Scene.State P) (acts : List (Act P)) :
    Throughout (run scene) Shows acts ↔ Throughout (run scene) Agrees acts := by
  constructor
  · intro h earlier act later heq
    rw [heq] at h
    refine (shows_iff ?_ act).mp (h earlier act later rfl)
    refine h.of_append.induct (fun acts => Current (run scene acts)) (current_start scene) ?_
    intro acts act hcurrent hshows
    rw [run_concat]
    exact hcurrent.step hshows
  · intro h earlier act later heq
    rw [heq] at h
    refine (shows_iff ?_ act).mpr (h earlier act later rfl)
    refine h.of_append.induct (fun acts => Current (run scene acts)) (current_start scene) ?_
    intro _ act hcurrent hagrees
    rw [run_concat]
    exact hcurrent.step ((shows_iff hcurrent act).mpr hagrees)

/-- Two pixels of a picture, of which some may be marked as damaged. -/
def strip (frameId : ℕ) (left right : UInt8) (damage : Option (List RasterDamageRect)) : Frame where
  frameId := frameId
  ptsUs := 0
  width := 2
  height := 1
  sarNum := 1
  sarDen := 1
  rgba := List.replicate 4 left ++ List.replicate 4 right
  damage := damage

open Scene.State in
/-- The viewer's session shows a picture of two pixels. -/
def stripRun : List (Request .plain) :=
  openingRun.dropLast ++ [.publishDecodedFrame viewerTrack 1 (strip 1 0 0 none)] ++ anchoringRun

open Scene.State in
/-- The picture is drawn, two deltas are published, and the second of them is drawn. -/
def skippedDelta : List (Act .plain) :=
  stripRun.map .request ++
    [.snapshot, .render [viewerTrack] (fun _ => 1) 0,
      .request (.publishDecodedFrame viewerTrack 1 (strip 2 9 0 (some [⟨0, 0, 1, 1⟩]))),
      .request (.publishDecodedFrame viewerTrack 1 (strip 3 9 9 (some [⟨1, 0, 1, 1⟩]))),
      .snapshot, .render [viewerTrack] (fun _ => 3) 1]

/-- The first delta never reaches the texture. -/
theorem delta_lost : ¬ ∀ acts : List (Act .plain), Throughout (run (.new .plain)) Shows acts := by
  intro h
  have hlost : ¬ Throughout (run (.new .plain)) Shows skippedDelta := by decide +kernel
  exact hlost (h skippedDelta)

end Vivido.Texture
