import Vivido.Scene.Integrity

/-!
What a producer's request that fails leaves of a scene. Most are checked before
anything is written. The others write first and can still fail at the end: where
a counter is exhausted, and where a transaction is begun a second time.
-/

namespace Vivido.Scene

open SortedMap List Option

variable {P : Protocol}

/-- The requests that are checked and carried out in stages. -/
def Request.isStaged : Request P → Bool
  | .beginTransaction _ _ | .queueMutation _ _ _ | .commitTransaction _ _ _ _
  | .updateSurface _ _ _ _ | .destroySurface _ | .destroyTrack _ | .activateTracks _ _ _
  | .configurePlayback _ _ _ _ | .publishDecodedFrame _ _ _ => true
  | _ => false

namespace State

variable {s s' s'' : State P}

structure Untouched (s s' : State P) : Prop where
  surfaces : s'.surfaces = s.surfaces
  tracks : s'.tracks = s.tracks
  scenes : s'.scenes = s.scenes
  anchors : s'.anchors = s.anchors
  goneAnchors : s'.goneAnchors = s.goneAnchors

theorem untouched_refl (s : State P) : s.Untouched s := ⟨rfl, rfl, rfl, rfl, rfl⟩

theorem Untouched.trans (h : s.Untouched s') (h' : s'.Untouched s'') : s.Untouched s'' where
  surfaces := h'.surfaces.trans h.surfaces
  tracks := h'.tracks.trans h.tracks
  scenes := h'.scenes.trans h.scenes
  anchors := h'.anchors.trans h.anchors
  goneAnchors := h'.goneAnchors.trans h.goneAnchors

theorem untouched_invalidateTopology (s : State P) : s.Untouched s.invalidateTopology :=
  ⟨rfl, rfl, rfl, rfl, rfl⟩

theorem untouched_setSurface (hs : s.Untouched s') {identity : SurfaceIdentity}
    {surface surface' : Surface P} (h : s.surfaces.lookup identity = some surface) :
    s.Untouched (s'.setSurface identity surface') ↔ surface' = surface := by
  rw [← hs.surfaces] at h
  constructor
  · intro huntouched
    have hsame := insert_eq_self.mp (huntouched.surfaces.trans hs.surfaces.symm)
    rw [h] at hsame
    exact (Option.some_inj.mp hsame).symm
  · rintro rfl
    exact hs.trans ⟨insert_eq_self.mpr h, rfl, rfl, rfl, rfl⟩

theorem untouched_setTrack (hs : s.Untouched s') {identity : TrackIdentity} {track track' : Track P}
    (h : s.tracks.lookup identity = some track) :
    s.Untouched (s'.setTrack identity track') ↔ track' = track := by
  rw [← hs.tracks] at h
  constructor
  · intro huntouched
    have hsame := insert_eq_self.mp (huntouched.tracks.trans hs.tracks.symm)
    rw [h] at hsame
    exact (Option.some_inj.mp hsame).symm
  · rintro rfl
    exact hs.trans ⟨rfl, insert_eq_self.mpr h, rfl, rfl, rfl⟩

theorem untouched_setScene (hs : s.Untouched s') {session : SessionIdentity}
    {scene scene' : SessionScene P} (h : s.scenes.lookup session = some scene) :
    s.Untouched (s'.setScene session scene') ↔ scene' = scene := by
  rw [← hs.scenes] at h
  constructor
  · intro huntouched
    have hsame := insert_eq_self.mp (huntouched.scenes.trans hs.scenes.symm)
    rw [h] at hsame
    exact (Option.some_inj.mp hsame).symm
  · rintro rfl
    exact hs.trans ⟨rfl, rfl, insert_eq_self.mpr h, rfl, rfl⟩

/-- A request that fails changes nothing. -/
def Atomic (s : State P) (request : Request P) : Prop :=
  (s.perform request).2 = false → s.Untouched (s.perform request).1

/-- The tracks that PLAY starts, in the order it starts them. -/
def playable (s : State P) (members : List TrackIdentity) : List (Track P) :=
  (members.filterMap s.tracks.lookup).filter fun track => track.isPlayable

/-- PLAY comes to a track without a next revision, after it wrote that track or an earlier one. -/
def StopsLate (now : ℕ) (startPtsUs : ℤ) (synchronized : Bool) (tracks : List (Track P)) : Prop :=
  ∃ before track after, tracks = before ++ track :: after ∧
    (∀ other ∈ before, (P.advance other.state.revision).isSome) ∧
    P.advance track.state.revision = none ∧
    (before ≠ [] ∨ track.restarted now startPtsUs synchronized ≠ track)

/-- The request fails after it has written something. -/
def Spoils (s : State P) : Request P → Prop
  | .beginTransaction context transactionId =>
    transactionId ≠ 0 ∧
      ∃ mutation later, s.staged context transactionId = some (mutation :: later)
  | .updateSurface identity expectedRevision expectedGeneration replacement =>
    P.validSurface replacement ∧ s.target.validateSurface replacement = none ∧
      ∃ surface, s.surfaces.lookup identity = some surface ∧
        refusesReplacement identity surface expectedRevision expectedGeneration replacement = none ∧
        mappingChanged surface.definition replacement ∧
        (P.advance surface.revision).isSome ∧ P.advance surface.generation = none
  | .destroySurface identity =>
    (s.surfaces.lookup identity).isSome ∧
      ∃ scene, s.scenes.lookup identity.context.session = some scene ∧
        (scene.dropNodes identity).size ≠ scene.nodes.size ∧ P.advance scene.revision = none
  | .destroyTrack identity =>
    (s.tracks.lookup identity).isSome ∧
      ∃ surface, s.surfaces.lookup identity.surface = some surface ∧
        (surface.activeSlots.filter fun entry => entry.2 ≠ identity.trackId).size ≠
          surface.activeSlots.size ∧ P.advance surface.revision = none
  | .activateTracks identity expectedRevision bindings =>
    ∃ surface, s.surfaces.lookup identity = some surface ∧ surface.revision = expectedRevision ∧
      (∃ activeSlots, s.bindSlots identity surface.activeSlots bindings = .ok activeSlots ∧
        activeSlots ≠ surface.activeSlots) ∧ P.advance surface.revision = none
  | .configurePlayback now identity startPtsUs synchronized =>
    (∃ leader, s.tracks.lookup identity = some leader ∧ leader.isPlayable) ∧
      ∃ members, s.members identity.surface = some members ∧
        StopsLate now startPtsUs synchronized (s.playable members)
  | .publishDecodedFrame identity generation frame =>
    frame.validate = none ∧
      ∃ track, s.tracks.lookup identity = some track ∧ track.isCurrent generation ∧
        P.advance track.state.revision = none ∧ track.decoded frame ≠ track
  | _ => False

/-! ### Requests that fail only before they write -/

theorem atomic_queueMutation (s : State P) (context : ContextIdentity) (transactionId : ℕ)
    (mutation : NodeMutation P) : s.Atomic (.queueMutation context transactionId mutation) := by
  change (s.queueMutation context transactionId mutation).2.isOk = false →
    s.Untouched (s.queueMutation context transactionId mutation).1
  unfold queueMutation
  split
  · exact fun _ => untouched_refl s
  · split
    · exact fun _ => untouched_refl s
    · intro h
      cases h

theorem atomic_commitTransaction (s : State P) (context : ContextIdentity)
    (transactionId expectedTarget : ℕ) (expectedRevision : Option ℕ) :
    s.Atomic (.commitTransaction context transactionId expectedTarget expectedRevision) := by
  change (s.commitTransaction context transactionId expectedTarget expectedRevision).2.isOk =
      false →
    s.Untouched (s.commitTransaction context transactionId expectedTarget expectedRevision).1
  have hs := untouched_invalidateTopology s
  unfold commitTransaction
  dsimp only
  split
  · exact fun _ => hs
  split
  · exact fun _ => hs
  split
  · exact fun _ => hs
  split
  · exact fun _ => hs
  split
  · exact fun _ => hs
  · split
    · exact fun _ => hs
    · intro h
      cases h

/-! ### Requests that can fail late -/

theorem atomic_beginTransaction (s : State P) (context : ContextIdentity) (transactionId : ℕ) :
    s.Atomic (.beginTransaction context transactionId) ↔
      ¬ s.Spoils (.beginTransaction context transactionId) := by
  unfold Atomic
  dsimp only [Spoils]
  change ((s.beginTransaction context transactionId).2.isOk = false →
    s.Untouched (s.beginTransaction context transactionId).1) ↔ _
  unfold beginTransaction staged
  split
  · rename_i hzero
    exact iff_of_true (fun _ => untouched_refl s) fun h => h.1 hzero
  rename_i hnonzero
  split
  · rename_i hnone
    rw [hnone]
    exact iff_of_true (fun _ => untouched_refl s) fun ⟨_, _, _, h⟩ => by cases h
  rename_i scene hscene
  rw [hscene, bind_some]
  dsimp only
  cases hpending : scene.pending.lookup (toLex (context, transactionId)) with
  | none => exact iff_of_true nofun fun ⟨_, _, _, h⟩ => by cases h
  | some mutations =>
    have huntouched : s.Untouched (s.setPending context.session scene
        (scene.pending.insert (toLex (context, transactionId)) [])) ↔ mutations = [] := by
      unfold setPending
      rw [untouched_setScene (untouched_refl s) hscene]
      constructor
      · intro h
        have hsame := insert_eq_self.mp (congrArg SessionScene.pending h)
        rw [hpending] at hsame
        exact Option.some_inj.mp hsame
      · rintro rfl
        rw [insert_eq_self.mpr hpending]
    cases mutations with
    | nil => exact iff_of_true (fun _ => huntouched.mpr rfl) fun ⟨_, _, _, h⟩ => by cases h
    | cons mutation later =>
      refine iff_of_false (fun h => ?_) (not_not.mpr ⟨hnonzero, mutation, later, rfl⟩)
      cases huntouched.mp (h rfl)

theorem atomic_updateSurface (s : State P) (identity : SurfaceIdentity)
    (expectedRevision expectedGeneration : ℕ) (replacement : SurfaceDefinition P.Value) :
    s.Atomic (.updateSurface identity expectedRevision expectedGeneration replacement) ↔
      ¬ s.Spoils (.updateSurface identity expectedRevision expectedGeneration replacement) := by
  unfold Atomic
  dsimp only [Spoils]
  change ((s.updateSurface identity expectedRevision expectedGeneration replacement).2.isOk =
    false → s.Untouched
      (s.updateSurface identity expectedRevision expectedGeneration replacement).1) ↔ _
  have hs : s.Untouched s.invalidateCapture := ⟨rfl, rfl, rfl, rfl, rfl⟩
  unfold updateSurface
  split
  · rename_i hinvalid
    exact iff_of_true (fun _ => untouched_refl s) fun h => hinvalid h.1
  rename_i hvalid
  split
  · rename_i hrefused
    rw [hrefused]
    exact iff_of_true (fun _ => untouched_refl s) fun ⟨_, h, _⟩ => by cases h
  rename_i htarget
  dsimp only
  split
  · rename_i hnone
    change s.surfaces.lookup identity = none at hnone
    rw [hnone]
    exact iff_of_true (fun _ => hs) fun ⟨_, _, _, h, _⟩ => by cases h
  · rename_i surface hsurface
    have hlookup : s.surfaces.lookup identity = some surface := hsurface
    rw [hlookup]
    split
    · rename_i hrefused
      refine iff_of_true (fun _ => hs) ?_
      rintro ⟨_, _, _, ⟨⟩, h, _⟩
      rw [hrefused] at h
      cases h
    · rename_i hrefuses
      split
      · rename_i hexhausted
        refine iff_of_true (fun _ => hs) ?_
        rintro ⟨_, _, _, ⟨⟩, _, _, h, _⟩
        rw [hexhausted] at h
        cases h
      · rename_i revision hrevision
        split
        · rename_i hmapping
          split
          · rename_i hgeneration
            refine iff_of_false (fun h => ?_) (not_not.mpr ⟨not_not.mp hvalid, htarget,
              surface, rfl, hrefuses, hmapping, by rw [hrevision]; rfl, hgeneration⟩)
            have hsame := (untouched_setSurface hs hlookup).mp (h rfl)
            have hrevisions := congrArg Surface.revision hsame
            exact absurd hrevisions (P.lt_of_advance hrevision).ne'
          · rename_i hgeneration
            refine iff_of_true (fun h => by cases h) ?_
            rintro ⟨_, _, _, ⟨⟩, _, _, _, h⟩
            rw [hgeneration] at h
            cases h
        · rename_i hmapping
          refine iff_of_true (fun h => by cases h) ?_
          rintro ⟨_, _, _, ⟨⟩, _, h, _⟩
          exact hmapping h

theorem atomic_destroySurface (s : State P) (identity : SurfaceIdentity) :
    s.Atomic (.destroySurface identity) ↔ ¬ s.Spoils (.destroySurface identity) := by
  unfold Atomic
  dsimp only [Spoils]
  change ((s.destroySurface identity).2.isOk = false →
    s.Untouched (s.destroySurface identity).1) ↔ _
  unfold destroySurface
  dsimp only
  split
  · rename_i hnone
    change (s.surfaces.lookup identity).isNone = true at hnone
    rw [isNone_iff_eq_none] at hnone
    rw [hnone]
    exact iff_of_true (fun _ => untouched_invalidateTopology s) fun ⟨h, _⟩ => by cases h
  · rename_i hsome
    change ¬ (s.surfaces.lookup identity).isNone = true at hsome
    rw [isNone_iff_eq_none] at hsome
    split
    · rename_i hnone
      change s.scenes.lookup identity.context.session = none at hnone
      rw [hnone]
      exact iff_of_true (fun h => by cases h) fun ⟨_, _, h, _⟩ => by cases h
    · rename_i scene hscene
      change s.scenes.lookup identity.context.session = some scene at hscene
      rw [hscene]
      split
      · rename_i hsize
        split
        · rename_i hexhausted
          refine iff_of_false (fun h => hsome ?_) (not_not.mpr
            ⟨Option.isSome_iff_ne_none.mpr hsome, scene, rfl, hsize, hexhausted⟩)
          -- the surface is gone
          have hgone := congrArg (SortedMap.lookup · identity) (h rfl).surfaces
          change (s.surfaces.erase identity).lookup identity = _ at hgone
          rw [lookup_erase, if_pos rfl] at hgone
          exact hgone.symm
        · rename_i hrevision
          refine iff_of_true (fun h => by cases h) ?_
          rintro ⟨_, _, ⟨⟩, _, h⟩
          rw [hrevision] at h
          cases h
      · rename_i hsize
        refine iff_of_true (fun h => by cases h) ?_
        rintro ⟨_, _, ⟨⟩, h, _⟩
        exact hsize h

theorem atomic_destroyTrack (s : State P) (identity : TrackIdentity) :
    s.Atomic (.destroyTrack identity) ↔ ¬ s.Spoils (.destroyTrack identity) := by
  unfold Atomic
  dsimp only [Spoils]
  change ((s.destroyTrack identity).2.isOk = false → s.Untouched (s.destroyTrack identity).1) ↔ _
  unfold destroyTrack
  dsimp only
  split
  · rename_i hnone
    change (s.tracks.lookup identity).isNone = true at hnone
    rw [isNone_iff_eq_none] at hnone
    rw [hnone]
    exact iff_of_true (fun _ => untouched_invalidateTopology s) fun ⟨h, _⟩ => by cases h
  · rename_i hsome
    change ¬ (s.tracks.lookup identity).isNone = true at hsome
    rw [isNone_iff_eq_none] at hsome
    split
    · rename_i hnone
      change s.surfaces.lookup identity.surface = none at hnone
      rw [hnone]
      exact iff_of_true (fun h => by cases h) fun ⟨_, _, h, _⟩ => by cases h
    · rename_i surface hsurface
      change s.surfaces.lookup identity.surface = some surface at hsurface
      rw [hsurface]
      split
      · rename_i hsize
        split
        · rename_i hexhausted
          refine iff_of_false (fun h => hsome ?_) (not_not.mpr
            ⟨Option.isSome_iff_ne_none.mpr hsome, surface, rfl, hsize, hexhausted⟩)
          -- the track is gone
          have hgone := congrArg (SortedMap.lookup · identity) (h rfl).tracks
          change (s.tracks.erase identity).lookup identity = _ at hgone
          rw [lookup_erase, if_pos rfl] at hgone
          exact hgone.symm
        · rename_i hrevision
          refine iff_of_true (fun h => by cases h) ?_
          rintro ⟨_, _, ⟨⟩, _, h⟩
          rw [hrevision] at h
          cases h
      · rename_i hsize
        refine iff_of_true (fun h => by cases h) ?_
        rintro ⟨_, _, ⟨⟩, h, _⟩
        exact hsize h

theorem bindSlots_invalidateTopology (s : State P) (identity : SurfaceIdentity)
    (bindings : List Binding) (candidate : SortedMap ℕ ℕ) :
    s.invalidateTopology.bindSlots identity candidate bindings =
      s.bindSlots identity candidate bindings := by
  induction bindings generalizing candidate with
  | nil => rfl
  | cons binding _ ih =>
    unfold bindSlots
    rw [show s.invalidateTopology.bindSlot identity candidate binding =
      s.bindSlot identity candidate binding from rfl]
    split
    · rfl
    · exact ih _

theorem atomic_activateTracks (s : State P) (identity : SurfaceIdentity) (expectedRevision : ℕ)
    (bindings : List Binding) : s.Atomic (.activateTracks identity expectedRevision bindings) ↔
      ¬ s.Spoils (.activateTracks identity expectedRevision bindings) := by
  unfold Atomic
  dsimp only [Spoils]
  change ((s.activateTracks identity expectedRevision bindings).2.isOk = false →
    s.Untouched (s.activateTracks identity expectedRevision bindings).1) ↔ _
  have hs := untouched_invalidateTopology s
  unfold activateTracks
  dsimp only
  rw [show s.invalidateTopology.surfaces = s.surfaces from rfl]
  split
  · rename_i hnone
    rw [hnone]
    exact iff_of_true (fun _ => hs) fun ⟨_, h, _⟩ => by cases h
  rename_i surface hsurface
  rw [hsurface, bindSlots_invalidateTopology]
  split
  · rename_i hstale
    refine iff_of_true (fun _ => hs) ?_
    rintro ⟨_, ⟨⟩, h, _⟩
    exact hstale h
  · rename_i hrevision
    split
    · rename_i hrefused
      refine iff_of_true (fun _ => hs) ?_
      rintro ⟨_, ⟨⟩, _, ⟨_, h, _⟩, _⟩
      rw [hrefused] at h
      cases h
    · rename_i activeSlots hbind
      split
      · rename_i hexhausted
        have huntouched : s.Untouched (s.invalidateTopology.setSurface identity
            { surface with activeSlots }) ↔ activeSlots = surface.activeSlots := by
          rw [untouched_setSurface hs hsurface]
          exact ⟨congrArg Surface.activeSlots, fun h => by rw [h]⟩
        by_cases hsame : activeSlots = surface.activeSlots
        · refine iff_of_true (fun _ => huntouched.mpr hsame) ?_
          rintro ⟨_, ⟨⟩, _, ⟨_, h, hne⟩, _⟩
          rw [hbind] at h
          cases h
          exact hne hsame
        · refine iff_of_false (fun h => hsame (huntouched.mp (h rfl))) (not_not.mpr ?_)
          exact ⟨surface, rfl, not_not.mp hrevision, ⟨activeSlots, hbind, hsame⟩, hexhausted⟩
      · rename_i hadvanced
        refine iff_of_true (fun h => by cases h) ?_
        rintro ⟨_, ⟨⟩, _, _, h⟩
        rw [hadvanced] at h
        cases h

/-- A track that could not move to its next revision is what was written of it. -/
theorem advanceRevision_exhausted (track : Track P) (h : P.advance track.state.revision = none) :
    track.advanceRevision = (track, .error "track revision exhausted") := by
  unfold Track.advanceRevision
  rw [h]

theorem advanceRevision_advanced (track : Track P) {revision : ℕ}
    (h : P.advance track.state.revision = some revision) : track.advanceRevision =
      ({ track with state := { track.state with revision := revision } }, .ok ()) := by
  unfold Track.advanceRevision
  rw [h]

theorem atomic_publishDecodedFrame (s : State P) (identity : TrackIdentity) (generation : ℕ)
    (frame : Frame) : s.Atomic (.publishDecodedFrame identity generation frame) ↔
      ¬ s.Spoils (.publishDecodedFrame identity generation frame) := by
  unfold Atomic
  dsimp only [Spoils]
  change ((s.publishDecodedFrame identity generation frame).2.isOk = false →
    s.Untouched (s.publishDecodedFrame identity generation frame).1) ↔ _
  unfold publishDecodedFrame
  cases hvalid : frame.validate with
  | some => exact iff_of_true (fun _ => untouched_refl s) fun ⟨h, _⟩ => by cases h
  | none =>
    dsimp only
    unfold onTrack
    cases htrack : s.tracks.lookup identity with
    | none => exact iff_of_true (fun _ => untouched_refl s) fun ⟨_, _, h, _⟩ => by cases h
    | some track =>
      dsimp only
      unfold Track.publishDecodedFrame
      by_cases hcurrent : track.isCurrent generation
      · rw [if_neg (not_not.mpr hcurrent)]
        cases hadvance : P.advance track.state.revision with
        | none =>
          rw [advanceRevision_exhausted (track.decoded frame) hadvance]
          have huntouched : s.Untouched (s.setTrack identity (track.decoded frame)) ↔
              track.decoded frame = track := untouched_setTrack (untouched_refl s) htrack
          by_cases hsame : track.decoded frame = track
          · refine iff_of_true (fun _ => huntouched.mpr hsame) ?_
            rintro ⟨_, _, ⟨⟩, _, _, h⟩
            exact h hsame
          · refine iff_of_false (fun h => hsame (huntouched.mp (h rfl))) (not_not.mpr ?_)
            exact ⟨rfl, track, rfl, hcurrent, hadvance, hsame⟩
        | some =>
          rw [advanceRevision_advanced (track.decoded frame) hadvance]
          refine iff_of_true nofun ?_
          rintro ⟨_, _, ⟨⟩, _, h, _⟩
          rw [hadvance] at h
          cases h
      · rw [if_pos hcurrent]
        refine iff_of_true
          (fun _ => (untouched_setTrack (untouched_refl s) htrack).mpr rfl) ?_
        rintro ⟨_, _, ⟨⟩, h, _⟩
        exact hcurrent h

/-! ### PLAY -/

theorem restarted_revision (track : Track P) (now : ℕ) (startPtsUs : ℤ) (synchronized : Bool) :
    (track.restarted now startPtsUs synchronized).state.revision = track.state.revision := by
  unfold Track.restarted
  split <;> rfl

theorem lookup_setTrack_of_ne (s : State P) {identity other : TrackIdentity} (h : other ≠ identity)
    (track : Track P) : (s.setTrack identity track).tracks.lookup other = s.tracks.lookup other :=
  lookup_insert_of_ne h

theorem playable_setTrack (s : State P) {candidate : TrackIdentity} {rest : List TrackIdentity}
    (h : candidate ∉ rest) (track : Track P) :
    (s.setTrack candidate track).playable rest = s.playable rest := by
  unfold playable
  refine congrArg (List.filter _) (filterMap_congr fun other hother => ?_)
  exact lookup_setTrack_of_ne s (ne_of_mem_of_not_mem hother h) track

theorem playable_cons (s : State P) (candidate : TrackIdentity) (rest : List TrackIdentity) :
    s.playable (candidate :: rest) =
      ((s.tracks.lookup candidate).toList.filter fun track => track.isPlayable) ++
        s.playable rest := by
  unfold playable
  cases h : s.tracks.lookup candidate with
  | none =>
    rw [filterMap_cons_none h]
    rfl
  | some =>
    rw [filterMap_cons_some h, toList_some, filter_cons, filter_cons]
    split <;> rfl

/-- Once a track was started, PLAY fails just where a track has no next revision. -/
theorem restartAll_started (now : ℕ) (startPtsUs : ℤ) (synchronized : Bool)
    (members : List TrackIdentity) (hnodup : members.Nodup) (s : State P) :
    (s.restartAll now startPtsUs synchronized true members).2.isOk = false ↔
      ∃ track ∈ s.playable members, P.advance track.state.revision = none := by
  induction members generalizing s with
  | nil => exact iff_of_false nofun fun ⟨_, h, _⟩ => by cases h
  | cons candidate rest ih =>
    obtain ⟨hnew, hnodup⟩ := List.nodup_cons.mp hnodup
    rw [playable_cons]
    unfold restartAll
    cases htrack : s.tracks.lookup candidate with
    | none => exact ih hnodup s
    | some track =>
      dsimp only
      rw [toList_some, filter_singleton]
      split
      · rename_i hplayable
        rw [decide_eq_true hplayable, Bool.cond_true, singleton_append]
        have hrevision := restarted_revision track now startPtsUs synchronized
        cases hadvance : P.advance track.state.revision with
        | none =>
          rw [advanceRevision_exhausted _ (hrevision ▸ hadvance)]
          exact iff_of_true rfl ⟨track, mem_cons_self, hadvance⟩
        | some =>
          rw [advanceRevision_advanced _ (hrevision ▸ hadvance)]
          dsimp only
          rw [ih hnodup, playable_setTrack s hnew, exists_mem_cons_iff, hadvance]
          simp
      · rename_i hplayable
        rw [decide_eq_false hplayable]
        exact ih hnodup s

theorem exists_first_exhausted {tracks : List (Track P)}
    (h : ∃ track ∈ tracks, P.advance track.state.revision = none) :
    ∃ before track after, tracks = before ++ track :: after ∧
      (∀ other ∈ before, (P.advance other.state.revision).isSome) ∧
      P.advance track.state.revision = none := by
  induction tracks with
  | nil =>
    obtain ⟨_, hmem, _⟩ := h
    cases hmem
  | cons head tail ih =>
    cases hadvance : P.advance head.state.revision with
    | none => exact ⟨[], head, tail, rfl, fun _ hmem => (not_mem_nil hmem).elim, hadvance⟩
    | some =>
      have htail : ∃ track ∈ tail, P.advance track.state.revision = none := by
        obtain ⟨track, hmem, hexhausted⟩ := h
        rcases List.mem_cons.mp hmem with rfl | hmem
        · rw [hadvance] at hexhausted
          cases hexhausted
        · exact ⟨track, hmem, hexhausted⟩
      obtain ⟨before, track, after, heq, hbefore, hexhausted⟩ := ih htail
      refine ⟨head :: before, track, after, by rw [heq, cons_append], ?_, hexhausted⟩
      intro other hother
      rcases List.mem_cons.mp hother with rfl | hother
      · rw [hadvance]
        rfl
      · exact hbefore other hother

section Stops

variable {now : ℕ} {startPtsUs : ℤ} {synchronized : Bool} {track : Track P}
  {tracks : List (Track P)}

theorem stopsLate_cons_exhausted (h : P.advance track.state.revision = none) :
    StopsLate now startPtsUs synchronized (track :: tracks) ↔
      track.restarted now startPtsUs synchronized ≠ track := by
  constructor
  · rintro ⟨before, _, _, heq, hbefore, _, hlate⟩
    cases before with
    | nil =>
      cases heq
      exact hlate.resolve_left (· rfl)
    | cons =>
      cases heq
      have hhead := hbefore track mem_cons_self
      rw [h] at hhead
      cases hhead
  · intro hne
    exact ⟨[], track, tracks, rfl, fun _ hmem => (not_mem_nil hmem).elim, h, Or.inr hne⟩

theorem stopsLate_cons_advanced (h : (P.advance track.state.revision).isSome) :
    StopsLate now startPtsUs synchronized (track :: tracks) ↔
      ∃ other ∈ tracks, P.advance other.state.revision = none := by
  constructor
  · rintro ⟨before, other, after, heq, _, hexhausted, _⟩
    cases before with
    | nil =>
      cases heq
      rw [hexhausted] at h
      cases h
    | cons =>
      cases heq
      exact ⟨other, mem_append_right _ mem_cons_self, hexhausted⟩
  · intro hlater
    obtain ⟨before, other, after, heq, hbefore, hexhausted⟩ := exists_first_exhausted hlater
    refine ⟨track :: before, other, after, by rw [heq, cons_append], ?_, hexhausted,
      Or.inl (cons_ne_nil _ _)⟩
    intro found hfound
    rcases List.mem_cons.mp hfound with rfl | hfound
    · exact h
    · exact hbefore found hfound

end Stops

/-- PLAY leaves a track that is not a member. -/
theorem lookup_restartAll (now : ℕ) (startPtsUs : ℤ) (synchronized : Bool)
    (members : List TrackIdentity) {identity : TrackIdentity} (h : identity ∉ members)
    (s : State P) (started : Bool) :
    (s.restartAll now startPtsUs synchronized started members).1.tracks.lookup identity =
      s.tracks.lookup identity := by
  induction members generalizing s started with
  | nil => rfl
  | cons _ _ ih =>
    have hne := ne_of_not_mem_cons h
    have hrest := not_mem_of_not_mem_cons h
    unfold restartAll
    split
    · exact ih hrest s started
    split
    · split
      · exact lookup_setTrack_of_ne s hne _
      · rw [ih hrest]
        exact lookup_setTrack_of_ne s hne _
    · exact ih hrest s started

theorem restartAll_untouched (now : ℕ) (startPtsUs : ℤ) (synchronized : Bool)
    (members : List TrackIdentity) (hnodup : members.Nodup) (s : State P) :
    ((s.restartAll now startPtsUs synchronized false members).2.isOk = false →
        s.Untouched (s.restartAll now startPtsUs synchronized false members).1) ↔
      ¬ StopsLate now startPtsUs synchronized (s.playable members) := by
  induction members generalizing s with
  | nil =>
    refine iff_of_true (fun _ => untouched_refl s) ?_
    rintro ⟨_, track, _, h, _⟩
    change [] = _ at h
    exact absurd h.symm (append_ne_nil_of_right_ne_nil _ (cons_ne_nil _ _))
  | cons candidate rest ih =>
    obtain ⟨hnew, hnodup⟩ := List.nodup_cons.mp hnodup
    rw [playable_cons]
    unfold restartAll
    cases htrack : s.tracks.lookup candidate with
    | none => exact ih hnodup s
    | some track =>
      dsimp only
      rw [toList_some, filter_singleton]
      split
      · rename_i hplayable
        rw [decide_eq_true hplayable, Bool.cond_true, singleton_append]
        have hrevision := restarted_revision track now startPtsUs synchronized
        cases hadvance : P.advance track.state.revision with
        | none =>
          rw [advanceRevision_exhausted _ (hrevision ▸ hadvance), stopsLate_cons_exhausted hadvance]
          have huntouched : s.Untouched
              (s.setTrack candidate (track.restarted now startPtsUs synchronized)) ↔
                track.restarted now startPtsUs synchronized = track :=
            untouched_setTrack (untouched_refl s) htrack
          rw [not_not, ← huntouched]
          exact ⟨fun h => h rfl, fun h _ => h⟩
        | some revision =>
          rw [advanceRevision_advanced _ (hrevision ▸ hadvance)]
          dsimp only
          rw [stopsLate_cons_advanced (by rw [hadvance]; rfl), ← playable_setTrack s hnew,
            ← restartAll_started now startPtsUs synchronized rest hnodup]
          refine ⟨fun h hfailed => ?_, fun h hfailed => (h hfailed).elim⟩
          -- the first track has moved to its next revision
          have hkept := congrArg (SortedMap.lookup · candidate) (h hfailed).tracks
          rw [lookup_restartAll _ _ _ _ hnew, htrack] at hkept
          have hsame := Option.some_inj.mp (lookup_insert_self.symm.trans hkept)
          have hrevisions := congrArg (·.state.revision) hsame
          exact absurd hrevisions (P.lt_of_advance hadvance).ne'
      · rename_i hplayable
        rw [decide_eq_false hplayable]
        exact ih hnodup s

/-- The members of a surface are distinct, because a track is configured for one slot. -/
theorem nodup_members (hs : s.Linked) {identity : SurfaceIdentity} {members : List TrackIdentity}
    (h : s.members identity = some members) : members.Nodup := by
  obtain ⟨surface, hsurface, rfl⟩ := Option.map_eq_some_iff.mp h
  have hsorted := List.pairwise_map.mp surface.activeSlots.sorted
  refine List.pairwise_filterMap.mpr (hsorted.imp_of_mem ?_)
  rintro ⟨slot, trackId⟩ ⟨slot', trackId'⟩ hmem hmem' hlt _ hkey _ hkey' heq
  obtain ⟨_, htrack, hslot⟩ := hs.slots identity surface slot trackId hsurface
    (mem_entries.mp hmem)
  obtain ⟨_, htrack', hslot'⟩ := hs.slots identity surface slot' trackId' hsurface
    (mem_entries.mp hmem')
  have hkeys : (⟨identity, trackId⟩ : TrackIdentity) = ⟨identity, trackId'⟩ := by
    rw [← SurfaceIdentity.track?_surface hkey, ← SurfaceIdentity.track?_surface hkey', heq]
  rw [hkeys, htrack'] at htrack
  cases htrack
  exact absurd (hslot.symm.trans hslot') hlt.ne

theorem atomic_configurePlayback (hs : s.Linked) (now : ℕ) (identity : TrackIdentity)
    (startPtsUs : ℤ) (synchronized : Bool) :
    s.Atomic (.configurePlayback now identity startPtsUs synchronized) ↔
      ¬ s.Spoils (.configurePlayback now identity startPtsUs synchronized) := by
  unfold Atomic
  dsimp only [Spoils]
  change ((s.configurePlayback now identity startPtsUs synchronized).2.isOk = false →
    s.Untouched (s.configurePlayback now identity startPtsUs synchronized).1) ↔ _
  unfold configurePlayback
  cases hleader : s.tracks.lookup identity with
  | none => exact iff_of_true (fun _ => untouched_refl s) fun ⟨⟨_, h, _⟩, _⟩ => by cases h
  | some leader =>
    dsimp only
    split
    · rename_i hdead
      refine iff_of_true (fun _ => untouched_refl s) ?_
      rintro ⟨⟨_, ⟨⟩, h⟩, _⟩
      exact hdead h
    · rename_i hlive
      cases hmembers : s.members identity.surface with
      | none => exact iff_of_true (fun _ => untouched_refl s) fun ⟨_, _, h, _⟩ => by cases h
      | some members =>
        dsimp only
        rw [restartAll_untouched now startPtsUs synchronized members (nodup_members hs hmembers)]
        refine not_congr ⟨fun h => ?_, ?_⟩
        · exact ⟨⟨leader, rfl, not_not.mp hlive⟩, members, rfl, h⟩
        · rintro ⟨_, _, ⟨⟩, h⟩
          exact h

/-- A request carried out in stages fails without a trace, unless it is one that fails after it
has written. -/
theorem atomic_iff (target : PresentationTarget P) (requests : List (Request P))
    {request : Request P} (h : request.isStaged = true) :
    ((new target).performAll requests).Atomic request ↔
      ¬ ((new target).performAll requests).Spoils request := by
  have hs := linked_performAll (linked_new target) requests
  generalize (new target).performAll requests = s at hs
  cases request with
  | beginTransaction context transactionId => exact atomic_beginTransaction s context transactionId
  | queueMutation context transactionId mutation =>
    exact iff_of_true (atomic_queueMutation s context transactionId mutation) id
  | commitTransaction context transactionId =>
    exact iff_of_true (atomic_commitTransaction s context transactionId _ _) id
  | updateSurface identity revision generation replacement =>
    exact atomic_updateSurface s identity revision generation replacement
  | destroySurface identity => exact atomic_destroySurface s identity
  | destroyTrack identity => exact atomic_destroyTrack s identity
  | activateTracks identity revision bindings =>
    exact atomic_activateTracks s identity revision bindings
  | configurePlayback now identity startPtsUs synchronized =>
    exact atomic_configurePlayback hs now identity startPtsUs synchronized
  | publishDecodedFrame identity generation frame =>
    exact atomic_publishDecodedFrame s identity generation frame
  | _ => cases h

/-- A transaction with one node staged. -/
def stagingRun : List (Request Protocol.plain) :=
  [.registerSession viewer 1, .createSurface ⟨viewerContext, 1⟩ { contextId := 1, surfaceId := 1 },
    .beginTransaction viewerContext 1, .queueMutation viewerContext 1 (.create (nodeShowing 1))]

/-- A second begin of the transaction fails and drops the node. -/
theorem begin_drops_staged :
    ¬ ∀ (target : PresentationTarget Protocol.plain) (requests : List (Request Protocol.plain))
      (request : Request Protocol.plain), request.isStaged = true →
        ((new target).performAll requests).Atomic request := by
  intro h
  have hatomic := h .plain stagingRun (.beginTransaction viewerContext 1) rfl
  have huntouched := hatomic (by decide +kernel)
  have hstaged := congrArg (fun scenes =>
    (scenes.lookup viewer).bind (·.pending.lookup (toLex (viewerContext, 1)))) huntouched.scenes
  revert hstaged
  decide +kernel

theorem atomic_iff_staging : ((new .plain).performAll stagingRun).Atomic
        (.commitTransaction viewerContext 1 2 none) ↔
      ¬ ((new .plain).performAll stagingRun).Spoils (.commitTransaction viewerContext 1 2 none) :=
  atomic_iff .plain stagingRun rfl

end State

end Vivido.Scene
