import Vivido.Scene.Works

/-!
Which tracks an operation takes away, with their surface, their context or their
session.
-/

namespace Vivido.Scene.State

open Option

variable {P : Protocol} {key : TrackIdentity}

/-- The track goes if it is there. -/
def Discards (s : State P) : Request P → TrackIdentity → Prop
  | .destroyTrack identity, key => key = identity
  | .destroySurface identity, key =>
    key.surface = identity ∧ (s.surfaces.lookup identity).isSome
  | .removeContexts session contexts, key => key.surface.context.isOf session contexts
  | .removeSession session, key => key.surface.context.session = session
  | .detachSession session, key =>
    key.surface.context.session = session ∧ (s.scenes.lookup session).isSome
  | _, _ => False

/-- The tracks are those that are not dropped. -/
def Leaves (s s' : State P) (drops : TrackIdentity → Prop) : Prop :=
  ∀ key, (drops key → s'.tracks.lookup key = none) ∧
    (¬ drops key → (s.tracks.lookup key).isSome → (s'.tracks.lookup key).isSome)

theorem leaves_of_filter {s s' : State P} (drops : TrackIdentity → Prop) [DecidablePred drops]
    (h : s'.tracks = s.tracks.filter fun entry => ¬ drops entry.1) : Leaves s s' drops := by
  intro key
  rw [h, SortedMap.lookup_filter]
  refine ⟨fun hdrops => ?_, fun hkept hsome => ?_⟩
  · cases s.tracks.lookup key with
    | none => rfl
    | some => exact if_neg (by simpa using hdrops)
  · obtain ⟨_, htrack⟩ := Option.isSome_iff_exists.mp hsome
    rw [htrack, filter_some, if_pos (decide_eq_true hkept)]
    rfl

theorem leaves_of_tracks {s s' : State P} {drops : TrackIdentity → Prop}
    (h : s'.tracks = s.tracks) (hnone : ∀ key, ¬ drops key) : Leaves s s' drops :=
  fun key => ⟨fun hdrops => (hnone key hdrops).elim, fun _ hsome => h ▸ hsome⟩

variable (s : State P) (session : SessionIdentity)

theorem leaves_destroyTrack (identity : TrackIdentity) :
    Leaves s (s.destroyTrack identity).1 (· = identity) := by
  unfold destroyTrack
  dsimp only
  split
  · rename_i hnone
    intro _
    refine ⟨?_, fun _ hsome => hsome⟩
    rintro rfl
    exact Option.isNone_iff_eq_none.mp hnone
  · refine leaves_of_filter (· = identity) ?_
    split
    · rfl
    · split
      · split <;> rfl
      · rfl

theorem leaves_destroySurface (identity : SurfaceIdentity) : Leaves s (s.destroySurface identity).1
      fun key => key.surface = identity ∧ (s.surfaces.lookup identity).isSome := by
  unfold destroySurface
  dsimp only
  split
  · rename_i hnone
    refine leaves_of_tracks rfl fun key h => ?_
    rw [isNone_iff_eq_none] at hnone
    rw [show s.surfaces.lookup identity = none from hnone] at h
    cases h.2
  · rename_i hsurface
    have hsome : (s.surfaces.lookup identity).isSome = true :=
      Option.isSome_iff_ne_none.mpr fun hnone => hsurface (Option.isNone_iff_eq_none.mpr hnone)
    rw [show (fun key : TrackIdentity => key.surface = identity ∧
      (s.surfaces.lookup identity).isSome = true) = (·.surface = identity) from
        funext fun key => propext (and_iff_left hsome)]
    refine leaves_of_filter (·.surface = identity) ?_
    split
    · rfl
    · split
      · split <;> rfl
      · rfl

theorem leaves_detachSession : Leaves s (s.detachSession session)
      fun key => key.surface.context.session = session ∧ (s.scenes.lookup session).isSome := by
  unfold detachSession
  dsimp only
  split
  · rename_i hnone
    refine leaves_of_tracks rfl fun key h => ?_
    rw [show s.scenes.lookup session = none from hnone] at h
    cases h.2
  · rename_i scene hscene
    have hsome : (s.scenes.lookup session).isSome = true := isSome_of_eq_some hscene
    rw [show (fun key : TrackIdentity => key.surface.context.session = session ∧
      (s.scenes.lookup session).isSome = true) = (·.surface.context.session = session) from
        funext fun key => propext (and_iff_left hsome)]
    exact leaves_of_filter (·.surface.context.session = session) rfl

theorem leaves_removeContexts (contexts : List ℕ) : Leaves s (s.removeContexts session contexts)
      fun key => key.surface.context.isOf session contexts := by
  refine leaves_of_filter (fun key : TrackIdentity => key.surface.context.isOf session contexts) ?_
  unfold removeContexts
  dsimp only
  split <;> rfl

/-- The tracks after an operation are those that it does not drop, and the one that it creates. -/
theorem leaves_perform (request : Request P) :
    Leaves s (s.perform request).1 (s.Discards request) := by
  cases request with
  | destroyTrack identity => exact leaves_destroyTrack s identity
  | destroySurface identity => exact leaves_destroySurface s identity
  | removeContexts session contexts => exact leaves_removeContexts s session contexts
  | removeSession session =>
    exact leaves_of_filter (fun key : TrackIdentity => key.surface.context.session = session) rfl
  | detachSession session => exact leaves_detachSession s session
  | createSurface =>
    exact leaves_of_tracks (resurfaces_createSurface s _ _).tracks fun _ h => h
  | updateSurface =>
    exact leaves_of_tracks (resurfaces_updateSurface s _ _ _ _).tracks fun _ h => h
  | activateTracks =>
    exact leaves_of_tracks (resurfaces_activateTracks s _ _ _).tracks fun _ h => h
  | commitTransaction context =>
    exact leaves_of_tracks (tracks_commitTransaction s context _ _ _) fun _ h => h
  | createTrack identity configuration =>
    refine fun key => ⟨fun h => h.elim, fun _ hsome => ?_⟩
    change ((s.createTrack identity configuration).1.tracks.lookup key).isSome
    unfold createTrack
    split
    · exact hsome
    dsimp only
    split
    · exact hsome
    split
    · exact hsome
    · change ((s.tracks.insert _ _).lookup key).isSome
      rw [SortedMap.lookup_insert]
      split
      · rfl
      · exact hsome
  | _ =>
    refine fun key => ⟨fun h => h.elim, fun _ hsome => ?_⟩
    rwa [← isSome_map, (keeps_perform s _ rfl).tracks key, isSome_map]

end Vivido.Scene.State
