import Vivido.Scene.Request

/-!
What the operations make of a scene, in terms of the fields they write. Surfaces
and tracks change without the rest, anchors move and take nodes along, and what
is staged changes in one session's scene.
-/

namespace Vivido.Scene

open SortedMap List Option

variable {P : Protocol}

/-- The operation writes surfaces and tracks only. -/
def Request.isReshaping : Request P → Bool
  | .suspendSession _ | .createSurface _ _ | .updateSurface _ _ _ _ | .createTrack _ _
  | .destroyTrack _ | .activateTracks _ _ _ | .advanceChannel _ | .detachChannel _ _
  | .loseTrack _ _ | .flushPlayback _ _ => true
  | _ => false

/-- The terminal moves the anchors. -/
def Request.isShifting : Request P → Bool
  | .applyAnchorResize _ | .scrollAnchors _ | .clearTerminal | .setAlternateScreen _ => true
  | _ => false

/-- The operation is one of a transaction before its commit. -/
def Request.isStaging : Request P → Bool
  | .beginTransaction _ _ | .queueMutation _ _ _ | .abortTransaction _ _ => true
  | _ => false

namespace State

variable {s s' : State P}

/-! ### Surfaces and tracks -/

/-- Nothing but surfaces is written. -/
def Resurfaces (s s' : State P) : Prop :=
  s' = s ∨ ∃ surfaces captureRevision, s' = { s.invalidateTopology with surfaces, captureRevision }

/-- Nothing but surfaces and tracks is written. -/
def Reshapes (s s' : State P) : Prop :=
  s' = s ∨ ∃ surfaces tracks captureRevision,
    s' = { s.invalidateTopology with surfaces, tracks, captureRevision }

theorem Resurfaces.tracks (h : Resurfaces s s') : s'.tracks = s.tracks := by
  rcases h with rfl | ⟨_, _, rfl⟩ <;> rfl

theorem Resurfaces.reshapes (h : Resurfaces s s') : Reshapes s s' := by
  rcases h with rfl | ⟨_, _, rfl⟩
  · exact Or.inl rfl
  · exact Or.inr ⟨_, _, _, rfl⟩

theorem Reshapes.scenes (h : Reshapes s s') : s'.scenes = s.scenes := by
  rcases h with rfl | ⟨_, _, _, rfl⟩ <;> rfl

variable (s : State P) (request : Request P)

theorem resurfaces_createSurface (identity : SurfaceIdentity)
    (definition : SurfaceDefinition P.Value) :
    Resurfaces s (s.createSurface identity definition).1 := by
  unfold createSurface
  dsimp only
  repeat' split
  all_goals first | exact Or.inl rfl | exact Or.inr ⟨_, _, rfl⟩

theorem resurfaces_updateSurface (identity : SurfaceIdentity)
    (expectedRevision expectedGeneration : ℕ) (replacement : SurfaceDefinition P.Value) :
    Resurfaces s (s.updateSurface identity expectedRevision expectedGeneration replacement).1 := by
  unfold updateSurface
  dsimp only
  repeat' split
  all_goals first | exact Or.inl rfl | exact Or.inr ⟨_, _, rfl⟩

theorem resurfaces_activateTracks (identity : SurfaceIdentity) (expectedRevision : ℕ)
    (bindings : List Binding) :
    Resurfaces s (s.activateTracks identity expectedRevision bindings).1 := by
  unfold activateTracks
  dsimp only
  repeat' split
  all_goals exact Or.inr ⟨_, _, rfl⟩

section

variable {α : Type} (identity : TrackIdentity) (work : Track P → Track P × Except String α)
  (missing : String)
include α identity work missing

theorem others_onTrack :
    (s.onTrack identity work missing).1 =
      { s with tracks := (s.onTrack identity work missing).1.tracks } := by
  unfold onTrack
  split <;> rfl

theorem scenes_onTrack :
    (s.onTrack identity work missing).1.scenes = s.scenes := by
  rw [others_onTrack]

theorem reshapes_onTrack :
    Reshapes s (s.invalidateTopology.onTrack identity work missing).1 := by
  unfold onTrack
  split <;> exact Or.inr ⟨_, _, _, rfl⟩

end

theorem reshapes_perform (h : request.isReshaping = true) : Reshapes s (s.perform request).1 := by
  cases request with
  | createSurface => exact (resurfaces_createSurface s _ _).reshapes
  | updateSurface =>
    exact (resurfaces_updateSurface s _ _ _ _).reshapes
  | activateTracks => exact (resurfaces_activateTracks s _ _ _).reshapes
  | suspendSession session =>
    change Reshapes s (s.suspendSession session)
    unfold suspendSession
    dsimp only
    split <;> exact Or.inr ⟨_, _, _, rfl⟩
  | createTrack identity configuration =>
    change Reshapes s (s.createTrack identity configuration).1
    unfold createTrack
    dsimp only
    repeat' split
    all_goals first | exact Or.inl rfl | exact Or.inr ⟨_, _, _, rfl⟩
  | destroyTrack identity =>
    change Reshapes s (s.destroyTrack identity).1
    unfold destroyTrack
    dsimp only
    repeat' split
    all_goals exact Or.inr ⟨_, _, _, rfl⟩
  | advanceChannel | detachChannel | loseTrack | flushPlayback => exact reshapes_onTrack s _ _ _
  | _ => cases h

/-- A frame that is published changes the track, and more only if it is accepted. -/
theorem publishDecodedFrame_cases (s : State P) (identity : TrackIdentity) (generation : ℕ)
    (frame : Frame) :
    let worked : State P :=
      { s with tracks := (s.publishDecodedFrame identity generation frame).1.tracks }
    (s.publishDecodedFrame identity generation frame).1 = worked ∨
      (s.publishDecodedFrame identity generation frame).1 =
        worked.replaceCachedFrame identity frame ∨
      (s.publishDecodedFrame identity generation frame).1 =
        worked.advanceContent.invalidateTopology := by
  have hwork := others_onTrack s identity (·.publishDecodedFrame generation frame)
    "track does not exist"
  unfold publishDecodedFrame
  split
  · exact Or.inl rfl
  split
  · rename_i heq
    rw [heq] at hwork
    exact Or.inl hwork
  · rename_i heq
    rw [heq] at hwork
    dsimp only
    split
    · refine Or.inr (Or.inl ?_)
      exact congrArg (replaceCachedFrame · identity frame) hwork
    · refine Or.inr (Or.inr ?_)
      exact congrArg (fun t : State P => t.advanceContent.invalidateTopology) hwork

theorem scenes_publishDecodedFrame (identity : TrackIdentity) (generation : ℕ) (frame : Frame) :
    (s.publishDecodedFrame identity generation frame).1.scenes = s.scenes := by
  rcases s.publishDecodedFrame_cases identity generation frame with h | h | h <;> rw [h] <;> rfl

/-! ### Anchors -/

/-- The operation takes the anchor away. -/
def loses (s : State P) : Request P → AnchorIdentity → Bool
  | .applyAnchorResize positions, anchor =>
    (s.anchors.lookup anchor).isSome &&
      positions.any fun position => position.1 = anchor ∧ position.2.isNone
  | .scrollAnchors scroll, anchor =>
    scroll.lines ≠ 0 && scroll.origin < scroll.stop &&
      (s.anchors.lookup anchor).any fun place => (place.scroll scroll).isNone
  | .clearTerminal, anchor =>
    (s.anchors.lookup anchor).any fun place => place.alternate = s.alternateScreen
  | .setAlternateScreen alternate, anchor =>
    s.alternateScreen && !alternate && (s.anchors.lookup anchor).any (·.alternate)
  | _, _ => false

/-- The anchors go elsewhere, and those that are lost are removed. -/
def Shifts (request : Request P) (s s' : State P) : Prop :=
  s' = s ∨ ∃ (anchors : SortedMap AnchorIdentity Vivid.TextAnchor) (alternateScreen : Bool)
      (removed : List AnchorIdentity),
    s' = ({ s.invalidateTopology with anchors, alternateScreen } : State P).removeAnchors removed ∧
    (∀ identity, (anchors.lookup identity).isSome = (s.anchors.lookup identity).isSome) ∧
    ∀ identity ∈ removed, (s.anchors.lookup identity).isSome = true ∧
      s.loses request identity = true

theorem moveAnchors_spec (positions : List (AnchorIdentity × Option Vivid.TextAnchor))
    (s : State P) :
    (s.moveAnchors positions).1 = { s with anchors := (s.moveAnchors positions).1.anchors } ∧
      (∀ identity, ((s.moveAnchors positions).1.anchors.lookup identity).isSome =
        (s.anchors.lookup identity).isSome) ∧
      ∀ identity ∈ (s.moveAnchors positions).2, (s.anchors.lookup identity).isSome = true ∧
        (identity, none) ∈ positions := by
  induction positions generalizing s with
  | nil => exact ⟨rfl, fun _ => rfl, fun _ h => (not_mem_nil h).elim⟩
  | cons position positions ih =>
    obtain ⟨identity, position⟩ := position
    unfold moveAnchors
    split
    · rename_i anchor place hplace
      obtain ⟨hothers, hsome, hremoved⟩ := ih { s with
        anchors := s.anchors.insert identity place }
      have hinsert : ∀ other, ((s.anchors.insert identity place).lookup other).isSome =
          (s.anchors.lookup other).isSome := by
        intro other
        rw [lookup_insert]
        split
        · rename_i heq
          rw [heq, hplace]
          rfl
        · rfl
      refine ⟨hothers, fun other => (hsome other).trans (hinsert other), fun other h => ?_⟩
      obtain ⟨h, hmem⟩ := hremoved other h
      exact ⟨(hinsert other).symm.trans h, mem_cons_of_mem _ hmem⟩
    · rename_i hplace
      obtain ⟨hothers, hsome, hremoved⟩ := ih s
      refine ⟨hothers, hsome, fun other h => ?_⟩
      rcases List.mem_cons.mp h with rfl | h
      · exact ⟨isSome_of_eq_some hplace, mem_cons_self⟩
      · exact ⟨(hremoved other h).1, mem_cons_of_mem _ (hremoved other h).2⟩
    · obtain ⟨hothers, hsome, hremoved⟩ := ih s
      exact ⟨hothers, hsome, fun other h =>
        ⟨(hremoved other h).1, mem_cons_of_mem _ (hremoved other h).2⟩⟩

theorem shifts_updateAnchors {request : Request P} (alternateScreen : Bool)
    (update : Vivid.TextAnchor → Option Vivid.TextAnchor)
    (h : ∀ identity place, s.anchors.lookup identity = some place → update place = none →
      s.loses request identity = true) : Shifts request s
      (({ s.invalidateTopology with alternateScreen } : State P).updateAnchors update).1 := by
  refine Or.inr ⟨_, alternateScreen, _, rfl, fun identity => ?_, fun identity hmem => ?_⟩
  · dsimp only [invalidateTopology]
    rw [lookup_mapValues, isSome_map]
  · obtain ⟨⟨_, place⟩, hentry, rfl⟩ := List.mem_map.mp hmem
    obtain ⟨hentry, hnone⟩ := List.mem_filter.mp hentry
    have hplace := mem_entries.mp hentry
    exact ⟨isSome_of_eq_some hplace,
      h _ place hplace (Option.isNone_iff_eq_none.mp hnone)⟩

theorem shifts_perform (h : request.isShifting = true) :
    Shifts request s (s.perform request).1 := by
  cases request with
  | applyAnchorResize positions =>
    obtain ⟨hothers, hsome, hremoved⟩ := moveAnchors_spec positions s.invalidateTopology
    refine Or.inr ⟨_, s.alternateScreen, _,
      congrArg (State.removeAnchors · (s.invalidateTopology.moveAnchors positions).2) hothers,
      hsome, fun identity hmem => ?_⟩
    obtain ⟨hold, hnone⟩ := hremoved identity hmem
    refine ⟨hold, Bool.and_eq_true_iff.mpr ⟨hold, List.any_eq_true.mpr ⟨_, hnone, ?_⟩⟩⟩
    exact decide_eq_true ⟨rfl, rfl⟩
  | scrollAnchors scroll =>
    change Shifts _ s (s.scrollAnchors scroll).1
    unfold scrollAnchors
    split
    · exact Or.inl rfl
    rename_i hscroll
    refine shifts_updateAnchors s s.alternateScreen _ fun identity place hplace hnone => ?_
    have hmoves : (decide (scroll.lines ≠ 0) && decide (scroll.origin < scroll.stop)) = true := by
      rw [Bool.and_eq_true, decide_eq_true_iff, decide_eq_true_iff]
      omega
    dsimp only [loses]
    rw [hmoves, hplace, any_some, hnone]
    rfl
  | clearTerminal =>
    change Shifts _ s s.clearTerminal.1
    refine shifts_updateAnchors s s.alternateScreen _ fun identity place hplace hnone => ?_
    dsimp only [loses]
    rw [hplace, any_some]
    by_contra hother
    rw [if_neg (fun h : place.alternate = s.invalidateTopology.alternateScreen =>
      hother (decide_eq_true h))] at hnone
    cases hnone
  | setAlternateScreen alternate =>
    change Shifts _ s (s.setAlternateScreen alternate).1
    unfold setAlternateScreen
    split
    · exact Or.inl rfl
    rename_i hchange
    dsimp only
    split
    · exact Or.inr ⟨_, _, [], rfl, fun _ => rfl, fun _ h => (not_mem_nil h).elim⟩
    rename_i hprimary
    refine shifts_updateAnchors s alternate _ fun identity place hplace hnone => ?_
    have hshown : s.alternateScreen = true := by
      by_contra hshown
      exact hchange ((Bool.eq_false_iff.mpr hshown).trans (Bool.eq_false_iff.mpr hprimary).symm)
    dsimp only [loses]
    rw [hshown, hplace, any_some, Bool.eq_false_iff.mpr hprimary]
    by_contra hother
    rw [if_neg (by simpa using hother)] at hnone
    cases hnone
  | _ => cases h

/-! ### Scenes -/

/-- What one session has staged is written. -/
def Stages (s s' : State P) : Prop :=
  s' = s ∨ ∃ session scene pending, s.scenes.lookup session = some scene ∧
    s' = s.setPending session scene pending

theorem stages_perform (h : request.isStaging = true) : Stages s (s.perform request).1 := by
  cases request with
  | beginTransaction context transactionId =>
    change Stages s (s.beginTransaction context transactionId).1
    unfold beginTransaction
    split
    · exact Or.inl rfl
    · split
      · exact Or.inl rfl
      · rename_i hscene
        exact Or.inr ⟨_, _, _, hscene, rfl⟩
  | queueMutation context transactionId mutation =>
    change Stages s (s.queueMutation context transactionId mutation).1
    unfold queueMutation
    split
    · exact Or.inl rfl
    · rename_i hscene
      split
      · exact Or.inl rfl
      · exact Or.inr ⟨_, _, _, hscene, rfl⟩
  | abortTransaction context transactionId =>
    change Stages s (s.abortTransaction context transactionId).1
    unfold abortTransaction
    split
    · exact Or.inl rfl
    · rename_i hscene
      exact Or.inr ⟨_, _, _, hscene, rfl⟩
  | _ => cases h

/-- The target of all scenes is set anew. -/
def retargeted (s : State P) (generation : ℕ) (target : SessionScene P → ℕ) : State P :=
  { s.invalidateTopology with
    targetGeneration := generation
    scenes := s.scenes.mapValues fun _ scene =>
      { scene with targetGeneration := target scene } }

/-- A session that is registered gets a scene of its own, and the others may get its target. -/
theorem registerSession_cases (session : SessionIdentity) (targetGeneration : ℕ) :
    (s.registerSession session targetGeneration).1 = s ∨
      (s.registerSession session targetGeneration).1 = s.invalidateTopology ∨
      ∃ generation target, s.scenes.lookup session = none ∧
        (s.registerSession session targetGeneration).1 =
          (s.retargeted generation target).setScene session
            { revision := 0, targetGeneration := generation, nodes := .empty, pending := .empty } := by
  unfold registerSession
  split
  · exact Or.inl rfl
  dsimp only
  split
  · exact Or.inr (Or.inl rfl)
  rename_i hnew
  have hnone := Option.not_isSome_iff_eq_none.mp hnew
  refine Or.inr (Or.inr ?_)
  unfold raiseTarget
  split
  · exact ⟨targetGeneration, fun _ => targetGeneration, hnone, rfl⟩
  refine ⟨s.targetGeneration, fun scene => scene.targetGeneration, hnone, ?_⟩
  have hsame : s.scenes.mapValues (fun _ scene =>
      { scene with targetGeneration := scene.targetGeneration }) = s.scenes :=
    ext_lookup fun other => by rw [lookup_mapValues, Option.map_id']
  unfold retargeted
  rw [hsame]
  rfl

/-- A surface is gone, with its tracks. -/
def withoutSurface (s : State P) (identity : SurfaceIdentity) : State P :=
  { s.invalidateTopology with
    surfaces := s.surfaces.erase identity
    tracks := s.tracks.filter fun entry => entry.1.surface ≠ identity }

theorem destroySurface_cases (identity : SurfaceIdentity) :
    (s.destroySurface identity).1 = s.invalidateTopology ∨
      (s.destroySurface identity).1 = s.withoutSurface identity ∨
      ∃ scene revision, s.scenes.lookup identity.context.session = some scene ∧
        (s.destroySurface identity).1 = (s.withoutSurface identity).setScene
          identity.context.session { scene with
            revision, nodes := scene.dropNodes identity } := by
  unfold destroySurface
  dsimp only
  split
  · exact Or.inl rfl
  split
  · exact Or.inr (Or.inl rfl)
  · rename_i scene hscene
    refine Or.inr (Or.inr ?_)
    repeat' split
    all_goals exact ⟨scene, _, hscene, rfl⟩

end State

end Vivido.Scene
