import Vivido.Scene.Atomicity
import Vivido.Support.Versioned

/-!
Revisions as names of states. A commit, an update or an activation names the
revision it was planned at, so nodes, definitions and slots must not change
under their revision. Anchors that the terminal removes take their nodes along
without a new one, and so does the last revision of a counter.
-/

namespace Vivido.Scene.State

open SortedMap Option

variable {P : Protocol} {s s' : State P} {session : SessionIdentity} {identity : SurfaceIdentity}

/-- The nodes of a session, under the revision of its scene. -/
def sceneVersion (s : State P) (session : SessionIdentity) :
    Option (ℕ × SortedMap NodeIdentity (SceneNode P.Value)) :=
  (s.scenes.lookup session).map fun scene => (scene.revision, scene.nodes)

/-- The definition and the slots of a surface, under its revision. -/
def surfaceVersion (s : State P) (identity : SurfaceIdentity) :
    Option (ℕ × SurfaceDefinition P.Value × SortedMap ℕ ℕ) :=
  (s.surfaces.lookup identity).map fun surface =>
    (surface.revision, surface.definition, surface.activeSlots)

/-- The operation takes an anchor away that a node is placed at. -/
def uproots (s : State P) (request : Request P) : Bool :=
  s.scenes.entries.any fun scene => scene.2.nodes.entries.any fun node =>
    (nodeAnchorIdentity scene.1 node.2).any (s.loses request)

/-- Nodes go or slots change, and the revision they stand under has no next one. -/
def overruns (s : State P) : Request P → Bool
  | .removeContexts session contexts => (s.scenes.lookup session).any fun scene =>
    (P.advance scene.revision).isNone && scene.nodes.entries.any fun node =>
      node.1.context.contextId ∈ contexts ∨ node.2.surfaceContextId ∈ contexts
  | .destroySurface identity => (s.surfaces.lookup identity).isSome &&
    (s.scenes.lookup identity.context.session).any fun scene =>
      (P.advance scene.revision).isNone && scene.nodes.entries.any fun node =>
        node.2.surfaceContextId = identity.context.contextId ∧
          node.2.surfaceId = identity.surfaceId
  | .destroyTrack identity => (s.tracks.lookup identity).isSome &&
    (s.surfaces.lookup identity.surface).any fun surface =>
      (P.advance surface.revision).isNone && surface.activeSlots.entries.any fun slot =>
        slot.2 = identity.trackId
  | .activateTracks identity expectedRevision bindings =>
    (s.surfaces.lookup identity).any fun surface =>
      surface.revision = expectedRevision && (P.advance surface.revision).isNone &&
        (s.bindSlots identity surface.activeSlots bindings).toOption.any
          (· ≠ surface.activeSlots)
  | _ => false

/-- Whatever the operation changes stands under a new revision. -/
def Accounts (s : State P) (request : Request P) : Prop :=
  s.uproots request = false ∧ s.overruns request = false

instance (s : State P) (request : Request P) : Decidable (s.Accounts request) :=
  inferInstanceAs (Decidable (_ ∧ _))

theorem succeeds_of_scenes (h : s'.scenes = s.scenes) :
    Succeeds (s.sceneVersion session) (s'.sceneVersion session) :=
  succeeds_of_eq (by unfold sceneVersion; rw [h])

theorem succeeds_of_surfaces (h : s'.surfaces = s.surfaces) :
    Succeeds (s.surfaceVersion identity) (s'.surfaceVersion identity) :=
  succeeds_of_eq (by unfold surfaceVersion; rw [h])

/-! ### Scenes -/

variable {surface : Surface P} {owner : SessionIdentity}

/-- One scene changes, in step with its revision. -/
theorem succeeds_setScene {scene : SessionScene P}
    (h : Succeeds (s.sceneVersion owner) (some (scene.revision, scene.nodes))) :
    Succeeds (s.sceneVersion session) ((s.setScene owner scene).sceneVersion session) := by
  by_cases heq : session = owner
  · have hself : (s.setScene owner scene).sceneVersion session =
        some (scene.revision, scene.nodes) := by
      unfold sceneVersion setScene
      rw [heq, lookup_insert_self, map_some]
    rw [hself, heq]
    exact h
  · refine succeeds_of_eq ?_
    unfold sceneVersion setScene
    rw [lookup_insert_of_ne heq]

theorem sceneVersion_some {scene : SessionScene P} (h : s.scenes.lookup session = some scene) :
    s.sceneVersion session = some (scene.revision, scene.nodes) := by
  unfold sceneVersion
  rw [h, map_some]

/-- The scene keeps its version, whatever else of it changes. -/
theorem succeeds_sameScene {scene scene' : SessionScene P}
    (h : s.scenes.lookup owner = some scene) (hrevision : scene'.revision = scene.revision)
    (hnodes : scene'.nodes = scene.nodes) :
    Succeeds (s.sceneVersion session) ((s.setScene owner scene').sceneVersion session) := by
  refine succeeds_setScene (succeeds_of_eq ?_)
  rw [sceneVersion_some h, hrevision, hnodes]

theorem succeeds_stages (h : Stages s s') :
    Succeeds (s.sceneVersion session) (s'.sceneVersion session) := by
  rcases h with rfl | ⟨_, _, _, hscene, rfl⟩
  · exact succeeds_of_eq rfl
  · exact succeeds_sameScene hscene rfl rfl

theorem succeeds_nextScene {scene scene' : SessionScene P} (h : s.scenes.lookup owner = some scene)
    (hadvance : P.advance scene.revision = some scene'.revision) :
    Succeeds (s.sceneVersion session) ((s.setScene owner scene').sceneVersion session) := by
  refine succeeds_setScene ?_
  rw [sceneVersion_some h]
  exact succeeds_of_lt (P.lt_of_advance hadvance)

/-- The scenes change, but none of their versions. -/
theorem succeeds_mapScenes (f : SessionIdentity → SessionScene P → SessionScene P)
    (hscenes : s'.scenes = s.scenes.mapValues f)
    (hsame : ∀ scene, s.scenes.lookup session = some scene →
      (f session scene).revision = scene.revision ∧ (f session scene).nodes = scene.nodes) :
    Succeeds (s.sceneVersion session) (s'.sceneVersion session) := by
  refine succeeds_of_eq ?_
  unfold sceneVersion
  rw [hscenes, lookup_mapValues, Option.map_map]
  cases hscene : s.scenes.lookup session with
  | none => rfl
  | some scene =>
    obtain ⟨hrevision, hnodes⟩ := hsame scene hscene
    exact congrArg some (Prod.ext hrevision hnodes)

theorem succeeds_eraseScene (owner : SessionIdentity) (hscenes : s'.scenes = s.scenes.erase owner) :
    Succeeds (s.sceneVersion session) (s'.sceneVersion session) := by
  by_cases heq : session = owner
  · refine succeeds_of_none ?_
    unfold sceneVersion
    rw [hscenes, lookup_erase, if_pos heq, map_none]
  · refine succeeds_of_eq ?_
    unfold sceneVersion
    rw [hscenes, lookup_erase, if_neg heq]

theorem succeeds_removeAnchors (removed : List AnchorIdentity)
    (h : ∀ scene identity node anchor, s.scenes.lookup session = some scene →
      scene.nodes.lookup identity = some node → nodeAnchorIdentity session node = some anchor →
        anchor ∉ removed) :
    Succeeds (s.sceneVersion session) ((s.removeAnchors removed).sceneVersion session) := by
  unfold removeAnchors
  split
  · exact succeeds_of_eq rfl
  refine succeeds_mapScenes
    (fun session scene =>
      { scene with
        nodes := scene.nodes.filter fun entry =>
          (nodeAnchorIdentity session entry.2).all (· ∉ removed) })
    rfl fun scene hscene => ⟨rfl, ?_⟩
  refine filter_eq_self.mpr fun identity node hnode => ?_
  rw [Option.all_eq_true]
  intro anchor hanchor
  exact decide_eq_true (h scene identity node anchor hscene hnode hanchor)

theorem uproots_eq_false {request : Request P} (h : s.uproots request = false)
    {scene : SessionScene P} {identity : NodeIdentity} {node : SceneNode P.Value}
    {anchor : AnchorIdentity} (hscene : s.scenes.lookup session = some scene)
    (hnode : scene.nodes.lookup identity = some node)
    (hanchor : nodeAnchorIdentity session node = some anchor) : s.loses request anchor = false := by
  unfold uproots at h
  rw [List.any_eq_false] at h
  have hscene := h _ (mem_entries.mpr hscene)
  rw [Bool.not_eq_true, List.any_eq_false] at hscene
  have hnode := hscene _ (mem_entries.mpr hnode)
  rw [hanchor, any_some, Bool.not_eq_true] at hnode
  exact hnode

/-- Anchors move, and those that are removed hold no node. -/
theorem succeeds_shifts {request : Request P} (h : s.uproots request = false)
    (hshifts : Shifts request s s') : Succeeds (s.sceneVersion session) (s'.sceneVersion session) := by
  rcases hshifts with rfl | ⟨anchors, alternateScreen, removed, rfl, -, hremoved⟩
  · exact succeeds_of_eq rfl
  refine succeeds_removeAnchors
    (s := { s.invalidateTopology with anchors, alternateScreen }) removed ?_
  intro _ _ _ anchor hscene hnode hanchor hmem
  have hkept := uproots_eq_false h hscene hnode hanchor
  rw [(hremoved anchor hmem).2] at hkept
  cases hkept

theorem succeeds_removeContexts (contexts : List ℕ) (owner : SessionIdentity)
    (h : s.overruns (.removeContexts owner contexts) = false) :
    Succeeds (s.sceneVersion session) ((s.removeContexts owner contexts).sceneVersion session) := by
  unfold removeContexts
  dsimp only
  split
  · exact succeeds_of_eq rfl
  rename_i scene hscene
  change s.scenes.lookup owner = some scene at hscene
  change Succeeds (s.sceneVersion session) ((s.setScene owner _).sceneVersion session)
  by_cases hsize : (scene.nodes.filter fun entry =>
      entry.1.context.contextId ∉ contexts ∧ entry.2.surfaceContextId ∉ contexts).size =
        scene.nodes.size
  · refine succeeds_sameScene hscene ?_ (filter_of_size hsize)
    dsimp only
    rw [if_neg (not_not.mpr hsize)]
  refine succeeds_nextScene hscene ?_
  dsimp only
  rw [if_pos hsize]
  cases hadvance : P.advance scene.revision with
  | some => rfl
  | none =>
    dsimp only [overruns] at h
    rw [hscene, any_some, hadvance, isNone_none, Bool.true_and] at h
    refine (hsize (congrArg SortedMap.size (filter_eq_self.mpr ?_))).elim
    intro _ _ hnode
    have hspared := List.any_eq_false.mp h _ (mem_entries.mpr hnode)
    rw [decide_eq_true_iff, not_or] at hspared
    exact decide_eq_true hspared

theorem succeeds_destroySurface_scene (h : s.overruns (.destroySurface identity) = false) :
    Succeeds (s.sceneVersion session) ((s.destroySurface identity).1.sceneVersion session) := by
  unfold destroySurface
  dsimp only
  split
  · exact succeeds_of_eq rfl
  rename_i hexists
  split
  · exact succeeds_of_eq rfl
  rename_i scene hscene
  change s.scenes.lookup identity.context.session = some scene at hscene
  split
  · rename_i hsize
    split
    · rename_i hadvance
      dsimp only [overruns] at h
      rw [hscene, any_some, hadvance, isNone_none, Bool.true_and] at h
      have hsurface : (s.surfaces.lookup identity).isSome = true :=
        Option.isSome_iff_ne_none.mpr fun hnone =>
          hexists (Option.isNone_iff_eq_none.mpr hnone)
      rw [hsurface, Bool.true_and] at h
      refine (hsize (congrArg SortedMap.size (filter_eq_self.mpr ?_))).elim
      intro _ _ hnode
      have hspared := List.any_eq_false.mp h _ (mem_entries.mpr hnode)
      rw [decide_eq_true_iff, not_and_or] at hspared
      exact decide_eq_true hspared
    · rename_i revision hadvance
      exact succeeds_nextScene (s := s) hscene hadvance
  · rename_i hsize
    exact succeeds_sameScene (s := s) hscene rfl (filter_of_size (not_not.mp hsize))

theorem sceneVersion_retargeted (generation : ℕ) (target : SessionScene P → ℕ) :
    (s.retargeted generation target).sceneVersion session = s.sceneVersion session := by
  unfold sceneVersion retargeted
  rw [lookup_mapValues, Option.map_map]
  rfl

theorem succeeds_registerSession (owner : SessionIdentity) (targetGeneration : ℕ) :
    Succeeds (s.sceneVersion session)
      ((s.registerSession owner targetGeneration).1.sceneVersion session) := by
  rcases s.registerSession_cases owner targetGeneration with h | h | ⟨generation, target, hnew, h⟩
  · rw [h]
    exact succeeds_of_eq rfl
  · rw [h]
    exact succeeds_of_eq rfl
  · rw [h, ← sceneVersion_retargeted generation target]
    refine succeeds_setScene fun version hversion => ?_
    rw [sceneVersion_retargeted, sceneVersion, hnew] at hversion
    cases hversion

theorem succeeds_commitTransaction (context : ContextIdentity)
    (transactionId expectedTarget : ℕ) (expectedRevision : Option ℕ) :
    Succeeds (s.sceneVersion session)
      ((s.commitTransaction context transactionId expectedTarget expectedRevision).1.sceneVersion
        session) := by
  unfold commitTransaction
  dsimp only
  split
  · exact succeeds_of_eq rfl
  rename_i scene hscene
  split
  · exact succeeds_of_eq rfl
  split
  · exact succeeds_of_eq rfl
  split
  · exact succeeds_of_eq rfl
  split
  · exact succeeds_of_eq rfl
  · split
    · exact succeeds_of_eq rfl
    · rename_i revision hadvance
      exact succeeds_nextScene (s := s) hscene hadvance

/-- Nodes change under a new revision where the operation accounts for it. -/
theorem succeeds_scene (request : Request P) (h : s.Accounts request) :
    Succeeds (s.sceneVersion session) ((s.perform request).1.sceneVersion session) := by
  by_cases hretracking : request.isRetracking = true
  · exact succeeds_of_scenes (by rw [(retracks_perform s request hretracking).others])
  cases request with
  | registerSession owner targetGeneration => exact succeeds_registerSession owner targetGeneration
  | advanceTargetGeneration =>
    exact succeeds_of_eq (sceneVersion_retargeted _ _)
  | removeSession owner => exact succeeds_eraseScene owner rfl
  | detachSession owner =>
    change Succeeds _ ((s.detachSession owner).sceneVersion session)
    unfold detachSession
    dsimp only
    split
    · exact succeeds_of_eq rfl
    · exact succeeds_eraseScene owner rfl
  | removeContexts owner contexts => exact succeeds_removeContexts contexts owner h.2
  | addAnchor anchor place =>
    change Succeeds _ ((s.addAnchor anchor place).1.sceneVersion session)
    unfold addAnchor
    dsimp only
    split <;> exact succeeds_of_eq rfl
  | applyAnchorResize | scrollAnchors | clearTerminal | setAlternateScreen =>
    exact succeeds_shifts h.1 (shifts_perform s _ rfl)
  | suspendSession | createSurface | updateSurface | createTrack | destroyTrack | activateTracks
  | advanceChannel | detachChannel | loseTrack | flushPlayback =>
    exact succeeds_of_scenes (reshapes_perform s _ rfl).scenes
  | destroySurface => exact succeeds_destroySurface_scene h.2
  | acceptChannel identity generation bytes records =>
    change Succeeds _ ((s.acceptChannel identity generation bytes records).1.sceneVersion session)
    unfold acceptChannel
    split
    · exact succeeds_of_eq rfl
    · exact succeeds_of_scenes (scenes_onTrack _ _ _ _)
  | admitMedia identity media recordSequence =>
    change Succeeds _ ((s.admitMedia identity media recordSequence).1.sceneVersion session)
    unfold admitMedia
    split
    · exact succeeds_of_eq rfl
    · exact succeeds_of_scenes (scenes_onTrack _ _ _ _)
  | publishDecodedFrame identity generation frame =>
    exact succeeds_of_scenes (scenes_publishDecodedFrame s identity generation frame)
  | beginTransaction | queueMutation | abortTransaction =>
    exact succeeds_stages (stages_perform s _ rfl)
  | commitTransaction context transactionId expectedTarget expectedRevision =>
    exact succeeds_commitTransaction context transactionId expectedTarget expectedRevision
  | snapshot => exact succeeds_of_eq rfl
  | _ => exact (hretracking rfl).elim

/-! ### Surfaces -/

/-- One surface changes, in step with its revision. -/
theorem succeeds_setSurface {owner : SurfaceIdentity} (h : Succeeds (s.surfaceVersion owner)
      (some (surface.revision, surface.definition, surface.activeSlots))) :
    Succeeds (s.surfaceVersion identity)
      ((s.setSurface owner surface).surfaceVersion identity) := by
  by_cases heq : identity = owner
  · have hself : (s.setSurface owner surface).surfaceVersion identity =
        some (surface.revision, surface.definition, surface.activeSlots) := by
      unfold surfaceVersion setSurface
      rw [heq, lookup_insert_self, map_some]
    rw [hself, heq]
    exact h
  · refine succeeds_of_eq ?_
    unfold surfaceVersion setSurface
    rw [lookup_insert_of_ne heq]

theorem surfaceVersion_some (h : s.surfaces.lookup identity = some surface) :
    s.surfaceVersion identity =
      some (surface.revision, surface.definition, surface.activeSlots) := by
  unfold surfaceVersion
  rw [h, map_some]

theorem succeeds_nextSurface {surface' : Surface P} {owner : SurfaceIdentity}
    (h : s.surfaces.lookup owner = some surface)
    (hadvance : P.advance surface.revision = some surface'.revision) :
    Succeeds (s.surfaceVersion identity)
      ((s.setSurface owner surface').surfaceVersion identity) := by
  refine succeeds_setSurface ?_
  rw [surfaceVersion_some h]
  exact succeeds_of_lt (P.lt_of_advance hadvance)

theorem succeeds_sameSurface {surface' : Surface P} {owner : SurfaceIdentity}
    (h : s.surfaces.lookup owner = some surface) (hrevision : surface'.revision = surface.revision)
    (hdefinition : surface'.definition = surface.definition)
    (hslots : surface'.activeSlots = surface.activeSlots) : Succeeds (s.surfaceVersion identity)
      ((s.setSurface owner surface').surfaceVersion identity) := by
  refine succeeds_setSurface (succeeds_of_eq ?_)
  rw [surfaceVersion_some h, hrevision, hdefinition, hslots]

/-- Surfaces go, and the others stay as they are. -/
theorem succeeds_filterSurfaces {keep : SurfaceIdentity × Surface P → Bool}
    (h : s'.surfaces = s.surfaces.filter keep) :
    Succeeds (s.surfaceVersion identity) (s'.surfaceVersion identity) := by
  intro v hv w hw
  obtain ⟨_, hsurface, rfl⟩ := Option.map_eq_some_iff.mp hv
  obtain ⟨_, hsurface', rfl⟩ := Option.map_eq_some_iff.mp hw
  rw [h, lookup_filter, filter_eq_some_iff, hsurface] at hsurface'
  obtain ⟨⟨⟩, -⟩ := hsurface'
  exact Or.inl rfl

theorem succeeds_updateSurface (owner : SurfaceIdentity)
    (expectedRevision expectedGeneration : ℕ) (replacement : SurfaceDefinition P.Value) :
    Succeeds (s.surfaceVersion identity)
      ((s.updateSurface owner expectedRevision expectedGeneration replacement).1.surfaceVersion
        identity) := by
  unfold updateSurface
  split
  · exact succeeds_of_eq rfl
  split
  · exact succeeds_of_eq rfl
  dsimp only
  split
  · exact succeeds_of_eq rfl
  rename_i surface hsurface
  split
  · exact succeeds_of_eq rfl
  split
  · exact succeeds_of_eq rfl
  · rename_i revision hadvance
    split
    · split <;> exact succeeds_nextSurface (s := s) hsurface hadvance
    · exact succeeds_nextSurface (s := s) hsurface hadvance

theorem succeeds_destroyTrack (track : TrackIdentity)
    (h : s.overruns (.destroyTrack track) = false) :
    Succeeds (s.surfaceVersion identity) ((s.destroyTrack track).1.surfaceVersion identity) := by
  unfold destroyTrack
  dsimp only
  split
  · exact succeeds_of_eq rfl
  rename_i hexists
  split
  · exact succeeds_of_eq rfl
  rename_i surface hsurface
  change s.surfaces.lookup track.surface = some surface at hsurface
  split
  · rename_i hsize
    split
    · rename_i hadvance
      dsimp only [overruns] at h
      have htrack : (s.tracks.lookup track).isSome = true :=
        Option.isSome_iff_ne_none.mpr fun hnone => hexists (Option.isNone_iff_eq_none.mpr hnone)
      rw [htrack, hsurface, any_some, hadvance, isNone_none, Bool.true_and,
        Bool.true_and] at h
      refine (hsize (congrArg SortedMap.size (filter_eq_self.mpr ?_))).elim
      intro _ _ hslot
      have hspared := List.any_eq_false.mp h _ (mem_entries.mpr hslot)
      rw [decide_eq_true_iff] at hspared
      exact decide_eq_true hspared
    · rename_i revision hadvance
      exact succeeds_nextSurface (s := s) hsurface hadvance
  · rename_i hsize
    exact succeeds_sameSurface (s := s) hsurface rfl rfl
      (filter_of_size (not_not.mp hsize))

theorem succeeds_activateTracks (owner : SurfaceIdentity) (expectedRevision : ℕ)
    (bindings : List Binding)
    (h : s.overruns (.activateTracks owner expectedRevision bindings) = false) :
    Succeeds (s.surfaceVersion identity)
      ((s.activateTracks owner expectedRevision bindings).1.surfaceVersion identity) := by
  unfold activateTracks
  dsimp only
  split
  · exact succeeds_of_eq rfl
  rename_i surface hsurface
  change s.surfaces.lookup owner = some surface at hsurface
  split
  · exact succeeds_of_eq rfl
  rename_i hrevision
  split
  · exact succeeds_of_eq rfl
  rename_i slots hbound
  rw [bindSlots_invalidateTopology] at hbound
  split
  · rename_i hadvance
    dsimp only [overruns] at h
    rw [hsurface, any_some, hadvance, hbound, decide_eq_true (not_not.mp hrevision),
      isNone_none, Bool.true_and, Bool.true_and] at h
    have hslots : slots = surface.activeSlots := not_not.mp (of_decide_eq_false h)
    exact succeeds_sameSurface (s := s) hsurface rfl rfl hslots
  · rename_i revision hadvance
    exact succeeds_nextSurface (s := s) hsurface hadvance

/-- The definition and the slots change under a new revision where the operation accounts for
it. -/
theorem succeeds_surface (request : Request P) (h : s.Accounts request) :
    Succeeds (s.surfaceVersion identity) ((s.perform request).1.surfaceVersion identity) := by
  by_cases hstructural : request.isStructural = false
  · exact succeeds_of_surfaces (keeps_perform s request hstructural).surfaces
  cases request with
  | removeSession => exact succeeds_filterSurfaces (s := s) rfl
  | detachSession session =>
    change Succeeds _ ((s.detachSession session).surfaceVersion identity)
    unfold detachSession
    dsimp only
    split
    · exact succeeds_of_eq rfl
    · exact succeeds_filterSurfaces (s := s) rfl
  | removeContexts session contexts =>
    change Succeeds _ ((s.removeContexts session contexts).surfaceVersion identity)
    unfold removeContexts
    dsimp only
    split <;> exact succeeds_filterSurfaces (s := s) rfl
  | createSurface owner definition =>
    change Succeeds _ ((s.createSurface owner definition).1.surfaceVersion identity)
    unfold createSurface
    split
    · exact succeeds_of_eq rfl
    split
    · exact succeeds_of_eq rfl
    split
    · exact succeeds_of_eq rfl
    dsimp only
    split
    · exact succeeds_of_eq rfl
    split
    · exact succeeds_of_eq rfl
    rename_i hnew
    change ¬ (s.surfaces.lookup owner).isSome = true at hnew
    refine succeeds_setSurface (s := s) fun version hversion => ?_
    obtain ⟨_, hsurface, -⟩ := Option.map_eq_some_iff.mp hversion
    rw [hsurface] at hnew
    exact (hnew rfl).elim
  | updateSurface owner revision generation replacement =>
    exact succeeds_updateSurface owner revision generation replacement
  | destroySurface owner =>
    change Succeeds _ ((s.destroySurface owner).1.surfaceVersion identity)
    unfold destroySurface
    dsimp only
    repeat' split
    · exact succeeds_of_eq rfl
    all_goals exact succeeds_filterSurfaces (s := s) rfl
  | createTrack track configuration =>
    change Succeeds _ ((s.createTrack track configuration).1.surfaceVersion identity)
    unfold createTrack
    dsimp only
    repeat' split
    all_goals exact succeeds_of_surfaces rfl
  | destroyTrack track => exact succeeds_destroyTrack track h.2
  | activateTracks owner revision bindings =>
    exact succeeds_activateTracks owner revision bindings h.2
  | commitTransaction context transactionId expectedTarget expectedRevision =>
    change Succeeds _ ((s.commitTransaction context transactionId expectedTarget
      expectedRevision).1.surfaceVersion identity)
    unfold commitTransaction
    dsimp only
    repeat' split
    all_goals exact succeeds_of_surfaces rfl
  | _ => exact (hstructural rfl).elim

/-! ### Runs -/

theorem succeeds_performAll {β : Type} (version : State P → Option (ℕ × β))
    (hstep : ∀ s request, s.Accounts request → Succeeds (version s) (version (s.perform request).1))
    {requests : List (Request P)} (haccounts : Along Accounts s requests)
    (hstays : Along (fun s request => (version (s.perform request).1).isSome) s requests) :
    Succeeds (version s) (version (s.performAll requests)) := by
  induction requests generalizing s with
  | nil => exact succeeds_of_eq rfl
  | cons request _ ih =>
    exact (hstep s request haccounts.1).trans (ih haccounts.2 hstays.2) hstays.1

/-- The session stays through the operation. -/
def SessionStays (session : SessionIdentity) (s : State P) (request : Request P) : Prop :=
  ((s.perform request).1.scenes.lookup session).isSome

/-- The surface stays through the operation. -/
def SurfaceStays (identity : SurfaceIdentity) (s : State P) (request : Request P) : Prop :=
  ((s.perform request).1.surfaces.lookup identity).isSome

instance (session : SessionIdentity) (s : State P) (request : Request P) :
    Decidable (SessionStays session s request) :=
  inferInstanceAs (Decidable (_ = true))

instance (identity : SurfaceIdentity) (s : State P) (request : Request P) :
    Decidable (SurfaceStays identity s request) :=
  inferInstanceAs (Decidable (_ = true))

/-- Between two moments of a run, other nodes stand under another scene revision, and another
definition or other slots under another surface revision. -/
theorem revisions_identify (target : PresentationTarget P) (earlier later : List (Request P))
    (haccounts : Along Accounts ((new target).performAll earlier) later) :
    let before := (new target).performAll earlier
    let after := (new target).performAll (earlier ++ later)
    (∀ session scene scene', Along (SessionStays session) before later →
      before.scenes.lookup session = some scene → after.scenes.lookup session = some scene' →
        scene'.nodes ≠ scene.nodes → scene'.revision ≠ scene.revision) ∧
    ∀ identity surface surface', Along (SurfaceStays identity) before later →
      before.surfaces.lookup identity = some surface →
        after.surfaces.lookup identity = some surface' →
          surface'.definition ≠ surface.definition ∨ surface'.activeSlots ≠ surface.activeSlots →
            surface'.revision ≠ surface.revision := by
  dsimp only
  rw [performAll_append]
  generalize (new target).performAll earlier = s at haccounts ⊢
  constructor
  · intro session _ _ hstays hbefore hafter hnodes
    have hrun := succeeds_performAll (·.sceneVersion session) (fun s => s.succeeds_scene) haccounts
      (hstays.imp fun s request h => by unfold sceneVersion; rwa [isSome_map])
    rw [sceneVersion_some hbefore, sceneVersion_some hafter] at hrun
    exact hrun.version_ne hnodes
  · intro identity _ _ hstays hbefore hafter hchanged
    have hrun := succeeds_performAll (·.surfaceVersion identity) (fun s => s.succeeds_surface)
      haccounts (hstays.imp fun s request h => by unfold surfaceVersion; rwa [isSome_map])
    rw [surfaceVersion_some hbefore, surfaceVersion_some hafter] at hrun
    refine hrun.version_ne fun heq => ?_
    obtain ⟨hdefinition, hslots⟩ := Prod.mk.injEq .. ▸ heq
    exact hchanged.elim (fun h => h hdefinition) fun h => h hslots

section Uprooted

/-- A node placed at an anchor is committed, at revision one. -/
def plantingRun : List (Request Protocol.plain) :=
  [.registerSession viewer 1, .addAnchor ⟨viewerContext, 1⟩ ⟨0, 0, false⟩,
    .createSurface ⟨viewerContext, 1⟩ { contextId := 1, surfaceId := 1 },
    .beginTransaction viewerContext 1,
    .queueMutation viewerContext 1 (.create { nodeShowing 1 with
      geometry := [(0, (2 : ℕ)), (6, (1 : ℕ)), (7, (1 : ℕ))] }),
    .commitTransaction viewerContext 1 1 none]

/-- The node is committed anew at the origin. -/
def replantingRun : List (Request Protocol.plain) :=
  [.beginTransaction viewerContext 2, .queueMutation viewerContext 2 (.update (nodeShowing 1)),
    .commitTransaction viewerContext 2 1 (some 1)]

theorem revisions_identify_replanting :
    ∃ scene scene', ((new .plain).performAll plantingRun).scenes.lookup viewer = some scene ∧
      ((new .plain).performAll (plantingRun ++ replantingRun)).scenes.lookup viewer = some scene' ∧
        scene'.nodes ≠ scene.nodes ∧ scene'.revision ≠ scene.revision := by
  have hbefore : (((new .plain).performAll plantingRun).scenes.lookup viewer).isSome := by
    decide +kernel
  have hafter : (((new .plain).performAll
      (plantingRun ++ replantingRun)).scenes.lookup viewer).isSome := by decide +kernel
  have hchanged : (((new .plain).performAll (plantingRun ++ replantingRun)).scenes.lookup
      viewer).map (·.nodes) ≠
        (((new .plain).performAll plantingRun).scenes.lookup viewer).map (·.nodes) := by
    decide +kernel
  obtain ⟨scene, hscene⟩ := Option.isSome_iff_exists.mp hbefore
  obtain ⟨scene', hscene'⟩ := Option.isSome_iff_exists.mp hafter
  rw [hscene, hscene'] at hchanged
  have hnodes : scene'.nodes ≠ scene.nodes := fun heq => hchanged (congrArg some heq)
  refine ⟨scene, scene', hscene, hscene', hnodes, ?_⟩
  exact (revisions_identify .plain plantingRun replantingRun (by decide +kernel)).1 viewer scene
    scene' (by decide +kernel) hscene hscene' hnodes

/-- A cleared terminal takes the node away, and the revision stays. -/
theorem clear_keeps_revision :
    ¬ ∀ (target : PresentationTarget Protocol.plain)
        (earlier later : List (Request Protocol.plain)),
      let before := (new target).performAll earlier
      let after := (new target).performAll (earlier ++ later)
      (∀ session scene scene', Along (SessionStays session) before later →
        before.scenes.lookup session = some scene → after.scenes.lookup session = some scene' →
          scene'.nodes ≠ scene.nodes → scene'.revision ≠ scene.revision) ∧
      ∀ identity surface surface', Along (SurfaceStays identity) before later →
        before.surfaces.lookup identity = some surface →
          after.surfaces.lookup identity = some surface' →
            surface'.definition ≠ surface.definition ∨
              surface'.activeSlots ≠ surface.activeSlots →
                surface'.revision ≠ surface.revision := by
  intro h
  have hversions : (((new .plain).performAll plantingRun).sceneVersion viewer).map
      (fun version => (version.1, version.2.size)) = some (1, 1) ∧
        (((new .plain).performAll (plantingRun ++ [.clearTerminal])).sceneVersion viewer).map
          (fun version => (version.1, version.2.size)) = some (1, 0) := by decide +kernel
  have hnodes := (h .plain plantingRun [.clearTerminal]).1 viewer
  obtain ⟨⟨_, hversion, hbefore⟩, _, hversion', hafter⟩ :=
    hversions.imp Option.map_eq_some_iff.mp Option.map_eq_some_iff.mp
  obtain ⟨scene, hscene, rfl⟩ := Option.map_eq_some_iff.mp hversion
  obtain ⟨scene', hscene', rfl⟩ := Option.map_eq_some_iff.mp hversion'
  obtain ⟨hrevision, hsize⟩ := Prod.mk.injEq .. ▸ hbefore
  obtain ⟨hrevision', hsize'⟩ := Prod.mk.injEq .. ▸ hafter
  refine hnodes scene scene' (by decide +kernel) hscene hscene' (fun heq => ?_)
    (hrevision'.trans hrevision.symm)
  rw [heq] at hsize'
  exact Nat.one_ne_zero (hsize.symm.trans hsize')

end Uprooted

end Vivido.Scene.State
