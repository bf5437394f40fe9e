import Vivido.Scene.Integrity

/-!
The cached render list against one built anew. An operation drops the cache, or
it changes nothing that is drawn, or it puts a track's new frame into the cached
list, which is what a new list would show as long as no poster is of the track.
-/

namespace Vivido.Scene

open SortedMap List Option

variable {P : Protocol}

/-- The library changes a channel's generation only when the channel advances. -/
structure Protocol.KeepsGenerations (P : Protocol) : Prop where
  acceptChannel : ∀ state generation bytes records body,
    (P.acceptChannel state generation bytes records body).1.channelGeneration =
      state.channelGeneration
  admitMedia : ∀ state media, (P.admitMedia state media).1.channelGeneration =
    state.channelGeneration

theorem Track.alike_acceptChannel (hP : P.KeepsGenerations) (track : Track P)
    (generation bytes records : ℕ) :
    track.Alike (track.acceptChannel generation bytes records).1 := by
  unfold acceptChannel
  split
  · exact alike_refl track
  · dsimp only
    split <;> exact ⟨rfl, rfl, rfl, hP.acceptChannel _ _ _ _ _⟩

theorem Track.alike_admitMedia (hP : P.KeepsGenerations) (track : Track P) (media : ReceivedMedia)
    (recordSequence : ℕ) : track.Alike (track.admitMedia media recordSequence).1 := by
  unfold admitMedia
  split
  · exact alike_refl track
  · dsimp only
    split <;> exact ⟨rfl, rfl, rfl, hP.admitMedia _ _⟩

/-- Paint the frame of an item anew. -/
def RenderItem.paint (paint : TrackIdentity → Frame → Frame) (item : RenderItem) : RenderItem :=
  { item with frame := paint item.trackKey item.frame }

namespace State

variable {s s' s'' : State P} {paint : TrackIdentity → Frame → Frame}

/-- What a track shows: its frame, with the generation of its channel. -/
def shown (s : State P) (key : TrackIdentity) : Option (ℕ × Frame) :=
  (s.tracks.lookup key).bind fun track =>
    if track.lifecycle = 1 then track.frame.map (track.state.channelGeneration, ·) else none

/-- The states differ, in what is drawn, by the frames of tracks. -/
structure Repaints (paint : TrackIdentity → Frame → Frame) (s s' : State P) : Prop where
  target : s'.target = s.target
  surfaces : s'.surfaces = s.surfaces
  anchors : s'.anchors = s.anchors
  alternateScreen : s'.alternateScreen = s.alternateScreen
  retainedPosters : s'.retainedPosters = s.retainedPosters
  nodes : s'.scenes.mapValues (fun _ scene => scene.nodes) =
    s.scenes.mapValues fun _ scene => scene.nodes
  shown : ∀ key, s'.shown key = (s.shown key).map fun found => (found.1, paint key found.2)
  posters : ∀ poster ∈ s.retainedPosters, paint poster.trackKey poster.frame = poster.frame

theorem selectTrack_shown (s : State P) (surfaceKey : SurfaceIdentity) (surface : Surface P) :
    (s.selectTrack surfaceKey surface).map
        (fun found => (found.1, found.2.1.state.channelGeneration, found.2.2)) =
      [slotPrimaryVideo, slotRaster, slotPoster].findSome? fun slot =>
        (surface.activeSlots.lookup slot).bind fun trackId =>
          (surfaceKey.track? P trackId).bind fun key => (s.shown key).map (key, ·) := by
  unfold selectTrack
  rw [map_findSome?]
  refine congrArg (List.findSome? · _) (funext fun slot => ?_)
  dsimp only [Function.comp]
  cases surface.activeSlots.lookup slot with
  | none => rfl
  | some trackId =>
    dsimp only [bind_some]
    cases surfaceKey.track? P trackId with
    | none => rfl
    | some key =>
      dsimp only [bind_some]
      unfold shown
      cases s.tracks.lookup key with
      | none => rfl
      | some =>
        dsimp only [bind_some]
        split
        · rw [Option.map_map, Option.map_map]
          rfl
        · rfl

theorem Repaints.selectTrack (h : Repaints paint s s') (surfaceKey : SurfaceIdentity)
    (surface : Surface P) : (s'.selectTrack surfaceKey surface).map
        (fun found => (found.1, found.2.1.state.channelGeneration, found.2.2)) =
      (s.selectTrack surfaceKey surface).map
        fun found => (found.1, found.2.1.state.channelGeneration, paint found.1 found.2.2) := by
  have hpaint : (fun found : TrackIdentity × Track P × Frame =>
      (found.1, found.2.1.state.channelGeneration, paint found.1 found.2.2)) =
      (fun found : TrackIdentity × ℕ × Frame => (found.1, found.2.1, paint found.1 found.2.2)) ∘
        fun found => (found.1, found.2.1.state.channelGeneration, found.2.2) := rfl
  rw [hpaint, ← Option.map_map, selectTrack_shown, selectTrack_shown, map_findSome?]
  refine congrArg (List.findSome? · _) (funext fun slot => ?_)
  dsimp only [Function.comp]
  cases surface.activeSlots.lookup slot with
  | none => rfl
  | some trackId =>
    dsimp only [bind_some]
    cases surfaceKey.track? P trackId with
    | none => rfl
    | some =>
      dsimp only [bind_some]
      rw [h.shown, Option.map_map, Option.map_map]
      rfl

theorem Repaints.nodeItem (h : Repaints paint s s') (session : SessionIdentity)
    (node : SceneNode P.Value) :
    s'.nodeItem session node = (s.nodeItem session node).map (·.paint paint) := by
  have hposition : s'.nodePosition session node = s.nodePosition session node := by
    unfold nodePosition nodeOffset anchorOffset
    rw [h.anchors, h.alternateScreen, h.target]
  unfold State.nodeItem
  rw [h.target, h.surfaces, hposition]
  split
  · cases s.target.placement node with
    | none => rfl
    | some placement =>
      dsimp only [bind_some]
      cases s.nodePosition session node placement with
      | none => rfl
      | some =>
        dsimp only [bind_some]
        cases nodeSurfaceIdentity session node with
        | none => rfl
        | some surfaceKey =>
          dsimp only [bind_some]
          cases s.surfaces.lookup surfaceKey with
          | none => rfl
          | some surface =>
            dsimp only [bind_some]
            have hselect := h.selectTrack surfaceKey surface
            cases hfound : s.selectTrack surfaceKey surface with
            | none =>
              rw [hfound, map_none, map_eq_none_iff] at hselect
              rw [hselect]
              rfl
            | some found =>
              rw [hfound, map_some] at hselect
              obtain ⟨found', hfound', heq⟩ := Option.map_eq_some_iff.mp hselect
              obtain ⟨_, _, _⟩ := found
              obtain ⟨_, _, _⟩ := found'
              simp only [Prod.mk.injEq] at heq
              obtain ⟨rfl, hgeneration, rfl⟩ := heq
              rw [hfound']
              simp only [map_some, RenderItem.paint, hgeneration]
  · rfl

theorem Repaints.posterItem (h : Repaints paint s s') {poster : RetainedPoster}
    (hposter : poster ∈ s.retainedPosters) :
    s'.posterItem poster = (s.posterItem poster).map (·.paint paint) := by
  unfold State.posterItem anchorOffset
  rw [h.anchors, h.alternateScreen, Option.map_bind]
  refine congrArg (Option.bind _) (funext fun offset => ?_)
  dsimp only [Function.comp]
  rw [Option.map_map]
  refine congrArg (Option.map · _) (funext fun position => ?_)
  dsimp only [Function.comp, RenderItem.paint]
  rw [h.posters poster hposter]

theorem items_eq (s : State P) : s.items =
    ((s.scenes.mapValues fun _ scene => scene.nodes).entries.flatMap fun entry =>
      entry.2.entries.filterMap fun node => s.nodeItem entry.1 node.2) ++
      s.retainedPosters.filterMap s.posterItem := by
  unfold items SortedMap.mapValues
  rw [flatMap_map]

theorem Repaints.items (h : Repaints paint s s') : s'.items = s.items.map (·.paint paint) := by
  rw [items_eq, items_eq, h.nodes, h.retainedPosters, map_append, map_flatMap]
  congr 1
  · refine congrArg (List.flatMap · _) (funext fun entry => ?_)
    rw [map_filterMap]
    exact congrArg (List.filterMap · _) (funext fun node => h.nodeItem entry.1 node.2)
  · rw [map_filterMap]
    exact filterMap_congr fun poster hposter => h.posterItem hposter

/-- A new list shows what the old one showed, with the frames painted. -/
theorem Repaints.rebuild (h : Repaints paint s s') :
    s'.rebuild = s.rebuild.map (·.paint paint) := by
  unfold State.rebuild
  rw [h.items]
  exact (map_insertionSort drawsBefore drawsBefore (·.paint paint) s.items
    fun _ _ _ _ => Iff.rfl).symm

/-! ### What an operation does to the cache -/

def posterSession (poster : RetainedPoster) : SessionIdentity :=
  poster.trackKey.surface.context.session

/-- The cache and the counters stay, and no poster and no scene comes. -/
structure Trims (s s' : State P) : Prop where
  renderCache : s'.renderCache = s.renderCache
  topologyRevision : s'.topologyRevision = s.topologyRevision
  contentRevision : s'.contentRevision = s.contentRevision
  posters : ∀ poster ∈ s'.retainedPosters, poster ∈ s.retainedPosters
  scenes : ∀ session, (s'.scenes.lookup session).isSome → (s.scenes.lookup session).isSome

namespace Trims

theorem of_eq (hcache : s'.renderCache = s.renderCache)
    (htopology : s'.topologyRevision = s.topologyRevision)
    (hcontent : s'.contentRevision = s.contentRevision)
    (hposters : s'.retainedPosters = s.retainedPosters) (hscenes : s'.scenes = s.scenes) :
    Trims s s' :=
  ⟨hcache, htopology, hcontent, fun _ h => hposters ▸ h, fun _ h => hscenes ▸ h⟩

theorem refl (s : State P) : Trims s s := of_eq rfl rfl rfl rfl rfl

theorem trans (h : Trims s s') (h' : Trims s' s'') : Trims s s'' where
  renderCache := h'.renderCache.trans h.renderCache
  topologyRevision := h'.topologyRevision.trans h.topologyRevision
  contentRevision := h'.contentRevision.trans h.contentRevision
  posters poster hposter := h.posters poster (h'.posters poster hposter)
  scenes session hscene := h.scenes session (h'.scenes session hscene)

theorem setScene (hs : Trims s s') {session : SessionIdentity}
    (h : (s'.scenes.lookup session).isSome) (scene : SessionScene P) :
    Trims s (s'.setScene session scene) := by
  refine hs.trans ⟨rfl, rfl, rfl, fun _ h => h, fun other hother => ?_⟩
  change ((s'.scenes.insert session scene).lookup other).isSome at hother
  rw [lookup_insert] at hother
  split at hother
  · rename_i heq
    rwa [heq]
  · exact hother

theorem mapScenes (f : SessionIdentity → SessionScene P → SessionScene P)
    (hcache : s'.renderCache = s.renderCache) (htopology : s'.topologyRevision = s.topologyRevision)
    (hcontent : s'.contentRevision = s.contentRevision)
    (hposters : ∀ poster ∈ s'.retainedPosters, poster ∈ s.retainedPosters)
    (hscenes : s'.scenes = s.scenes.mapValues f) : Trims s s' := by
  refine ⟨hcache, htopology, hcontent, hposters, fun session h => ?_⟩
  rwa [hscenes, lookup_mapValues, isSome_map] at h

theorem removeAnchors (s : State P) (removed : List AnchorIdentity) :
    Trims s (s.removeAnchors removed) := by
  unfold State.removeAnchors
  split
  · exact refl s
  refine mapScenes
    (fun session scene =>
      { scene with
        nodes := scene.nodes.filter fun entry =>
          (nodeAnchorIdentity session entry.2).all (· ∉ removed) }) rfl rfl rfl ?_ rfl
  exact fun poster hposter => (List.mem_filter.mp hposter).1

end Trims

/-- The cache is dropped. A scene that comes has no posters, and a poster that comes no scene. -/
structure Drops (s s' : State P) : Prop where
  renderCache : s'.renderCache = none
  topologyRevision : s'.topologyRevision = (s.topologyRevision + 1) % 2 ^ 64
  contentRevision : s'.contentRevision = s.contentRevision ∨
    s'.contentRevision = (s.contentRevision + 1) % 2 ^ 64
  posters : ∀ poster ∈ s'.retainedPosters, poster ∈ s.retainedPosters ∨
    s'.scenes.lookup (posterSession poster) = none
  scenes : ∀ session, (s'.scenes.lookup session).isSome → (s.scenes.lookup session).isSome ∨
    ∀ poster ∈ s.retainedPosters, posterSession poster ≠ session

theorem Drops.of_trims (h : Trims s.invalidateTopology s') : Drops s s' where
  renderCache := h.renderCache
  topologyRevision := h.topologyRevision
  contentRevision := Or.inl h.contentRevision
  posters poster hposter := Or.inl (h.posters poster hposter)
  scenes session hscene := Or.inl (h.scenes session hscene)

/-- Put a track's new frame. -/
def paintTrack (identity : TrackIdentity) (frame : Frame) (key : TrackIdentity) (old : Frame) :
    Frame :=
  if key = identity then frame else old

/-- The cache after an operation. -/
inductive CacheStep (s s' : State P) : Prop
  | dropped (h : Drops s s')
  | kept (h : Repaints (fun _ frame => frame) s s')
      (topologyRevision : s'.topologyRevision = s.topologyRevision)
      (contentRevision : s'.contentRevision = s.contentRevision)
      (renderCache : s'.renderCache = s.renderCache ∨
        s'.renderCache = some (s.renderCache.getD s.rebuild))
  | painted (identity : TrackIdentity) (frame : Frame)
      (h : Repaints (paintTrack identity frame) s s')
      (topologyRevision : s'.topologyRevision = s.topologyRevision)
      (contentRevision : s'.contentRevision = (s.contentRevision + 1) % 2 ^ 64)
      (renderCache : s'.renderCache = s.renderCache.map (replaceFrames identity frame))

theorem Repaints.refl (s : State P) : Repaints (fun _ frame => frame) s s where
  target := rfl
  surfaces := rfl
  anchors := rfl
  alternateScreen := rfl
  retainedPosters := rfl
  nodes := rfl
  shown key := (Option.map_id' (x := s.shown key)).symm
  posters _ _ := rfl

theorem CacheStep.refl (s : State P) : CacheStep s s := .kept (.refl s) rfl rfl (Or.inl rfl)

theorem CacheStep.of_trims (h : Trims s.invalidateTopology s') : CacheStep s s' :=
  .dropped (.of_trims h)

theorem shown_of_drawn {key : TrackIdentity}
    (h : (s'.tracks.lookup key).map Track.drawn = (s.tracks.lookup key).map Track.drawn) :
    s'.shown key = s.shown key := by
  unfold shown
  cases hold : s.tracks.lookup key with
  | none =>
    rw [hold, map_none, map_eq_none_iff] at h
    rw [h]
  | some =>
    rw [hold, map_some] at h
    obtain ⟨_, htrack', heq⟩ := Option.map_eq_some_iff.mp h
    rw [htrack']
    unfold Track.drawn at heq
    simp only [Prod.mk.injEq] at heq
    obtain ⟨_, hlifecycle, hframe, hgeneration⟩ := heq
    simp only [bind_some, hlifecycle, hframe, hgeneration]

theorem CacheStep.of_retracks (h : Retracks s s') : CacheStep s s' := by
  refine .kept ⟨?_, ?_, ?_, ?_, ?_, ?_, fun key => ?_, fun _ _ => rfl⟩ ?_ ?_ (Or.inl ?_)
  case refine_7 => rw [shown_of_drawn (h.tracks key), Option.map_id']
  all_goals rw [h.others]

theorem CacheStep.of_shifts {request : Request P} (h : Shifts request s s') : CacheStep s s' := by
  rcases h with rfl | ⟨anchors, alternateScreen, _, rfl, -⟩
  · exact .refl _
  · have hmoved : Trims s.invalidateTopology { s.invalidateTopology with
        anchors, alternateScreen } := .of_eq rfl rfl rfl rfl rfl
    exact .of_trims (hmoved.trans (.removeAnchors _ _))

theorem CacheStep.of_reshapes (h : Reshapes s s') : CacheStep s s' := by
  rcases h with rfl | ⟨_, _, _, rfl⟩
  · exact .refl _
  · exact .of_trims (.of_eq rfl rfl rfl rfl rfl)

/-- Only what is staged changes. -/
theorem CacheStep.setPending {session : SessionIdentity} {scene : SessionScene P}
    (h : s.scenes.lookup session = some scene)
    (pending : SortedMap (ContextIdentity ×ₗ ℕ) (List (NodeMutation P))) :
    CacheStep s (s.setPending session scene pending) := by
  refine .kept ⟨rfl, rfl, rfl, rfl, rfl, ?_, fun key => ?_, fun _ _ => rfl⟩ rfl rfl (Or.inl rfl)
  · refine ext_lookup fun other => ?_
    rw [lookup_mapValues, lookup_mapValues]
    change ((s.scenes.insert session _).lookup other).map _ = _
    rw [lookup_insert]
    split
    · rename_i heq
      rw [heq, h]
      rfl
    · rfl
  · exact (Option.map_id' (x := s.shown key)).symm

theorem CacheStep.of_stages (h : Stages s s') : CacheStep s s' := by
  rcases h with rfl | ⟨_, _, _, hscene, rfl⟩
  · exact .refl _
  · exact .setPending hscene _

/-! ### Operations that drop the cache -/

/-- The session is given a scene while posters of it are retained. -/
def Reregisters (s : State P) : Request P → Prop
  | .registerSession session _ => ∃ poster ∈ s.retainedPosters, posterSession poster = session
  | _ => False

instance (s : State P) : DecidablePred s.Reregisters := by
  rintro ⟨⟩
  all_goals first
    | exact instDecidableFalse
    | exact inferInstanceAs (Decidable (∃ poster ∈ s.retainedPosters, posterSession poster = _))

theorem trims_retargeted (s : State P) (generation : ℕ) (target : SessionScene P → ℕ) :
    Trims s.invalidateTopology (s.retargeted generation target) :=
  .mapScenes (fun _ scene => { scene with targetGeneration := target scene })
    rfl rfl rfl (fun _ h => h) rfl

theorem cacheStep_registerSession (s : State P) (session : SessionIdentity) (targetGeneration : ℕ)
    (hnew : ¬ s.Reregisters (.registerSession session targetGeneration)) :
    CacheStep s (s.registerSession session targetGeneration).1 := by
  rcases s.registerSession_cases session targetGeneration with h | h | ⟨generation, target, -, h⟩
  all_goals rw [h]
  · exact .refl s
  · exact .of_trims (.refl _)
  have htrims := trims_retargeted s generation target
  refine .dropped ⟨rfl, rfl, Or.inl rfl, fun _ h => Or.inl h, fun other hother => ?_⟩
  change ((SortedMap.insert _ session _).lookup other).isSome at hother
  rw [lookup_insert] at hother
  split at hother
  · rename_i heq
    exact Or.inr fun poster hposter hsession => hnew ⟨poster, hposter, hsession.trans heq⟩
  · exact Or.inl (htrims.scenes other hother)

variable {identity : TrackIdentity} {surfaceKey : SurfaceIdentity}

theorem selectTrack_surface {surface : Surface P} {found : TrackIdentity × Track P × Frame}
    (h : s.selectTrack surfaceKey surface = some found) : found.1.surface = surfaceKey := by
  obtain ⟨_, _, hslot⟩ := exists_of_findSome?_eq_some h
  obtain ⟨_, _, hslot⟩ := Option.bind_eq_some_iff.mp hslot
  obtain ⟨_, hkey, hslot⟩ := Option.bind_eq_some_iff.mp hslot
  obtain ⟨_, _, hslot⟩ := Option.bind_eq_some_iff.mp hslot
  split at hslot
  · obtain ⟨_, _, rfl⟩ := Option.map_eq_some_iff.mp hslot
    rw [SurfaceIdentity.track?_surface hkey]
  · cases hslot

theorem nodeSurfaceIdentity_session {session : SessionIdentity} {node : SceneNode P.Value}
    (h : nodeSurfaceIdentity session node = some surfaceKey) :
    surfaceKey.context.session = session := by
  obtain ⟨_, hcontext, hsurface⟩ := Option.bind_eq_some_iff.mp h
  rw [ContextIdentity.surface?_context hsurface, SessionIdentity.context?_session hcontext]

theorem retainedPoster_session {session : SessionIdentity} {node : SceneNode P.Value}
    {poster : RetainedPoster} {pixels : ℕ}
    (h : s.retainedPoster session node = some (poster, pixels)) :
    posterSession poster = session := by
  unfold retainedPoster at h
  split at h
  · obtain ⟨_, _, h⟩ := Option.bind_eq_some_iff.mp h
    split at h
    · obtain ⟨_, _, h⟩ := Option.bind_eq_some_iff.mp h
      obtain ⟨_, _, h⟩ := Option.bind_eq_some_iff.mp h
      obtain ⟨_, hkey, h⟩ := Option.bind_eq_some_iff.mp h
      obtain ⟨_, _, h⟩ := Option.bind_eq_some_iff.mp h
      split at h
      · cases h
      obtain ⟨_, hfound, h⟩ := Option.bind_eq_some_iff.mp h
      dsimp only at h
      split at h
      · cases h
      · cases h
        unfold posterSession
        dsimp only
        rw [selectTrack_surface hfound]
        exact nodeSurfaceIdentity_session hkey
    · cases h
  · cases h

theorem collectPosters_session {session : SessionIdentity} {kept : ℕ}
    (nodes : List (SceneNode P.Value)) {posters : List RetainedPoster} {pixels : ℕ}
    (h : ∀ poster ∈ posters, posterSession poster = session) :
    ∀ poster ∈ s.collectPosters session kept posters pixels nodes,
      posterSession poster = session := by
  induction nodes generalizing posters pixels with
  | nil => exact h
  | cons node nodes ih =>
    unfold collectPosters
    split
    · rename_i poster more hposter
      split
      · refine ih fun other hother => ?_
        rcases List.mem_append.mp hother with hother | hother
        · exact h other hother
        · rw [List.mem_singleton.mp hother]
          exact retainedPoster_session hposter
      · exact ih h
    · exact ih h

theorem cacheStep_detachSession (s : State P) (session : SessionIdentity) :
    CacheStep s (s.detachSession session) := by
  unfold detachSession
  dsimp only
  split
  · exact .of_trims (.refl _)
  refine .dropped ⟨rfl, rfl, Or.inl rfl, fun poster hposter => ?_, fun other hother => ?_⟩
  · rcases List.mem_append.mp hposter with hold | hnew
    · exact Or.inl (List.mem_filter.mp hold).1
    · refine Or.inr ?_
      rw [collectPosters_session _ (fun _ h => (not_mem_nil h).elim) poster hnew]
      change (s.scenes.erase session).lookup session = none
      rw [lookup_erase, if_pos rfl]
  · obtain ⟨scene, hscene⟩ := Option.isSome_iff_exists.mp hother
    exact Or.inl (Option.isSome_iff_exists.mpr
      ⟨scene, (lookup_erase_some hscene).2⟩)

theorem trims_removeSession (s : State P) (session : SessionIdentity) :
    Trims s.invalidateTopology (s.removeSession session) := by
  refine ⟨rfl, rfl, rfl, fun _ h => (List.mem_filter.mp h).1, fun other hother => ?_⟩
  obtain ⟨scene, hscene⟩ := Option.isSome_iff_exists.mp hother
  exact Option.isSome_iff_exists.mpr ⟨scene, (lookup_erase_some hscene).2⟩

theorem trims_removeContexts (s : State P) (session : SessionIdentity) (contexts : List ℕ) :
    Trims s.invalidateTopology (s.removeContexts session contexts) := by
  unfold removeContexts
  dsimp only
  split
  · exact ⟨rfl, rfl, rfl, fun _ h => (List.mem_filter.mp h).1, fun _ h => h⟩
  · rename_i scene hscene
    refine ⟨rfl, rfl, rfl, fun _ h => (List.mem_filter.mp h).1, fun other hother => ?_⟩
    refine (Trims.setScene (.refl s) ?_ _).scenes other hother
    exact Option.isSome_iff_exists.mpr ⟨scene, hscene⟩

theorem trims_addAnchor (s : State P) (identity : AnchorIdentity) (anchor : Vivid.TextAnchor) :
    Trims s.invalidateTopology (s.addAnchor identity anchor).1 := by
  unfold addAnchor
  dsimp only
  split <;> exact .of_eq rfl rfl rfl rfl rfl

theorem trims_destroySurface (s : State P) (identity : SurfaceIdentity) :
    Trims s.invalidateTopology (s.destroySurface identity).1 := by
  have hgone : Trims s.invalidateTopology (s.withoutSurface identity) :=
    .of_eq rfl rfl rfl rfl rfl
  rcases s.destroySurface_cases identity with h | h | ⟨_, _, hscene, h⟩
  all_goals rw [h]
  · exact .refl _
  · exact hgone
  · exact hgone.setScene (isSome_of_eq_some hscene) _

theorem trims_commitTransaction (s : State P) (context : ContextIdentity)
    (transactionId expectedTarget : ℕ) (expectedRevision : Option ℕ) : Trims s.invalidateTopology
      (s.commitTransaction context transactionId expectedTarget expectedRevision).1 := by
  rcases commitTransaction_cases s context transactionId expectedTarget expectedRevision with
    h | ⟨scene, _, _, hscene, _, _, h⟩
  · rw [h]
    exact .refl _
  · rw [h]
    apply Trims.setScene (.refl _)
    exact Option.isSome_iff_exists.mpr ⟨scene, hscene⟩

/-! ### Frames -/

/-- The operation comes to a track without a next revision. -/
def Exhausts (s : State P) : Request P → Prop
  | .publishDecodedFrame identity _ _ =>
    ∃ track ∈ s.tracks.lookup identity, P.advance track.state.revision = none
  | _ => False

instance (s : State P) : DecidablePred s.Exhausts := by
  rintro ⟨⟩
  all_goals first
    | exact instDecidableFalse
    | exact inferInstanceAs (Decidable
        (∃ track ∈ s.tracks.lookup _, P.advance (Track.state track).revision = none))

/-- A session of which posters are retained has no scene. -/
def Posted (s : State P) : Prop :=
  ∀ poster ∈ s.retainedPosters, s.scenes.lookup (posterSession poster) = none

theorem trackKey_ne (hs : s.Linked) (hposted : s.Posted) {track : Track P}
    (htrack : s.tracks.lookup identity = some track) {poster : RetainedPoster}
    (hposter : poster ∈ s.retainedPosters) : poster.trackKey ≠ identity := by
  rintro rfl
  obtain ⟨surface, hsurface⟩ := Option.isSome_iff_exists.mp (hs.tracks _ track htrack)
  have hscene := hs.surfaces _ surface hsurface
  have hnone := hposted poster hposter
  unfold posterSession at hnone
  rw [hnone] at hscene
  cases hscene

/-- A current track that has a frame takes another. -/
theorem repaints_setTrack (hs : s.Linked) (hposted : s.Posted) {track track' : Track P}
    (htrack : s.tracks.lookup identity = some track) (hframe : track.frame.isSome) {frame : Frame}
    (hframe' : track'.frame = some frame) (hlifecycle : track'.lifecycle = track.lifecycle)
    (hgeneration : track'.state.channelGeneration = track.state.channelGeneration) :
    Repaints (paintTrack identity frame) s (s.setTrack identity track') where
  target := rfl
  surfaces := rfl
  anchors := rfl
  alternateScreen := rfl
  retainedPosters := rfl
  nodes := rfl
  shown key := by
    unfold shown
    change ((s.tracks.insert identity track').lookup key).bind _ = _
    rw [lookup_insert]
    obtain ⟨_, hold⟩ := Option.isSome_iff_exists.mp hframe
    split
    · rename_i heq
      rw [heq, htrack, bind_some, bind_some, hframe', hlifecycle, hgeneration, hold]
      split
      · simp only [map_some, paintTrack, if_true]
      · rfl
    · rename_i hne
      have hpaint : (fun found : ℕ × Frame =>
          (found.1, paintTrack identity frame key found.2)) = id := by
        funext found
        simp only [paintTrack, if_neg hne, id]
      rw [hpaint, Option.map_id, id]
  posters poster hposter := by
    unfold paintTrack
    rw [if_neg (trackKey_ne hs hposted htrack hposter)]

theorem cacheStep_publishDecodedFrame (hs : s.Linked) (hposted : s.Posted) {generation : ℕ}
    {frame : Frame} (hadvance : ¬ s.Exhausts (.publishDecodedFrame identity generation frame)) :
    CacheStep s (s.publishDecodedFrame identity generation frame).1 := by
  unfold publishDecodedFrame
  split
  · exact .refl s
  unfold onTrack
  cases htrack : s.tracks.lookup identity with
  | none => exact .refl s
  | some track =>
    dsimp only
    unfold Track.publishDecodedFrame
    by_cases hcurrent : track.isCurrent generation
    · rw [if_neg (not_not.mpr hcurrent)]
      cases hrevision : P.advance track.state.revision with
      | none => exact (hadvance ⟨track, htrack, hrevision⟩).elim
      | some revision =>
        have hwritten : (track.decoded frame).advanceRevision =
            ({ track.decoded frame with
                state := { (track.decoded frame).state with revision := revision } }, .ok ()) := by
          unfold Track.advanceRevision
          rw [show P.advance (track.decoded frame).state.revision = some revision from hrevision]
        rw [hwritten]
        dsimp only [Except.map]
        split
        · rename_i hreplacing
          have hpainted : Repaints (paintTrack identity frame) s (s.setTrack identity
              { track.decoded frame with
                state := { (track.decoded frame).state with revision := revision } }) :=
            repaints_setTrack hs hposted htrack hreplacing rfl rfl rfl
          refine .painted identity frame ⟨?_, ?_, ?_, ?_, ?_, ?_, ?_, ?_⟩ rfl rfl rfl
          · exact hpainted.target
          · exact hpainted.surfaces
          · exact hpainted.anchors
          · exact hpainted.alternateScreen
          · exact hpainted.retainedPosters
          · exact hpainted.nodes
          · exact hpainted.shown
          · exact hpainted.posters
        · exact .dropped ⟨rfl, rfl, Or.inr rfl, fun _ h => Or.inl h, fun _ h => Or.inl h⟩
    · rw [if_pos hcurrent]
      exact .of_retracks (.setTrack htrack track.alike_refl)

/-- Every operation drops the cache, changes nothing drawn, or paints a track's frame. -/
theorem cacheStep_perform (hP : P.KeepsGenerations) (hs : s.Linked) (hposted : s.Posted)
    {request : Request P} (hregisters : ¬ s.Reregisters request)
    (hexhausts : ¬ s.Exhausts request) : CacheStep s (s.perform request).1 := by
  by_cases hretracking : request.isRetracking = true
  · exact .of_retracks (retracks_perform s request hretracking)
  cases request with
  | registerSession session targetGeneration =>
    exact cacheStep_registerSession s session targetGeneration hregisters
  | advanceTargetGeneration => exact .of_trims (trims_retargeted s _ _)
  | removeSession session => exact .of_trims (trims_removeSession s session)
  | detachSession session => exact cacheStep_detachSession s session
  | removeContexts session contexts => exact .of_trims (trims_removeContexts s session contexts)
  | addAnchor identity anchor => exact .of_trims (trims_addAnchor s identity anchor)
  | applyAnchorResize | scrollAnchors | clearTerminal | setAlternateScreen =>
    exact .of_shifts (shifts_perform s _ rfl)
  | suspendSession | createSurface | updateSurface | createTrack | destroyTrack | activateTracks
  | advanceChannel | detachChannel | loseTrack | flushPlayback =>
    exact .of_reshapes (reshapes_perform s _ rfl)
  | destroySurface identity => exact .of_trims (trims_destroySurface s identity)
  | acceptChannel identity generation bytes records =>
    change CacheStep s (s.acceptChannel identity generation bytes records).1
    unfold acceptChannel
    split
    · exact .refl s
    · exact .of_retracks (.onTrack fun track => track.alike_acceptChannel hP _ _ _)
  | admitMedia identity media recordSequence =>
    change CacheStep s (s.admitMedia identity media recordSequence).1
    unfold admitMedia
    split
    · exact .refl s
    · exact .of_retracks (.onTrack fun track => track.alike_admitMedia hP _ _)
  | publishDecodedFrame =>
    exact cacheStep_publishDecodedFrame hs hposted hexhausts
  | beginTransaction | queueMutation | abortTransaction =>
    exact .of_stages (stages_perform s _ rfl)
  | commitTransaction context =>
    exact .of_trims (trims_commitTransaction s context _ _ _)
  | snapshot =>
    have hsame := Repaints.refl s
    exact .kept ⟨rfl, rfl, rfl, rfl, rfl, rfl, hsame.shown, hsame.posters⟩ rfl rfl (Or.inr rfl)
  | _ => exact (hretracking rfl).elim

/-! ### Runs -/

/-- The cached list, if any, is what a new one would be. -/
def Fresh (s : State P) : Prop := ∀ items, s.renderCache = some items → items = s.rebuild

theorem Repaints.rebuild_same (h : Repaints (fun _ frame => frame) s s') : s'.rebuild = s.rebuild :=
  h.rebuild.trans (map_id _)

theorem replaceFrames_eq (identity : TrackIdentity) (frame : Frame) (items : List RenderItem) :
    replaceFrames identity frame items = items.map (·.paint (paintTrack identity frame)) := by
  refine map_congr_left fun item _ => ?_
  unfold RenderItem.paint paintTrack
  split <;> rfl

theorem CacheStep.fresh (h : CacheStep s s') (hs : s.Fresh) : s'.Fresh := by
  intro items hitems
  cases h with
  | dropped h =>
    rw [h.renderCache] at hitems
    cases hitems
  | kept h _ _ hcache =>
    rw [h.rebuild_same]
    rcases hcache with hcache | hcache
    · exact hs items (hcache ▸ hitems)
    · rw [hcache, some_inj] at hitems
      rw [← hitems]
      cases hold : s.renderCache with
      | none => rfl
      | some old => exact hs old hold
  | painted _ _ h _ _ hcache =>
    rw [hcache] at hitems
    obtain ⟨old, hold, rfl⟩ := Option.map_eq_some_iff.mp hitems
    rw [hs old hold, h.rebuild, replaceFrames_eq]

theorem Repaints.posted (h : Repaints paint s s') (hs : s.Posted) : s'.Posted := by
  intro poster hposter
  rw [h.retainedPosters] at hposter
  have hnodes := congrArg (SortedMap.lookup · (posterSession poster)) h.nodes
  rw [lookup_mapValues, lookup_mapValues, hs poster hposter] at hnodes
  exact Option.map_eq_none_iff.mp hnodes

theorem CacheStep.posted (h : CacheStep s s') (hs : s.Posted) : s'.Posted := by
  cases h with
  | dropped h =>
    intro poster hposter
    rcases h.posters poster hposter with hold | hnew
    · rw [← not_isSome_iff_eq_none]
      intro hscene
      rcases h.scenes _ hscene with hscene | hnone
      · rw [hs poster hold] at hscene
        cases hscene
      · exact hnone poster hold rfl
    · exact hnew
  | kept h | painted _ _ h => exact h.posted hs

/-- No counter is at its last value where the operation would advance it. -/
def Counts (s : State P) (request : Request P) : Prop :=
  s.topologyRevision < u64Max ∧ s.contentRevision < u64Max ∧ ¬ s.Exhausts request

instance (s : State P) : DecidablePred s.Counts :=
  fun _ => inferInstanceAs (Decidable (_ ∧ _ ∧ _))

/-- The counters do not go back, and where they stay, so does what is drawn. -/
structure Advances (s s' : State P) : Prop where
  topology : s.topologyRevision ≤ s'.topologyRevision
  content : s.contentRevision ≤ s'.contentRevision
  rebuild : s'.topologyRevision = s.topologyRevision → s'.contentRevision = s.contentRevision →
    s'.rebuild = s.rebuild

theorem Advances.trans (h : Advances s s') (h' : Advances s' s'') : Advances s s'' where
  topology := h.topology.trans h'.topology
  content := h.content.trans h'.content
  rebuild htopology hcontent := by
    have ht := h.topology
    have ht' := h'.topology
    have hc := h.content
    have hc' := h'.content
    rw [h'.rebuild (by omega) (by omega), h.rebuild (by omega) (by omega)]

theorem CacheStep.advances (h : CacheStep s s') (htopology : s.topologyRevision < u64Max)
    (hcontent : s.contentRevision < u64Max) : Advances s s' := by
  unfold u64Max at htopology hcontent
  cases h with
  | dropped h =>
    have ht := h.topologyRevision
    have hc := h.contentRevision
    exact ⟨by omega, by omega, fun _ _ => by omega⟩
  | kept h ht hc => exact ⟨ht.ge, hc.ge, fun _ _ => h.rebuild_same⟩
  | painted _ _ _ ht => exact ⟨ht.ge, by omega, fun _ _ => by omega⟩

/-- What holds along a run. -/
structure Steady (s : State P) : Prop where
  linked : s.Linked
  posted : s.Posted
  fresh : s.Fresh

theorem steady_performAll (hP : P.KeepsGenerations) (requests : List (Request P))
    (hs : s.Steady) (hcounts : Along Counts s requests)
    (hreturns : Along (fun s request => ¬ s.Reregisters request) s requests) :
    (s.performAll requests).Steady ∧ Advances s (s.performAll requests) := by
  induction requests generalizing s with
  | nil => exact ⟨hs, le_refl _, le_refl _, fun _ _ => rfl⟩
  | cons request requests ih =>
    obtain ⟨⟨htopology, hcontent, hexhausts⟩, hcounts⟩ := hcounts
    obtain ⟨hregisters, hreturns⟩ := hreturns
    have hstep := cacheStep_perform hP hs.linked hs.posted hregisters hexhausts
    have hnext : (s.perform request).1.Steady :=
      ⟨linked_perform hs.linked request, hstep.posted hs.posted, hstep.fresh hs.fresh⟩
    obtain ⟨hsteady, hadvances⟩ := ih hnext hcounts hreturns
    exact ⟨hsteady, (hstep.advances htopology hcontent).trans hadvances⟩

theorem steady_new (target : PresentationTarget P) : (new target).Steady where
  linked := linked_new target
  posted _ h := (not_mem_nil h).elim
  fresh _ h := by cases h

theorem snapshot_items (hs : s.Fresh) : s.snapshot.2.items = s.rebuild := by
  change s.renderCache.getD s.rebuild = s.rebuild
  cases hcache : s.renderCache with
  | none => rfl
  | some items => exact hs items hcache

/-- A snapshot shows what a list built anew would show, and two snapshots with the same revisions
show the same, as long as no counter is exhausted and no session comes back while posters of it
are retained. -/
theorem snapshots_agree (hP : P.KeepsGenerations) (target : PresentationTarget P)
    (earlier later : List (Request P)) (hcounts : Along Counts (new target) (earlier ++ later))
    (hreturns : Along (fun s request => ¬ s.Reregisters request) (new target)
      (earlier ++ later)) :
    let s := (new target).performAll earlier
    let s' := (new target).performAll (earlier ++ later)
    s'.snapshot.2.items = s'.rebuild ∧
      (s'.snapshot.2.topologyRevision = s.snapshot.2.topologyRevision →
        s'.snapshot.2.contentRevision = s.snapshot.2.contentRevision →
          s'.snapshot.2.items = s.snapshot.2.items) := by
  obtain ⟨hcounts, hcounts'⟩ := hcounts.append
  obtain ⟨hreturns, hreturns'⟩ := hreturns.append
  have hs := (steady_performAll hP earlier (steady_new target) hcounts hreturns).1
  dsimp only
  rw [performAll_append]
  obtain ⟨hs', hadvances⟩ := steady_performAll hP later hs hcounts' hreturns'
  refine ⟨snapshot_items hs'.fresh, fun htopology hcontent => ?_⟩
  rw [snapshot_items hs'.fresh, snapshot_items hs.fresh]
  exact hadvances.rebuild htopology hcontent

section Comeback

def picture (frameId : ℕ) : Frame where
  frameId := frameId
  ptsUs := 0
  width := 1
  height := 1
  sarNum := 1
  sarDen := 1
  rgba := [0, 0, 0, 0]

def viewerSurface : SurfaceIdentity := ⟨viewerContext, 1⟩

def viewerTrack : TrackIdentity := ⟨viewerSurface, 1⟩

/-- The viewer's session with a track that has a picture. -/
def openingRun : List (Request Protocol.plain) :=
  [.registerSession viewer 1, .createSurface viewerSurface { contextId := 1, surfaceId := 1 },
    .createTrack viewerTrack
      { contextId := 1, surfaceId := 1, trackId := 1, slot := 3, mode := .live, kind := .raster },
    .acceptChannel viewerTrack 1 1024 8, .publishDecodedFrame viewerTrack 1 (picture 1)]

/-- The picture is shown at an anchor. -/
def anchoringRun : List (Request Protocol.plain) :=
  [.addAnchor ⟨viewerContext, 1⟩ ⟨0, 0, false⟩,
    .activateTracks viewerSurface 1 [⟨3, 1, 1, {.outputReady}⟩],
    .beginTransaction viewerContext 1,
    .queueMutation viewerContext 1 (.create { nodeShowing 1 with
      geometry := [(0, (2 : ℕ)), (6, (1 : ℕ)), (7, (1 : ℕ))] }),
    .commitTransaction viewerContext 1 1 none]

/-- The session leaves its picture behind, comes back and shows another. -/
def comebackRun : List (Request Protocol.plain) :=
  openingRun ++ anchoringRun ++ [.detachSession viewer] ++ openingRun ++
    [.snapshot, .publishDecodedFrame viewerTrack 1 (picture 2)]

/-- The cached list shows the new picture in the place of the old. -/
theorem comeback_repaints_poster :
    ¬ ∀ (target : PresentationTarget Protocol.plain) (requests : List (Request Protocol.plain)),
      Along Counts (new target) requests → ((new target).performAll requests).snapshot.2.items =
          ((new target).performAll requests).rebuild := by
  intro h
  have hitems := h .plain comebackRun (by decide +kernel)
  revert hitems
  decide +kernel

theorem plain_keepsGenerations : Protocol.plain.KeepsGenerations where
  acceptChannel _ _ _ _ _ := rfl
  admitMedia _ _ := rfl

theorem snapshots_agree_anchoring :
    let requests := openingRun ++ anchoringRun ++
      [.snapshot, .publishDecodedFrame viewerTrack 1 (picture 2)]
    ((new .plain).performAll requests).snapshot.2.items =
      ((new .plain).performAll requests).rebuild :=
  (snapshots_agree plain_keepsGenerations .plain (openingRun ++ anchoringRun)
    [.snapshot, .publishDecodedFrame viewerTrack 1 (picture 2)]
    (by decide +kernel) (by decide +kernel)).1

end Comeback

end State

end Vivido.Scene
