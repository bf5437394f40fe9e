import Vivido.Scene.Outcomes

/-!
What the operations on a scene leave alone. Work on a track keeps its
configuration, and most of it all that is drawn of the track. Most operations
leave the surfaces and the configurations of the tracks and at most drop nodes.
-/

namespace Vivido.Scene

open SortedMap Option

variable {P : Protocol}

namespace Track

/-- All that is drawn of a track is the same. -/
structure Alike (track track' : Track P) : Prop where
  configuration : track'.configuration = track.configuration
  lifecycle : track'.lifecycle = track.lifecycle
  frame : track'.frame = track.frame
  channelGeneration : track'.state.channelGeneration = track.state.channelGeneration

variable (track : Track P)

theorem alike_refl : track.Alike track := ⟨rfl, rfl, rfl, rfl⟩

theorem Alike.trans {track track' track'' : Track P} (h : track.Alike track')
    (h' : track'.Alike track'') : track.Alike track'' where
  configuration := h'.configuration.trans h.configuration
  lifecycle := h'.lifecycle.trans h.lifecycle
  frame := h'.frame.trans h.frame
  channelGeneration := h'.channelGeneration.trans h.channelGeneration

def drawn : TrackConfiguration × ℕ × Option Frame × ℕ :=
  (track.configuration, track.lifecycle, track.frame, track.state.channelGeneration)

theorem Alike.drawn {track track' : Track P} (h : track.Alike track') :
    track'.drawn = track.drawn := by
  unfold Track.drawn
  rw [h.configuration, h.lifecycle, h.frame, h.channelGeneration]

theorem alike_advanceRevision : track.Alike track.advanceRevision.1 := by
  unfold advanceRevision
  split <;> exact ⟨rfl, rfl, rfl, rfl⟩

theorem Alike.advance {track written : Track P} (h : track.Alike written) :
    track.Alike written.advanceRevision.1 :=
  h.trans (alike_advanceRevision written)

theorem alike_reach (milestone : Milestone) : track.Alike (track.reach milestone) :=
  ⟨rfl, rfl, rfl, rfl⟩

variable (generation : ℕ)

theorem alike_acceptUplinkChannel : track.Alike (track.acceptUplinkChannel generation).1 := by
  unfold acceptUplinkChannel
  split
  · exact alike_refl track
  · split <;> exact ⟨rfl, rfl, rfl, rfl⟩

theorem alike_setAudioGain (gain : ℕ) : track.Alike (track.setAudioGain gain).1 := by
  unfold setAudioGain
  split
  · exact alike_refl track
  · exact Alike.advance ⟨rfl, rfl, rfl, rfl⟩

theorem alike_admitVectorAsset (bodyLength sequence : ℕ) :
    track.Alike (track.admitVectorAsset generation bodyLength sequence).1 := by
  unfold admitVectorAsset
  split
  · exact alike_refl track
  · dsimp only
    split <;> exact ⟨rfl, rfl, rfl, rfl⟩

theorem alike_recordLateVideoDiscard (frames : ℕ) (requestedKeyframe : Bool) :
    track.Alike (track.recordLateVideoDiscard frames requestedKeyframe).1 :=
  ⟨rfl, rfl, rfl, rfl⟩

theorem alike_recordAudioRebase : track.Alike track.recordAudioRebase.1 := ⟨rfl, rfl, rfl, rfl⟩

theorem alike_markOutputReady : track.Alike (track.markOutputReady generation).1 := by
  unfold markOutputReady
  split
  · exact alike_refl track
  · split
    · exact alike_refl track
    · exact Alike.advance (alike_reach track _)

theorem alike_markEos (mediaEpoch sequence : ℕ) :
    track.Alike (track.markEos generation mediaEpoch sequence).1 := by
  unfold markEos
  split
  · exact alike_refl track
  · exact Alike.advance ⟨rfl, rfl, rfl, rfl⟩

theorem alike_markBufferedEnded : track.Alike (track.markBufferedEnded generation).1 := by
  unfold markBufferedEnded
  split
  · exact alike_refl track
  · exact Alike.advance ⟨rfl, rfl, rfl, rfl⟩

theorem alike_returnChannelCapacity (bodyBytes records : ℕ) :
    track.Alike (track.returnChannelCapacity generation bodyBytes records).1 := by
  unfold returnChannelCapacity
  split
  · exact alike_refl track
  · dsimp only
    split
    · exact alike_refl track
    · split <;> exact ⟨rfl, rfl, rfl, rfl⟩

theorem alike_markPresented (channelGeneration frameId : ℕ) (ptsUs : ℤ) :
    track.Alike (track.markPresented channelGeneration frameId ptsUs).1 := by
  unfold markPresented
  split
  · exact alike_refl track
  dsimp only
  split
  · exact ⟨rfl, rfl, rfl, rfl⟩
  · split
    all_goals
      rename_i heq
      rw [← congrArg Prod.fst heq]
      exact Alike.advance ⟨rfl, rfl, rfl, rfl⟩

theorem alike_restarted (now : ℕ) (startPtsUs : ℤ) (synchronized : Bool) :
    track.Alike (track.restarted now startPtsUs synchronized) := by
  unfold restarted
  split <;> exact ⟨rfl, rfl, rfl, rfl⟩

theorem alike_released (now : ℕ) : track.Alike (track.released now) := ⟨rfl, rfl, rfl, rfl⟩

theorem alike_pause (now : ℕ) (audioPts : Option ℤ) : track.Alike (track.pause now audioPts).1 := by
  unfold pause
  split
  · exact Alike.advance ⟨rfl, rfl, rfl, rfl⟩
  · exact ⟨rfl, rfl, rfl, rfl⟩

/-! ### The rest keeps the configuration -/

theorem configuration_acceptChannel (bytes records : ℕ) :
    (track.acceptChannel generation bytes records).1.configuration = track.configuration := by
  unfold acceptChannel
  split
  · rfl
  · dsimp only
    split <;> rfl

theorem configuration_advanceChannel :
    track.advanceChannel.1.configuration = track.configuration := by
  unfold advanceChannel
  split
  · rfl
  · dsimp only
    split <;> rfl

theorem configuration_detachChannel :
    (track.detachChannel generation).1.configuration = track.configuration := by
  unfold detachChannel
  split <;> rfl

theorem configuration_admitMedia (media : ReceivedMedia) (recordSequence : ℕ) :
    (track.admitMedia media recordSequence).1.configuration = track.configuration := by
  unfold admitMedia
  split
  · rfl
  · dsimp only
    split <;> rfl

theorem configuration_publishDecodedFrame (frame : Frame) :
    (track.publishDecodedFrame generation frame).1.configuration = track.configuration := by
  unfold publishDecodedFrame
  split
  · rfl
  · exact (alike_advanceRevision (track.decoded frame)).configuration

theorem configuration_loseTrack :
    (track.loseTrack generation).1.configuration = track.configuration := by
  unfold loseTrack
  split <;> rfl

theorem configuration_flushPlayback (newEpoch : ℕ) :
    (track.flushPlayback newEpoch).1.configuration = track.configuration := by
  unfold flushPlayback
  split
  · rfl
  · exact (alike_advanceRevision _).configuration

end Track

/-- The operation creates, removes or binds surfaces or tracks, commits nodes, or removes a
session. -/
def Request.isStructural : Request P → Bool
  | .removeSession _ | .detachSession _ | .removeContexts _ _ | .createSurface _ _
  | .updateSurface _ _ _ _ | .destroySurface _ | .createTrack _ _ | .destroyTrack _
  | .activateTracks _ _ _ | .commitTransaction _ _ _ _ => true
  | _ => false

/-- The operation changes nothing but tracks, and nothing that is drawn of them. -/
def Request.isRetracking : Request P → Bool
  | .acceptUplinkChannel _ _ | .setAudioGain _ _ | .admitVectorAsset _ _ _ _
  | .recordLateVideoDiscard _ _ _ | .recordAudioRebase _ | .markOutputReady _ _
  | .configurePlayback _ _ _ _ | .tryStartSynchronized _ _ _ | .pausePlaybackAt _ _ _
  | .markEos _ _ _ _ | .markBufferedEnded _ _ | .returnChannelCapacity _ _ _ _
  | .markPresented _ _ _ _ _ => true
  | _ => false

namespace State

variable {s s' s'' : State P}

/-- Only tracks change, and they are drawn as before. -/
structure Retracks (s s' : State P) : Prop where
  others : s' = { s with tracks := s'.tracks }
  tracks : ∀ identity, (s'.tracks.lookup identity).map Track.drawn =
    (s.tracks.lookup identity).map Track.drawn

namespace Retracks

theorem refl (s : State P) : Retracks s s := ⟨rfl, fun _ => rfl⟩

theorem trans (h : Retracks s s') (h' : Retracks s' s'') : Retracks s s'' where
  others := by
    rw [h'.others, h.others]
  tracks identity := (h'.tracks identity).trans (h.tracks identity)

theorem setTrack {identity : TrackIdentity} {track track' : Track P}
    (h : s.tracks.lookup identity = some track) (halike : track.Alike track') :
    Retracks s (s.setTrack identity track') where
  others := rfl
  tracks other := by
    change ((s.tracks.insert identity track').lookup other).map _ = _
    rw [lookup_insert]
    split
    · rename_i heq
      rw [heq, h, map_some, map_some, halike.drawn]
    · rfl

theorem onTrack {α : Type} {identity : TrackIdentity} {work : Track P → Track P × Except String α}
    {missing : String} (h : ∀ track : Track P, track.Alike (work track).1) :
    Retracks s (s.onTrack identity work missing).1 := by
  unfold State.onTrack
  split
  · exact refl s
  · rename_i track hlookup
    exact setTrack hlookup (h track)

theorem restartAll (now : ℕ) (startPtsUs : ℤ) (synchronized : Bool) (members : List TrackIdentity)
    (s : State P) (started : Bool) :
    Retracks s (s.restartAll now startPtsUs synchronized started members).1 := by
  induction members generalizing s started with
  | nil => exact refl s
  | cons candidate rest ih =>
    unfold State.restartAll
    split
    · exact ih s started
    rename_i track htrack
    split
    · have hset : Retracks s
          (s.setTrack candidate (track.restarted now startPtsUs synchronized).advanceRevision.1) :=
        setTrack htrack (track.alike_restarted now startPtsUs synchronized).advance
      split
      · rename_i heq
        rw [heq] at hset
        exact hset
      · rename_i heq
        rw [heq] at hset
        exact hset.trans (ih _ true)
    · exact ih s started

theorem configurePlayback (s : State P) (now : ℕ) (identity : TrackIdentity) (startPtsUs : ℤ)
    (synchronized : Bool) :
    Retracks s (s.configurePlayback now identity startPtsUs synchronized).1 := by
  unfold State.configurePlayback
  split
  · exact refl s
  · split
    · exact refl s
    · split
      · exact refl s
      · exact restartAll _ _ _ _ s false

theorem release (s : State P) (now : ℕ) (id : TrackIdentity) : Retracks s (s.release now id) := by
  unfold State.release
  split
  · exact refl s
  · rename_i track htrack
    split
    · exact setTrack htrack (track.alike_released now).advance
    · exact refl s

theorem releaseAll (now : ℕ) (members : List TrackIdentity) (s : State P) :
    Retracks s (s.releaseAll now members) := by
  induction members generalizing s with
  | nil => exact refl s
  | cons candidate _ ih => exact (release s now candidate).trans (ih _)

theorem tryStartSynchronized (s : State P) (now : ℕ) (identity : TrackIdentity)
    (audioReady : Bool) : Retracks s (s.tryStartSynchronized now identity audioReady).1 := by
  unfold State.tryStartSynchronized
  split
  · exact refl s
  split
  · exact refl s
  dsimp only
  split
  · exact refl s
  · split
    · exact refl s
    · exact releaseAll _ _ s

theorem pauseAll (now : ℕ) (audioPts : Option ℤ) (members : List TrackIdentity) (s : State P) :
    Retracks s (s.pauseAll now audioPts members).1 := by
  induction members generalizing s with
  | nil => exact refl s
  | cons candidate rest ih =>
    unfold State.pauseAll
    split
    · exact ih s
    rename_i track htrack
    have hset : Retracks s (s.setTrack candidate (track.pause now audioPts).1) :=
      setTrack htrack (track.alike_pause now audioPts)
    split
    · rename_i heq
      rw [heq] at hset
      exact hset
    · rename_i heq
      rw [heq] at hset
      exact hset.trans (ih _)

theorem pausePlaybackAt (s : State P) (now : ℕ) (identity : TrackIdentity)
    (audioPts : Option ℤ) : Retracks s (s.pausePlaybackAt now identity audioPts).1 := by
  unfold State.pausePlaybackAt
  split
  · exact refl s
  · exact pauseAll _ _ _ s

theorem markPresented (s : State P) (identity : TrackIdentity)
    (channelGeneration surfaceGeneration frameId : ℕ) (ptsUs : ℤ) :
    Retracks s (s.markPresented identity channelGeneration surfaceGeneration frameId ptsUs).1 := by
  unfold State.markPresented
  split
  · exact refl s
  split
  · exact refl s
  · split
    · exact refl s
    · rename_i track htrack
      exact setTrack htrack (track.alike_markPresented _ _ _)

end Retracks

/-- The operation reads or writes what its track shows without a change to what is drawn of it. -/
theorem retracks_perform (s : State P) (request : Request P) (h : request.isRetracking = true) :
    Retracks s (s.perform request).1 := by
  cases request with
  | acceptUplinkChannel _ generation =>
    exact .onTrack fun track => track.alike_acceptUplinkChannel generation
  | setAudioGain _ gain => exact .onTrack fun track => track.alike_setAudioGain gain
  | admitVectorAsset =>
    exact .onTrack fun track => track.alike_admitVectorAsset _ _ _
  | recordLateVideoDiscard =>
    exact .onTrack fun track => track.alike_recordLateVideoDiscard _ _
  | recordAudioRebase => exact .onTrack fun track => track.alike_recordAudioRebase
  | markOutputReady _ generation =>
    exact .onTrack fun track => track.alike_markOutputReady generation
  | configurePlayback now identity startPtsUs synchronized =>
    exact .configurePlayback s now identity startPtsUs synchronized
  | tryStartSynchronized now identity audioReady =>
    exact .tryStartSynchronized s now identity audioReady
  | pausePlaybackAt now identity audioPts => exact .pausePlaybackAt s now identity audioPts
  | markEos =>
    exact .onTrack fun track => track.alike_markEos _ _ _
  | markBufferedEnded _ generation =>
    exact .onTrack fun track => track.alike_markBufferedEnded generation
  | returnChannelCapacity =>
    exact .onTrack fun track => track.alike_returnChannelCapacity _ _ _
  | markPresented identity =>
    exact .markPresented s identity _ _ _ _
  | _ => cases h

/-- The surfaces and the configurations of the tracks stay, no scene leaves and no node comes. -/
structure Keeps (s s' : State P) : Prop where
  surfaces : s'.surfaces = s.surfaces
  tracks : ∀ identity, (s'.tracks.lookup identity).map (·.configuration) =
    (s.tracks.lookup identity).map (·.configuration)
  scenes : ∀ session, (s.scenes.lookup session).isSome → (s'.scenes.lookup session).isSome
  nodes : ∀ session scene' identity node, s'.scenes.lookup session = some scene' →
    scene'.nodes.lookup identity = some node →
      ∃ scene, s.scenes.lookup session = some scene ∧ scene.nodes.lookup identity = some node

namespace Keeps

theorem refl (s : State P) : Keeps s s :=
  ⟨rfl, fun _ => rfl, fun _ h => h, fun _ scene _ _ h h' => ⟨scene, h, h'⟩⟩

theorem trans (h : Keeps s s') (h' : Keeps s' s'') : Keeps s s'' where
  surfaces := h'.surfaces.trans h.surfaces
  tracks identity := (h'.tracks identity).trans (h.tracks identity)
  scenes session hscene := h'.scenes session (h.scenes session hscene)
  nodes session scene' identity node hscene hnode := by
    obtain ⟨middle, hmiddle, hnode⟩ := h'.nodes session scene' identity node hscene hnode
    exact h.nodes session middle identity node hmiddle hnode

/-- Only fields that no reference is made of change. -/
theorem of_eq (hsurfaces : s'.surfaces = s.surfaces) (htracks : s'.tracks = s.tracks)
    (hscenes : s'.scenes = s.scenes) : Keeps s s' where
  surfaces := hsurfaces
  tracks identity := by rw [htracks]
  scenes session h := by rwa [hscenes]
  nodes session scene' identity node h h' := ⟨scene', hscenes ▸ h, h'⟩

theorem of_retracks (h : Retracks s s') : Keeps s s' where
  surfaces := by rw [h.others]
  tracks identity := by
    have hdrawn := congrArg (Option.map Prod.fst) (h.tracks identity)
    rw [Option.map_map, Option.map_map] at hdrawn
    exact hdrawn
  scenes session hscene := by rwa [h.others]
  nodes session scene' identity node hscene hnode := by
    rw [h.others] at hscene
    exact ⟨scene', hscene, hnode⟩

theorem invalidateTopology (s : State P) : Keeps s s.invalidateTopology := of_eq rfl rfl rfl

theorem invalidateCapture (s : State P) : Keeps s s.invalidateCapture := of_eq rfl rfl rfl

theorem setTrack {identity : TrackIdentity} {track track' : Track P}
    (h : s.tracks.lookup identity = some track)
    (hconfiguration : track'.configuration = track.configuration) :
    Keeps s (s.setTrack identity track') where
  surfaces := rfl
  tracks other := by
    change ((s.tracks.insert identity track').lookup other).map _ = _
    rw [lookup_insert]
    split
    · rename_i heq
      rw [heq, h, map_some, map_some, hconfiguration]
    · rfl
  scenes session h := h
  nodes session scene' identity node h h' := ⟨scene', h, h'⟩

theorem setScene {session : SessionIdentity} {scene scene' : SessionScene P}
    (h : s.scenes.lookup session = some scene) (hnodes : scene'.nodes = scene.nodes) :
    Keeps s (s.setScene session scene') where
  surfaces := rfl
  tracks other := rfl
  scenes other hother := by
    change ((s.scenes.insert session scene').lookup other).isSome
    rw [lookup_insert]
    split
    · rfl
    · exact hother
  nodes other scene'' identity node hother hnode := by
    change (s.scenes.insert session scene').lookup other = some scene'' at hother
    rw [lookup_insert] at hother
    split at hother
    · rename_i heq
      cases hother
      exact ⟨scene, heq ▸ h, hnodes ▸ hnode⟩
    · exact ⟨scene'', hother, hnode⟩

/-- All scenes change, but keep their nodes or lose some. -/
theorem of_mapScenes (f : SessionIdentity → SessionScene P → SessionScene P)
    (hnodes : ∀ session scene identity node, (f session scene).nodes.lookup identity = some node →
      scene.nodes.lookup identity = some node)
    (hsurfaces : s'.surfaces = s.surfaces) (htracks : s'.tracks = s.tracks)
    (hscenes : s'.scenes = s.scenes.mapValues f) : Keeps s s' where
  surfaces := hsurfaces
  tracks other := by rw [htracks]
  scenes session h := by
    rw [hscenes, lookup_mapValues, isSome_map]
    exact h
  nodes session scene' identity node hscene hnode := by
    rw [hscenes, lookup_mapValues] at hscene
    obtain ⟨scene, hold, rfl⟩ := Option.map_eq_some_iff.mp hscene
    exact ⟨scene, hold, hnodes session scene identity node hnode⟩

theorem onTrack {α : Type} {identity : TrackIdentity} {work : Track P → Track P × Except String α}
    {missing : String} (h : ∀ track, (work track).1.configuration = track.configuration) :
    Keeps s (s.onTrack identity work missing).1 := by
  unfold State.onTrack
  split
  · exact refl s
  · rename_i track hlookup
    exact setTrack hlookup (h track)

theorem gcDetachedSessions (s : State P) : Keeps s s.gcDetachedSessions := of_eq rfl rfl rfl

theorem removeAnchors (s : State P) (removed : List AnchorIdentity) :
    Keeps s (s.removeAnchors removed) := by
  unfold State.removeAnchors
  split
  · exact refl s
  refine trans ?_ (gcDetachedSessions _)
  refine of_mapScenes
    (fun session scene =>
      { scene with
        nodes := scene.nodes.filter fun entry =>
          (nodeAnchorIdentity session entry.2).all (· ∉ removed) })
    (fun session scene identity node h => ?_) rfl rfl rfl
  rw [lookup_filter, filter_eq_some_iff] at h
  exact h.1

/-- A scene that comes has no nodes. -/
theorem newScene {session : SessionIdentity} {scene : SessionScene P}
    (h : scene.nodes = .empty) : Keeps s (s.setScene session scene) where
  surfaces := rfl
  tracks other := rfl
  scenes other hother := by
    change ((s.scenes.insert session scene).lookup other).isSome
    rw [lookup_insert]
    split
    · rfl
    · exact hother
  nodes other scene' identity node hother hnode := by
    change (s.scenes.insert session scene).lookup other = some scene' at hother
    rw [lookup_insert] at hother
    split at hother
    · cases hother
      rw [h] at hnode
      cases hnode
    · exact ⟨scene', hother, hnode⟩

theorem retargeted (s : State P) (generation : ℕ) (target : SessionScene P → ℕ) :
    Keeps s (s.retargeted generation target) :=
  of_mapScenes (fun _ scene => { scene with targetGeneration := target scene })
    (fun _ _ _ _ h => h) rfl rfl rfl

theorem registerSession (s : State P) (session : SessionIdentity) (targetGeneration : ℕ) :
    Keeps s (s.registerSession session targetGeneration).1 := by
  rcases s.registerSession_cases session targetGeneration with h | h | ⟨_, _, -, h⟩
  · rw [h]
    exact refl s
  · rw [h]
    exact invalidateTopology s
  · rw [h]
    exact (retargeted s _ _).trans (newScene rfl)

theorem suspendSession (s : State P) (session : SessionIdentity) :
    Keeps s (s.suspendSession session) := by
  unfold State.suspendSession
  refine (invalidateTopology s).trans ?_
  dsimp only
  split
  · exact refl _
  refine ⟨rfl, fun identity => ?_, fun _ h => h, fun _ scene _ _ h h' => ⟨scene, h, h'⟩⟩
  dsimp only
  rw [lookup_mapValues, Option.map_map]
  refine congrArg (Option.map · _) (funext fun track => ?_)
  change (if _ then track.suspend else track).configuration = track.configuration
  split <;> rfl

theorem addAnchor (s : State P) (identity : AnchorIdentity) (anchor : Vivid.TextAnchor) :
    Keeps s (s.addAnchor identity anchor).1 := by
  unfold State.addAnchor
  dsimp only
  split <;> exact of_eq rfl rfl rfl

theorem of_shifts {request : Request P} (h : Shifts request s s') : Keeps s s' := by
  rcases h with rfl | ⟨anchors, alternateScreen, _, rfl, -⟩
  · exact refl _
  · have hmoved : Keeps s { s.invalidateTopology with anchors, alternateScreen } := of_eq rfl rfl rfl
    exact hmoved.trans (removeAnchors _ _)

theorem of_stages (h : Stages s s') : Keeps s s' := by
  rcases h with rfl | ⟨_, _, _, hscene, rfl⟩
  · exact refl _
  · exact setScene hscene rfl

theorem publishDecodedFrame (s : State P) (identity : TrackIdentity) (generation : ℕ)
    (frame : Frame) : Keeps s (s.publishDecodedFrame identity generation frame).1 := by
  have hwork : Keeps s (s.onTrack identity (·.publishDecodedFrame generation frame)).1 :=
    onTrack fun track => track.configuration_publishDecodedFrame generation frame
  unfold State.publishDecodedFrame
  split
  · exact refl s
  split
  · rename_i heq
    rw [heq] at hwork
    exact hwork
  · rename_i heq
    rw [heq] at hwork
    refine hwork.trans ?_
    dsimp only
    split <;> exact of_eq rfl rfl rfl

theorem acceptChannel (s : State P) (identity : TrackIdentity) (generation bytes records : ℕ) :
    Keeps s (s.acceptChannel identity generation bytes records).1 := by
  unfold State.acceptChannel
  split
  · exact refl s
  · exact onTrack fun track => track.configuration_acceptChannel _ _ _

theorem admitMedia (s : State P) (identity : TrackIdentity) (media : ReceivedMedia)
    (recordSequence : ℕ) : Keeps s (s.admitMedia identity media recordSequence).1 := by
  unfold State.admitMedia
  split
  · exact refl s
  · exact onTrack fun track => track.configuration_admitMedia _ _

end Keeps

/-- Every other operation leaves the references. -/
theorem keeps_perform (s : State P) (request : Request P) (h : request.isStructural = false) :
    Keeps s (s.perform request).1 := by
  by_cases hretracking : request.isRetracking = true
  · exact .of_retracks (retracks_perform s request hretracking)
  have hinvalidate := Keeps.invalidateTopology s
  cases request with
  | registerSession session targetGeneration => exact .registerSession s session targetGeneration
  | advanceTargetGeneration => exact .retargeted s _ _
  | suspendSession session => exact .suspendSession s session
  | addAnchor identity anchor => exact .addAnchor s identity anchor
  | applyAnchorResize | scrollAnchors | clearTerminal | setAlternateScreen =>
    exact .of_shifts (shifts_perform s _ rfl)
  | acceptChannel identity => exact .acceptChannel s identity _ _ _
  | advanceChannel =>
    exact hinvalidate.trans (.onTrack fun track => track.configuration_advanceChannel)
  | detachChannel _ generation =>
    exact hinvalidate.trans (.onTrack fun track => track.configuration_detachChannel generation)
  | admitMedia identity media recordSequence => exact .admitMedia s identity media recordSequence
  | publishDecodedFrame identity generation frame =>
    exact .publishDecodedFrame s identity generation frame
  | loseTrack _ generation =>
    exact hinvalidate.trans (.onTrack fun track => track.configuration_loseTrack generation)
  | flushPlayback _ newEpoch =>
    exact hinvalidate.trans (.onTrack fun track => track.configuration_flushPlayback newEpoch)
  | beginTransaction | queueMutation | abortTransaction =>
    exact .of_stages (stages_perform s _ rfl)
  | snapshot => exact .of_eq rfl rfl rfl
  | removeSession | detachSession | removeContexts | createSurface | updateSurface
  | destroySurface | createTrack | destroyTrack | activateTracks | commitTransaction => cases h
  | _ => exact (hretracking rfl).elim

end State

end Vivido.Scene
