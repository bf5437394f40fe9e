import Mathlib.Data.Finset.Card
import Vivido.Scene.State

/-!
Surfaces and tracks: creation and removal, the slots a surface activates, and a
track's channel with the media and the events it delivers. An operation that
fails keeps what it had written.
-/

namespace Vivido.Scene

variable {P : Protocol}

/-- The nodes left when a surface goes. -/
def SessionScene.dropNodes (scene : SessionScene P) (identity : SurfaceIdentity) :
    SortedMap NodeIdentity (SceneNode P.Value) :=
  scene.nodes.filter fun entry =>
    entry.2.surfaceContextId ≠ identity.context.contextId ∨
      entry.2.surfaceId ≠ identity.surfaceId

namespace State

variable (s : State P)

def createSurface (identity : SurfaceIdentity) (definition : SurfaceDefinition P.Value) :
    State P × Except String (Surface P) :=
  if ¬ P.validSurface definition then (s, .error "invalid surface definition")
  else match s.target.validateSurface definition with
  | some reason => (s, .error reason)
  | none =>
    if definition.contextId ≠ identity.context.contextId ∨
        definition.surfaceId ≠ identity.surfaceId then
      (s, .error "surface owner does not match complete identity")
    else
      let s := s.invalidateTopology
      if (s.scenes.lookup identity.context.session).isNone then
        (s, .error "owning session does not exist")
      else if (s.surfaces.lookup identity).isSome then (s, .error "surface already exists")
      else
        let surface : Surface P :=
          { definition, revision := 1, generation := 1, activeSlots := .empty, lifecycle := 1 }
        (s.setSurface identity surface, .ok surface)

/-- The replacement changes how the surface's content maps to its node. -/
def mappingChanged (definition replacement : SurfaceDefinition P.Value) : Prop :=
  replacement.logicalWidth ≠ definition.logicalWidth ∨
    replacement.logicalHeight ≠ definition.logicalHeight ∨
    replacement.scaleNumerator ≠ definition.scaleNumerator ∨
    replacement.scaleDenominator ≠ definition.scaleDenominator ∨
    replacement.rotation ≠ definition.rotation ∨
    replacement.profileParameters ≠ definition.profileParameters

instance (definition replacement : SurfaceDefinition P.Value) :
    Decidable (mappingChanged definition replacement) :=
  inferInstanceAs (Decidable (_ ∨ _))

/-- Why a replacement is refused. -/
def refusesReplacement (identity : SurfaceIdentity) (surface : Surface P)
    (expectedRevision expectedGeneration : ℕ) (replacement : SurfaceDefinition P.Value) :
    Option String :=
  if surface.revision ≠ expectedRevision ∨ surface.generation ≠ expectedGeneration then
    some "stale surface revision or generation"
  else if replacement.contextId ≠ identity.context.contextId ∨
      replacement.surfaceId ≠ identity.surfaceId ∨
      replacement.semanticProfile ≠ surface.definition.semanticProfile ∨
      replacement.coordinateModel ≠ surface.definition.coordinateModel then
    some "surface update changes immutable identity or profile"
  else if replacement.policy &&& surface.definition.policy ≠ surface.definition.policy then
    some "surface policy update is not monotonic"
  else none

def updateSurface (identity : SurfaceIdentity) (expectedRevision expectedGeneration : ℕ)
    (replacement : SurfaceDefinition P.Value) : State P × Except String (Surface P) :=
  if ¬ P.validSurface replacement then (s, .error "invalid surface replacement")
  else match s.target.validateSurface replacement with
  | some reason => (s, .error reason)
  | none =>
    let s := s.invalidateCapture
    match s.surfaces.lookup identity with
    | none => (s, .error "surface does not exist")
    | some surface =>
      match refusesReplacement identity surface expectedRevision expectedGeneration
          replacement with
      | some reason => (s, .error reason)
      | none =>
        match P.advance surface.revision with
        | none => (s, .error "surface revision exhausted")
        | some revision =>
          -- the new revision is in place before the generation is asked for
          let updated := { surface with revision }
          if mappingChanged surface.definition replacement then
            match P.advance surface.generation with
            | none => (s.setSurface identity updated, .error "surface generation exhausted")
            | some generation =>
              let updated := { updated with generation, definition := replacement }
              (s.setSurface identity updated, .ok updated)
          else
            let updated := { updated with definition := replacement }
            (s.setSurface identity updated, .ok updated)

def destroySurface (identity : SurfaceIdentity) : State P × Except String Unit :=
  let s := s.invalidateTopology
  if (s.surfaces.lookup identity).isNone then (s, .error "surface does not exist")
  else
    let s := { s with
      surfaces := s.surfaces.erase identity
      tracks := s.tracks.filter fun entry => entry.1.surface ≠ identity }
    match s.scenes.lookup identity.context.session with
    | none => (s, .ok ())
    | some scene =>
      let nodes := scene.dropNodes identity
      let s' := s.setScene identity.context.session { scene with nodes }
      if nodes.size ≠ scene.nodes.size then
        match P.advance scene.revision with
        | none => (s', .error "scene revision exhausted")
        | some revision =>
          (s.setScene identity.context.session { scene with nodes, revision }, .ok ())
      else (s', .ok ())

/-- Why a track cannot be created. -/
def refusesConfiguration (identity : TrackIdentity) (configuration : TrackConfiguration) :
    Option String :=
  if ¬ P.validTrack configuration then some "invalid track configuration"
  else if configuration.contextId ≠ identity.surface.context.contextId ∨
      configuration.surfaceId ≠ identity.surface.surfaceId ∨
      configuration.trackId ≠ identity.trackId then
    some "track owner does not match complete identity"
  else if P.slotVector < configuration.slot ∧ configuration.slot < 32 then
    some "reserved surface slot"
  else if 32 ≤ configuration.slot then
    some "auxiliary slots are unsupported by the terminal target"
  else none

end State

/-- A slot with the track to put into it; no track clears the slot. -/
structure Binding where
  slot : ℕ
  trackId : ℕ
  expectedGeneration : ℕ
  requiredMilestone : Finset Milestone
  deriving DecidableEq

/-- A track before its first channel. -/
def Track.fresh (configuration : TrackConfiguration) : Track P where
  configuration := configuration
  state := P.newTrack
  lifecycle := 1
  frame := none
  lastDecodedPtsUs := none
  lastPresentedPtsUs := none
  lastPresentationId := 0
  lastMediaRecordSequence := 0
  maximumChannelBytes := 0
  maximumChannelRecords := 0
  playback := none
  metrics := {}
  audioGain := P.unityGain

namespace State

variable (s : State P)

def createTrack (identity : TrackIdentity) (configuration : TrackConfiguration) :
    State P × Except String (Track P) :=
  match refusesConfiguration (P := P) identity configuration with
  | some reason => (s, .error reason)
  | none =>
    let s := s.invalidateTopology
    if (s.surfaces.lookup identity.surface).isNone then (s, .error "owning surface does not exist")
    else if (s.tracks.lookup identity).isSome then (s, .error "track already exists")
    else (s.setTrack identity (.fresh configuration), .ok (.fresh configuration))

def destroyTrack (identity : TrackIdentity) : State P × Except String Unit :=
  let s := s.invalidateTopology
  if (s.tracks.lookup identity).isNone then (s, .error "track does not exist")
  else
    let s := { s with tracks := s.tracks.erase identity }
    match s.surfaces.lookup identity.surface with
    | none => (s, .ok ())
    | some surface =>
      let activeSlots := surface.activeSlots.filter fun entry => entry.2 ≠ identity.trackId
      let vacated := s.setSurface identity.surface { surface with activeSlots }
      -- only a vacated slot changes the surface
      if activeSlots.size ≠ surface.activeSlots.size then
        match P.advance surface.revision with
        | none => (vacated, .error "surface revision exhausted")
        | some revision =>
          (s.setSurface identity.surface { surface with activeSlots, revision }, .ok ())
      else (vacated, .ok ())

/-- Why a track cannot take the slot. -/
def refusesBinding (track : Track P) (binding : Binding) : Option String :=
  if track.lifecycle = 6 then some "track was lost before slot activation"
  else if track.configuration.slot ≠ binding.slot then
    some "track configuration does not permit the requested slot"
  else if track.state.channelGeneration ≠ binding.expectedGeneration then
    some "slot activation names a stale channel generation"
  else if binding.requiredMilestone.card ≠ 1 ∨
      track.state.milestones ∩ binding.requiredMilestone = ∅ then
    some "track has not reached the required activation milestone"
  else if track.lifecycle ≠ 1 then some "track lifecycle is not eligible for slot activation"
  else none

/-- The slots after one binding. -/
def bindSlot (surfaceIdentity : SurfaceIdentity) (candidate : SortedMap ℕ ℕ) (binding : Binding) :
    Except String (SortedMap ℕ ℕ) :=
  if P.slotVector < binding.slot ∨ binding.slot = 0 then .error "unsupported surface slot"
  else if binding.trackId = 0 then
    if binding.expectedGeneration ≠ 0 ∨ binding.requiredMilestone ≠ ∅ then
      .error "cleared slot has a generation or milestone"
    else .ok (candidate.erase binding.slot)
  else match (surfaceIdentity.track? P binding.trackId).bind s.tracks.lookup with
  | none => .error "track does not exist"
  | some track =>
    match refusesBinding track binding with
    | some reason => .error reason
    | none => .ok (candidate.insert binding.slot binding.trackId)

def bindSlots (surfaceIdentity : SurfaceIdentity) :
    SortedMap ℕ ℕ → List Binding → Except String (SortedMap ℕ ℕ)
  | candidate, [] => .ok candidate
  | candidate, binding :: bindings =>
    match s.bindSlot surfaceIdentity candidate binding with
    | .error reason => .error reason
    | .ok candidate => bindSlots surfaceIdentity candidate bindings

def activateTracks (surfaceIdentity : SurfaceIdentity) (expectedRevision : ℕ)
    (bindings : List Binding) : State P × Except String (Surface P) :=
  let s := s.invalidateTopology
  match s.surfaces.lookup surfaceIdentity with
  | none => (s, .error "surface does not exist")
  | some surface =>
    if surface.revision ≠ expectedRevision then (s, .error "stale surface revision")
    else match s.bindSlots surfaceIdentity surface.activeSlots bindings with
    | .error reason => (s, .error reason)
    | .ok activeSlots =>
      match P.advance surface.revision with
      | none =>
        (s.setSurface surfaceIdentity { surface with activeSlots },
          .error "surface revision exhausted")
      | some revision =>
        let surface := { surface with activeSlots, revision }
        (s.setSurface surfaceIdentity surface, .ok surface)

end State

namespace Track

variable (track : Track P)

/-- The channel is the track's current one and the track is live. -/
def isCurrent (generation : ℕ) : Prop :=
  track.state.channelGeneration = generation ∧ track.lifecycle = 1

instance (generation : ℕ) : Decidable (track.isCurrent generation) :=
  inferInstanceAs (Decidable (_ ∧ _))

def acceptChannel (generation maximumBytes maximumRecords : ℕ) :
    Track P × Except String Unit :=
  if ¬ track.isCurrent generation then (track, .error "stale channel generation")
  else
    let (state, accepted) := P.acceptChannel track.state generation maximumBytes maximumRecords
      track.configuration.maximumRecordBody
    if accepted then
      ({ track with
          state
          maximumChannelBytes := maximumBytes
          maximumChannelRecords := maximumRecords }, .ok ())
    else ({ track with state }, .error "channel flow is not admissible")

def acceptUplinkChannel (generation : ℕ) : Track P × Except String Unit :=
  if track.configuration.direction ≠ .uplink ∨ ¬ track.isCurrent generation ∨
      .channelAccepted ∈ track.state.milestones then
    (track, .error "microphone generation already attached or stale")
  else match P.advance track.state.revision with
  | none => (track, .error "track revision exhausted")
  | some revision =>
    ({ track with state := { track.state with revision, milestones := {.channelAccepted} } },
      .ok ())

def advanceChannel : Track P × Except String Unit :=
  match P.advance track.state.channelGeneration with
  | none => (track, .error "channel generation exhausted")
  | some next =>
    let (state, advanced) := P.advanceChannel track.state track.state.channelGeneration next
    if advanced then
      ({ track with
          state
          maximumChannelBytes := 0
          maximumChannelRecords := 0
          lastMediaRecordSequence := 0
          frame := none }, .ok ())
    else ({ track with state }, .error "channel generation could not advance")

def setAudioGain (gain : ℕ) : Track P × Except String Unit :=
  if track.configuration.kind ≠ .audio then (track, .error "audio gain requires an audio track")
  else ({ track with audioGain := gain } : Track P).advanceRevision

def detachChannel (generation : ℕ) : Track P × Except String Unit :=
  if ¬ track.isCurrent generation then (track, .error "stale channel generation")
  else
    let (state, detached) := P.detach track.state
    ({ track with state }, if detached then .ok () else .error "track revision exhausted")

def admitVectorAsset (generation bodyLength sequence : ℕ) : Track P × Except String Unit :=
  if ¬ track.isCurrent generation ∨ track.configuration.kind ≠ .vectorScene ∨
      sequence ≤ track.lastMediaRecordSequence ∨ sequence ≤ 1 then
    (track, .error "invalid vector asset attachment or sequence")
  else
    let (ingress, admitted) := P.admitBody track.state.ingress bodyLength
    let track := { track with state := { track.state with ingress } }
    if admitted then ({ track with lastMediaRecordSequence := sequence }, .ok ())
    else (track, .error "vector asset exceeds channel allowance")

def admitMedia (media : ReceivedMedia) (recordSequence : ℕ) : Track P × Except String Unit :=
  if ¬ track.isCurrent media.generation then (track, .error "stale channel generation")
  else
    let (state, admitted) := P.admitMedia track.state media
    if admitted then ({ track with state, lastMediaRecordSequence := recordSequence }, .ok ())
    else ({ track with state }, .error "stale media epoch, media ID, or flow allowance")

/-- What a decoded frame writes before the revision advances. -/
def decoded (frame : Frame) : Track P :=
  ({ track with
      lastDecodedPtsUs := some frame.ptsUs
      metrics := { track.metrics with
        decodedFrames := saturatingAdd track.metrics.decodedFrames 1 }
      frame := some frame } : Track P).reach .outputReady

/-- The track takes the frame; whether it replaces one. -/
def publishDecodedFrame (generation : ℕ) (frame : Frame) : Track P × Except String Bool :=
  if ¬ track.isCurrent generation then (track, .error "stale channel generation")
  else
    let (decoded, advanced) := (track.decoded frame).advanceRevision
    (decoded, advanced.map fun _ => track.frame.isSome)

def recordLateVideoDiscard (frames : ℕ) (requestedKeyframe : Bool) :
    Track P × Except String Unit :=
  ({ track with
      metrics := { track.metrics with
        discardedLateFrames := saturatingAdd track.metrics.discardedLateFrames frames
        latencyKeyframeRequests :=
          if requestedKeyframe then saturatingAdd track.metrics.latencyKeyframeRequests 1
          else track.metrics.latencyKeyframeRequests } }, .ok ())

def recordAudioRebase : Track P × Except String Unit :=
  ({ track with
      metrics := { track.metrics with
        audioRebases := saturatingAdd track.metrics.audioRebases 1 } }, .ok ())

/-- Lose the track, unless the channel is not its current one; whether it was lost. -/
def loseTrack (generation : ℕ) : Track P × Except String Bool :=
  if ¬ track.isCurrent generation then (track, .ok false)
  else
    let (state, lost) := P.lose { track.state with milestones := ∅ }
    ({ track with lifecycle := 6, state },
      if lost then .ok true else .error "track revision exhausted")

def markOutputReady (generation : ℕ) : Track P × Except String Unit :=
  if ¬ track.isCurrent generation then (track, .error "stale channel generation")
  else if .outputReady ∈ track.state.milestones then (track, .ok ())
  else (track.reach .outputReady).advanceRevision

def flushPlayback (newEpoch : ℕ) : Track P × Except String Unit :=
  if track.configuration.mode ≠ .timed ∨ newEpoch ≤ track.state.mediaEpoch then
    (track, .error "FLUSH requires a greater epoch on a timed track")
  else
    ({ track with
        playback := none
        frame := none
        state := { track.state with
          mediaEpoch := newEpoch
          milestones := track.state.milestones ∩ {.channelAccepted} } } : Track P).advanceRevision

def markEos (generation mediaEpoch lastMediaRecordSequence : ℕ) : Track P × Except String Unit :=
  if track.state.channelGeneration ≠ generation ∨ track.state.mediaEpoch ≠ mediaEpoch ∨
      track.lastMediaRecordSequence ≠ lastMediaRecordSequence then
    (track, .error "CHANNEL_EOS does not match accepted channel progress")
  else
    (({ track with playback := track.playback.map ({ · with eos := true }) } : Track P).reach
      .eosAccepted).advanceRevision

def markBufferedEnded (generation : ℕ) : Track P × Except String Unit :=
  if track.state.channelGeneration ≠ generation then (track, .error "stale channel generation")
  else ((track.reach .eosAccepted).reach .bufferedEnded).advanceRevision

def returnChannelCapacity (generation bodyBytes records : ℕ) :
    Track P × Except String (ℕ × ℕ) :=
  if ¬ track.isCurrent generation then (track, .error "stale channel generation")
  else
    let maximumBytes := P.maximumBodyBytes track.state.ingress + bodyBytes
    let maximumRecords := P.maximumMediaRecords track.state.ingress + records
    if u64Max < maximumBytes then (track, .error "channel byte maximum exhausted")
    else if u64Max < maximumRecords then (track, .error "channel record maximum exhausted")
    else
      ({ track with
          state := { track.state with
            ingress := P.raiseMaxima track.state.ingress maximumBytes maximumRecords }
          maximumChannelBytes := maximumBytes
          maximumChannelRecords := maximumRecords }, .ok (maximumBytes, maximumRecords))

end Track

end Vivido.Scene
