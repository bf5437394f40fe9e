import Mathlib.Data.Finset.Image
import Mathlib.Data.List.Sort
import Vivido.Scene.Protocol
import Vivido.Support.SortedMap

/-!
The state of a shared media scene: surfaces and their active tracks, the nodes
of each session, text anchors and the posters kept of sessions that left. What
the renderer draws is cached and a revision counts how often it was dropped.
-/

namespace Vivido.Scene

def slotPrimaryVideo : ℕ := 1
def slotRaster : ℕ := 3
def slotPoster : ℕ := 4

def u64Max : ℕ := 2 ^ 64 - 1

def maxRetainedPosterPixels : ℕ := 64 * 1024 * 1024
def maxRetainedPosters : ℕ := 256

/-- `saturating_add` on `u64` counts -/
def saturatingAdd (a b : ℕ) : ℕ := min (a + b) u64Max

def isI64 (n : ℤ) : Bool := -(2 ^ 63) ≤ n ∧ n < 2 ^ 63

/-- `i64::checked_add` -/
def checkedAdd (a b : ℤ) : Option ℤ := if isI64 (a + b) then some (a + b) else none

/-- Cells as a 32.32 number; the shift drops the bits above the word. -/
def fixedCells (cells : ℕ) : Option ℤ :=
  if cells < 2 ^ 63 then
    let shifted : ℕ := cells * 2 ^ 32 % 2 ^ 64
    some (if shifted < 2 ^ 63 then shifted else shifted - 2 ^ 64)
  else none

structure RasterDamageRect where
  x : ℕ
  y : ℕ
  width : ℕ
  height : ℕ
  deriving DecidableEq, Repr

structure Frame where
  frameId : ℕ
  ptsUs : ℤ
  width : ℕ
  height : ℕ
  sarNum : ℕ
  sarDen : ℕ
  alphaMode : ℕ := 1
  rgba : List UInt8
  damage : Option (List RasterDamageRect) := none
  deriving DecidableEq, Repr

/-- The checks made on a decoded frame; none where it passes. -/
def Frame.validate (frame : Frame) : Option String :=
  let expectedLen := frame.width * frame.height * 4
  if u64Max < expectedLen then some "decoded frame dimensions overflow"
  else if frame.width = 0 ∨ frame.height = 0 ∨ frame.rgba.length ≠ expectedLen ∨
      frame.sarNum = 0 ∨ frame.sarDen = 0 then some "invalid decoded frame"
  else none

structure RenderItem where
  trackKey : TrackIdentity
  surfaceKey : SurfaceIdentity
  surfaceGeneration : ℕ
  channelGeneration : ℕ
  x : ℤ
  y : ℤ
  width : ℤ
  height : ℤ
  textAnchored : Bool
  textLayer : ℕ
  zIndex : ℤ
  clip : Option ClipRect
  frame : Frame
  capturePolicy : ℕ
  deriving DecidableEq, Repr

structure TrackMetrics where
  decodedFrames : ℕ := 0
  discardedLateFrames : ℕ := 0
  latencyKeyframeRequests : ℕ := 0
  audioRebases : ℕ := 0
  deriving DecidableEq, Repr

/-- Instants and durations are in microseconds. -/
structure PlaybackClock where
  synchronizedPending : Bool
  startPtsUs : ℤ
  startMediaEpoch : ℕ
  startedAt : Option ℕ
  playedBeforePause : ℕ
  pausedPtsUs : Option ℤ
  eos : Bool
  deriving DecidableEq, Repr

def PlaybackClock.started (now : ℕ) (startPtsUs : ℤ) (startMediaEpoch : ℕ) : PlaybackClock where
  synchronizedPending := false
  startPtsUs := startPtsUs
  startMediaEpoch := startMediaEpoch
  startedAt := some now
  playedBeforePause := 0
  pausedPtsUs := none
  eos := false

variable (P : Protocol)

structure Surface where
  definition : SurfaceDefinition P.Value
  revision : ℕ
  generation : ℕ
  activeSlots : SortedMap ℕ ℕ
  lifecycle : ℕ
  deriving DecidableEq

structure Track where
  configuration : TrackConfiguration
  state : TrackState P.Ingress
  lifecycle : ℕ
  frame : Option Frame
  lastDecodedPtsUs : Option ℤ
  lastPresentedPtsUs : Option ℤ
  lastPresentationId : ℕ
  lastMediaRecordSequence : ℕ
  maximumChannelBytes : ℕ
  maximumChannelRecords : ℕ
  playback : Option PlaybackClock
  metrics : TrackMetrics
  audioGain : ℕ
  deriving DecidableEq

structure RetainedPoster where
  anchor : AnchorIdentity
  trackKey : TrackIdentity
  surfaceGeneration : ℕ
  channelGeneration : ℕ
  x : ℤ
  y : ℤ
  width : ℤ
  height : ℤ
  textLayer : ℕ
  zIndex : ℤ
  clip : Option ClipRect
  frame : Frame
  capturePolicy : ℕ
  deriving DecidableEq, Repr

inductive NodeMutation where
  | create (node : SceneNode P.Value)
  | update (node : SceneNode P.Value)
  | delete (identity : NodeIdentity)
  deriving DecidableEq

structure SessionScene where
  revision : ℕ
  targetGeneration : ℕ
  nodes : SortedMap NodeIdentity (SceneNode P.Value)
  pending : SortedMap (ContextIdentity ×ₗ ℕ) (List (NodeMutation P))
  deriving DecidableEq

/-- The scene's target and what its lock guards. A map is read in the order of its keys. -/
structure State where
  target : PresentationTarget P
  targetGeneration : ℕ := 0
  surfaces : SortedMap SurfaceIdentity (Surface P) := .empty
  tracks : SortedMap TrackIdentity (Track P) := .empty
  scenes : SortedMap SessionIdentity (SessionScene P) := .empty
  anchors : SortedMap AnchorIdentity Vivid.TextAnchor := .empty
  goneAnchors : Finset AnchorIdentity := ∅
  detachedSessions : Finset SessionIdentity := ∅
  retainedPosters : List RetainedPoster := []
  alternateScreen : Bool := false
  topologyRevision : ℕ := 0
  contentRevision : ℕ := 0
  captureRevision : ℕ := 0
  renderCache : Option (List RenderItem) := none

variable {P}

/-- Move a track to its next revision, if there is one. -/
def Track.advanceRevision (track : Track P) : Track P × Except String Unit :=
  match P.advance track.state.revision with
  | none => (track, .error "track revision exhausted")
  | some revision =>
    ({ track with state := { track.state with revision := revision } }, .ok ())

def Track.reach (track : Track P) (milestone : Milestone) : Track P :=
  { track with state :=
    { track.state with milestones := insert milestone track.state.milestones } }

namespace State

variable (s : State P)

def invalidateTopology : State P :=
  { s with topologyRevision := (s.topologyRevision + 1) % 2 ^ 64, renderCache := none }

def invalidateCapture : State P :=
  ({ s with captureRevision := (s.captureRevision + 1) % 2 ^ 64 } : State P).invalidateTopology

def advanceContent : State P := { s with contentRevision := (s.contentRevision + 1) % 2 ^ 64 }

end State

/-- Put the frame into the items of the track. -/
def replaceFrames (identity : TrackIdentity) (frame : Frame) (items : List RenderItem) :
    List RenderItem :=
  items.map fun item => if item.trackKey = identity then { item with frame := frame } else item

namespace State

def replaceCachedFrame (s : State P) (identity : TrackIdentity) (frame : Frame) : State P :=
  { s.advanceContent with renderCache := s.renderCache.map (replaceFrames identity frame) }

def setSurface (s : State P) (identity : SurfaceIdentity) (surface : Surface P) : State P :=
  { s with surfaces := s.surfaces.insert identity surface }

def setTrack (s : State P) (identity : TrackIdentity) (track : Track P) : State P :=
  { s with tracks := s.tracks.insert identity track }

def setScene (s : State P) (session : SessionIdentity) (scene : SessionScene P) : State P :=
  { s with scenes := s.scenes.insert session scene }

/-- Work on a track that must exist. What is written before a failure stays written. -/
def onTrack {α : Type} (s : State P) (identity : TrackIdentity)
    (work : Track P → Track P × Except String α) (missing : String := "track does not exist") :
    State P × Except String α :=
  match s.tracks.lookup identity with
  | none => (s, .error missing)
  | some track => (s.setTrack identity (work track).1, (work track).2)

end State

/-- `geometry.iter().find(..)?.1.as_u64()?` -/
def SceneNode.geometryU64 (node : SceneNode P.Value) (key : ℕ) : Option ℕ :=
  (node.geometry.find? fun entry => entry.1 = key).bind fun entry => P.asU64 entry.2

/-- The anchor a node is placed at, if any. -/
def nodeAnchorIdentity (session : SessionIdentity) (node : SceneNode P.Value) :
    Option AnchorIdentity :=
  match node.geometryU64 0 with
  | some 2 =>
    (node.geometryU64 6).bind fun contextId =>
      (node.geometryU64 7).bind fun anchorId =>
        (session.context? P contextId).bind fun context => context.anchor? P anchorId
  | _ => none

/-- The surface a node shows. -/
def nodeSurfaceIdentity (session : SessionIdentity) (node : SceneNode P.Value) :
    Option SurfaceIdentity :=
  (session.context? P node.surfaceContextId).bind fun context =>
    context.surface? P node.surfaceId

namespace State

/-- Forget the detached sessions without posters. -/
def gcDetachedSessions (s : State P) : State P :=
  let gone := s.detachedSessions.filter fun session =>
    ∀ poster ∈ s.retainedPosters, poster.anchor.context.session ≠ session
  { s with
    detachedSessions := s.detachedSessions \ gone
    anchors := s.anchors.filter fun entry => entry.1.context.session ∉ gone
    goneAnchors := s.goneAnchors.filter fun identity => identity.context.session ∉ gone }

/-- Nodes and posters go with their anchors. -/
def removeAnchors (s : State P) (removed : List AnchorIdentity) : State P :=
  if removed = [] then s
  else
    gcDetachedSessions
      { s with
        anchors := s.anchors.filter fun entry => entry.1 ∉ removed
        goneAnchors := s.goneAnchors ∪ removed.toFinset
        scenes := s.scenes.mapValues fun session scene =>
          { scene with
            nodes := scene.nodes.filter fun entry =>
              (nodeAnchorIdentity session entry.2).all (· ∉ removed) }
        retainedPosters := s.retainedPosters.filter (·.anchor ∉ removed) }

/-- The track a surface shows, with its frame. -/
def selectTrack (s : State P) (surfaceKey : SurfaceIdentity) (surface : Surface P) :
    Option (TrackIdentity × Track P × Frame) :=
  [slotPrimaryVideo, slotRaster, slotPoster].findSome? fun slot =>
    (surface.activeSlots.lookup slot).bind fun trackId =>
      (surfaceKey.track? P trackId).bind fun key =>
        (s.tracks.lookup key).bind fun track =>
          if track.lifecycle = 1 then track.frame.map (key, track, ·) else none

end State

end Vivido.Scene
