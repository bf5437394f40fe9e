import Mathlib.Data.Finset.Insert
import Mathlib.Data.Prod.Lex
import Vivido.Vivid.Scene

/-!
What the media scene knows of the wire protocol. Identities are complete: a
track names its surface, a surface its context, a context its session. The
library that owns the protocol stands outside the repository, so its checks and
its counters are the functions of a structure, and the target that gives a node
its place is one too.
-/

namespace Vivido.Scene

structure SessionIdentity where
  presenter : ℕ
  sessionId : ℕ
  deriving Repr

structure ContextIdentity where
  session : SessionIdentity
  contextId : ℕ
  deriving Repr

structure SurfaceIdentity where
  context : ContextIdentity
  surfaceId : ℕ
  deriving Repr

structure TrackIdentity where
  surface : SurfaceIdentity
  trackId : ℕ
  deriving Repr

structure NodeIdentity where
  context : ContextIdentity
  nodeId : ℕ
  deriving Repr

structure AnchorIdentity where
  context : ContextIdentity
  anchorId : ℕ
  deriving Repr

instance : LinearOrder SessionIdentity :=
  LinearOrder.lift' (fun s => toLex (s.presenter, s.sessionId)) fun ⟨_, _⟩ ⟨_, _⟩ h => by
    cases h
    rfl

instance : LinearOrder ContextIdentity :=
  LinearOrder.lift' (fun c => toLex (c.session, c.contextId)) fun ⟨_, _⟩ ⟨_, _⟩ h => by
    cases h
    rfl

instance : LinearOrder SurfaceIdentity :=
  LinearOrder.lift' (fun s => toLex (s.context, s.surfaceId)) fun ⟨_, _⟩ ⟨_, _⟩ h => by
    cases h
    rfl

instance : LinearOrder TrackIdentity :=
  LinearOrder.lift' (fun t => toLex (t.surface, t.trackId)) fun ⟨_, _⟩ ⟨_, _⟩ h => by
    cases h
    rfl

instance : LinearOrder NodeIdentity :=
  LinearOrder.lift' (fun n => toLex (n.context, n.nodeId)) fun ⟨_, _⟩ ⟨_, _⟩ h => by
    cases h
    rfl

instance : LinearOrder AnchorIdentity :=
  LinearOrder.lift' (fun a => toLex (a.context, a.anchorId)) fun ⟨_, _⟩ ⟨_, _⟩ h => by
    cases h
    rfl

instance : LawfulBEq AnchorIdentity := inferInstance

/-- One bit of a track's milestone mask; a mask is the set of its bits. -/
inductive Milestone where
  | channelAccepted
  | outputReady
  | presented
  | clockStarted
  | eosAccepted
  | bufferedEnded
  | channelDetached
  | trackLost
  | other (bit : ℕ)
  deriving DecidableEq, Repr

inductive TrackMode where
  | timed
  | live
  deriving DecidableEq, Repr

inductive TrackDirection where
  | downlink
  | uplink
  deriving DecidableEq, Repr

/-- `KindConfiguration`, without the parameters of each kind. -/
inductive TrackKind where
  | video
  | audio
  | raster
  | encodedImage
  | vectorScene
  | unknown
  deriving DecidableEq, Repr

structure TrackConfiguration where
  direction : TrackDirection := .downlink
  contextId : ℕ
  surfaceId : ℕ
  trackId : ℕ
  slot : ℕ
  mode : TrackMode
  kind : TrackKind
  maximumRecordBody : ℕ := 0
  deriving DecidableEq, Repr

/-- `TrackState`; `ingress` is the library's record of the flow and of the media received. -/
structure TrackState (ingress : Type) where
  revision : ℕ
  channelGeneration : ℕ
  mediaEpoch : ℕ
  milestones : Finset Milestone
  ingress : ingress
  deriving DecidableEq

structure ReceivedMedia where
  generation : ℕ
  bodyLength : ℕ
  epoch : ℕ
  mediaId : ℕ
  randomAccess : Bool
  deriving DecidableEq, Repr

/-- `PayloadMap` -/
abbrev PayloadMap (value : Type) := List (ℕ × value)

structure SurfaceDefinition (value : Type) where
  contextId : ℕ
  surfaceId : ℕ
  semanticProfile : String := ""
  coordinateModel : ℕ := 0
  logicalWidth : ℕ := 0
  logicalHeight : ℕ := 0
  scaleNumerator : ℕ := 1
  scaleDenominator : ℕ := 1
  rotation : ℕ := 0
  policy : ℕ := 0
  profileParameters : PayloadMap value := []
  deriving DecidableEq, Repr

structure SceneNode (value : Type) where
  owningContextId : ℕ
  nodeId : ℕ
  surfaceContextId : ℕ
  surfaceId : ℕ
  geometry : PayloadMap value
  zIndex : ℤ := 0
  visible : Bool := true
  clip : Option (PayloadMap value) := none
  deriving DecidableEq, Repr

/-- The protocol library. A counter has no next value once it is exhausted. A method of a
track's state can fail, and returns what it leaves of the state with whether it succeeded. -/
structure Protocol where
  Value : Type
  Ingress : Type
  [decValue : DecidableEq Value]
  [decIngress : DecidableEq Ingress]
  asU64 : Value → Option ℕ
  /-- `SessionIdentity::context` accepts the number. -/
  isContextId : ℕ → Bool
  isSurfaceId : ℕ → Bool
  isTrackId : ℕ → Bool
  isNodeId : ℕ → Bool
  isAnchorId : ℕ → Bool
  advance : ℕ → Option ℕ
  lt_of_advance : ∀ {n next : ℕ}, advance n = some next → n < next
  validSurface : SurfaceDefinition Value → Bool
  validTrack : TrackConfiguration → Bool
  /-- `vivid_sdk::SLOT_VECTOR` -/
  slotVector : ℕ
  /-- `POLICY_DENY_POSTER_RETENTION`, as the bit of a policy mask. -/
  denyPosterRetention : ℕ
  /-- `AudioGain::UNITY` -/
  unityGain : ℕ
  newTrack : TrackState Ingress
  acceptChannel : TrackState Ingress → (generation bytes records body : ℕ) →
    TrackState Ingress × Bool
  advanceChannel : TrackState Ingress → (current next : ℕ) → TrackState Ingress × Bool
  admitMedia : TrackState Ingress → ReceivedMedia → TrackState Ingress × Bool
  detach : TrackState Ingress → TrackState Ingress × Bool
  lose : TrackState Ingress → TrackState Ingress × Bool
  /-- `flow.admit` -/
  admitBody : Ingress → ℕ → Ingress × Bool
  maximumBodyBytes : Ingress → ℕ
  maximumMediaRecords : Ingress → ℕ
  raiseMaxima : Ingress → (bytes records : ℕ) → Ingress

attribute [instance] Protocol.decValue Protocol.decIngress

/-- A small library to run the scene with: numbers from one on, 64-bit counters, and channels
without a limit, of which only the current epoch is kept. -/
def Protocol.plain : Protocol where
  Value := ℕ
  Ingress := ℕ × ℕ
  asU64 := some
  isContextId n := n ≠ 0
  isSurfaceId n := n ≠ 0
  isTrackId n := n ≠ 0
  isNodeId n := n ≠ 0
  isAnchorId n := n ≠ 0
  advance n := if n < 2 ^ 64 - 1 then some (n + 1) else none
  lt_of_advance h := by
    split at h
    · cases h
      exact Nat.lt_succ_self _
    · cases h
  validSurface definition := definition.contextId ≠ 0 ∧ definition.surfaceId ≠ 0
  validTrack configuration := configuration.slot ≠ 0
  slotVector := 5
  denyPosterRetention := 2
  unityGain := 100
  newTrack :=
    { revision := 1, channelGeneration := 1, mediaEpoch := 0, milestones := ∅, ingress := (0, 0) }
  acceptChannel state _ bytes records _ :=
    ({ state with
        revision := state.revision + 1
        milestones := {.channelAccepted}
        ingress := (bytes, records) }, true)
  advanceChannel state _ next :=
    ({ state with
        revision := state.revision + 1
        channelGeneration := next
        mediaEpoch := 0
        milestones := ∅
        ingress := (0, 0) }, true)
  admitMedia state media := (state, decide (state.mediaEpoch ≤ media.epoch))
  detach state :=
    ({ state with revision := state.revision + 1, milestones := {.channelDetached} }, true)
  lose state := ({ state with revision := state.revision + 1, milestones := {.trackLost} }, true)
  admitBody ingress _ := (ingress, true)
  maximumBodyBytes ingress := ingress.1
  maximumMediaRecords ingress := ingress.2
  raiseMaxima _ bytes records := (bytes, records)

variable (P : Protocol)

/-- An exact identity of a kind, where the library accepts its number. -/
def SessionIdentity.context? (session : SessionIdentity) (contextId : ℕ) :
    Option ContextIdentity :=
  if P.isContextId contextId then some ⟨session, contextId⟩ else none

def ContextIdentity.surface? (context : ContextIdentity) (surfaceId : ℕ) :
    Option SurfaceIdentity :=
  if P.isSurfaceId surfaceId then some ⟨context, surfaceId⟩ else none

def ContextIdentity.node? (context : ContextIdentity) (nodeId : ℕ) : Option NodeIdentity :=
  if P.isNodeId nodeId then some ⟨context, nodeId⟩ else none

def ContextIdentity.anchor? (context : ContextIdentity) (anchorId : ℕ) : Option AnchorIdentity :=
  if P.isAnchorId anchorId then some ⟨context, anchorId⟩ else none

def SurfaceIdentity.track? (surface : SurfaceIdentity) (trackId : ℕ) : Option TrackIdentity :=
  if P.isTrackId trackId then some ⟨surface, trackId⟩ else none

/-- A clip rectangle in the target's placement space, as signed 32.32. -/
structure ClipRect where
  x : ℤ
  y : ℤ
  width : ℤ
  height : ℤ
  deriving DecidableEq, Repr

/-- Where a scene node sits, in the target's own placement units. -/
structure NodePlacement where
  x : ℤ
  y : ℤ
  width : ℤ
  height : ℤ
  textLayer : ℕ
  textAnchored : Bool
  deriving DecidableEq, Repr

/-- What the scene asks of a `PresentationTarget`. A check gives the reason it fails for. -/
structure PresentationTarget where
  validateSurface : SurfaceDefinition P.Value → Option String
  validateNode : SceneNode P.Value → Option String
  placement : SceneNode P.Value → Option NodePlacement
  clip : SceneNode P.Value → Option ClipRect

/-- A target that takes everything and gives each node one cell, at an anchor or at the origin. -/
def PresentationTarget.plain : PresentationTarget Protocol.plain where
  validateSurface _ := none
  validateNode _ := none
  placement node :=
    some ⟨0, 0, 1, 1, 0,
      node.geometry.any fun entry => entry.1 = 0 ∧ Protocol.plain.asU64 entry.2 = some 2⟩
  clip _ := none

variable {P}

variable {context : ContextIdentity} {surface : SurfaceIdentity}

theorem SurfaceIdentity.track?_surface {trackId : ℕ} {track : TrackIdentity}
    (h : surface.track? P trackId = some track) : track = ⟨surface, trackId⟩ := by
  unfold SurfaceIdentity.track? at h
  split at h
  · exact (Option.some_inj.mp h).symm
  · cases h

theorem ContextIdentity.node?_context {nodeId : ℕ} {node : NodeIdentity}
    (h : context.node? P nodeId = some node) : node = ⟨context, nodeId⟩ := by
  unfold ContextIdentity.node? at h
  split at h
  · exact (Option.some_inj.mp h).symm
  · cases h

theorem ContextIdentity.anchor?_context {anchorId : ℕ} {anchor : AnchorIdentity}
    (h : context.anchor? P anchorId = some anchor) : anchor = ⟨context, anchorId⟩ := by
  unfold ContextIdentity.anchor? at h
  split at h
  · exact (Option.some_inj.mp h).symm
  · cases h

theorem ContextIdentity.surface?_context {surfaceId : ℕ}
    (h : context.surface? P surfaceId = some surface) : surface = ⟨context, surfaceId⟩ := by
  unfold ContextIdentity.surface? at h
  split at h
  · exact (Option.some_inj.mp h).symm
  · cases h

theorem SessionIdentity.context?_session {session : SessionIdentity} {contextId : ℕ}
    (h : session.context? P contextId = some context) : context = ⟨session, contextId⟩ := by
  unfold SessionIdentity.context? at h
  split at h
  · exact (Option.some_inj.mp h).symm
  · cases h

end Vivido.Scene
