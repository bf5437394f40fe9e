import Vivido.Scene.Sessions

/-!
What the renderer draws: the visible nodes of all sessions and the posters kept,
in the order of their layers. The list is built once and cached until the scene
drops it; a frame that replaces another goes into the cached list.
-/

namespace Vivido.Scene

variable {P : Protocol}

/-- Move a rectangle by its anchor. -/
def ClipRect.shift (clip : ClipRect) (dx dy : ℤ) : Option ClipRect :=
  (checkedAdd clip.x dx).bind fun x =>
    (checkedAdd clip.y dy).map fun y => { clip with x, y }

structure RenderSnapshot where
  topologyRevision : ℕ
  contentRevision : ℕ
  captureRevision : ℕ
  items : List RenderItem
  deriving DecidableEq, Repr

/-- Why a frame drawn did not count as presented. -/
inductive PresentationRejection where
  | superseded (reason : String)
  | failed (reason : String)
  deriving DecidableEq, Repr

namespace State

variable (s : State P)

/-- Where an anchor puts what stands at it; none where it is off the shown screen. -/
def anchorOffset (anchor : Option Vivid.TextAnchor) : Option (ℤ × ℤ) :=
  anchor.bind fun anchor =>
    if anchor.alternate ≠ s.alternateScreen then none
    else (fixedCells anchor.column).map fun x => (x, anchor.line * 2 ^ 32)

/-- The offset of a node, of which only one placed at an anchor has any. -/
def nodeOffset (session : SessionIdentity) (node : SceneNode P.Value) : Option (ℤ × ℤ) :=
  (nodeAnchorIdentity session node).bind fun identity => s.anchorOffset (s.anchors.lookup identity)

/-- A position and a clip, moved by an offset. -/
def positioned (x y : ℤ) (clip : Option ClipRect) (offset : ℤ × ℤ) :
    Option (ℤ × ℤ × Option ClipRect) :=
  (checkedAdd x offset.1).bind fun x =>
    (checkedAdd y offset.2).bind fun y =>
      match clip with
      | none => some (x, y, none)
      | some clip => (clip.shift offset.1 offset.2).map fun clip => (x, y, some clip)

/-- Where a node is drawn, and within which clip. -/
def nodePosition (session : SessionIdentity) (node : SceneNode P.Value)
    (placement : NodePlacement) : Option (ℤ × ℤ × Option ClipRect) :=
  if placement.textAnchored then
    (s.nodeOffset session node).bind (positioned placement.x placement.y (s.target.clip node))
  else some (placement.x, placement.y, s.target.clip node)

/-- The item a node draws. -/
def nodeItem (session : SessionIdentity) (node : SceneNode P.Value) : Option RenderItem :=
  if node.visible then
    (s.target.placement node).bind fun placement =>
      (s.nodePosition session node placement).bind fun (x, y, clip) =>
        (nodeSurfaceIdentity session node).bind fun surfaceKey =>
          (s.surfaces.lookup surfaceKey).bind fun surface =>
            (s.selectTrack surfaceKey surface).map fun (trackKey, track, frame) =>
              { trackKey, surfaceKey
                surfaceGeneration := surface.generation
                channelGeneration := track.state.channelGeneration
                x, y
                width := placement.width
                height := placement.height
                textAnchored := placement.textAnchored
                textLayer := placement.textLayer
                zIndex := node.zIndex
                clip, frame
                capturePolicy := surface.definition.policy }
  else none

/-- The item a poster draws. -/
def posterItem (poster : RetainedPoster) : Option RenderItem :=
  (s.anchorOffset (s.anchors.lookup poster.anchor)).bind fun offset =>
    (positioned poster.x poster.y poster.clip offset).map fun (x, y, clip) =>
      { trackKey := poster.trackKey
        surfaceKey := poster.trackKey.surface
        surfaceGeneration := poster.surfaceGeneration
        channelGeneration := poster.channelGeneration
        x, y
        width := poster.width
        height := poster.height
        textAnchored := true
        textLayer := poster.textLayer
        zIndex := poster.zIndex
        clip
        frame := poster.frame
        capturePolicy := poster.capturePolicy }

/-- The items of the nodes and of the posters, before they are sorted. -/
def items : List RenderItem :=
  (s.scenes.entries.flatMap fun entry =>
    entry.2.nodes.entries.filterMap fun node => s.nodeItem entry.1 node.2) ++
  s.retainedPosters.filterMap s.posterItem

/-- The order the items are drawn in. -/
def drawsBefore (a b : RenderItem) : Prop :=
  toLex (a.textLayer, a.zIndex) ≤ toLex (b.textLayer, b.zIndex)

instance : DecidableRel drawsBefore := fun _ _ => inferInstanceAs (Decidable (_ ≤ _))

/-- The render list built from the state alone. -/
def rebuild : List RenderItem := s.items.insertionSort drawsBefore

def snapshot : State P × RenderSnapshot :=
  let items := s.renderCache.getD s.rebuild
  ({ s with renderCache := some items },
    { topologyRevision := s.topologyRevision
      contentRevision := s.contentRevision
      captureRevision := s.captureRevision
      items })

end State

/-- What a presentation writes to a track; the identifier is written before the revision. -/
def Track.markPresented (track : Track P) (channelGeneration frameId : ℕ) (ptsUs : ℤ) :
    Track P × Except PresentationRejection Unit :=
  if track.state.channelGeneration ≠ channelGeneration ∨
      track.frame.all (·.frameId ≠ frameId) then
    (track, .error (.superseded "stale frame presentation"))
  else
    let track := { track with lastPresentedPtsUs := some ptsUs }
    if u64Max < track.lastPresentationId + 1 then
      (track, .error (.failed "presentation ID exhausted"))
    else
      let track : Track P := { track with lastPresentationId := track.lastPresentationId + 1 }
      match (track.reach .presented).advanceRevision with
      | (track, .error reason) => (track, .error (.failed reason))
      | (track, .ok ()) => (track, .ok ())

def State.markPresented (s : State P) (identity : TrackIdentity)
    (channelGeneration surfaceGeneration frameId : ℕ) (ptsUs : ℤ) :
    State P × Except PresentationRejection Unit :=
  match s.surfaces.lookup identity.surface with
  | none => (s, .ok ())
  | some surface =>
    if surface.generation ≠ surfaceGeneration then
      (s, .error (.superseded "stale surface generation"))
    else match s.tracks.lookup identity with
    | none => (s, .ok ())
    | some track =>
      (s.setTrack identity (track.markPresented channelGeneration frameId ptsUs).1,
        (track.markPresented channelGeneration frameId ptsUs).2)

end Vivido.Scene
