import Vivido.Scene.State

/-!
Sessions come and go, and take their surfaces, tracks, nodes and anchors along.
A session that detaches leaves the posters it may leave. The terminal moves the
anchors with its text.
-/

namespace Vivido.Scene

variable {P : Protocol}

/-- What suspension leaves of a track. -/
def Track.suspend (track : Track P) : Track P :=
  { track with
    state := (P.detach track.state).1
    playback := none
    lastDecodedPtsUs := none }

/-- The context is one of those that are removed. -/
def ContextIdentity.isOf (context : ContextIdentity) (session : SessionIdentity)
    (contexts : List ℕ) : Prop :=
  context.session = session ∧ context.contextId ∈ contexts

instance (context : ContextIdentity) (session : SessionIdentity) (contexts : List ℕ) :
    Decidable (context.isOf session contexts) :=
  inferInstanceAs (Decidable (_ ∧ _))

namespace State

variable (s : State P)

/-- A greater target generation becomes that of all scenes. -/
def raiseTarget (targetGeneration : ℕ) : State P :=
  if s.targetGeneration < targetGeneration then
    { s with
      targetGeneration := targetGeneration
      scenes := s.scenes.mapValues fun _ scene =>
        { scene with targetGeneration := targetGeneration } }
  else s

def registerSession (session : SessionIdentity) (targetGeneration : ℕ) :
    State P × Except String Unit :=
  if targetGeneration = 0 then (s, .error "target generation must be nonzero")
  else
    let s := s.invalidateTopology
    if (s.scenes.lookup session).isSome then (s, .error "session already exists")
    else
      let s := s.raiseTarget targetGeneration
      (s.setScene session
        { revision := 0
          targetGeneration := s.targetGeneration
          nodes := .empty
          pending := .empty }, .ok ())

def advanceTargetGeneration (targetGeneration : ℕ) : State P :=
  let s := s.invalidateTopology
  { s with
    targetGeneration := max s.targetGeneration targetGeneration
    scenes := s.scenes.mapValues fun _ scene =>
      { scene with targetGeneration := max scene.targetGeneration targetGeneration } }

def removeSession (session : SessionIdentity) : State P :=
  let s := s.invalidateTopology
  { s with
    surfaces := s.surfaces.filter fun entry => entry.1.context.session ≠ session
    tracks := s.tracks.filter fun entry => entry.1.surface.context.session ≠ session
    scenes := s.scenes.erase session
    anchors := s.anchors.filter fun entry => entry.1.context.session ≠ session
    goneAnchors := s.goneAnchors.filter fun identity => identity.context.session ≠ session
    detachedSessions := s.detachedSessions.erase session
    retainedPosters := s.retainedPosters.filter fun poster =>
      poster.anchor.context.session ≠ session }

def suspendSession (session : SessionIdentity) : State P :=
  let s := s.invalidateTopology
  if (s.scenes.lookup session).isNone then s
  else
    { s with
      tracks := s.tracks.mapValues fun identity track =>
        if identity.surface.context.session = session then track.suspend else track }

def surfaceHasPresented (identity : SurfaceIdentity) : Bool :=
  match s.surfaces.lookup identity with
  | none => false
  | some surface =>
    match surface.activeSlots.lookup slotPrimaryVideo with
    | none => false
    | some trackId =>
      match identity.track? P trackId with
      | none => false
      | some key =>
        (s.tracks.lookup key).any fun track => .presented ∈ track.state.milestones

/-- The poster a node would leave, with its pixels. -/
def retainedPoster (session : SessionIdentity) (node : SceneNode P.Value) :
    Option (RetainedPoster × ℕ) :=
  if node.visible then
    (s.target.placement node).bind fun placement =>
      if placement.textAnchored then
        (nodeAnchorIdentity session node).bind fun anchor =>
          (s.anchors.lookup anchor).bind fun _ =>
            (nodeSurfaceIdentity session node).bind fun surfaceKey =>
              (s.surfaces.lookup surfaceKey).bind fun surface =>
                if surface.definition.policy &&& P.denyPosterRetention ≠ 0 then none
                else (s.selectTrack surfaceKey surface).bind fun (trackKey, track, frame) =>
                  if u64Max < frame.width * frame.height then none
                  else some
                    ({ anchor, trackKey
                       surfaceGeneration := surface.generation
                       channelGeneration := track.state.channelGeneration
                       x := placement.x
                       y := placement.y
                       width := placement.width
                       height := placement.height
                       textLayer := placement.textLayer
                       zIndex := node.zIndex
                       clip := s.target.clip node
                       frame
                       capturePolicy := surface.definition.policy },
                      frame.width * frame.height)
      else none
  else none

/-- Take the posters of the nodes, as far as their pixels and their number allow. -/
def collectPosters (session : SessionIdentity) (kept : ℕ) :
    List RetainedPoster → ℕ → List (SceneNode P.Value) → List RetainedPoster
  | posters, _, [] => posters
  | posters, pixels, node :: nodes =>
    match s.retainedPoster session node with
    | some (poster, more) =>
      if saturatingAdd pixels more ≤ maxRetainedPosterPixels ∧
          kept + posters.length < maxRetainedPosters then
        collectPosters session kept (posters ++ [poster]) (saturatingAdd pixels more) nodes
      else collectPosters session kept posters pixels nodes
    | none => collectPosters session kept posters pixels nodes

def detachSession (session : SessionIdentity) : State P :=
  let s := s.invalidateTopology
  match s.scenes.lookup session with
  | none => s
  | some scene =>
    let others := s.retainedPosters.filter fun poster => poster.anchor.context.session ≠ session
    let posters :=
      s.collectPosters session others.length [] 0 (scene.nodes.entries.map Prod.snd)
    let retainedAnchors := posters.map (·.anchor)
    gcDetachedSessions
      { s with
        surfaces := s.surfaces.filter fun entry => entry.1.context.session ≠ session
        tracks := s.tracks.filter fun entry => entry.1.surface.context.session ≠ session
        scenes := s.scenes.erase session
        anchors := s.anchors.filter fun entry =>
          entry.1.context.session ≠ session ∨ entry.1 ∈ retainedAnchors
        goneAnchors := s.goneAnchors.filter fun identity => identity.context.session ≠ session
        retainedPosters := others ++ posters
        detachedSessions :=
          if retainedAnchors = [] then s.detachedSessions.erase session
          else insert session s.detachedSessions }

def removeContexts (session : SessionIdentity) (contexts : List ℕ) : State P :=
  let s := s.invalidateTopology
  let s :=
    { s with
      surfaces := s.surfaces.filter fun entry => ¬ entry.1.context.isOf session contexts
      tracks := s.tracks.filter fun entry => ¬ entry.1.surface.context.isOf session contexts }
  let s := match s.scenes.lookup session with
    | none => s
    | some scene =>
      let nodes := scene.nodes.filter fun entry =>
        entry.1.context.contextId ∉ contexts ∧ entry.2.surfaceContextId ∉ contexts
      let pending := scene.pending.filter fun entry =>
        (ofLex entry.1).1.contextId ∉ contexts
      let revision := if nodes.size ≠ scene.nodes.size then
          (P.advance scene.revision).getD scene.revision
        else scene.revision
      s.setScene session { scene with revision, nodes, pending }
  gcDetachedSessions
    { s with
      anchors := s.anchors.filter fun entry => ¬ entry.1.context.isOf session contexts
      goneAnchors := s.goneAnchors.filter fun identity =>
        ¬ identity.context.isOf session contexts
      retainedPosters := s.retainedPosters.filter fun poster =>
        ¬ poster.anchor.context.isOf session contexts }

def addAnchor (identity : AnchorIdentity) (anchor : Vivid.TextAnchor) :
    State P × Except String Unit :=
  let s := s.invalidateTopology
  if (s.anchors.lookup identity).isSome ∨ identity ∈ s.goneAnchors then
    (s, .error "anchor identity was already used")
  else ({ s with anchors := s.anchors.insert identity anchor }, .ok ())

/-- Set the anchors that have a position, one after the other, and collect those without. -/
def moveAnchors : State P → List (AnchorIdentity × Option Vivid.TextAnchor) →
    State P × List AnchorIdentity
  | s, [] => (s, [])
  | s, (identity, position) :: positions =>
    match s.anchors.lookup identity, position with
    | some _, some anchor =>
      moveAnchors { s with anchors := s.anchors.insert identity anchor } positions
    | some _, none => ((moveAnchors s positions).1, identity :: (moveAnchors s positions).2)
    | none, _ => moveAnchors s positions

def applyAnchorResize (positions : List (AnchorIdentity × Option Vivid.TextAnchor)) :
    State P × List AnchorIdentity :=
  let (s, removed) := s.invalidateTopology.moveAnchors positions
  (s.removeAnchors removed, removed)

/-- Each anchor goes to what `update` gives; those it gives nothing for are removed. -/
def updateAnchors (update : Vivid.TextAnchor → Option Vivid.TextAnchor) :
    State P × List AnchorIdentity :=
  let removed := (s.anchors.entries.filter fun entry => (update entry.2).isNone).map Prod.fst
  let s := { s with
    anchors := s.anchors.mapValues fun _ anchor => (update anchor).getD anchor }
  (s.removeAnchors removed, removed)

def scrollAnchors (scroll : Terminal.PendingGridScroll) : State P × List AnchorIdentity :=
  if scroll.lines = 0 ∨ scroll.stop ≤ scroll.origin then (s, [])
  else s.invalidateTopology.updateAnchors (·.scroll scroll)

def clearTerminal : State P × List AnchorIdentity :=
  let s := s.invalidateTopology
  s.updateAnchors fun anchor =>
    if anchor.alternate = s.alternateScreen then none else some anchor

def setAlternateScreen (alternate : Bool) : State P × List AnchorIdentity :=
  if s.alternateScreen = alternate then (s, [])
  else
    let s := { s.invalidateTopology with alternateScreen := alternate }
    if alternate then (s, [])
    else s.updateAnchors fun anchor => if anchor.alternate then none else some anchor

end State

end Vivido.Scene
