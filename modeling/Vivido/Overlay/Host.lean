import Mathlib.Data.Finset.Image
import Mathlib.Data.Finset.Sort
import Vivido.Scene.Protocol
import Vivido.Support.OpenKeys
import Vivido.Support.SortedMap

/-!
The host of a pane's overlay windows: the scenes that producers submit for them,
what is composed and shown, and what else is kept for a window or its owner.
The windows themselves belong to the protocol's library.
-/

namespace Vivido.Overlay

open Vivido.Scene

/-- `SLOT_VECTOR` is the slot meant throughout. A window as the library gives it. -/
structure Window (Bounds : Type) where
  identity : SurfaceIdentity
  generation : ℕ
  revision : ℕ
  sceneRevision : ℕ
  bounds : Bounds

/-- What the host uses of the library's windows, and of what it only passes on. -/
structure OverlayProtocol where
  Windows : Type
  Bounds : Type
  Viewport : Type
  Scale : Type
  Compiled : Type
  Options : Type
  get : Windows → SurfaceIdentity → Option (Window Bounds)
  visible : Windows → List (Window Bounds)
  focus : Windows → Option SurfaceIdentity
  /-- `create`, or `update` where the expected revision is not 0 -/
  set : Windows → SurfaceIdentity → ℕ → ℕ → Options → Except String (Windows × ℕ)
  close : Windows → SurfaceIdentity → Windows
  revokeOwner : Windows → SessionIdentity → Windows
  publishScene : Windows → SurfaceIdentity → ℕ → ℕ → Windows
  /-- Of the scenes that are displayed, where the pointer has been seen. -/
  refreshHover : Windows → (SurfaceIdentity → Option Compiled) → Windows
  scale : Viewport → Scale

structure WindowAddress where
  contextId : ℕ
  surfaceId : ℕ
  generation : ℕ
  deriving DecidableEq, Repr

structure Submission where
  address : WindowAddress
  trackId : ℕ
  channelGeneration : ℕ
  epoch : ℕ
  revision : ℕ
  deriving DecidableEq, Repr

inductive PresentationOutcome where
  | presented
  | superseded
  deriving DecidableEq, Repr

structure SubmissionOutcome where
  submission : Submission
  outcome : PresentationOutcome
  deriving DecidableEq, Repr

/-- A submission and the session it is of. -/
abbrev Pending := SessionIdentity × Submission

/-- The surface that a submission is for. -/
def Pending.surface (key : Pending) : SurfaceIdentity :=
  ⟨⟨key.1, key.2.address.contextId⟩, key.2.address.surfaceId⟩

def Pending.track (key : Pending) : TrackIdentity := ⟨key.surface, key.2.trackId⟩

structure Semantics where
  sceneRevision : ℕ
  nodes : List ℕ
  deriving DecidableEq, Repr

/-- An `InputEvent` with an accessibility action of a node. -/
structure AccessibilityEvent where
  address : WindowAddress
  sceneRevision : ℕ
  node : ℕ
  action : ℕ
  deriving DecidableEq, Repr

structure EditorGeometry where
  address : WindowAddress
  sceneRevision : ℕ
  deriving DecidableEq, Repr

variable (P : OverlayProtocol)

structure Drawing where
  window : SurfaceIdentity
  windowRevision : ℕ
  revision : ℕ
  bounds : P.Bounds
  scale : P.Scale
  compiled : P.Compiled
  submission : Submission

/-- A drawing's submission, with the session of the drawing's window. -/
def Drawing.key {P : OverlayProtocol} (drawing : Drawing P) : Pending :=
  (drawing.window.context.session, drawing.submission)

/-- What happens to submissions. -/
inductive Event where
  | entered (key : Pending)
  | resolved (key : Pending) (outcome : PresentationOutcome)
  /-- The session's owner is removed. -/
  | dropped (key : Pending)
  /-- Drawings were composed in a presentation that is finished. -/
  | composed (keys : List Pending)
  deriving DecidableEq, Repr

/-- `Host`, without its counters and its retained assets. -/
structure Host where
  windows : P.Windows
  layouts : Finset (SurfaceIdentity × ℕ) := ∅
  layoutCharges : Finset (SessionIdentity × ℕ) := ∅
  textJobs : Finset SessionIdentity := ∅
  editor : Option (SurfaceIdentity × EditorGeometry) := none
  viewport : Option P.Viewport := none
  /-- `PendingAccessibility`, by surface -/
  accessibility : SortedMap SessionIdentity (List (ℕ × AccessibilityEvent)) := .empty
  semantics : SortedMap SurfaceIdentity Semantics := .empty
  /-- When is in microseconds. -/
  lastGesture : Option (SurfaceIdentity × ℕ) := none
  surfaces : Finset SurfaceIdentity := ∅
  scenes : SortedMap TrackIdentity (ℕ × ℕ × P.Compiled) := .empty
  submissions : SortedMap TrackIdentity Submission := .empty
  active : SortedMap SurfaceIdentity Submission := .empty
  accepted : SortedMap SurfaceIdentity ℕ := .empty
  pending : List Pending := []
  outcomes : SortedMap SessionIdentity (List SubmissionOutcome) := .empty
  overflow : Finset SessionIdentity := ∅
  displayed : SortedMap SurfaceIdentity (Drawing P) := .empty
  inflight : SortedMap SurfaceIdentity (Drawing P) := .empty
  viewportDirty : Finset SessionIdentity := ∅
  environmentDirty : Finset SessionIdentity := ∅
  actors : Finset SessionIdentity := ∅
  /-- The lanes with their generations; the deadline is not looked at here. -/
  lanes : SortedMap SessionIdentity ℕ := .empty
  log : List Event := []

/-- Windows in a table, which never have the focus nor know where the pointer is. -/
def OverlayProtocol.plain : OverlayProtocol where
  Windows := SortedMap SurfaceIdentity (Window Unit)
  Bounds := Unit
  Viewport := Unit
  Scale := Unit
  Compiled := Unit
  Options := Unit
  get := SortedMap.lookup
  visible windows := windows.entries.map Prod.snd
  focus _ := none
  set windows identity generation expectedRevision _ :=
    .ok (windows.insert identity ⟨identity, generation, expectedRevision + 1, 0, ()⟩,
      expectedRevision + 1)
  close := SortedMap.erase
  revokeOwner windows owner := windows.filter fun entry => entry.1.context.session ≠ owner
  publishScene windows identity _ revision :=
    windows.adjust identity fun window => { window with sceneRevision := revision }
  refreshHover windows _ := windows
  scale := id

/-- What the host asks the media scene: the track in a surface's vector slot if it is live, a
track's channel generation and its lifecycle. -/
structure SceneView where
  activeTrack : SurfaceIdentity → Option ℕ
  trackStatus : TrackIdentity → Option (ℕ × ℕ)
  /-- `admit_media` and `mark_output_ready` of the frame at hand -/
  admits : Except String Unit := .ok ()
  readies : Except String Unit := .ok ()

namespace Host

variable {P}
variable (h : Host P) (view : SceneView)

/-! ### Outcomes -/

def record (event : Event) : Host P := { h with log := h.log ++ [event] }

/-- `resolve`: only of what is pending, and then it is no more. -/
def resolve (owner : SessionIdentity) (submission : Submission) (outcome : PresentationOutcome) :
    Host P :=
  if (owner, submission) ∈ h.pending then
    { h.record (.resolved (owner, submission) outcome) with
      pending := h.pending.filter fun key => key ≠ (owner, submission)
      outcomes := h.outcomes.insert owner
        ((h.outcomes.lookup owner).getD [] ++ [⟨submission, outcome⟩]) }
  else h

/-- A drawing with the submission is reserved for the presentation under way. -/
def isInflight (key : Pending) : Bool := h.inflight.entries.any fun entry => entry.2.key = key

def supersede (owner : SessionIdentity) (submission : Submission) : Host P :=
  if h.isInflight (owner, submission) then h else h.resolve owner submission .superseded

/-- A new submission is pending. -/
def enter (key : Pending) : Host P :=
  { h.record (.entered key) with
    pending := if key ∈ h.pending then h.pending else h.pending ++ [key] }

/-! ### Removal -/

def retirePresentation (identity : SurfaceIdentity) : Host P :=
  let retired := (h.pending.filter fun key => key.surface = identity).foldl
    (fun h key => h.resolve key.1 key.2 .superseded) h
  { retired with
    displayed := retired.displayed.erase identity
    semantics := retired.semantics.erase identity
    inflight := retired.inflight.erase identity
    active := retired.active.erase identity
    submissions := retired.submissions.filter fun entry => entry.1.surface ≠ identity
    scenes := retired.scenes.filter fun entry => entry.1.surface ≠ identity }

def removeSurface (identity : SurfaceIdentity) : Host P :=
  let retired := { h with
    layouts := h.layouts.filter fun layout => layout.1 ≠ identity
    editor := h.editor.filter fun editor => editor.1 ≠ identity }.retirePresentation identity
  { retired with
    accepted := retired.accepted.erase identity
    windows := P.close retired.windows identity
    surfaces := retired.surfaces.erase identity }

/-- `remove_contexts`, with the surfaces in some order -/
def removeContexts (owner : SessionIdentity) (contexts : Finset ℕ) : Host P :=
  ((h.surfaces.filter fun id : SurfaceIdentity =>
    id.context.session = owner ∧ id.context.contextId ∈ contexts).sort (· ≤ ·)).foldl
      removeSurface h

def removeOwner (owner : SessionIdentity) : Host P :=
  { h with
    log := h.log ++ (h.pending.filter fun key => key.1 = owner).map .dropped
    layouts := h.layouts.filter fun layout => layout.1.context.session ≠ owner
    editor := h.editor.filter fun editor => editor.1.context.session ≠ owner
    windows := P.revokeOwner h.windows owner
    surfaces := h.surfaces.filter fun id => id.context.session ≠ owner
    scenes := h.scenes.filter fun entry => entry.1.surface.context.session ≠ owner
    submissions := h.submissions.filter fun entry => entry.1.surface.context.session ≠ owner
    active := h.active.filter fun entry => entry.1.context.session ≠ owner
    accepted := h.accepted.filter fun entry => entry.1.context.session ≠ owner
    displayed := h.displayed.filter fun entry => entry.1.context.session ≠ owner
    inflight := h.inflight.filter fun entry => entry.1.context.session ≠ owner
    pending := h.pending.filter fun key => key.1 ≠ owner
    outcomes := h.outcomes.erase owner
    overflow := h.overflow.erase owner
    viewportDirty := h.viewportDirty.erase owner
    actors := h.actors.erase owner
    lanes := h.lanes.erase owner }

/-- The surfaces that `remove_owner` returns. -/
def ownedSurfaces (owner : SessionIdentity) : Finset SurfaceIdentity :=
  h.surfaces.filter fun id => id.context.session = owner

def laneOpen (owner : SessionIdentity) (generation : ℕ) : Host P :=
  { h with
    lanes := h.lanes.insert owner generation
    viewportDirty := insert owner h.viewportDirty
    environmentDirty := insert owner h.environmentDirty }

def laneLost (owner : SessionIdentity) (generation : ℕ) : Host P :=
  if h.lanes.lookup owner = some generation then h.removeOwner owner else h

def removeTrack (identity : TrackIdentity) : Host P :=
  let removed := { h with scenes := h.scenes.erase identity }
  let removed :=
    match removed.submissions.lookup identity with
    | none => removed
    | some submission =>
      { removed with submissions := removed.submissions.erase identity }.supersede
        identity.surface.context.session submission
  { removed with
    active := removed.active.filter fun entry =>
      entry.1 ≠ identity.surface ∨ entry.2.trackId ≠ identity.trackId }

def trackLost (identity : TrackIdentity) (generation : ℕ) : Host P :=
  if (h.scenes.lookup identity).any fun scene => scene.1 = generation then h.removeTrack identity
  else h

/-! ### Windows -/

/-- `set_window` -/
def setWindow (identity : SurfaceIdentity) (generation expectedRevision : ℕ)
    (options : P.Options) : Except String (Host P × ℕ) :=
  match P.set h.windows identity generation expectedRevision options with
  | .error reason => .error reason
  | .ok (windows, revision) =>
    .ok ({ h with
      windows := P.refreshHover windows fun id => (h.displayed.lookup id).map (·.compiled) },
      revision)

/-- `SET_OVERLAY_WINDOW`, where the surface and the context are the session's. -/
def openWindow (identity : SurfaceIdentity) (generation expectedRevision : ℕ)
    (options : P.Options) : Host P × Except String ℕ :=
  if h.viewport.isNone then (h, .error "overlay viewport is unavailable")
  else if (h.lanes.lookup identity.context.session).isNone then
    (h, .error "overlay input lane is unavailable")
  else if expectedRevision = 0 ∧ identity ∈ h.surfaces then
    (h, .error "an overlay surface cannot be reopened after dismissal")
  else
    match h.setWindow identity generation expectedRevision options with
    | .error reason => (h, .error reason)
    | .ok (h, revision) => ({ h with surfaces := insert identity h.surfaces }, .ok revision)

/-- `MAX_CLIPBOARD_GESTURE_AGE` is `age`. -/
def authorizeClipboard (age now : ℕ) (id : SurfaceIdentity) : Except String Unit :=
  if (P.get h.windows id).isNone then .error "overlay window is absent"
  else if P.focus h.windows ≠ some id then
    .error "a clipboard write requires the focused overlay window"
  else
    match h.lastGesture with
    | some (window, since) =>
      if window = id then
        if now - since ≤ age then .ok ()
        else .error "the gesture authorizing this clipboard write is too old"
      else .error "a clipboard write requires a recent gesture in the same window"
    | none => .error "a clipboard write requires a recent gesture in the same window"

/-! ### Presentation -/

/-- The scene of a window that is drawn: the active track's, or the last that was displayed. -/
def drawingOf (viewport : P.Viewport) (window : Window P.Bounds) : Option (Drawing P) :=
  match view.activeTrack window.identity with
  | none => none
  | some trackId =>
    let track : TrackIdentity := ⟨window.identity, trackId⟩
    match view.trackStatus track with
    | none => none
    | some (channelGeneration, lifecycle) =>
      match h.scenes.lookup track with
      | none =>
        (h.displayed.lookup window.identity).map fun previous =>
          { previous with
            bounds := window.bounds
            windowRevision := window.revision
            scale := P.scale viewport }
      | some (generation, revision, compiled) =>
        if generation ≠ channelGeneration ∨ lifecycle ≠ 1 then none
        else
          (h.submissions.lookup track).map fun submission =>
            { window := window.identity
              windowRevision := window.revision
              revision
              bounds := window.bounds
              scale := P.scale viewport
              compiled
              submission }

/-- `drawing` -/
def drawings : List (Drawing P) :=
  match h.viewport with
  | none => []
  | some viewport => (P.visible h.windows).filterMap (h.drawingOf view viewport)

def syncActive (surface : SurfaceIdentity) : Host P :=
  match view.activeTrack surface with
  | none => h
  | some trackId =>
    let track : TrackIdentity := ⟨surface, trackId⟩
    match view.trackStatus track, h.scenes.lookup track with
    | some (channelGeneration, _), some (generation, _, _) =>
      if generation ≠ channelGeneration then h
      else
        match h.submissions.lookup track with
        | none => h
        | some submission =>
          let synced := { h with active := h.active.insert surface submission }
          match h.active.lookup surface with
          | none => synced
          | some old =>
            if old = submission then synced else synced.supersede surface.context.session old
    | _, _ => h

def prepare : Host P :=
  { h with
    inflight := (h.drawings view).foldl (fun inflight d => inflight.insert d.window d) .empty }

/-- What `finish` does about one of the reserved drawings. -/
def finishDrawing (presented : Bool) (surface : SurfaceIdentity) (drawing : Drawing P) : Host P :=
  let owner := surface.context.session
  let shown :=
    match P.get h.windows surface with
    | none => h
    | some window =>
      if presented && window.generation = drawing.submission.address.generation then
        let published :=
          if window.sceneRevision < drawing.revision then
            { h with
              windows := P.publishScene h.windows surface drawing.submission.address.generation
                drawing.revision }
          else h
        let resolved := published.resolve owner drawing.submission .presented
        { resolved with displayed := resolved.displayed.insert surface drawing }
      else h
  if shown.submissions.entries.any fun entry =>
      entry.1.surface = surface && entry.2 = drawing.submission then shown
  else shown.resolve owner drawing.submission .superseded

/-- `refresh_hover` -/
def refreshHover : Host P :=
  { h with windows := P.refreshHover h.windows fun id => (h.displayed.lookup id).map (·.compiled) }

def retireStaleSemantics : Host P :=
  { h with
    semantics := h.semantics.filter fun entry =>
      (h.displayed.lookup entry.1).any fun drawing => drawing.revision = entry.2.sceneRevision }

def finish (presented : Bool) : Host P :=
  let taken := { h with inflight := .empty }
  let taken :=
    if presented then taken.record (.composed (h.inflight.entries.map fun entry => entry.2.key))
    else taken
  (h.inflight.entries.foldl (fun h entry => h.finishDrawing presented entry.1 entry.2)
    taken).refreshHover.retireStaleSemantics

/-! ### Frames -/

def validateRevision (surface : SurfaceIdentity) (revision : ℕ) : Except String Unit :=
  match P.get h.windows surface with
  | none => .error "overlay window is absent"
  | some window =>
    if revision = 0 ∨ revision ≤ window.sceneRevision ∨
        (h.active.lookup surface).any fun active => revision ≤ active.revision then
      .error "overlay scene revision must advance across track replacement"
    else .ok ()

/-- The scenes of the surface's other tracks are given up. -/
def retireOthers (identity : TrackIdentity) : Host P :=
  (h.scenes.entries.filter fun entry =>
    entry.1.surface = identity.surface ∧ entry.1 ≠ identity).foldl
    (fun h entry =>
      let removed := { h with scenes := h.scenes.erase entry.1 }
      match removed.submissions.lookup entry.1 with
      | none => removed
      | some old =>
        { removed with submissions := removed.submissions.erase entry.1 }.supersede
          identity.surface.context.session old) h

/-- A compiled frame takes its place. -/
def install (identity : TrackIdentity) (generation revision : ℕ) (compiled : P.Compiled)
    (submission : Submission) : Host P :=
  let owner := identity.surface.context.session
  let h := h.retireOthers identity
  let installed :=
    { h with
      scenes := h.scenes.insert identity (generation, revision, compiled)
      accepted := h.accepted.insert identity.surface revision }.enter (owner, submission)
  let old := installed.submissions.lookup identity
  let installed := { installed with
    submissions := installed.submissions.insert identity submission }
  match old with
  | none => installed
  | some old => installed.supersede owner old

/-- The part of `VectorWorker::process` in which a compiled frame is submitted. -/
def submit (identity : TrackIdentity) (generation epoch revision : ℕ) (compiled : P.Compiled) :
    Host P × Except String Unit :=
  let surface := identity.surface
  let owner := surface.context.session
  if surface ∉ h.surfaces then (h, .error "vector surface has no overlay window")
  else if 256 ≤ (h.pending.filter fun key => key.1 = owner).length +
      ((h.outcomes.lookup owner).getD []).length then
    ({ h with overflow := insert owner h.overflow }, .error "overlay outcome capacity exhausted")
  else if (h.accepted.lookup surface).any fun accepted => revision ≤ accepted then
    (h, .error "scene revision must advance across all window tracks")
  else
    match P.get h.windows surface with
    | none => (h, .error "overlay window is absent")
    | some window =>
      let submission : Submission :=
        { address := ⟨surface.context.contextId, surface.surfaceId, window.generation⟩
          trackId := identity.trackId
          channelGeneration := generation
          epoch
          revision }
      let valid :=
        if view.activeTrack surface = some identity.trackId then h.validateRevision surface revision
        else .ok ()
      match valid, view.admits with
      | .error reason, _ => (h, .error reason)
      | .ok (), .error reason => (h, .error reason)
      | .ok (), .ok () =>
        let installed := h.install identity generation revision compiled submission
        match view.readies with
        | .error reason => (installed, .error reason)
        | .ok () => (installed.syncActive view surface, .ok ())

end Host

inductive Act where
  | submit (view : SceneView) (identity : TrackIdentity) (generation epoch revision : ℕ)
      (compiled : P.Compiled)
  /-- Tracks of a surface are activated. -/
  | activate (view : SceneView) (surface : SurfaceIdentity)
  | prepare (view : SceneView)
  | finish (presented : Bool)
  | removeTrack (identity : TrackIdentity)
  | trackLost (identity : TrackIdentity) (generation : ℕ)
  | removeSurface (identity : SurfaceIdentity)
  | removeContexts (owner : SessionIdentity) (contexts : Finset ℕ)
  | removeOwner (owner : SessionIdentity)
  | laneOpen (owner : SessionIdentity) (generation : ℕ)
  | laneLost (owner : SessionIdentity) (generation : ℕ)
  /-- `service_input` of a window that is dismissed -/
  | retire (identity : SurfaceIdentity)
  | openWindow (identity : SurfaceIdentity) (generation expectedRevision : ℕ) (options : P.Options)
  /-- The windows change otherwise: actions, focus, input. -/
  | windows (windows : P.Windows)
  | viewport (viewport : P.Viewport)
  /-- The outcomes of a session go to its producer. -/
  | deliver (owner : SessionIdentity)

namespace Host

variable {P}

def step (h : Host P) : Act P → Host P
  | .submit view identity generation epoch revision compiled =>
    (h.submit view identity generation epoch revision compiled).1
  | .activate view surface => h.syncActive view surface
  | .prepare view => h.prepare view
  | .finish presented => h.finish presented
  | .removeTrack identity => h.removeTrack identity
  | .trackLost identity generation => h.trackLost identity generation
  | .removeSurface identity => h.removeSurface identity
  | .removeContexts owner contexts => h.removeContexts owner contexts
  | .removeOwner owner => h.removeOwner owner
  | .laneOpen owner generation => h.laneOpen owner generation
  | .laneLost owner generation => h.laneLost owner generation
  | .retire identity => h.retirePresentation identity
  | .openWindow identity generation expectedRevision options =>
    (h.openWindow identity generation expectedRevision options).1
  | .windows windows => { h with windows }
  | .viewport viewport => { h with viewport := some viewport }
  | .deliver owner => { h with outcomes := h.outcomes.erase owner }

def run (windows : P.Windows) (acts : List (Act P)) : Host P := acts.foldl step { windows }

theorem run_concat (windows : P.Windows) (acts : List (Act P)) (act : Act P) :
    run windows (acts ++ [act]) = (run windows acts).step act :=
  List.foldl_append

end Host

end Vivido.Overlay
