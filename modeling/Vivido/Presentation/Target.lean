import Vivido.Automation.Hub

/-!
The two presentation targets, as far as their geometry goes. Each keeps the geometry in
effect with its generation, and a change that is queued for the next frame to announce.
The terminal's queue holds what it was when it was offered; the desktop's holds the
announcement itself.
-/

namespace Vivido.Presentation

open Automation (saturatingAdd)

structure DisplayGeometry where
  viewportWidth : ℕ
  viewportHeight : ℕ
  columns : ℕ
  rows : ℕ
  cellWidth : ℕ
  cellHeight : ℕ
  deriving DecidableEq, Repr

inductive Value where
  | unsigned (value : ℕ)
  | bool (value : Bool)
  | other (text : String)
  deriving DecidableEq, Repr

abbrev PayloadMap := List (ℕ × Value)

structure TargetChange where
  descriptor : PayloadMap
  generation : ℕ
  reason : ℕ
  deriving DecidableEq, Repr

/-! ### The terminal -/

/-- `MAX_ACTIVE_ANCHORS` -/
def maxActiveAnchors : ℕ := 4096

structure TerminalMetrics where
  geometry : DisplayGeometry
  generation : ℕ
  settled : Bool
  deriving DecidableEq, Repr

structure TerminalTarget where
  current : TerminalMetrics
  queued : Option TerminalMetrics
  deriving DecidableEq, Repr

namespace TerminalTarget

/-- `validate` -/
def valid (geometry : DisplayGeometry) : Bool :=
  !(geometry.viewportWidth == 0 || geometry.viewportHeight == 0 || geometry.columns == 0 ||
    geometry.rows == 0 || geometry.cellWidth == 0 || geometry.cellHeight == 0)

def new (geometry : DisplayGeometry) : Except String TerminalTarget :=
  if valid geometry then .ok ⟨⟨geometry, 1, true⟩, none⟩
  else .error "terminal target geometry must be positive"

def descriptorFor (geometry : DisplayGeometry) (settled : Bool) : PayloadMap :=
  [(0, .unsigned geometry.viewportWidth), (1, .unsigned geometry.viewportHeight),
    (2, .unsigned geometry.columns), (3, .unsigned geometry.rows),
    (4, .unsigned geometry.cellWidth), (5, .unsigned geometry.cellHeight), (6, .bool settled),
    (7, .unsigned 3), (8, .unsigned maxActiveAnchors)]

def descriptor (t : TerminalTarget) : PayloadMap :=
  descriptorFor t.current.geometry t.current.settled

def offerGeometry (t : TerminalTarget) (geometry : DisplayGeometry) : TerminalTarget × Option ℕ :=
  if !valid geometry then (t, none)
  else if t.current.geometry = geometry then (t, none)
  else if t.current.generation + 1 < 2 ^ 64 then
    let current := ⟨geometry, t.current.generation + 1, false⟩
    (⟨current, some current⟩, some (t.current.generation + 1))
  else (t, none)

def takeChange (t : TerminalTarget) (settledGeneration : Option ℕ) :
    TerminalTarget × Option TargetChange :=
  let queued := t.queued
  let t := { t with queued := none }
  let metrics? := match queued with
    | some metrics => some metrics
    | none => if settledGeneration = some t.current.generation then some t.current else none
  match metrics? with
  | none => (t, none)
  | some metrics =>
    let settled := decide (settledGeneration = some metrics.generation)
    let t := if settled && t.current.generation == metrics.generation then
      { t with current.settled := true } else t
    (t, some ⟨descriptorFor metrics.geometry settled, metrics.generation, 0x1f⟩)

end TerminalTarget

/-! ### The desktop -/

inductive Rotation where
  | none
  deriving DecidableEq, Repr

structure OutputDescriptor where
  outputId : ℕ
  originX : ℤ
  originY : ℤ
  width : ℕ
  height : ℕ
  scaleNumerator : ℕ
  scaleDenominator : ℕ
  rotation : Rotation
  primary : Bool
  deriving DecidableEq, Repr

structure DesktopDescriptor where
  originX : ℤ
  originY : ℤ
  width : ℕ
  height : ℕ
  outputs : List OutputDescriptor
  settled : Bool
  topologyRevision : ℕ
  deriving DecidableEq, Repr

inductive TargetTransition where
  | unchanged
  | settled (generation : ℕ)
  | advanced (generation reason : ℕ)
  deriving DecidableEq, Repr

/-- `DesktopTargetState` and the encoding of its descriptors. -/
structure DesktopProtocol where
  State : Type
  new : DesktopDescriptor → Option State
  current : State → DesktopDescriptor
  generation : State → ℕ
  offer : State → DesktopDescriptor → Option (State × TargetTransition)
  encode : DesktopDescriptor → PayloadMap
  /-- `reason::PRESENTATION_WINDOW` -/
  presentationWindow : ℕ

structure DesktopTarget (P : DesktopProtocol) where
  state : P.State
  queued : Option TargetChange

namespace DesktopTarget

variable {P : DesktopProtocol}

/-- One window becomes a virtual desktop with one output. -/
def describe (geometry : DisplayGeometry) (settled : Bool) (topologyRevision : ℕ) :
    Except String DesktopDescriptor :=
  if geometry.viewportWidth = 0 ∨ geometry.viewportHeight = 0 then
    .error "desktop target extent must be positive"
  else .ok {
    originX := 0
    originY := 0
    width := geometry.viewportWidth
    height := geometry.viewportHeight
    outputs := [{
      outputId := 1
      originX := 0
      originY := 0
      width := geometry.viewportWidth
      height := geometry.viewportHeight
      scaleNumerator := 1
      scaleDenominator := 1
      rotation := .none
      primary := true }]
    settled
    topologyRevision }

def new (P : DesktopProtocol) (geometry : DisplayGeometry) : Except String (DesktopTarget P) :=
  match describe geometry true 1 with
  | .error error => .error error
  | .ok descriptor =>
    match P.new descriptor with
    | none => .error "invalid desktop target"
    | some state => .ok ⟨state, none⟩

def descriptor (t : DesktopTarget P) : PayloadMap := P.encode (P.current t.state)

def offerGeometry (t : DesktopTarget P) (geometry : DisplayGeometry) :
    DesktopTarget P × Option ℕ :=
  let revision := saturatingAdd (P.current t.state).topologyRevision 1
  match describe geometry false revision with
  | .error _ => (t, none)
  | .ok next =>
    match P.offer t.state next with
    | none => (t, none)
    | some (state, .unchanged) => ({ t with state }, none)
    | some (state, .settled _) => ({ t with state }, none)
    | some (state, .advanced generation reason) =>
      (⟨state, some ⟨P.encode (P.current state), generation, reason⟩⟩, some generation)

def takeChange (t : DesktopTarget P) (settledGeneration : Option ℕ) :
    DesktopTarget P × Option TargetChange :=
  match t.queued with
  | some change => ({ t with queued := none }, some change)
  | none =>
    if settledGeneration ≠ some (P.generation t.state) then (t, none)
    else
      let settled := P.current t.state
      if settled.settled then (t, none)
      else
        match P.offer t.state { settled with settled := true } with
        | none => (t, none)
        | some (state, .unchanged) => ({ t with state }, none)
        | some (state, .settled generation) | some (state, .advanced generation _) =>
          ({ t with state },
            some ⟨P.encode (P.current state), generation, P.presentationWindow⟩)

end DesktopTarget

/-! ### Either of them -/

inductive Target (P : DesktopProtocol) where
  | terminal (target : TerminalTarget)
  | desktop (target : DesktopTarget P)

namespace Target

variable {P : DesktopProtocol}

def generation : Target P → ℕ
  | .terminal t => t.current.generation
  | .desktop t => P.generation t.state

def descriptor : Target P → PayloadMap
  | .terminal t => t.descriptor
  | .desktop t => t.descriptor

/-- Whether the geometry in effect is settled. -/
def settled : Target P → Bool
  | .terminal t => t.current.settled
  | .desktop t => (P.current t.state).settled

def offerGeometry : Target P → DisplayGeometry → Target P × Option ℕ
  | .terminal t, geometry => (.terminal (t.offerGeometry geometry).1, (t.offerGeometry geometry).2)
  | .desktop t, geometry => (.desktop (t.offerGeometry geometry).1, (t.offerGeometry geometry).2)

def takeChange : Target P → Option ℕ → Target P × Option TargetChange
  | .terminal t, generation =>
    (.terminal (t.takeChange generation).1, (t.takeChange generation).2)
  | .desktop t, generation => (.desktop (t.takeChange generation).1, (t.takeChange generation).2)

end Target

end Vivido.Presentation
