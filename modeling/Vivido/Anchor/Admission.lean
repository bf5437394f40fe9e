import Vivido.Authority.Sessions
import Vivido.Scene.Anchoring

/-!
The markers that a producer's text carries. A marker names its session by a tag,
is checked against the session's key and its contexts, and makes an anchor in
the scene. Which identities it has seen a connection keeps for itself.
-/

namespace Vivido.Anchor

open Scene Authority

def maxActiveAnchors : ℕ := 4096
def maxSeenAnchors : ℕ := 8192
def markerAdmissionRate : ℕ := maxActiveAnchors

/-- The parts of the protocol's library that markers rest on. -/
structure AnchorProtocol where
  AnchorKey : Type
  Authenticator : Type
  verify : AnchorKey → (sessionTag contextId anchorId : ℕ) → Authenticator → Bool
  TokenBucket : Type
  newBucket : (rate burst : ℕ) → TokenBucket
  /-- With whether it succeeds; a failed call can still change the bucket. -/
  replenish : TokenBucket → (elapsed : ℕ) → TokenBucket × Bool
  charge : TokenBucket → ℕ → TokenBucket × Bool
  /-- `OP_TERMINAL_ANCHOR`, as a mask of operation classes. -/
  terminalAnchor : ℕ

/-- Authenticators that all pass, and buckets that are never empty. -/
def AnchorProtocol.plain : AnchorProtocol where
  AnchorKey := Unit
  Authenticator := Unit
  verify _ _ _ _ _ := true
  TokenBucket := Unit
  newBucket _ _ := ()
  replenish bucket _ := (bucket, true)
  charge bucket _ := (bucket, true)
  terminalAnchor := 2

/-- A marker that is parsed. -/
structure Marker (A : AnchorProtocol) where
  sessionTag : ℕ
  contextId : ℕ
  anchorId : ℕ
  authenticator : A.Authenticator

/-- `MarkerAdmission`; instants are in microseconds. -/
structure MarkerAdmission (A : AnchorProtocol) where
  bucket : A.TokenBucket
  replenished : ℕ
  admitted : ℕ

variable {P : Protocol} {C : ContextProtocol} {A : AnchorProtocol}

namespace MarkerAdmission

def new (now : ℕ) : MarkerAdmission A :=
  { bucket := A.newBucket markerAdmissionRate 1, replenished := now, admitted := 0 }

/-- Admit one marker for verification, or refuse to do the work. -/
def admitMarker (markers : MarkerAdmission A) (now : ℕ) : MarkerAdmission A × Bool :=
  let elapsed := now - markers.replenished
  let (bucket, refilled) := A.replenish markers.bucket elapsed
  if ¬ refilled then ({ markers with bucket, replenished := now }, false)
  else
    let (bucket, charged) := A.charge bucket 1
    if ¬ charged then ({ markers with bucket, replenished := now }, false)
    else
      ({ markers with
          bucket
          replenished := now
          admitted := saturatingAdd markers.admitted 1 }, true)

end MarkerAdmission

/-- What a connection keeps of its session for markers: the part of `SessionRuntime`. -/
structure Runtime (A : AnchorProtocol) where
  sessionTag : ℕ
  anchorKey : A.AnchorKey
  seenAnchors : Finset (ℕ × ℕ) := ∅
  markers : MarkerAdmission A

/-- The sessions with their scene and their contexts, the registry of their connections, and which
anchors were made, in order. -/
structure Presenter (P : Protocol) (C : ContextProtocol) (A : AnchorProtocol) where
  sessions : Sessions P C
  acceptsAnchors : Bool
  runtimes : SortedMap SessionIdentity (Runtime A) := .empty
  byTag : SortedMap ℕ SessionIdentity := .empty
  /-- Sessions that have begun; none of them begins again. -/
  begun : Finset SessionIdentity := ∅
  admitted : List AnchorIdentity := []

/-- What happens. A marker comes at a time and a place, of one of the two screens. -/
inductive Act (P : Protocol) (C : ContextProtocol) (A : AnchorProtocol) where
  | marker (marker : Marker A) (now : ℕ) (position : Vivid.TextAnchor)
  /-- A session begins, or is resumed by a new connection. -/
  | establish (session : SessionIdentity) (operationClasses : ℕ) (contract : C.Contract)
      (targetGeneration sessionTag : ℕ) (anchorKey : A.AnchorKey) (now : ℕ)
  | lose (session : SessionIdentity) (ending : Ending)
  /-- Contexts come and go, and the scene changes. -/
  | session (act : Authority.Act P C)

/-- What is an act of its own here, or does not happen without a marker. -/
def isSeparate : Authority.Act P C → Bool
  | .establish _ _ _ _ | .lose _ _ => true
  | .elsewhere request | .control _ request => request.isAnchoring
  | _ => false

namespace Presenter

variable (x : Presenter P C A)

/-- `session_by_tag` -/
def sessionByTag (tag : ℕ) : Option (SessionIdentity × Runtime A) :=
  (x.byTag.lookup tag).bind fun session =>
    (x.runtimes.lookup session).map fun runtime => (session, runtime)

def setRuntime (session : SessionIdentity) (runtime : Runtime A) : Presenter P C A :=
  { x with runtimes := x.runtimes.insert session runtime }

/-- `insert_session` of a new connection. -/
def insertSession (session : SessionIdentity) (runtime : Runtime A) : Presenter P C A :=
  { x with
    byTag := x.byTag.insert runtime.sessionTag session
    runtimes := x.runtimes.insert session runtime }

/-- `remove_session`; the tag goes only where it still points here. -/
def removeSession (session : SessionIdentity) : Presenter P C A :=
  match x.runtimes.lookup session with
  | none => x
  | some runtime =>
    { x with
      runtimes := x.runtimes.erase session
      byTag :=
        if x.byTag.lookup runtime.sessionTag = some session then x.byTag.erase runtime.sessionTag
        else x.byTag }

def allowsAnchors (session : SessionIdentity) (contextId : ℕ) : Bool :=
  (x.sessions.tables.lookup session).any fun table =>
    (table.lookup contextId).any fun context => context.operationClasses &&& A.terminalAnchor ≠ 0

/-- The first part of `handle_terminal_marker`: the session of a marker that is to be looked at, and
the anchor that it names. -/
def verifyMarker (marker : Marker A) (now : ℕ) :
    Presenter P C A × Option (SessionIdentity × Runtime A × AnchorIdentity) :=
  if ¬ x.acceptsAnchors then (x, none)
  else
    match x.sessionByTag marker.sessionTag with
    | none => (x, none)
    | some (session, runtime) =>
      let (markers, admitted) := runtime.markers.admitMarker now
      let runtime := { runtime with markers }
      let x := x.setRuntime session runtime
      if ¬ admitted then (x, none)
      else if ¬ A.verify runtime.anchorKey marker.sessionTag marker.contextId marker.anchorId
            marker.authenticator ∨ ¬ x.allowsAnchors session marker.contextId then (x, none)
      else
        (x, (session.context? P marker.contextId).bind fun context =>
          (context.anchor? P marker.anchorId).map fun identity => (session, runtime, identity))

/-- The second part of `handle_terminal_marker`: an identity that was not seen makes an anchor. -/
def admitAnchor (session : SessionIdentity) (runtime : Runtime A) (identity : AnchorIdentity)
    (position : Vivid.TextAnchor) : Presenter P C A :=
  let id := (identity.context.contextId, identity.anchorId)
  if maxSeenAnchors ≤ runtime.seenAnchors.card then x
  else if id ∈ runtime.seenAnchors then x
  else
    let seenAnchors := insert id runtime.seenAnchors
    let x := x.setRuntime session { runtime with seenAnchors }
    if maxActiveAnchors < seenAnchors.card then x
    else
      match x.sessions.scene.addAnchor identity position with
      | (scene, .error _) => { x with sessions := { x.sessions with scene } }
      | (scene, .ok _) =>
        { x with sessions := { x.sessions with scene }, admitted := x.admitted ++ [identity] }

def handleTerminalMarker (marker : Marker A) (now : ℕ) (position : Vivid.TextAnchor) :
    Presenter P C A :=
  match x.verifyMarker marker now with
  | (x, none) => x
  | (x, some (session, runtime, identity)) => x.admitAnchor session runtime identity position

/-- The end of `establish_root_session`: the connection is new. The session is, or has a scene. -/
def establish (session : SessionIdentity) (operationClasses : ℕ) (contract : C.Contract)
    (targetGeneration sessionTag : ℕ) (anchorKey : A.AnchorKey) (now : ℕ) : Presenter P C A :=
  if session ∈ x.begun ∧ (x.sessions.scene.scenes.lookup session).isNone then x
  else
    let y := { x with
      sessions := x.sessions.establish session operationClasses contract targetGeneration }
    if C.isContext rootContextId operationClasses contract ∧
        ((x.sessions.scene.scenes.lookup session).isSome ∨ targetGeneration ≠ 0) then
      { y with begun := insert session y.begun }.insertSession session
        { sessionTag, anchorKey, markers := .new now }
    else y

def step : Act P C A → Presenter P C A
  | .marker marker now position => x.handleTerminalMarker marker now position
  | .establish session operationClasses contract targetGeneration sessionTag anchorKey now =>
    x.establish session operationClasses contract targetGeneration sessionTag anchorKey now
  | .lose session ending =>
    { x with sessions := x.sessions.step (.lose session ending) }.removeSession session
  | .session act => if isSeparate act then x else { x with sessions := x.sessions.step act }

/-- The presenter after a history that began without sessions. -/
def run (C : ContextProtocol) (A : AnchorProtocol) (target : PresentationTarget P)
    (acceptsAnchors : Bool) (history : List (Act P C A)) : Presenter P C A :=
  history.foldl step
    { sessions := { scene := .new target, tables := .empty }, acceptsAnchors }

theorem run_concat (target : PresentationTarget P) (acceptsAnchors : Bool)
    (history : List (Act P C A)) (act : Act P C A) :
    run C A target acceptsAnchors (history ++ [act]) =
      (run C A target acceptsAnchors history).step act :=
  List.foldl_append

end Presenter

end Vivido.Anchor
