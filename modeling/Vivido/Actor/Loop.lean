import Vivido.Actor.Pending

/-!
The loop of a session's actor: a record is dispatched and answered at once,
entered as pending, or left to the text worker, and then the pending operations
are looked at. In between the scene is whatever other threads make of it. Of a
handler that answers at once only its answer is told here.
-/

namespace Vivido.Actor

open Scene

structure ControlError where
  code : ErrorCode
  message : String
  deriving DecidableEq, Repr

/-- `WAIT_TRACK`, with the track it names. -/
structure WaitTrack where
  identity : TrackIdentity
  channelGeneration : ℕ
  condition : ℕ
  conditionValue : Option ℕ
  timeoutUs : ℕ

/-- A control record as far as its envelope and its handler's checks have been read. -/
inductive Request (Output : Type) where
  /-- `output` is the audio output of the track, if it has one. -/
  | waitTrack (wait : Except ControlError WaitTrack) (output : Option Output)
  | cancelWait (target : Except ControlError ℕ)
  | drain (identity : Except ControlError TrackIdentity) (output : Option Output)
  /-- `MEASURE_OVERLAY_TEXT` or its batch; the error says why no worker started. -/
  | measureText (started : Except ControlError Unit)
  | goodbye (checked : Except ControlError Unit)
  /-- Any other type, with its handler's object and answer. -/
  | answered (answer : Except ControlError (ℕ × Answer))

structure Record (Output : Type) where
  requestId : ℕ
  objectId : ℕ
  request : Request Output

variable (P : Protocol) (Output : Type)

/-- The variables of the loop, the requests at the text worker, and what was taken and posted.
The pending operations are due between a record and the next one. -/
structure Loop where
  scene : State P
  pending : PendingSet Output
  cancelled : Finset ℕ := ∅
  measuring : List ℕ := []
  received : List ℕ := []
  replies : List Reply := []
  due : Bool := false
  ended : Bool := false

/-- What the loop does next, or what another thread does. -/
inductive Event where
  | receive (record : Record Output) (now : ℕ)
  /-- A wake or a timeout. -/
  | wake
  | service (now : ℕ) (drained : Pending Output → Option (Except String Unit))
  | elsewhere (scene : State P)
  /-- The text worker posts its answer. -/
  | measured (requestId objectId : ℕ) (answer : Answer)

variable {P} {Output}

namespace Loop

variable (mask : Finset Milestone → ℕ) (a : Loop P Output)

/-- `deliver`, into an egress that accepts. -/
def post (reply : Reply) : Loop P Output := { a with replies := a.replies ++ [reply] }

/-- `pending.register` with its error as a handler gives it. -/
def register (entry : Pending Output) : Loop P Output × Except ControlError (Option (ℕ × Answer)) :=
  match a.pending.register entry with
  | .ok pending => ({ a with pending }, .ok none)
  | .error .waits => (a, .error ⟨.limitExceeded, "registered wait capacity is exhausted"⟩)
  | .error .requests => (a, .error ⟨.limitExceeded, "pending request capacity is exhausted"⟩)

def waitTrack (record : Record Output) (now : ℕ) (wait : WaitTrack) (output : Option Output) :
    Loop P Output × Except ControlError (Option (ℕ × Answer)) :=
  match a.scene.evaluateTrackWait mask wait.identity wait.channelGeneration wait.condition
      wait.conditionValue with
  | .satisfied satisfied =>
    (a, .ok (some (record.objectId, .waitSatisfied wait.identity wait.condition satisfied)))
  | .notFound => (a, .error ⟨.notFound, "track does not exist"⟩)
  | .lost => (a, .error ⟨.badState, "track was lost while waiting"⟩)
  | .staleGeneration =>
    (a, .error ⟨.staleChannelGeneration, "track wait names a stale channel generation"⟩)
  | .notVisible => (a, .error ⟨.notVisible, "track has no eligible visible placement"⟩)
  | .pending =>
    a.register (.trackWait record.requestId record.objectId wait.identity wait.channelGeneration
      wait.condition wait.conditionValue (now + wait.timeoutUs)
      (if wait.condition = 6 then output else none))

def drain (record : Record Output) (identity : TrackIdentity) (output : Option Output) :
    Loop P Output × Except ControlError (Option (ℕ × Answer)) :=
  match a.scene.tracks.lookup identity with
  | none => (a, .error ⟨.notFound, "track does not exist"⟩)
  | some track =>
    match output with
    | some output =>
      a.register (.audioDrain record.requestId record.objectId identity
        track.state.channelGeneration output)
    | none =>
      let (scene, marked) :=
        a.scene.onTrack identity (·.markBufferedEnded track.state.channelGeneration)
      ({ a with scene },
        match marked with
        | .ok _ => .ok (some (record.objectId, .ok))
        | .error message => .error ⟨.badState, message⟩)

/-- `dispatch_control`: an answer for now, none yet, or an error. -/
def dispatchControl (record : Record Output) (now : ℕ) :
    Loop P Output × Except ControlError (Option (ℕ × Answer)) :=
  match record.request with
  | .waitTrack (.ok wait) output => a.waitTrack mask record now wait output
  | .cancelWait (.ok target) =>
    ({ a with cancelled := insert target a.cancelled }, .ok (some (record.objectId, .ok)))
  | .drain (.ok identity) output => a.drain record identity output
  | .measureText (.ok _) => ({ a with measuring := record.requestId :: a.measuring }, .ok none)
  | .goodbye (.ok _) => (a, .ok (some (0, .ok)))
  | .answered (.ok answer) => (a, .ok (some answer))
  | .waitTrack (.error error) _ | .cancelWait (.error error) | .drain (.error error) _
  | .measureText (.error error) | .goodbye (.error error) | .answered (.error error) =>
    (a, .error error)

/-- `dispatch_and_reply`, and the end of the loop. A request without a number is answered with a
fatal error. -/
def dispatchAndReply (record : Record Output) (now : ℕ) : Loop P Output :=
  if record.requestId = 0 then
    ({ a with received := 0 :: a.received, ended := true } : Loop P Output).post
      { requestId := 0
        objectId := record.objectId
        answer := .error .badMessage "control request ID must be nonzero" }
  else
    let (a, outcome) := a.dispatchControl mask record now
    let a := { a with
      received := record.requestId :: a.received
      due := true
      ended := match record.request with
        | .goodbye _ => true
        | _ => false }
    match outcome with
    | .ok none => a
    | .ok (some (objectId, answer)) => a.post { requestId := record.requestId, objectId, answer }
    | .error error =>
      a.post
        { requestId := record.requestId
          objectId := record.objectId
          answer := .error error.code error.message }

/-- The pending operations are looked at, and what is resolved is posted. -/
def service (now : ℕ) (drained : Pending Output → Option (Except String Unit)) :
    Loop P Output :=
  let serviced :=
    PendingSet.serviceEntries mask now drained a.scene a.cancelled a.pending.entries
  { a with
    scene := serviced.scene
    cancelled := serviced.cancelled
    pending := { a.pending with entries := serviced.kept }
    replies := a.replies ++ serviced.resolved
    due := false }

/-- One event; one that cannot happen now changes nothing. -/
def step (event : Event P Output) : Loop P Output :=
  if a.ended then a
  else match event with
  | .receive record now => if a.due then a else a.dispatchAndReply mask record now
  | .wake => { a with due := true }
  | .service now drained =>
    if a.due then
      if a.pending.entries = [] then { a with due := false } else a.service mask now drained
    else a
  | .elsewhere scene => { a with scene }
  | .measured requestId objectId answer =>
    if requestId ∈ a.measuring then
      ({ a with measuring := a.measuring.erase requestId } : Loop P Output).post
        { requestId, objectId, answer }
    else a

def run (events : List (Event P Output)) : Loop P Output := events.foldl (step mask) a

/-- The condition holds of each event of a run and the loop it comes to. -/
def Along (condition : Loop P Output → Event P Output → Prop) (a : Loop P Output) :
    List (Event P Output) → Prop
  | [] => True
  | event :: events => condition a event ∧ Along condition (a.step mask event) events

/-- A loop that begins, on a scene and with the granted numbers of waits and of requests. -/
def new (scene : State P) (maximumWaits maximumRequests : ℕ) : Loop P Output :=
  { scene, pending := { entries := [], maximumWaits, maximumRequests } }

/-- The requests that are pending, by their numbers. -/
def unanswered : List ℕ := a.pending.entries.map (·.requestId)

/-- The requests that are answered, once for each reply. -/
def answered : List ℕ := a.replies.map (·.requestId)

variable {mask} {a}

theorem run_append (earlier later : List (Event P Output)) :
    a.run mask (earlier ++ later) = (a.run mask earlier).run mask later :=
  List.foldl_append

theorem Along.concat {condition : Loop P Output → Event P Output → Prop}
    {events : List (Event P Output)} {event : Event P Output}
    (h : Along mask condition a (events ++ [event])) :
    Along mask condition a events ∧ condition (a.run mask events) event := by
  induction events generalizing a with
  | nil => exact ⟨trivial, h.1⟩
  | cons _ _ ih =>
    obtain ⟨hevents, hevent⟩ := ih h.2
    exact ⟨⟨h.1, hevents⟩, hevent⟩

end Loop

end Vivido.Actor
