import Mathlib.Order.Nat
import Vivido.Support.SortedMap
import Vivido.Support.Since

/-!
The hub of automation events: what is published is offered to the subscribers
that it matches and kept for a while, so that a client that comes back can have
it replayed. Events go into the bounded queue of the subscriber's connection,
from which the connection's writer takes them.
-/

namespace Vivido.Automation

/-- `MAX_SUBSCRIBER_EVENTS` -/
def maxSubscriberEvents : ℕ := 2048

/-- `MAX_REPLY_FRAME_BYTES` -/
def maxReplyFrameBytes : ℕ := 16 * 1024 * 1024

/-- `OUTPUT_QUEUE_FRAMES`, with `MAX_IN_FLIGHT_REQUESTS` -/
def outputQueueFrames : ℕ := maxSubscriberEvents + 64

/-- `MAX_SUBSCRIPTIONS` -/
def maxSubscriptions : ℕ := 32

/-- `EVENT_REPLAY_BYTES` -/
def eventReplayBytes : ℕ := 4 * 1024 * 1024

/-- `EVENT_REPLAY_COUNT` -/
def eventReplayCount : ℕ := 4096

/-- `EVENT_KINDS` -/
def eventKinds : List String :=
  ["screen_changed", "output", "frame_presented", "title_changed", "directory_changed",
    "progress_changed", "focus_changed", "resized", "moved", "bell", "child_exit",
    "window_created", "window_closed", "client_fault", "client_recovered", "overflow"]

/-- `u64::saturating_add`, and `usize::saturating_add` -/
def saturatingAdd (a b : ℕ) : ℕ := min (a + b) (2 ^ 64 - 1)

variable {V : Type}

inductive Payload (V : Type) where
  | value (value : V)
  /-- What a client is sent that asks for more than is kept. -/
  | gap (requested oldest current : ℕ)
  deriving DecidableEq, Repr

structure StoredEvent (V : Type) where
  sequence : ℕ
  windowId : Option ℕ
  kind : String
  payload : Payload V
  encodedSize : ℕ
  deriving DecidableEq, Repr

/-- The `event` of an envelope. -/
inductive Body (V : Type) where
  | stored (kind : String) (payload : Payload V)
  | dropped (first last : ℕ)
  deriving DecidableEq, Repr

/-- `SubscriptionEventEnvelope` -/
structure Envelope (V : Type) where
  subscriptionId : ℕ
  eventSequence : ℕ
  windowId : Option ℕ
  event : Body V
  deriving DecidableEq, Repr

/-- The sizes of things. A frame has its newline, and has no size if it cannot be serialized. -/
structure Wire (V : Type) where
  /-- `StoredPayload::encoded_size` -/
  encodedSize : V → ℕ
  frame : Envelope V → Option ℕ
  /-- The reply to `subscribe`, of the subscription's number and the events' last. -/
  subscribed : ℕ → ℕ → Option ℕ
  /-- The reply that another one is too large. -/
  tooLarge : Option ℕ

/-! ### Connections -/

inductive QueueError where
  | tooLarge
  | full
  | closed
  | serialize
  deriving DecidableEq, Repr

/-- The output end of a client's connection, with what has been written to the client. A frame that
holds a subscriber's slot has its key, and the envelope. -/
structure Connection (V : Type) where
  alive : Bool := true
  /-- The writer still receives. -/
  serving : Bool := true
  output : List (Option (ℕ × Envelope V)) := []
  writing : Option (Option (ℕ × Envelope V)) := none
  read : List (Option (ℕ × Envelope V)) := []
  deriving DecidableEq, Repr

namespace Connection

variable (c : Connection V)

def isConnected : Bool := c.alive && c.serving

/-- What the client has read and what is on its way, in order. -/
def frames : List (Option (ℕ × Envelope V)) := c.read ++ c.writing.toList ++ c.output

/-- The envelopes among them that are one subscriber's. -/
def sent (key : ℕ) : List (Envelope V) :=
  c.frames.filterMap fun frame =>
    frame.bind fun slot => if slot.1 = key then some slot.2 else none

/-- `queue_json_with_slot` -/
def queueJson (size : Option ℕ) (slot : Option (ℕ × Envelope V)) :
    Connection V × Option QueueError :=
  if !c.alive then (c, some .closed)
  else
    match size with
    | none => (c, some .serialize)
    | some size =>
      if maxReplyFrameBytes < size then (c, some .tooLarge)
      else if !c.serving then (c, some .closed)
      else if outputQueueFrames ≤ c.output.length then (c, some .full)
      else ({ c with output := c.output ++ [slot] }, none)

def close : Connection V := { c with alive := false }

/-- `finish_request`: a reply that cannot be queued closes the connection. -/
def finishRequest (size tooLarge : Option ℕ) : Connection V :=
  if !c.alive then c
  else
    match c.queueJson size none with
    | (c, none) => c
    | (c, some .closed) => c
    | (c, some .tooLarge) =>
      match c.queueJson tooLarge none with
      | (c, none) => c
      | (c, some _) => c.close
    | (c, some _) => c.close

end Connection

/-! ### Subscribers -/

/-- A subscriber, with the place among all events at which it begins. The key stands for the
counter of its slots. -/
structure Subscriber where
  id : ℕ
  key : ℕ
  connection : ℕ
  windowId : Option ℕ
  allWindows : Bool
  kinds : List String
  overflow : Option (ℕ × ℕ) := none
  queuedEvents : ℕ := 0
  start : ℕ
  deriving DecidableEq, Repr

namespace Subscriber

variable (W : Wire V) (sub : Subscriber) (c : Connection V)

/-- `matches` -/
def wants (event : StoredEvent V) : Bool :=
  if sub.kinds ≠ [] ∧ event.kind ∉ sub.kinds then false
  else if sub.allWindows then true
  else event.windowId = sub.windowId

/-- `IpcConnection::event`, with the reservation of a slot. -/
def event (envelope : Envelope V) : Connection V × Subscriber × Bool :=
  if maxSubscriberEvents ≤ sub.queuedEvents then (c, sub, false)
  else
    match c.queueJson (W.frame envelope) (some (sub.key, envelope)) with
    | (c, none) => (c, { sub with queuedEvents := sub.queuedEvents + 1 }, true)
    | (c, some _) => (c, sub, false)

def overflowEnvelope (first last : ℕ) : Envelope V where
  subscriptionId := sub.id
  eventSequence := last
  windowId := sub.windowId
  event := .dropped first last

def envelope (event : StoredEvent V) : Envelope V where
  subscriptionId := sub.id
  eventSequence := event.sequence
  windowId := event.windowId
  event := .stored event.kind event.payload

/-- The second half of `send`. -/
def sendEvent (event : StoredEvent V) : Connection V × Subscriber :=
  match sub.event W c (sub.envelope event) with
  | (c, sub, true) => (c, sub)
  | (c, sub, false) =>
    (c, { sub with overflow := match sub.overflow with
      | some (start, _) => some (start, event.sequence)
      | none => some (event.sequence, event.sequence) })

def send (event : StoredEvent V) : Connection V × Subscriber :=
  match sub.overflow with
  | none => sub.sendEvent W c event
  | some (start, last) =>
    match sub.event W c (sub.overflowEnvelope start last) with
    | (c, sub, false) => (c, { sub with overflow := some (start, event.sequence) })
    | (c, sub, true) => { sub with overflow := none }.sendEvent W c event

/-- One event after the other, those that it wants. -/
def sendAll (sub : Subscriber) (c : Connection V) :
    List (StoredEvent V) → Connection V × Subscriber
  | [] => (c, sub)
  | event :: events =>
    if sub.wants event then
      let sent := sub.send W c event
      sendAll sent.2 sent.1 events
    else sendAll sub c events

end Subscriber

/-! ### The hub -/

/-- The hub and the connections, with the events that are no longer kept. -/
structure AutomationHub (V : Type) where
  eventSequence : ℕ := 0
  replay : List (StoredEvent V) := []
  replayBytes : ℕ := 0
  subscribers : List (Subscriber) := []
  nextSubscriptionId : ℕ := 0
  /-- How many subscriptions there have been. -/
  subscribed : ℕ := 0
  connections : SortedMap ℕ (Connection V) := .empty
  evicted : List (StoredEvent V) := []
  /-- A loop has been entered that does not end. -/
  hung : Bool := false

structure SubscriptionRequest where
  target : Option ℕ
  allWindows : Bool
  kinds : List String
  sinceEvent : Option ℕ
  deriving DecidableEq, Repr

namespace AutomationHub

variable (W : Wire V) (s : AutomationHub V)

/-- All events that were ever published. -/
def published : List (StoredEvent V) := s.evicted ++ s.replay

def isConnected (id : ℕ) : Bool := (s.connections.lookup id).any (·.isConnected)

/-- An event is offered to each subscriber. -/
def deliver (event : StoredEvent V) :
    SortedMap ℕ (Connection V) → List (Subscriber) → SortedMap ℕ (Connection V) × List (Subscriber)
  | connections, [] => (connections, [])
  | connections, sub :: subs =>
    match connections.lookup sub.connection with
    | none =>
      let rest := deliver event connections subs
      (rest.1, sub :: rest.2)
    | some c =>
      if sub.wants event then
        let sent := sub.send W c event
        let rest := deliver event (connections.insert sub.connection sent.1) subs
        (rest.1, sent.2 :: rest.2)
      else
        let rest := deliver event connections subs
        (rest.1, sub :: rest.2)

/-- The loop that makes room: what is kept, its bytes, and what goes. None where an empty buffer
would be asked for more. -/
def evict : List (StoredEvent V) → ℕ → Option (List (StoredEvent V) × ℕ × List (StoredEvent V))
  | [], bytes => if eventReplayBytes < bytes then none else some ([], bytes, [])
  | oldest :: rest, bytes =>
    if eventReplayCount < (oldest :: rest).length ∨ eventReplayBytes < bytes then
      (evict rest (bytes - oldest.encodedSize)).map fun kept =>
        (kept.1, kept.2.1, oldest :: kept.2.2)
    else some (oldest :: rest, bytes, [])

/-- `emit_payload` -/
def emitPayload (windowId : Option ℕ) (kind : String) (value : V) : AutomationHub V :=
  let sequence := saturatingAdd s.eventSequence 1
  let event : StoredEvent V :=
    { sequence
      windowId
      kind
      payload := .value value
      encodedSize := (W.encodedSize value + kind.utf8ByteSize + 128) % 2 ^ 64 }
  let delivered := deliver W event s.connections s.subscribers
  let s := { s with
    eventSequence := sequence
    connections := delivered.1
    subscribers := delivered.2.filter fun sub =>
      (delivered.1.lookup sub.connection).any Connection.alive }
  match evict (s.replay ++ [event]) (saturatingAdd s.replayBytes event.encodedSize) with
  | none => { s with hung := true }
  | some (replay, replayBytes, gone) =>
    { s with replay, replayBytes, evicted := s.evicted ++ gone }

/-- The number of the oldest event that is kept. -/
def oldest : ℕ := (s.replay.head?.map (·.sequence)).getD (saturatingAdd s.eventSequence 1)

/-- The event in whose place a client is told that events are gone. -/
def gapEvent (request : SubscriptionRequest) (since : ℕ) : StoredEvent V where
  sequence := s.eventSequence
  windowId := request.target
  kind := "overflow"
  payload := .gap since s.oldest s.eventSequence
  encodedSize := 0

/-- A subscriber that begins after an event, or with what comes next. -/
def newSubscriber (connection : ℕ) (request : SubscriptionRequest) : Subscriber where
  id := saturatingAdd s.nextSubscriptionId 1
  key := s.subscribed
  connection
  windowId := request.target
  allWindows := request.allWindows
  kinds := request.kinds
  start := match request.sinceEvent with
    | none => s.published.length
    | some since => (s.published.takeWhile fun event => event.sequence ≤ since).length

/-- The connection once the subscription is acknowledged. -/
def acknowledged (c : Connection V) : Connection V :=
  c.finishRequest (W.subscribed (saturatingAdd s.nextSubscriptionId 1) s.eventSequence) W.tooLarge

/-- A client resumes behind an event. -/
def resume (sub : Subscriber) (c : Connection V) (request : SubscriptionRequest) :
    Connection V × Subscriber :=
  match request.sinceEvent with
  | none => (c, sub)
  | some since =>
    if saturatingAdd since 1 < s.oldest then sub.send W c (s.gapEvent request since)
    else sub.sendAll W c (s.replay.filter fun event => since < event.sequence)

def subscribe (connection : ℕ) (request : SubscriptionRequest) :
    AutomationHub V × Except (String × String) ℕ :=
  match s.connections.lookup connection with
  -- a request comes from a connection
  | none => (s, .error ("invalid_request", "IPC connection is closed"))
  | some c =>
    if maxSubscriptions ≤ s.subscribers.length then
      (s, .error ("limit_exceeded", "Vivido allows at most 32 subscriptions"))
    else
      match request.kinds.find? fun kind => kind ∉ eventKinds with
      | some kind => (s, .error ("invalid_params", "unknown event kind " ++ kind.quote))
      | none =>
        if request.sinceEvent.any fun since => s.eventSequence < since then
          (s, .error ("invalid_params", "since_event is newer than the current event sequence"))
        else
          let sub := s.newSubscriber connection request
          let resumed := s.resume W sub (s.acknowledged W c) request
          ({ s with
              nextSubscriptionId := sub.id
              subscribed := s.subscribed + 1
              connections := s.connections.insert connection resumed.1
              subscribers := s.subscribers ++ [resumed.2] }, .ok sub.id)

def unsubscribe (connectionId subscriptionId : ℕ) : AutomationHub V :=
  { s with subscribers := s.subscribers.filter fun sub =>
      sub.connection ≠ connectionId ∨ sub.id ≠ subscriptionId }

def disconnect (connectionId : ℕ) : AutomationHub V :=
  { s with subscribers := s.subscribers.filter fun sub => sub.connection ≠ connectionId }

/-- A connection changes. -/
def onConnection (id : ℕ) (work : Connection V → Connection V) : AutomationHub V :=
  { s with connections := s.connections.adjust id work }

/-- The writer takes the next frame. -/
def take (id : ℕ) : AutomationHub V :=
  s.onConnection id fun c =>
    match c.writing, c.output with
    | none, frame :: frames => { c with output := frames, writing := some frame }
    | _, _ => c

/-- The writer is done with a frame, and its slot is free again. -/
def written (id : ℕ) : AutomationHub V :=
  match (s.connections.lookup id).bind (·.writing) with
  | none => s
  | some frame =>
    { s.onConnection id fun c => { c with writing := none, read := c.read ++ [frame] } with
      subscribers := s.subscribers.map fun sub =>
        if frame.any fun slot => slot.1 = sub.key then
          { sub with queuedEvents := sub.queuedEvents - 1 }
        else sub }

end AutomationHub

/-- What happens to the hub and the connections. -/
inductive Act (V : Type) where
  | connect (id : ℕ)
  /-- The connection is closed, or its reader returns. -/
  | hangUp (id : ℕ)
  /-- The writer ends. -/
  | stopWriting (id : ℕ)
  | take (id : ℕ)
  | written (id : ℕ)
  /-- A request is answered, with a frame of some size. -/
  | reply (id : ℕ) (size : Option ℕ)
  /-- Something that closes nothing is queued, as `protocol_error` does. -/
  | notify (id : ℕ) (size : Option ℕ)
  | emit (windowId : Option ℕ) (kind : String) (value : V)
  | subscribe (connection : ℕ) (request : SubscriptionRequest)
  | unsubscribe (connectionId subscriptionId : ℕ)
  | disconnect (connectionId : ℕ)

namespace AutomationHub

variable (W : Wire V)

def step (s : AutomationHub V) : Act V → AutomationHub V
  | .connect id =>
    if (s.connections.lookup id).isSome then s
    else { s with connections := s.connections.insert id {} }
  | .hangUp id => s.onConnection id (·.close)
  | .stopWriting id => s.onConnection id fun c => { c with serving := false }
  | .take id => s.take id
  | .written id => s.written id
  | .reply id size => s.onConnection id (·.finishRequest size W.tooLarge)
  | .notify id size => s.onConnection id fun c => (c.queueJson size none).1
  | .emit windowId kind value => s.emitPayload W windowId kind value
  | .subscribe connection request => (s.subscribe W connection request).1
  | .unsubscribe connectionId subscriptionId => s.unsubscribe connectionId subscriptionId
  | .disconnect connectionId => s.disconnect connectionId

def run (history : List (Act V)) : AutomationHub V := history.foldl (step W) {}

theorem run_concat (history : List (Act V)) (act : Act V) :
    run W (history ++ [act]) = (run W history).step W act :=
  List.foldl_append

end AutomationHub

end Vivido.Automation
