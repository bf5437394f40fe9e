import Mathlib.Data.Finset.Card
import Vivido.Automation.Hub
import Vivido.Support.OpenKeys

/-!
The requests of one client: its reader takes the frames in, the threads that
answer call back in any order, and all of them share the table of the requests
in flight and the queue of the writer. A step is what one thread does between
two looks at what is shared.
-/

namespace Vivido.Ipc

open Vivido.Automation

/-- `PROTOCOL_VERSION` -/
def protocolVersion : UInt16 := 2

/-- `MAX_IN_FLIGHT_REQUESTS` -/
def maxInFlightRequests : ℕ := 64

variable {V : Type}

structure IpcError where
  code : String
  message : String
  /-- A name and numbers: `supported_versions` is all that is sent here. -/
  data : Option (String × List UInt16) := none
  deriving DecidableEq, Repr

structure RequestEnvelope (V : Type) where
  version : UInt16
  id : UInt64
  method : String
  params : V
  deriving DecidableEq, Repr

structure ResponseEnvelope (V : Type) where
  version : UInt16
  id : UInt64
  ok : Bool
  result : Option V
  error : Option IpcError
  deriving DecidableEq, Repr

namespace ResponseEnvelope

def success (id : UInt64) (result : V) : ResponseEnvelope V :=
  ⟨protocolVersion, id, true, some result, none⟩

def failure (id : UInt64) (error : IpcError) : ResponseEnvelope V :=
  ⟨protocolVersion, id, false, none, some error⟩

/-- The errors by which `insert_request_id` refuses. -/
def duplicate (id : UInt64) : ResponseEnvelope V :=
  .failure id ⟨"duplicate_request_id", "request ID " ++ toString id ++ " is already active", none⟩

def overLimit (id : UInt64) : ResponseEnvelope V :=
  .failure id ⟨"limit_exceeded", "at most 64 requests may be in flight", none⟩

def oversizedReply (id : UInt64) : ResponseEnvelope V :=
  .failure id ⟨"limit_exceeded", "encoded IPC reply exceeds 16 MiB", none⟩

def oversizedFrame : ResponseEnvelope V :=
  .failure 0 ⟨"limit_exceeded", "IPC request frame exceeds 1 MiB", none⟩

end ResponseEnvelope

/-- Why a response is queued: by `protocol_error`, by `finish_request`, or by the latter in place of
a reply that is too large. -/
inductive Purpose where
  | protocolError
  | reply
  | oversized
  deriving DecidableEq, Repr

/-- Where a thread is that queues a response: in `finish_request` before its look at `alive` and
before it takes the request off the table, and in `queue_json` before and after its checks. -/
inductive Call (V : Type) where
  | finish (response : ResponseEnvelope V)
  | release (response : ResponseEnvelope V)
  | offer (purpose : Purpose) (response : ResponseEnvelope V)
  | send (purpose : Purpose) (response : ResponseEnvelope V)
  deriving DecidableEq, Repr

/-- Where `run_connection` is. -/
inductive Reader (V : Type) where
  | reading (greeted : Bool)
  | calling (call : Call V) (goesOn : Bool)
  | dispatching (request : RequestEnvelope V)
  | returned
  deriving DecidableEq, Repr

inductive Event (V : Type) where
  | accepted (id : UInt64)
  /-- Of a frame, by an error that leaves the table alone. -/
  | refused (response : ResponseEnvelope V)
  | dispatched (request : RequestEnvelope V)
  /-- `finish_request` is called. -/
  | called (id : UInt64)
  | released (id : UInt64)
  | queued (purpose : Purpose) (response : ResponseEnvelope V)
  | lost (purpose : Purpose) (response : ResponseEnvelope V) (why : QueueError)
  deriving DecidableEq, Repr

/-- A connection with the calls that are under way on it, and what has happened. -/
structure Connection (V : Type) where
  alive : Bool := true
  /-- The writer still receives. -/
  serving : Bool := true
  /-- The frames before the writer; one that is no response has none. -/
  output : List (Option (ResponseEnvelope V)) := []
  inFlight : Finset UInt64 := ∅
  reader : Reader V := .reading false
  calls : List (Call V) := []
  log : List (Event V) := []

/-- The requests that are accepted and not off the table. -/
def Event.tabled : Event V → Option (KeyChange UInt64)
  | .accepted id => some (.opens id)
  | .released id => some (.closes id)
  | _ => none

/-- The requests that are accepted and for which no reply has been called. -/
def Event.asked : Event V → Option (KeyChange UInt64)
  | .accepted id => some (.opens id)
  | .called id => some (.closes id)
  | _ => none

def outstanding (log : List (Event V)) : List UInt64 := openKeys Event.tabled log

def unanswered (log : List (Event V)) : List UInt64 := openKeys Event.asked log

namespace Connection

variable (size : ResponseEnvelope V → Option ℕ) (c : Connection V)

def record (event : Event V) : Connection V := { c with log := c.log ++ [event] }

def close : Connection V := { c with alive := false }

def failed (purpose : Purpose) (response : ResponseEnvelope V) (why : QueueError) :
    Connection V × Option (Call V) :=
  let lost := c.record (.lost purpose response why)
  match purpose, why with
  | .protocolError, _ => (lost, none)
  | .reply, .tooLarge => (lost, some (.offer .oversized (.oversizedReply response.id)))
  | .reply, .closed => (lost, none)
  | .reply, _ => (lost.close, none)
  | .oversized, _ => (lost.close, none)

/-- The next step of `finish_request` and `queue_json`. -/
def advance : Call V → Connection V × Option (Call V)
  | .finish response => (c, if c.alive then some (.release response) else none)
  | .release response =>
    ({ c.record (.released response.id) with inFlight := c.inFlight.erase response.id },
      some (.offer .reply response))
  | .offer purpose response =>
    if !c.alive then c.failed purpose response .closed
    else
      match size response with
      | none => c.failed purpose response .serialize
      | some bytes =>
        if maxReplyFrameBytes < bytes then c.failed purpose response .tooLarge
        else (c, some (.send purpose response))
  | .send purpose response =>
    if !c.serving then c.failed purpose response .closed
    else if outputQueueFrames ≤ c.output.length then c.failed purpose response .full
    else
      ({ c.record (.queued purpose response) with output := c.output ++ [some response] }, none)

/-- The reader calls `error`, and goes on with the next frame or returns. -/
def answering (response : ResponseEnvelope V) (goesOn : Bool) : Connection V :=
  { c.record (.called response.id) with reader := .calling (.finish response) goesOn }

/-- The reader calls `protocol_error`. -/
def refusing (response : ResponseEnvelope V) (goesOn : Bool) : Connection V :=
  { c.record (.refused response) with reader := .calling (.offer .protocolError response) goesOn }

/-- `insert_request_id`: the request is accepted, or the error that it is refused with. -/
def insertRequestId (id : UInt64) : Except (ResponseEnvelope V) (Connection V) :=
  if id ∈ c.inFlight then .error (.duplicate id)
  else if maxInFlightRequests ≤ c.inFlight.card then .error (.overLimit id)
  else .ok { c.record (.accepted id) with inFlight := insert id c.inFlight }

/-- What `run_connection` does with the first frame. -/
def greet : Except String (RequestEnvelope V) → Connection V
  | .error text =>
    c.answering (.failure 0 ⟨"invalid_request", "invalid IPC request: " ++ text, none⟩) false
  | .ok first =>
    if first.version ≠ protocolVersion then
      c.answering (.failure first.id
        ⟨"unsupported_version", "Vivido IPC requires protocol version 2",
          some ("supported_versions", [protocolVersion])⟩) false
    else if first.method ≠ "hello" then
      c.answering (.failure first.id
        ⟨"invalid_request", "the first IPC request must be hello", none⟩) false
    else
      match c.insertRequestId first.id with
      | .error response => c.refusing response false
      | .ok c => { c with reader := .dispatching first }

/-- What `run_connection` does with any other frame. -/
def serve : Except String (RequestEnvelope V) → Connection V
  | .error text =>
    c.refusing (.failure 0 ⟨"invalid_request", "invalid IPC request: " ++ text, none⟩) true
  | .ok request =>
    match c.insertRequestId request.id with
    | .error response => c.refusing response true
    | .ok c =>
      if request.version ≠ protocolVersion then
        c.answering (.failure request.id
          ⟨"unsupported_version", "Vivido IPC requires protocol version 2", none⟩) true
      else if request.method = "hello" then
        c.answering (.failure request.id
          ⟨"invalid_request", "hello is only valid as the first request", none⟩) true
      else { c with reader := .dispatching request }

/-- A frame is read, and decoded. -/
def receive (frame : Except String (RequestEnvelope V)) : Connection V :=
  match c.reader with
  | .reading false => c.greet frame
  | .reading true => c.serve frame
  | _ => c

/-- The reader's next step, where the event loop takes an event or is gone. -/
def proceed (taken : Bool) : Connection V :=
  match c.reader with
  | .calling call goesOn =>
    let (c, next) := c.advance size call
    match next with
    | some call => { c with reader := .calling call goesOn }
    | none => { c with reader := if goesOn then .reading true else .returned }
  | .dispatching request =>
    if taken then { c.record (.dispatched request) with reader := .reading true }
    else
      c.answering (.failure request.id
        ⟨"unsupported", "Vivido event loop is shutting down", none⟩) false
  | _ => c

/-- The next step of one of the calls of other threads. -/
def callback (n : ℕ) : Connection V :=
  match c.calls[n]? with
  | none => c
  | some call =>
    let (moved, next) := c.advance size call
    { moved with calls := c.calls.take n ++ next.toList ++ c.calls.drop (n + 1) }

end Connection

inductive Act (V : Type) where
  | receive (frame : Except String (RequestEnvelope V))
  /-- A frame exceeds `MAX_REQUEST_FRAME_BYTES`. -/
  | receiveOversized
  /-- The client sends no more, or its stream fails. -/
  | endOfFrames
  | proceed (taken : Bool)
  /-- `supervise_ipc_worker`, once the reader has returned. -/
  | retire
  /-- A thread calls `reply` or `error`. -/
  | reply (response : ResponseEnvelope V)
  | callback (n : ℕ)
  /-- An event is queued for the client. -/
  | notify
  /-- The writer takes a frame. -/
  | take
  /-- The writer returns. -/
  | stopServing
  /-- A thread closes the connection. -/
  | close

namespace Connection

variable (size : ResponseEnvelope V → Option ℕ)

def step (c : Connection V) : Act V → Connection V
  | .receive frame => c.receive frame
  | .receiveOversized =>
    match c.reader with
    | .reading _ => c.refusing .oversizedFrame false
    | _ => c
  | .endOfFrames =>
    match c.reader with
    | .reading _ => { c with reader := .returned }
    | _ => c
  | .proceed taken => c.proceed size taken
  | .retire =>
    match c.reader with
    | .returned => c.close
    | _ => c
  | .reply response =>
    { c.record (.called response.id) with calls := c.calls ++ [.finish response] }
  | .callback n => c.callback size n
  | .notify =>
    if c.serving ∧ c.output.length < outputQueueFrames then { c with output := c.output ++ [none] }
    else c
  | .take => { c with output := c.output.drop 1 }
  | .stopServing => { c with serving := false }
  | .close => c.close

def run (acts : List (Act V)) : Connection V := acts.foldl (step size) {}

theorem run_concat (acts : List (Act V)) (act : Act V) :
    run size (acts ++ [act]) = (run size acts).step size act :=
  List.foldl_append

end Connection

end Vivido.Ipc
