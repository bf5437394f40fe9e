import Vivido.Actor.Egress

/-!
The interactive lane of a session: its admission rules, the threads of its
connections, and the threads that send input. Whether input was admitted is noted
apart from the post that admits it, so each step here is what one thread does
under one lock.
-/

namespace Vivido.Lane

/-- What to do with a `LANE_OPEN`. -/
inductive Admission where
  | accept
  | replay
  | busy
  | refused
  deriving DecidableEq, Repr

/-- The one interactive transport a session may have. -/
structure LaneState where
  generation : ℕ
  nonce : List ℕ
  live : Bool := true
  admittedInput : Bool := false
  deriving DecidableEq, Repr

def LaneState.noteInput (state : LaneState) : LaneState := { state with admittedInput := true }

/-- Decide a `LANE_OPEN` against whatever transport the session already had. -/
def admitLane (slot : Option LaneState) (generation : ℕ) (nonce : List ℕ) :
    Option LaneState × Admission :=
  if generation = 0 then (slot, .refused)
  else
    match slot with
    | none => (some { generation, nonce }, .accept)
    | some current =>
      if generation = current.generation then
        if current.nonce ≠ nonce then (slot, .refused)
        else if current.live then (slot, .busy)
        else if current.admittedInput then (slot, .refused)
        else (some { current with live := true }, .replay)
      else if generation < current.generation then (slot, .refused)
      else (some { generation, nonce }, .accept)

/-- The transport of a generation is lost; that of a later one is left untouched. -/
def confirmLost (slot : Option LaneState) (generation : ℕ) : Option LaneState :=
  slot.map fun current =>
    if current.generation = generation then { current with live := false } else current

/-- How far a lane's connection has come since its opening was admitted. -/
inductive Phase where
  | opened
  /-- The egress has been started. -/
  | started
  /-- The egress is the session's. -/
  | serving
  /-- `LaneCleanup` runs; whether it has found its generation in the session's slot. -/
  | leaving (owns : Bool)
  | lost
  | uninstalled
  | closed
  deriving DecidableEq, Repr

structure Transport where
  generation : ℕ
  egress : Option Egress := none
  phase : Phase := .opened
  deriving DecidableEq, Repr

inductive SendPhase where
  /-- `post_lane` has the session's egress. -/
  | picked
  /-- The record is posted, and not yet noted. -/
  | posted
  | done
  deriving DecidableEq, Repr

/-- A call of `send_input` with an event that the grant has tagged. -/
structure Sending where
  transport : ℕ
  record : Egress.Record
  phase : SendPhase := .picked
  deriving DecidableEq, Repr

/-- A session's lane: `lane`, `lane_egress` as the connection that it is of, and the threads. -/
structure Session where
  slot : Option LaneState := none
  installed : Option ℕ := none
  transports : List Transport := []
  sends : List Sending := []

inductive Act where
  /-- `LANE_OPEN`, verified. -/
  | laneOpen (generation : ℕ) (nonce : List ℕ)
  | start (i : ℕ)
  | install (i : ℕ)
  /-- The connection ends, or fails before it serves. -/
  | leave (i : ℕ)
  | confirmLost (i : ℕ)
  | uninstall (i : ℕ)
  | closeEgress (i : ℕ)
  /-- What the worker of an egress does, and posts other than of input. -/
  | egress (i : ℕ) (act : Egress.Act)
  | pick (record : Egress.Record)
  | post (k : ℕ)
  | note (k : ℕ)

inductive Happening where
  | answered (generation : ℕ) (admission : Admission)
  /-- An input record is admitted on a transport of the generation. -/
  | admitted (generation : ℕ) (record : Egress.Record)
  deriving DecidableEq, Repr

namespace Session

variable (session : Session)

def onTransport (i : ℕ) (work : Transport → Session) : Session :=
  match session.transports[i]? with
  | none => session
  | some transport => work transport

def setTransport (i : ℕ) (transport : Transport) : Session :=
  { session with transports := session.transports.set i transport }

def laneOpen (generation : ℕ) (nonce : List ℕ) : Session × Admission :=
  let (slot, admission) := admitLane session.slot generation nonce
  match admission with
  | .accept | .replay =>
    ({ session with slot, transports := session.transports ++ [{ generation }] }, admission)
  | _ => ({ session with slot }, admission)

/-- The check of `LaneCleanup`. -/
def leave (i : ℕ) (transport : Transport) : Session :=
  let owns := session.slot.any (·.generation = transport.generation)
  session.setTransport i { transport with phase := .leaving owns }

def confirmLost (i : ℕ) (transport : Transport) (owns : Bool) : Session :=
  { session with
    slot := if owns then Lane.confirmLost session.slot transport.generation else session.slot
    }.setTransport i { transport with phase := .lost }

def uninstall (i : ℕ) (transport : Transport) : Session :=
  { session with
    installed := if session.installed = some i then none else session.installed
    }.setTransport i { transport with phase := .uninstalled }

/-- The post of `send_input`; the answer is the generation that it was admitted on. -/
def post (k : ℕ) (sending : Sending) : Session × Option ℕ :=
  match session.transports[sending.transport]? with
  | none => (session, none)
  | some transport =>
    match transport.egress with
    | none => (session, none)
    | some egress =>
      let (egress, queued) := egress.send sending.record
      let phase := if queued then .posted else .done
      ({ session with
          transports := session.transports.set sending.transport
            { transport with egress := some egress }
          sends := session.sends.set k { sending with phase } },
        if queued then some transport.generation else none)

def note (k : ℕ) (sending : Sending) : Session :=
  { session with
    slot := session.slot.map (·.noteInput)
    sends := session.sends.set k { sending with phase := .done } }

def step : Act → Session × List Happening
  | .laneOpen generation nonce =>
    let (session, admission) := session.laneOpen generation nonce
    (session, [.answered generation admission])
  | .start i => (session.onTransport i fun transport =>
    if transport.phase = .opened then
      session.setTransport i { transport with egress := some {}, phase := .started }
    else session, [])
  | .install i => (session.onTransport i fun transport =>
    if transport.phase = .started then
      { session with installed := some i }.setTransport i { transport with phase := .serving }
    else session, [])
  | .leave i => (session.onTransport i fun transport =>
    match transport.phase with
    | .opened | .started | .serving => session.leave i transport
    | _ => session, [])
  | .confirmLost i => (session.onTransport i fun transport =>
    match transport.phase with
    | .leaving owns => session.confirmLost i transport owns
    | _ => session, [])
  | .uninstall i => (session.onTransport i fun transport =>
    if transport.phase = .lost then session.uninstall i transport else session, [])
  | .closeEgress i => (session.onTransport i fun transport =>
    if transport.phase = .uninstalled then
      session.setTransport i
        { transport with egress := transport.egress.map (·.close), phase := .closed }
    else session, [])
  | .egress i act => (session.onTransport i fun transport =>
    session.setTransport i
      { transport with egress := transport.egress.map fun egress => (egress.step act).1 }, [])
  | .pick record =>
    match session.installed with
    | none => (session, [])
    | some transport => ({ session with sends := session.sends ++ [{ transport, record }] }, [])
  | .post k =>
    match session.sends[k]? with
    | none => (session, [])
    | some sending =>
      match sending.phase with
      | .picked =>
        match session.post k sending with
        | (session, some generation) => (session, [.admitted generation sending.record])
        | (session, none) => (session, [])
      | _ => (session, [])
  | .note k =>
    match session.sends[k]? with
    | none => (session, [])
    | some sending =>
      match sending.phase with
      | .posted => (session.note k sending, [])
      | _ => (session, [])

/-- The session after a history. -/
def run (history : List Act) : Session :=
  history.foldl (fun session act => (session.step act).1) {}

def happened (history : List Act) : List Happening :=
  (history.foldl (fun (session, before) act =>
    ((session.step act).1, before ++ (session.step act).2)) (({} : Session), [])).2

theorem run_concat (history : List Act) (act : Act) :
    run (history ++ [act]) = ((run history).step act).1 :=
  List.foldl_append

theorem happened_concat (history : List Act) (act : Act) :
    happened (history ++ [act]) = happened history ++ ((run history).step act).2 := by
  have hfirst : ∀ history : List Act, (history.foldl (fun (session, before) act =>
      ((session.step act).1, before ++ (session.step act).2)) (({} : Session), [])).1 =
        run history := by
    intro history
    induction history using List.reverseRecOn with
    | nil => rfl
    | append_singleton _ _ ih =>
      rw [List.foldl_append, run_concat, ← ih]
      rfl
  unfold happened
  rw [List.foldl_append, ← hfirst]
  rfl

end Session

end Vivido.Lane
