import Mathlib.Data.List.Basic

/-!
Read-ahead of a pseudoterminal: a worker fills buffers and queues them, and the
terminal's thread takes their bytes. A socket with one byte for each batch, and
for the end, tells the terminal's poll that there is something to read. A step
is what a thread does under one of the two locks.
-/

namespace Vivido.Tty

/-- `CAPACITY` -/
def capacity : ℕ := 64 * 1024

/-- `SLOTS` -/
def slots : ℕ := 4

/-- `RETRIES` -/
def retries : ℕ := 16

/-- `SMALL_BURST` -/
def smallBurst : ℕ := 1024

/-- `io::Error`, by its text -/
abbrev IoError := String

/-- A buffer, known by its number, and what it is filled with. -/
structure Batch where
  buffer : ℕ
  bytes : List UInt8
  deriving DecidableEq, Repr

/-- The buffer that the worker fills. -/
structure Hold extends Batch where
  generation : ℕ
  tried : ℕ := 0
  deriving DecidableEq, Repr

inductive Ending where
  | eof
  | failed (error : IoError)
  deriving DecidableEq, Repr

/-- Where the worker is: it waits for a buffer, is about to look whether to read on, reads (and has
the read lock), is about to look whether to bridge a gap, polls, or is about to publish. -/
inductive Worker where
  | acquiring
  | checking (hold : Hold)
  | reading (hold : Hold)
  | bridging (hold : Hold)
  | polling (hold : Hold)
  | publishing (hold : Hold) (ending : Option Ending)
  | exited
  deriving DecidableEq, Repr

/-- Where the owner is: it does something else, copies bytes out, gives the copied batch's buffer
back, or joins the worker. -/
inductive Owner where
  | resting
  | copying (room : ℕ)
  | releasing (buffer : ℕ)
  | joining
  deriving DecidableEq, Repr

inductive Event where
  /-- The worker has read from the file. -/
  | arrived (bytes : List UInt8)
  | reset
  /-- `read` returns bytes, none at the end, or an error. -/
  | delivered (bytes : List UInt8)
  | ended
  | failed (error : IoError)
  deriving DecidableEq, Repr

/-- `Gather` and the `State` it shares with its worker. -/
structure Gather where
  free : List ℕ := List.range slots
  ready : List Batch := []
  stop : Bool := false
  busy : Bool := false
  bridging : Bool := false
  generation : ℕ := 0
  error : Option IoError := none
  eof : Bool := false
  /-- The bytes in the socket. -/
  tokens : ℕ := 0
  current : Option Batch := none
  offset : ℕ := 0
  worker : Worker := .acquiring
  owner : Owner := .resting
  log : List Event := []
  deriving DecidableEq, Repr

/-- What `file.read` returns: no bytes at the end of the file. -/
inductive ReadResult where
  | bytes (bytes : List UInt8)
  | interrupted
  | wouldBlock
  | failed (error : IoError)
  deriving DecidableEq, Repr

inductive PollResult where
  | timedOut
  | woken
  | failed (error : IoError)
  deriving DecidableEq, Repr

namespace Gather

variable (g : Gather)

def record (event : Event) : Gather := { g with log := g.log ++ [event] }

/-! ### The worker -/

def acquire : Gather :=
  if g.stop then { g with worker := .exited }
  else
    match g.free.getLast? with
    | none => g
    | some buffer =>
      { g with free := g.free.dropLast, worker := .checking ⟨⟨buffer, []⟩, g.generation, 0⟩ }

/-- The look at the state under the read lock. -/
def check (hold : Hold) : Gather :=
  if g.stop ∨ g.generation ≠ hold.generation then { g with worker := .publishing hold none }
  else { g with worker := .reading hold }

/-- The read, where `late` tells that the budget for bridging gaps is spent. -/
def readFile (hold : Hold) (late : Bool) : ReadResult → Gather
  | .bytes bytes =>
    let bytes := bytes.take (capacity - hold.bytes.length)
    if bytes = [] then { g with worker := .publishing hold (some .eof) }
    else
      let hold := { hold with bytes := hold.bytes ++ bytes, tried := 0 }
      { g.record (.arrived bytes) with
        worker := if hold.bytes.length = capacity then .publishing hold none else .checking hold }
  | .interrupted => { g with worker := .checking hold }
  | .wouldBlock =>
    if hold.bytes = [] then { g with worker := .polling hold }
    else if hold.bytes.length < smallBurst then { g with worker := .publishing hold none }
    else if hold.tried < retries then
      { g with worker := .checking { hold with tried := hold.tried + 1 } }
    else if late then { g with worker := .publishing hold none }
    else { g with worker := .bridging hold }
  | .failed error => { g with worker := .publishing hold (some (.failed error)) }

/-- Bytes are kept back only while the owner has others. -/
def bridge (hold : Hold) : Gather :=
  if !g.busy && g.ready.isEmpty then { g with worker := .publishing hold none }
  else { g with bridging := true, worker := .polling hold }

/-- After the poll, where `interrupted` tells that the owner has called. -/
def polled (hold : Hold) (interrupted : Bool) : PollResult → Gather
  | .failed error => { g with worker := .publishing hold (some (.failed error)) }
  | result =>
    { g with
      bridging := false
      worker :=
        if hold.bytes ≠ [] ∧ (result = .timedOut ∨ interrupted) then .publishing hold none
        else .checking hold }

/-- The batch is queued, if no reset came in between, and with it the end. -/
def publish (hold : Hold) (ending : Option Ending) : Gather :=
  let g :=
    if hold.bytes ≠ [] ∧ hold.generation = g.generation then
      { g with ready := g.ready ++ [hold.toBatch], tokens := g.tokens + 1 }
    else { g with free := g.free ++ [hold.buffer] }
  match ending with
  | some .eof =>
    { g with bridging := false, eof := true, error := none, tokens := g.tokens + 1,
             worker := .exited }
  | some (.failed error) =>
    { g with bridging := false, eof := false, error := some error, tokens := g.tokens + 1,
             worker := .exited }
  | none => { g with bridging := false, worker := if g.stop then .exited else .acquiring }

/-! ### The owner -/

/-- What `ready.read` takes out of the socket. -/
def drain (count : ℕ) : Gather := { g with tokens := g.tokens - count }

/-- `read` up to where it has a batch to copy from. -/
def beginRead (room : ℕ) : Gather :=
  if room = 0 then g
  else if g.current.isSome then { g with owner := .copying room }
  else
    match g.ready with
    | batch :: rest =>
      { g with ready := rest, current := some batch, offset := 0, busy := true,
               owner := .copying room }
    | [] =>
      let g := { g with offset := 0, busy := false }
      match g.error with
      | some error => { (g.record (.failed error)).drain (slots + 1) with error := none }
      | none => if g.eof || g.stop then (g.record .ended).drain (slots + 1) else g

/-- The bytes are copied; after the last ones the batch's byte is taken out of the socket. -/
def copy (room : ℕ) : Gather :=
  match g.current with
  | none => g
  | some batch =>
    let count := min room (batch.bytes.length - g.offset)
    let g := g.record (.delivered ((batch.bytes.drop g.offset).take count))
    if g.offset + count = batch.bytes.length then
      { g.drain 1 with current := none, offset := g.offset + count, owner := .releasing batch.buffer }
    else { g with offset := g.offset + count, owner := .resting }

def release (buffer : ℕ) : Gather := { g with free := g.free ++ [buffer], owner := .resting }

def idle : Gather := { g with busy := false }

def requestStop : Gather := { g with stop := true, owner := .joining }

def join : Gather := if g.worker = .exited then { g with owner := .resting } else g

/-- The read lock is free, and the owner does nothing else. -/
def resettable : Bool :=
  g.owner = .resting && match g.worker with
    | .reading _ => false
    | _ => true

def reset : Gather :=
  { (g.record .reset).drain (slots + 1) with
    generation := g.generation + 1
    ready := []
    free := g.free ++ (g.ready ++ g.current.toList).map (·.buffer)
    current := none
    offset := 0
    busy := false }

end Gather

inductive Act where
  /-- The worker takes its next step; what it uses of these is what it needs where it is. -/
  | work (result : ReadResult) (late : Bool) (poll : PollResult) (interrupted : Bool)
  | beginRead (room : ℕ)
  /-- The owner goes on with what it is at. -/
  | proceed
  | idle
  | stop
  | reset
  deriving DecidableEq, Repr

namespace Gather

def work (g : Gather) (result : ReadResult) (late : Bool) (poll : PollResult)
    (interrupted : Bool) : Gather :=
  match g.worker with
  | .acquiring => g.acquire
  | .checking hold => g.check hold
  | .reading hold => g.readFile hold late result
  | .bridging hold => g.bridge hold
  | .polling hold => g.polled hold interrupted poll
  | .publishing hold ending => g.publish hold ending
  | .exited => g

def proceed (g : Gather) : Gather :=
  match g.owner with
  | .resting => g
  | .copying room => g.copy room
  | .releasing buffer => g.release buffer
  | .joining => g.join

def step (g : Gather) : Act → Gather
  | .work result late poll interrupted => g.work result late poll interrupted
  | .beginRead room => if g.owner = .resting then g.beginRead room else g
  | .proceed => g.proceed
  | .idle => if g.owner = .resting then g.idle else g
  | .stop => if g.owner = .resting then g.requestStop else g
  | .reset => if g.resettable then g.reset else g

def run (acts : List Act) : Gather := acts.foldl step {}

theorem run_concat (acts : List Act) (act : Act) : run (acts ++ [act]) = (run acts).step act :=
  List.foldl_append

end Gather

end Vivido.Tty
