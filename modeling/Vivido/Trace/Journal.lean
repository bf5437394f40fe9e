import Vivido.Automation.Hub

/-!
The bounded journal of trace events. Each event that is pushed takes the next sequence
number; one that is larger than all the journal may hold is dropped, and the oldest ones
make room for the others. A query selects from what is kept.
-/

namespace Vivido.Trace

open Automation (saturatingAdd)

/-- `MAX_EVENTS` -/
def maxEvents : ℕ := 4096

/-- `MAX_BYTES` -/
def maxBytes : ℕ := 2 * 1024 * 1024

/-- `MAX_QUERY_EVENTS` -/
def maxQueryEvents : ℕ := 512

inductive TraceCategory where
  | connection
  | lifecycle
  | flow
  | playback
  | recovery
  | decode
  | render
  deriving DecidableEq, Repr

structure TraceTrackIdentity where
  sessionId : ℕ
  contextId : ℕ
  surfaceId : ℕ
  trackId : ℕ
  deriving DecidableEq, Repr

/-- What the events of one journal have in common. -/
structure Origin where
  processId : ℕ
  instanceId : String
  startedUnixUs : ℕ
  deriving DecidableEq, Repr

structure TraceEvent (V : Type) where
  sequence : ℕ
  origin : Origin
  monotonicUs : ℕ
  recoverySequence : Option ℕ
  category : TraceCategory
  event : String
  track : Option TraceTrackIdentity
  data : V
  deriving DecidableEq, Repr

structure TraceFilter where
  sessionId : Option ℕ := none
  contextId : Option ℕ := none
  surfaceId : Option ℕ := none
  trackId : Option ℕ := none
  category : Option TraceCategory := none
  recoveryOnly : Bool := false
  deriving DecidableEq, Repr

inductive TraceSelection where
  | fromOldest
  | after (sequence : ℕ)
  | tail
  | before (sequence : ℕ)
  | around (sequence preceding following : ℕ)
  deriving DecidableEq, Repr

variable {V : Type}

namespace TraceFilter

/-- Nothing is asked of the identity's part, or just this. -/
def admits (asked : Option ℕ) (track : Option TraceTrackIdentity)
    (part : TraceTrackIdentity → ℕ) : Bool :=
  match asked with
  | none => true
  | some value => track.map part == some value

def accepts (filter : TraceFilter) (event : TraceEvent V) : Bool :=
  if filter.recoveryOnly && event.category ≠ .recovery then false
  else if filter.category.any (· ≠ event.category) then false
  else
    admits filter.sessionId event.track (·.sessionId) &&
      admits filter.contextId event.track (·.contextId) &&
      admits filter.surfaceId event.track (·.surfaceId) &&
      admits filter.trackId event.track (·.trackId)

end TraceFilter

structure TraceGap where
  requestedSequence : ℕ
  oldestSequence : ℕ
  currentSequence : ℕ
  deriving DecidableEq, Repr

/-- `TraceBatch`, without the times at which it was taken. -/
structure TraceBatch (V : Type) where
  schemaVersion : ℕ
  selection : TraceSelection
  instanceId : String
  startedUnixUs : ℕ
  oldestSequence : ℕ
  currentSequence : ℕ
  gap : Option TraceGap
  events : List (TraceEvent V)
  deriving DecidableEq, Repr

structure StoredEvent (V : Type) where
  encodedBytes : ℕ
  event : TraceEvent V
  deriving DecidableEq, Repr

structure TraceJournal (V : Type) where
  origin : Origin
  nextSequence : ℕ := 0
  encodedBytes : ℕ := 0
  events : List (StoredEvent V) := []
  maximumEvents : ℕ := maxEvents
  maximumBytes : ℕ := maxBytes
  deriving DecidableEq, Repr

structure Push (V : Type) where
  category : TraceCategory
  event : String
  track : Option TraceTrackIdentity
  data : V
  monotonicUs : ℕ
  deriving DecidableEq, Repr

namespace TraceJournal

/-- The event that a push records. -/
def made (j : TraceJournal V) (push : Push V) : TraceEvent V :=
  let sequence := saturatingAdd j.nextSequence 1
  { sequence
    origin := j.origin
    monotonicUs := push.monotonicUs
    recoverySequence := if push.category = .recovery then some sequence else none
    category := push.category
    event := push.event
    track := push.track
    data := push.data }

/-- The loop that makes room, over the events from the oldest on. -/
def makeRoom (maximumEvents maximumBytes : ℕ) : List (StoredEvent V) → ℕ → List (StoredEvent V) × ℕ
  | [], bytes => ([], bytes)
  | removed :: events, bytes =>
    if maximumEvents < events.length + 1 ∨ maximumBytes < bytes then
      makeRoom maximumEvents maximumBytes events (bytes - removed.encodedBytes)
    else (removed :: events, bytes)

/-- `size` is how long the JSON of an event is. -/
def push (size : TraceEvent V → ℕ) (j : TraceJournal V) (push : Push V) : TraceJournal V :=
  let event := j.made push
  let j := { j with nextSequence := event.sequence }
  let encodedBytes := size event
  if j.maximumBytes < encodedBytes then j
  else
    let kept := makeRoom j.maximumEvents j.maximumBytes (j.events ++ [⟨encodedBytes, event⟩])
      (saturatingAdd j.encodedBytes encodedBytes)
    { j with
      events := kept.1
      encodedBytes := kept.2 }

def oldestSequence (j : TraceJournal V) : ℕ :=
  match j.events with
  | [] => saturatingAdd j.nextSequence 1
  | stored :: _ => stored.event.sequence

/-- The sequence that was asked for and lies before what is kept. -/
def gapSequence (j : TraceJournal V) : TraceSelection → Option ℕ
  | .after sequence => if sequence < j.oldestSequence - 1 then some sequence else none
  | .before sequence | .around sequence _ _ =>
    if sequence < j.oldestSequence then some sequence else none
  | .fromOldest | .tail => none

def selected (j : TraceJournal V) (selection : TraceSelection) (limit : ℕ) (filter : TraceFilter) :
    List (TraceEvent V) :=
  let maximum := min limit maxQueryEvents
  let matching := (j.events.map (·.event)).filter filter.accepts
  match selection with
  | .fromOldest => matching.take maximum
  | .after sequence => (matching.filter (sequence < ·.sequence)).take maximum
  | .tail => (matching.reverse.take maximum).reverse
  | .before sequence => ((matching.reverse.filter (·.sequence < sequence)).take maximum).reverse
  | .around sequence preceding following =>
    ((matching.reverse.filter (·.sequence < sequence)).take
        (min preceding maxQueryEvents)).reverse ++
      (matching.filter (sequence ≤ ·.sequence)).take (min following maxQueryEvents)

def query (j : TraceJournal V) (selection : TraceSelection) (limit : ℕ) (filter : TraceFilter) :
    TraceBatch V :=
  { schemaVersion := 1
    selection
    instanceId := j.origin.instanceId
    startedUnixUs := j.origin.startedUnixUs
    oldestSequence := j.oldestSequence
    currentSequence := j.nextSequence
    gap := (j.gapSequence selection).map fun requestedSequence => {
      requestedSequence
      oldestSequence := j.oldestSequence
      currentSequence := j.nextSequence }
    events := j.selected selection limit filter }

end TraceJournal

end Vivido.Trace
