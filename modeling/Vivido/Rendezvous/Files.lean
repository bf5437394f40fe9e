import Mathlib.Data.Nat.Basic
import Vivido.Support.Since
import Vivido.Support.SortedMap

/-!
The two files under which a session is found: the socket it is bound to and the
registry that tells of it. Processes that start, end, list sessions or resolve
the name each go through their own steps, and any of them may come in between.
-/

namespace Vivido.Rendezvous

/-- Where `remove_instance` is: two looks at the registry, the socket, a look, the registry. -/
inductive Stage where
  | first
  | second
  | socket
  | third
  | registry
  deriving DecidableEq, Repr

/-- `remove_instance` under way, with the instance it expects. -/
structure Removal where
  expected : ℕ
  stage : Stage
  deriving DecidableEq, Repr

inductive Refusal where
  | alreadyRunning
  | alreadyStarting
  | addressInUse
  | notFound
  deriving DecidableEq, Repr

/-- What a process does next. -/
inductive Phase where
  /-- `prepare_endpoint` reads the registry, -/
  | reading
  /-- looks whether the process that it found is alive, -/
  | judging (found : ℕ)
  /-- or whether there is a socket, -/
  | probing
  /-- connects to it, -/
  | connecting
  /-- unlinks what refused the connection (nothing, if the socket had gone) -/
  | clearing (refused : Option ℕ)
  /-- or removes an instance that is dead. -/
  | replacing (removal : Removal)
  | binding
  | registering
  | serving
  /-- A `RegistryGuard` is dropped. -/
  | closing (removal : Removal)
  /-- `list_registries` or `registered_instance` reads the registry, -/
  | looking
  /-- looks whether the process that it found is alive, -/
  | weighing (found : ℕ)
  /-- and reaps an instance that is dead. -/
  | reaping (removal : Removal)
  | done
  | refused (reason : Refusal)
  deriving DecidableEq, Repr

/-- A process goes by its birth, which no other one has. -/
structure Process where
  alive : Bool
  phase : Phase
  deriving DecidableEq, Repr

/-- The files, each with the process that made it, and the processes. -/
structure World where
  socket : Option ℕ := none
  registry : Option ℕ := none
  processes : SortedMap ℕ Process := .empty

inductive Act where
  /-- A process starts the session. -/
  | start (process : ℕ)
  /-- A process lists the sessions or resolves the name. -/
  | look (process : ℕ)
  | step (process : ℕ)
  /-- A process that serves the session begins to shut down. -/
  | close (process : ℕ)
  /-- A process exits or crashes. -/
  | die (process : ℕ)
  deriving DecidableEq, Repr

namespace World

variable (w : World)

/-- `registry_process_matches` -/
def isAlive (process : ℕ) : Bool := (w.processes.lookup process).any (·.alive)

def setPhase (process : ℕ) (phase : Phase) : World :=
  { w with processes := w.processes.insert process ⟨true, phase⟩ }

/-- The next step of `remove_instance`; with none it goes on, else it is through. -/
def remove (removal : Removal) : World × Removal × Option (Except Refusal Unit) :=
  match removal.stage with
  | .first =>
    if w.registry = some removal.expected then (w, { removal with stage := .second }, none)
    else (w, removal, some (.ok ()))
  | .second =>
    if w.registry = some removal.expected then (w, { removal with stage := .socket }, none)
    else (w, removal, some (.ok ()))
  | .socket => ({ w with socket := none }, { removal with stage := .third }, none)
  | .third =>
    if w.registry = some removal.expected then (w, { removal with stage := .registry }, none)
    else (w, removal, some (.ok ()))
  | .registry =>
    if w.registry.isNone then (w, removal, some (.error .notFound))
    else ({ w with registry := none }, removal, some (.ok ()))

/-- A process takes the step of its phase. -/
def advance (process : ℕ) : Phase → World
  | .reading =>
    match w.registry with
    | some found => w.setPhase process (.judging found)
    | none => w.setPhase process .probing
  | .judging found =>
    if w.isAlive found then w.setPhase process (.refused .alreadyRunning)
    else w.setPhase process (.replacing ⟨found, .first⟩)
  | .probing =>
    if w.socket.isSome then w.setPhase process .connecting else w.setPhase process .binding
  | .connecting =>
    if w.socket.any w.isAlive then w.setPhase process (.refused .alreadyStarting)
    else w.setPhase process (.clearing w.socket)
  | .clearing _ => { w with socket := none }.setPhase process .binding
  | .replacing removal =>
    match w.remove removal with
    | (w, removal, none) => w.setPhase process (.replacing removal)
    | (w, _, some (.ok ())) => w.setPhase process .binding
    | (w, _, some (.error reason)) => w.setPhase process (.refused reason)
  | .binding =>
    if w.socket.isSome then w.setPhase process (.refused .addressInUse)
    else { w with socket := some process }.setPhase process .registering
  | .registering => { w with registry := some process }.setPhase process .serving
  | .serving => w
  | .closing removal =>
    match w.remove removal with
    | (w, removal, none) => w.setPhase process (.closing removal)
    | (w, _, some _) => w.setPhase process .done
  | .looking =>
    match w.registry with
    | some found => w.setPhase process (.weighing found)
    | none => w.setPhase process .done
  | .weighing found =>
    if w.isAlive found then w.setPhase process .done
    else w.setPhase process (.reaping ⟨found, .first⟩)
  | .reaping removal =>
    match w.remove removal with
    | (w, removal, none) => w.setPhase process (.reaping removal)
    | (w, _, some _) => w.setPhase process .done
  | .done => w
  | .refused _ => w

def step : Act → World
  | .start process =>
    if (w.processes.lookup process).isSome then w else w.setPhase process .reading
  | .look process =>
    if (w.processes.lookup process).isSome then w else w.setPhase process .looking
  | .step process =>
    match w.processes.lookup process with
    | some ⟨true, phase⟩ => w.advance process phase
    | _ => w
  | .close process =>
    if w.processes.lookup process = some ⟨true, .serving⟩ then
      w.setPhase process (.closing ⟨process, .first⟩)
    else w
  | .die process =>
    { w with processes := w.processes.adjust process fun found => { found with alive := false } }

/-- The world after acts that began without files and processes. -/
def run (acts : List Act) : World := acts.foldl step {}

theorem run_concat (acts : List Act) (act : Act) : run (acts ++ [act]) = (run acts).step act :=
  List.foldl_append

end World

end Vivido.Rendezvous
