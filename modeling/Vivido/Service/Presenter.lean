import Vivido.Service.Handover

/-!
A presenter and its control connections. Each connection establishes a session,
serves it, and finishes it once it is lost; an issuer also creates, revokes and
expires leases. They go through sections that hold one lock each, in any order,
and time passes between them.
-/

namespace Vivido.Service

open Scene

variable {P : Protocol} {L : LeaseProtocol}

def maxLeases : ℕ := 32

/-- What a delegation rests on outside the repository. -/
structure Delegation (L : LeaseProtocol) where
  rootSecret : L.Key
  /-- The contract that `presenter_contract` puts together. -/
  presenterContract : L.Contract
  /-- The context's operation classes include delegation. -/
  mayDelegate : L.Context → Bool
  /-- Charge a context with what a child of this number requests. -/
  reserveChild : L.Context → ℕ → L.Contract → Option (L.Context × L.Contract)
  newMachine : SessionLeaseDefinition L → L.Machine

/-- `CREATE_SESSION_LEASE`, with the parts of the definition that nothing else reads. -/
structure LeaseRequest (L : LeaseProtocol) where
  contextId : ℕ
  leaseId : ℕ
  definition : SessionLeaseDefinition L
  requestedContract : L.Contract

def Lease.new (definition : SessionLeaseDefinition L) (machine : L.Machine) (contract : L.Contract)
    (now : ℕ) : Lease L where
  awaitingFirst := true
  definition := definition
  machine := machine
  contract := contract
  activationDeadline := now + definition.activationTimeoutUs
  graceDeadline := none
  child := none
  resumeKey := none

/-- Leases whose activation or grace deadline has passed. -/
def LeaseTable.expired (leases : LeaseTable L) (now : ℕ) : List LeaseKey :=
  (leases.entries.filter (·.2.expired now)).map Prod.fst

namespace ServiceShared

variable (D : Delegation L) (s : ServiceShared P L)

/-- The context of a session, where delegation is among its operations. -/
def delegatingContext (handle contextId : ℕ) : Option L.Context :=
  ((s.connections.lookup handle).bind (·.contexts.lookup contextId)).filter D.mayDelegate

/-- The handler of `CREATE_SESSION_LEASE`. -/
def createSessionLease (issuer : SessionRuntime L) (request : LeaseRequest L) (now : ℕ) :
    ServiceShared P L × Except String Unit :=
  let key : LeaseKey := ⟨issuer.identity, request.contextId, request.leaseId⟩
  match s.delegatingContext D issuer.handle request.contextId with
  | none => (s, .error "context is outside this session operation authority")
  | some parent =>
    if ¬ request.definition.permittedProfiles.all (· ∈ s.offeredProfiles) then
      (s, .error "lease permits a profile this target does not implement")
    else if (s.registry.leases.lookup key).isSome then
      (s, .error "lease identity is already live")
    else if maxLeases ≤ s.registry.leases.size then (s, .error "lease capacity is exhausted")
    else match D.reserveChild parent request.leaseId request.requestedContract with
    | none => (s, .error "context capacity is exhausted")
    | some (parent, contract) =>
      let s := { s with
        connections := s.connections.adjust issuer.handle fun connection =>
          { connection with contexts := connection.contexts.insert request.contextId parent } }
      let machine := D.newMachine request.definition
      (s.setLease key (Lease.new request.definition machine contract now), .ok ())

/-- The section of `establish_root_session` that publishes a root session. -/
def establishRoot (hello : L.Hello) (candidate : Candidate L) :
    ServiceShared P L × Option (SessionRuntime L) :=
  if maxSessions ≤ s.registry.sessions.size then (s, none)
  else
    let allocated := s.nextSession
    let s := { s with nextSession := (allocated + 1) % 2 ^ 64 }
    let identity : SessionIdentity := ⟨s.presenter, allocated⟩
    if allocated = 0 ∨ ¬ L.isSessionId allocated ∨ ¬ candidate.sent then (s, none)
    else match L.rootContext identity D.presenterContract with
    | none => (s, none)
    | some context =>
      match s.registerScene identity with
      | (s, false) => (s, none)
      | (s, true) =>
        let runtime :=
          { handle := s.connections.size
            identity
            sessionTag := candidate.sessionTag
            lease := none
            resumeKey := L.deriveResumeKey D.rootSecret hello candidate.serverNonce allocated 0
              candidate.sessionTag }
        (s.publishRuntime runtime context, some runtime)

/-- The transport of a connection is gone. -/
def closeConnection (handle : ℕ) : ServiceShared P L :=
  { s with connections := s.connections.adjust handle fun connection =>
      { connection with isOpen := false } }

end ServiceShared

/-! ### A connection's work -/

/-- What an issuer's actor still has to do for the leases it takes back. -/
inductive Task (L : LeaseProtocol) where
  /-- Look up why the lease expired. -/
  | explainExpiry (key : LeaseKey)
  | expire (key : LeaseKey) (graceful : Bool)
  /-- Go on with a revocation. -/
  | revoke (action : Finishing L)

def Task.exec (issuer : SessionRuntime L) (now : ℕ) (s : ServiceShared P L) :
    Task L → ServiceShared P L × List (Task L)
  | .explainExpiry key =>
    (s, [.expire key ((s.registry.leases.lookup key).any (·.graceDeadline.isSome))])
  | .expire key _ =>
    let (s, added) := (Finishing.retireLease issuer.handle key).exec issuer false now s
    (s, added.map .revoke)
  | .revoke action =>
    let (s, added) := action.exec issuer false now s
    (s, added.map .revoke)

/-- A control connection, by how far its session has come. -/
inductive Party (L : LeaseProtocol) where
  | establishing (stage : Establishing L)
  /-- `admitted` says that a request has been taken. -/
  | serving (runtime : SessionRuntime L) (admitted : Bool) (tasks : List (Task L))
  | finishing (lost : SessionRuntime L) (clean : Bool) (sections : List (Finishing L))

/-- Go through the next section of a connection's work. Its part in an establishment reads the
time as it holds the lock, the others some while before. -/
def Party.advance (clock age : ℕ) (candidate : Candidate L) (s : ServiceShared P L) :
    Party L → ServiceShared P L × Party L
  | .establishing stage =>
    match stage.exec clock candidate s with
    | (s, .serving runtime _) => (s, .serving runtime false [])
    | (s, stage) => (s, .establishing stage)
  | .serving runtime admitted (task :: tasks) =>
    let (s, added) := task.exec runtime (clock - age) s
    (s, .serving runtime admitted (added ++ tasks))
  | .finishing lost clean (action :: rest) =>
    let (s, added) := action.exec lost clean (clock - age) s
    (s, .finishing lost clean (added ++ rest))
  | party => (s, party)

/-! ### The presenter -/

structure Presenter (P : Protocol) (L : LeaseProtocol) where
  shared : ServiceShared P L
  clock : ℕ
  parties : List (Party L)

/-- What comes next; `age` is how long ago the time was read. -/
inductive Act (P : Protocol) (L : LeaseProtocol) where
  | pass (elapsed : ℕ)
  | connectRoot (hello : L.Hello) (candidate : Candidate L)
  | activate (contextId leaseId : ℕ) (secret : L.Key) (hello : L.Hello)
  | resume (contextId leaseId sessionId resumeGeneration : ℕ) (hello : L.Hello)
  | advance (i age : ℕ) (candidate : Candidate L)
  | firstRequest (i : ℕ)
  | expireLeases (i age : ℕ)
  | createLease (i : ℕ) (request : LeaseRequest L)
  | revokeLease (i contextId leaseId : ℕ)
  | lose (i : ℕ) (clean : Bool)
  /-- Other requests change what they like, but neither sessions nor leases. -/
  | elsewhere (other : ServiceShared P L)

namespace Presenter

variable (D : Delegation L) (p : Presenter P L)

/-- No connection has been made yet. -/
def new (shared : ServiceShared P L) : Presenter P L := { shared, clock := 0, parties := [] }

/-- A connection does its part. -/
def onParty (i : ℕ) (work : ServiceShared P L → Party L → ServiceShared P L × Party L) :
    Presenter P L :=
  match p.parties[i]? with
  | none => p
  | some party =>
    let (shared, party) := work p.shared party
    { p with shared, parties := p.parties.set i party }

/-- A new connection. -/
def connect (party : Party L) : Presenter P L := { p with parties := p.parties ++ [party] }

/-- A session's actor is between two turns. -/
def onActor (i : ℕ)
    (work : ServiceShared P L → SessionRuntime L → Bool → ServiceShared P L × Party L) :
    Presenter P L :=
  p.onParty i fun
    | s, .serving runtime admitted [] => work s runtime admitted
    | s, party => (s, party)

def step : Act P L → Presenter P L
  | .pass elapsed => { p with clock := p.clock + elapsed }
  | .connectRoot hello candidate =>
    match p.shared.establishRoot D hello candidate with
    | (shared, none) => { p with shared }
    | (shared, some runtime) => { p with shared }.connect (.serving runtime false [])
  | .activate contextId leaseId secret hello =>
    p.connect (.establishing (.activating contextId leaseId secret hello))
  | .resume contextId leaseId sessionId resumeGeneration hello =>
    p.connect (.establishing (.resuming contextId leaseId sessionId resumeGeneration hello))
  | .advance i age candidate => p.onParty i (Party.advance p.clock age candidate)
  | .firstRequest i => p.onActor i fun s runtime admitted =>
    (if admitted then s else s.admitPostHello runtime, .serving runtime true [])
  | .expireLeases i age => p.onActor i fun s runtime admitted =>
    let expired := (LeaseTable.expired s.registry.leases (p.clock - age)).filter
      (·.issuer = runtime.identity)
    (s, .serving runtime admitted (expired.map .explainExpiry))
  | .createLease i request => p.onActor i fun s runtime admitted =>
    (if admitted then (s.createSessionLease D runtime request p.clock).1 else s,
      .serving runtime admitted [])
  | .revokeLease i contextId leaseId => p.onActor i fun s runtime admitted =>
    (s, .serving runtime admitted
      (if admitted && (s.delegatingContext D runtime.handle contextId).isSome then
        [.revoke (.retireLease runtime.handle ⟨runtime.identity, contextId, leaseId⟩)]
      else []))
  | .lose i clean => p.onActor i fun s runtime admitted =>
    if clean && !admitted then (s, .serving runtime admitted [])
    else (s.closeConnection runtime.handle,
      .finishing runtime clean [.removeOverlays, .awaitFirst])
  | .elsewhere other =>
    { p with shared := { other with
        presenter := p.shared.presenter
        nextSession := p.shared.nextSession
        registry := p.shared.registry } }

def run (start : ServiceShared P L) (history : List (Act P L)) : Presenter P L :=
  history.foldl (step D) (new start)

variable {D} {p}

theorem run_concat (start : ServiceShared P L) (history : List (Act P L)) (act : Act P L) :
    run D start (history ++ [act]) = (run D start history).step D act :=
  List.foldl_append

end Presenter

/-- A delegation over numbers that reserves as much as is asked for. -/
def Delegation.plain : Delegation .plain where
  rootSecret := (1 : ℕ)
  presenterContract := (0 : ℕ)
  mayDelegate _ := true
  reserveChild context _ requested := some (Nat.add context requested, requested)
  newMachine definition := { suspends := definition.suspendOnUncleanLoss }

/-- A presenter that nobody has connected to yet. -/
def ServiceShared.idle : ServiceShared .plain .plain where
  presenter := 1
  offeredProfiles := []
  targetGeneration := 1
  registry := ⟨.empty, .empty, .empty⟩
  connections := .empty
  nextSession := 1
  scene := .new .plain
  overlays := []
  audioOutputs := .empty
  fileDrops := []

end Vivido.Service
