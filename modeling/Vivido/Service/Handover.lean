import Vivido.Scene.Request
import Vivido.Service.Shared

/-!
A lost connection is finished while its successor is established. Both go
through sections that hold one lock each, and between two sections of one any
number of sections of the other may come.
-/

namespace Vivido.Service

open Scene List

variable {P : Protocol} {L : LeaseProtocol}

/-! ### Finishing a session -/

/-- A section of `finish_session`, with those of the calls it makes. -/
inductive Finishing (L : LeaseProtocol) where
  | removeOverlays
  | destroySurface (surface : SurfaceIdentity)
  | awaitFirst
  | collectIssued
  | retireLease (issuer : ℕ) (key : LeaseKey)
  | releaseCapacity (issuer contextId : ℕ) (contract : L.Contract)
  | removeChildOverlays (child : SessionIdentity)
  | removeChildScene (child : SessionIdentity)
  | settleLease
  | suspendLease (issuer : ℕ) (key : LeaseKey)
  | suspendScene
  | stopAudio
  | unregister
  | removeFileDrops
  | retireScene

namespace Finishing

/-- The end of a session that leaves nothing to a successor. -/
def closing : List (Finishing L) := [.removeFileDrops, .unregister, .stopAudio, .retireScene]

variable (lost : SessionRuntime L) (clean : Bool) (now : ℕ) (s : ServiceShared P L)

/-- A session that was lost before its first request keeps its establishment for a retry. -/
def awaited : ServiceShared P L × Bool :=
  if clean then (s, false)
  else match lost.lease with
  | none => (s, false)
  | some key =>
    match s.registry.leases.lookup key with
    | none => (s, false)
    | some lease =>
      if lease.awaitingFirst then
        let (machine, confirmed) := L.confirmTransportLost lease.machine false
        let s := s.setLease key { lease with machine }
        if confirmed then (s.unregister lost.identity.sessionId, true) else (s, false)
      else (s, false)

/-- The registry's part of a suspension. -/
def suspended (key : LeaseKey) : ServiceShared P L × Bool :=
  match s.registry.leases.lookup key with
  | none => (s, false)
  | some lease =>
    if lease.suspendsOnUncleanLoss then
      let (lease, suspended) := lease.suspend lost.resumeKey now
      (s.setLease key lease, suspended)
    else (s, false)

/-- Go through one section; the sections that it adds come next. -/
def exec : Finishing L → ServiceShared P L × List (Finishing L)
  | .removeOverlays =>
    let (s, surfaces) := s.removeOverlays lost.identity
    (s, surfaces.map .destroySurface)
  | .destroySurface surface => (s.onScene fun scene => (scene.destroySurface surface).1, [])
  | .awaitFirst =>
    match awaited lost clean s with
    | (s, true) => (s, [])
    | (s, false) => (s, [.collectIssued, .settleLease])
  | .collectIssued =>
    (s, (LeaseTable.issuedBy s.registry.leases lost.identity).map (.retireLease lost.handle))
  | .retireLease issuer key =>
    match s.retireLease key with
    | (s, none) => (s, [])
    | (s, some lease) =>
      (s, .releaseCapacity issuer key.contextId lease.contract ::
        match lease.child with
        | none => []
        | some child => [.removeChildOverlays child, .removeChildScene child])
  | .releaseCapacity issuer contextId contract =>
    (s.releaseCapacity issuer contextId contract, [])
  | .removeChildOverlays child => ((s.removeOverlays child).1, [])
  | .removeChildScene child => (s.onScene (·.removeSession child), [])
  | .settleLease =>
    match lost.lease with
    | none => (s, closing)
    | some key =>
      match s.registry.sessions.lookup key.issuer.sessionId with
      | none => (s, closing)
      | some issuer =>
        if clean then (s, .retireLease issuer.handle key :: closing)
        else (s, [.suspendLease issuer.handle key])
  | .suspendLease issuer key =>
    match suspended lost now s key with
    | (s, true) => (s, [.suspendScene, .stopAudio, .unregister])
    | (s, false) => (s, .retireLease issuer key :: closing)
  | .suspendScene => (s.onScene (·.suspendSession lost.identity), [])
  | .stopAudio => (s.stopSessionAudio lost.identity, [])
  | .unregister => (s.unregister lost.identity.sessionId, [])
  | .removeFileDrops => (s.removeFileDrops lost.identity, [])
  | .retireScene =>
    (s.onScene fun scene =>
      if clean then scene.detachSession lost.identity else scene.removeSession lost.identity, [])

/-- Go through sections until none is left, or the fuel is out. -/
def execAll : ℕ → ServiceShared P L → List (Finishing L) → ServiceShared P L
  | 0, s, _ => s
  | _ + 1, s, [] => s
  | fuel + 1, s, section_ :: rest =>
    let (s, added) := section_.exec lost clean now s
    execAll fuel s (added ++ rest)

/-- A revocation is the sections it goes through. -/
theorem execAll_retireLease (issuer : ℕ) (key : LeaseKey) :
    execAll lost clean now 5 s [.retireLease issuer key] = s.revokeLease issuer key := by
  unfold ServiceShared.revokeLease
  dsimp only [execAll, exec]
  rcases s.retireLease key with ⟨_, _ | lease⟩
  · rfl
  · cases hchild : lease.child with
    | none | some =>
      dsimp only [execAll, exec, append_nil, cons_append]
      rw [hchild]
      rfl

end Finishing

/-! ### Establishing a leased session -/

/-- Who a control connection authenticated as. -/
inductive Principal (L : LeaseProtocol) where
  | lease (key : LeaseKey) (secret : L.Key)
  | resume (key : LeaseKey) (priorResumeKey : L.Key) (sessionId resumeGeneration : ℕ)

namespace Principal

def key : Principal L → LeaseKey
  | .lease key _ | .resume key _ _ _ => key

def secret : Principal L → L.Key
  | .lease _ secret | .resume _ secret _ _ => secret

/-- A resume keeps the suspended session's number. -/
def candidateId (allocated : ℕ) : Principal L → ℕ
  | .lease _ _ => allocated
  | .resume _ _ sessionId _ => sessionId

/-- An activation asks whether the window offers every profile the lease permits. -/
def isPermitted (lease : Lease L) (offered : List String) : Principal L → Bool
  | .lease _ _ => lease.definition.permittedProfiles.all (· ∈ offered)
  | .resume _ _ _ _ => true

/-- The generation that the keys of the session are derived for. -/
def generation (machine : L.Machine) : Principal L → ℕ
  | .lease _ _ => 0
  | .resume _ _ _ _ => L.resumeGeneration machine

end Principal

/-- What the presenter draws for an attempt, and whether its `WELCOME` could be written. -/
structure Candidate (L : LeaseProtocol) where
  serverNonce : L.Nonce
  sessionTag : ℕ
  welcome : L.Welcome
  sent : Bool

/-- How far the establishment of a session has come. -/
inductive Establishing (L : LeaseProtocol) where
  | activating (contextId leaseId : ℕ) (secret : L.Key) (hello : L.Hello)
  | resuming (contextId leaseId sessionId resumeGeneration : ℕ) (hello : L.Hello)
  | resumingLease (key : LeaseKey) (sessionId resumeGeneration : ℕ) (hello : L.Hello)
  | authenticated (principal : Principal L) (hello : L.Hello)
  | serving (runtime : SessionRuntime L) (outputs : List TrackIdentity)
  | refused

namespace ServiceShared

variable (s : ServiceShared P L)

/-- The prior resume key, for the generation that the lease stands at or a retry of the one
before. -/
def priorResumeKey (key : LeaseKey) (resumeGeneration : ℕ) (hello : L.Hello) : Option L.Key :=
  match s.registry.leases.lookup key with
  | none => none
  | some lease =>
    let generation := L.resumeGeneration lease.machine
    if generation ≠ resumeGeneration ∧
        ¬ (lease.awaitingFirst ∧ resumeGeneration + 1 = generation) then none
    else lease.resumeKey.filter (L.verifyResume hello)

/-- What the machine of a lease decides on an attempt. -/
def decideAttempt (principal : Principal L) (lease : Lease L)
    (attempt : EstablishmentAttempt L.Hello L.Nonce L.Welcome) :
    L.Machine × Option (AttemptDecision L.Nonce L.Welcome) :=
  match principal with
  | .lease _ _ => L.beginActivation lease.machine attempt
  | .resume _ _ _ generation => L.beginResume lease.machine generation attempt

/-- The lease of a decided attempt; an activation binds the child, where its number is one. -/
def reserveLease (principal : Principal L) (lease : Lease L) (child : SessionIdentity)
    (now : ℕ) : Lease L :=
  match principal with
  | .lease _ _ => if L.isSessionId child.sessionId then { lease with child := some child } else lease
  | .resume _ _ _ _ => lease.beginRetryWindow now

/-- Register the scene of a session, unless a suspension retained it. -/
def registerScene (identity : SessionIdentity) : ServiceShared P L × Bool :=
  if (s.scene.scenes.lookup identity).isSome then (s, true)
  else
    match s.scene.registerSession identity s.targetGeneration with
    | (scene, .error _) => ({ s with scene }, false)
    | (scene, .ok ()) => ({ s with scene }, true)

/-- Write the `WELCOME` and commit it to the lease. -/
def commitLease (key : LeaseKey) (lease : Lease L) (sent : Bool) : ServiceShared P L × Bool :=
  if ¬ sent then
    (s.setLease key
      { lease with machine := (L.confirmTransportLost lease.machine false).1 }, false)
  else if L.state lease.machine = .reserved then
    let (machine, committed) := L.commitWelcome lease.machine
    (s.setLease key { lease with machine }, committed)
  else (s.setLease key lease, true)

/-- Publish a session that was decided on. -/
def publishRuntime (runtime : SessionRuntime L) (context : L.Context) : ServiceShared P L :=
  { s with
    registry := s.registry.insertSession runtime
    connections := s.connections.insert runtime.handle
      { identity := runtime.identity
        isOpen := true
        contexts := SortedMap.empty.insert 1 context } }

/-- Publish the session that a lease has decided on. -/
def conclude (now : ℕ) (principal : Principal L) (hello : L.Hello) (candidate : Candidate L)
    (lease : Lease L) (decision : AttemptDecision L.Nonce L.Welcome) :
    ServiceShared P L × Option (SessionRuntime L) :=
  let identity : SessionIdentity := ⟨s.presenter, decision.sessionId⟩
  let reserved := reserveLease principal lease identity now
  if ¬ L.isSessionId decision.sessionId then (s.setLease principal.key reserved, none)
  else
    match s.commitLease principal.key reserved candidate.sent with
    | (s, false) => (s, none)
    | (s, true) =>
      match L.rootContext identity lease.contract with
      | none => (s, none)
      | some context =>
        match s.registerScene identity with
        | (s, false) => (s, none)
        | (s, true) =>
          let sessionTag := (L.sessionTag decision.welcome).getD candidate.sessionTag
          let runtime :=
            { handle := s.connections.size
              identity, sessionTag
              lease := some principal.key
              resumeKey := L.deriveResumeKey principal.secret hello decision.serverNonce
                decision.sessionId (principal.generation lease.machine) sessionTag }
          (s.publishRuntime runtime context, some runtime)

/-- The section of `establish_root_session` that decides on a leased session and publishes it. -/
def establish (now : ℕ) (principal : Principal L) (hello : L.Hello) (candidate : Candidate L) :
    ServiceShared P L × Option (SessionRuntime L) :=
  if maxSessions ≤ s.registry.sessions.size then (s, none)
  else
    let allocated := s.nextSession
    let s := { s with nextSession := (allocated + 1) % 2 ^ 64 }
    if allocated = 0 then (s, none)
    else match s.registry.leases.lookup principal.key with
    | none => (s, none)
    | some lease =>
      let sessionId := principal.candidateId allocated
      if ¬ principal.isPermitted lease s.offeredProfiles ∨ ¬ L.isSessionId sessionId then (s, none)
      else
        match decideAttempt principal lease
            ⟨hello, sessionId, candidate.serverNonce, candidate.welcome⟩ with
        | (machine, none) => (s.setLease principal.key { lease with machine }, none)
        | (machine, some decision) =>
          s.conclude now principal hello candidate { lease with machine } decision

/-- The first request of a leased session closes its retry window. -/
def admitPostHello (runtime : SessionRuntime L) : ServiceShared P L :=
  match runtime.lease with
  | none => s
  | some key =>
    match s.registry.leases.lookup key with
    | none => s
    | some lease =>
      s.setLease key
        { lease with
          machine := L.admitPostHello lease.machine
          awaitingFirst := false
          graceDeadline := none
          resumeKey := none }

end ServiceShared

/-- Go through the next section of an establishment. -/
def Establishing.exec (now : ℕ) (candidate : Candidate L) (s : ServiceShared P L) :
    Establishing L → ServiceShared P L × Establishing L
  | .activating contextId leaseId secret hello =>
    match LeaseTable.findActivation s.registry.leases contextId leaseId secret now with
    | none => (s, .refused)
    | some key => (s, .authenticated (.lease key secret) hello)
  | .resuming contextId leaseId sessionId resumeGeneration hello =>
    match LeaseTable.findResume s.registry.leases contextId leaseId sessionId now with
    | none => (s, .refused)
    | some key => (s, .resumingLease key sessionId resumeGeneration hello)
  | .resumingLease key sessionId resumeGeneration hello =>
    match s.priorResumeKey key resumeGeneration hello with
    | none => (s, .refused)
    | some prior => (s, .authenticated (.resume key prior sessionId resumeGeneration) hello)
  | .authenticated principal hello =>
    match s.establish now principal hello candidate with
    | (s, none) => (s, .refused)
    | (s, some runtime) => (s, .serving runtime [])
  | established => (s, established)

/-! ### The two together -/

/-- A session is finished while another is established. -/
structure Handover (P : Protocol) (L : LeaseProtocol) where
  lost : SessionRuntime L
  clean : Bool
  shared : ServiceShared P L
  finishing : List (Finishing L)
  establishing : Establishing L

/-- What comes next: a section of the one or the other, or, once the successor is published, an
audio output that it opens, or its first request. -/
inductive Move (L : LeaseProtocol) where
  | finish (now : ℕ)
  | establish (now : ℕ) (candidate : Candidate L)
  | openAudio (track : TrackIdentity) (generation : ℕ)
  | firstRequest

namespace Handover

variable (h : Handover P L)

/-- The connection is lost as it serves its session, and another has sent its `HELLO`. -/
def start (lost : SessionRuntime L) (clean : Bool) (shared : ServiceShared P L)
    (establishing : Establishing L) : Handover P L :=
  { lost, clean, shared, finishing := [.removeOverlays, .awaitFirst], establishing }

def move : Move L → Handover P L
  | .finish now =>
    match h.finishing with
    | [] => h
    | section_ :: rest =>
      let (shared, added) := section_.exec h.lost h.clean now h.shared
      { h with shared, finishing := added ++ rest }
  | .establish now candidate =>
    let (shared, establishing) := h.establishing.exec now candidate h.shared
    { h with shared, establishing }
  | .openAudio track generation =>
    match h.establishing with
    | .serving runtime outputs =>
      if track.surface.context.session = runtime.identity then
        { h with
          shared := { h.shared with
            audioOutputs := h.shared.audioOutputs.insert track generation }
          establishing := .serving runtime (track :: outputs) }
      else h
    | _ => h
  | .firstRequest =>
    match h.establishing with
    | .serving runtime _ => { h with shared := h.shared.admitPostHello runtime }
    | _ => h

def run (moves : List (Move L)) : Handover P L := moves.foldl move h

end Handover

end Vivido.Service
