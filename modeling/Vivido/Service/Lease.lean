import Vivido.Scene.Sessions

/-!
Session leases. A session delegates authority to one child session by a lease,
which a secret activates and which outlives an unclean loss for its grace. The
library that owns the lease machine stands outside the repository, and so do the
keys and the contexts that a contract charges.
-/

namespace Vivido.Service

open Scene

/-- The lease states that this repository tells apart. -/
inductive LeaseState where
  | issued
  | reserved
  | active
  | suspended
  | other (code : ℕ)
  deriving DecidableEq, Repr

/-- The session that issued the lease, its owning context, and its local number. -/
structure LeaseKey where
  issuer : SessionIdentity
  contextId : ℕ
  leaseId : ℕ
  deriving Repr

instance : LinearOrder LeaseKey :=
  LinearOrder.lift' (fun k => toLex (k.issuer, toLex (k.contextId, k.leaseId)))
    fun ⟨_, _, _⟩ ⟨_, _, _⟩ h => by
      cases h
      rfl

/-- An attempt to establish a session: what the `HELLO` says, and the candidate for it. -/
structure EstablishmentAttempt (Hello Nonce Welcome : Type) where
  hello : Hello
  sessionId : ℕ
  serverNonce : Nonce
  welcome : Welcome

/-- What a lease decides on, for a fresh attempt and for an exact replay alike. -/
structure AttemptDecision (Nonce Welcome : Type) where
  sessionId : ℕ
  serverNonce : Nonce
  welcome : Welcome

/-- The parts of the protocol's library that leases rest on. A method that may refuse says whether
it did, or gives no decision. -/
structure LeaseProtocol where
  Machine : Type
  Hello : Type
  Key : Type
  Nonce : Type
  Welcome : Type
  Contract : Type
  Context : Type
  /-- The state of a machine. -/
  state : Machine → LeaseState
  resumeGeneration : Machine → ℕ
  confirmTransportLost : Machine → Bool → Machine × Bool
  admitPostHello : Machine → Machine
  commitWelcome : Machine → Machine × Bool
  beginActivation : Machine → EstablishmentAttempt Hello Nonce Welcome →
    Machine × Option (AttemptDecision Nonce Welcome)
  beginResume : Machine → ℕ → EstablishmentAttempt Hello Nonce Welcome →
    Machine × Option (AttemptDecision Nonce Welcome)
  /-- The secret is the one behind a lease's verifier. -/
  verifyActivationSecret : ℕ → Key → Key → Bool
  /-- The `HELLO` proves that its sender holds the resume key. -/
  verifyResume : Hello → Key → Bool
  /-- `SessionIdentity::new` accepts the number. -/
  isSessionId : ℕ → Bool
  sessionTag : Welcome → Option ℕ
  /-- The resume key of a session, from its secret, its nonces, its number, its generation and its
  tag. -/
  deriveResumeKey : Key → Hello → Nonce → ℕ → ℕ → ℕ → Key
  rootContext : SessionIdentity → Contract → Option Context
  releaseChild : Context → Contract → Context

structure SessionLeaseDefinition (L : LeaseProtocol) where
  activationVerifier : L.Key
  activationTimeoutUs : ℕ
  requestedDisconnectGraceUs : ℕ
  suspendOnUncleanLoss : Bool
  permittedProfiles : List String

/-- Instants are in microseconds. -/
structure Lease (L : LeaseProtocol) where
  awaitingFirst : Bool
  definition : SessionLeaseDefinition L
  machine : L.Machine
  contract : L.Contract
  activationDeadline : ℕ
  graceDeadline : Option ℕ
  child : Option SessionIdentity
  resumeKey : Option L.Key

variable {L : LeaseProtocol}

namespace Lease

variable (lease : Lease L)

def beginRetryWindow (now : ℕ) : Lease L :=
  { lease with
    activationDeadline :=
      if lease.awaitingFirst then lease.activationDeadline
      else now + lease.definition.activationTimeoutUs
    awaitingFirst := true }

def accepts (leaseId : ℕ) (secret : L.Key) : Bool :=
  L.verifyActivationSecret leaseId secret lease.definition.activationVerifier

def suspendsOnUncleanLoss : Bool :=
  lease.definition.suspendOnUncleanLoss && 0 < lease.definition.requestedDisconnectGraceUs

/-- Suspend the lease, keeping the resume key; the machine may have moved even where it fails. -/
def suspend (resumeKey : L.Key) (now : ℕ) : Lease L × Bool :=
  let (machine, lost) := L.confirmTransportLost lease.machine false
  let lease := { lease with machine }
  if ¬ lost ∨ L.state machine ≠ .suspended then (lease, false)
  else
    ({ lease with
        resumeKey := some resumeKey
        graceDeadline := some (now + lease.definition.requestedDisconnectGraceUs) }, true)

def expired (now : ℕ) : Bool :=
  match L.state lease.machine with
  | .issued | .reserved => lease.activationDeadline ≤ now
  | .active => lease.awaitingFirst && lease.activationDeadline ≤ now
  | .suspended => lease.graceDeadline.any (· ≤ now)
  | .other _ => false

end Lease

/-- Every lease the presenter has issued. -/
abbrev LeaseTable (L : LeaseProtocol) := SortedMap LeaseKey (Lease L)

namespace LeaseTable

variable (leases : LeaseTable L)

def findActivation (contextId leaseId : ℕ) (secret : L.Key) (now : ℕ) : Option LeaseKey :=
  (leases.entries.find? fun (key, lease) =>
    key.contextId = contextId && key.leaseId = leaseId && lease.accepts leaseId secret &&
      !lease.expired now).map Prod.fst

def findResume (contextId leaseId sessionId now : ℕ) : Option LeaseKey :=
  (leases.entries.find? fun (key, lease) =>
    key.contextId = contextId && key.leaseId = leaseId &&
      (L.state lease.machine = .suspended ∨ lease.awaitingFirst ∧ lease.resumeKey.isSome) &&
      !lease.expired now && lease.child.any (·.sessionId = sessionId)).map Prod.fst

/-- Every lease issued by one session. -/
def issuedBy (issuer : SessionIdentity) : List LeaseKey :=
  (leases.entries.map Prod.fst).filter (·.issuer = issuer)

end LeaseTable

/-- A lease machine that keeps its last decision. -/
structure PlainMachine where
  state : LeaseState := .issued
  generation : ℕ := 0
  suspends : Bool := true
  admitted : Bool := false
  decided : Option (ℕ × AttemptDecision ℕ ℕ) := none

namespace PlainMachine

variable (machine : PlainMachine) (attempt : EstablishmentAttempt ℕ ℕ ℕ)

/-- Reserve the lease for an attempt. -/
def decide : PlainMachine × Option (AttemptDecision ℕ ℕ) :=
  let decision := ⟨attempt.sessionId, attempt.serverNonce, attempt.welcome⟩
  ({ machine with
      state := .reserved
      admitted := false
      decided := some (attempt.hello, decision) }, some decision)

/-- Decide again as before, on the same attempt, while no request has been admitted. -/
def replay : PlainMachine × Option (AttemptDecision ℕ ℕ) :=
  (machine, (machine.decided.filter fun decided =>
    decided.1 = attempt.hello && !machine.admitted).map Prod.snd)

end PlainMachine

/-- A library that behaves as leases need, over numbers. -/
def LeaseProtocol.plain : LeaseProtocol where
  Machine := PlainMachine
  Hello := ℕ
  Key := ℕ
  Nonce := ℕ
  Welcome := ℕ
  Contract := ℕ
  Context := ℕ
  state machine := machine.state
  resumeGeneration machine := machine.generation
  confirmTransportLost machine clean :=
    if machine.state ≠ .active then (machine, false)
    else if ¬ machine.admitted then ({ machine with state := .reserved }, true)
    else ({ machine with
        state := if machine.suspends && !clean then .suspended else .other 5 }, true)
  admitPostHello machine := { machine with admitted := true }
  commitWelcome machine := ({ machine with state := .active }, true)
  beginActivation machine attempt :=
    if machine.state = .issued then machine.decide attempt else machine.replay attempt
  beginResume machine generation attempt :=
    if machine.state = .suspended ∧ machine.generation = generation then
      { machine with generation := generation + 1 }.decide attempt
    else machine.replay attempt
  verifyActivationSecret _ secret verifier := secret = verifier
  verifyResume _ _ := true
  isSessionId n := n ≠ 0
  sessionTag := some
  deriveResumeKey secret _ nonce _ _ _ := secret + nonce
  rootContext _ _ := some 0
  releaseChild context contract := context - contract

end Vivido.Service
