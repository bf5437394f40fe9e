import Vivido.Authority.Contexts
import Vivido.Service.Lease

/-!
What sessions delegate. A context is charged for the contexts under it and for
the leases that are issued from it. A lease is retired under one lock and the
capacity that it held is released under another, by whichever thread revokes it;
a session that ends retires all that it issued.
-/

namespace Vivido.Authority

open Scene Service

/-- `MAX_LEASES` -/
def maxLeases : ℕ := 32

/-- What `CREATE_SESSION_LEASE` asks for. -/
structure LeaseDefinition (Contract : Type) where
  leaseId : ℕ
  contextId : ℕ
  permittedProfiles : List String
  requestedContract : Contract

/-- A lease of the registry, with the session's handle whose context is charged for it. -/
structure IssuedLease (C : ContextProtocol) where
  contract : C.Contract
  child : Option SessionIdentity := none
  awaitingFirst : Bool := true
  issuer : ℕ

/-- A session that was established, at its handle. -/
structure Tenant (C : ContextProtocol) where
  identity : SessionIdentity
  lease : Option LeaseKey
  contexts : ContextTable C
  /-- The actor runs, or has not ended what is to be ended. -/
  isLive : Bool := true
  /-- A record has been admitted. -/
  admitted : Bool := false

/-- Capacity that a retired lease held, and that is not released yet. -/
structure Release (C : ContextProtocol) where
  handle : ℕ
  contextId : ℕ
  contract : C.Contract

structure Estate (C : ContextProtocol) where
  /-- `OP_DELEGATE`, as a mask of operation classes. -/
  delegate : ℕ
  offeredProfiles : List String
  tenants : SortedMap ℕ (Tenant C)
  /-- The registry's handle of each session. -/
  sessions : SortedMap ℕ ℕ
  leases : SortedMap LeaseKey (IssuedLease C)
  releasing : List (Release C)

variable {C : ContextProtocol}

namespace Estate

variable (s : Estate C)

def setTenant (handle : ℕ) (tenant : Tenant C) : Estate C :=
  { s with tenants := s.tenants.insert handle tenant }

/-- `admit_post_hello`, once for each session. -/
def admitFirst (handle : ℕ) (tenant : Tenant C) : Estate C :=
  if tenant.admitted then s
  else
    let s := s.setTenant handle { tenant with admitted := true }
    match tenant.lease with
    | none => s
    | some key =>
      { s with leases := s.leases.adjust key fun lease => { lease with awaitingFirst := false } }

/-- `require_context_operation` -/
def mayDelegate (tenant : Tenant C) (contextId : ℕ) : Bool :=
  contextId ≠ 0 &&
    (tenant.contexts.lookup contextId).any fun state => state.operationClasses &&& s.delegate ≠ 0

/-- The handler of `CREATE_SESSION_LEASE`. -/
def createLease (handle : ℕ) (tenant : Tenant C) (objectId : ℕ)
    (definition : LeaseDefinition C.Contract) : Estate C × Except String Unit :=
  if definition.leaseId ≠ objectId then
    (s, .error "lease object ID does not match its payload")
  else if ¬ s.mayDelegate tenant definition.contextId then
    (s, .error "context is outside this session operation authority")
  else if definition.permittedProfiles.any (· ∉ s.offeredProfiles) then
    (s, .error "lease permits a profile this target does not implement")
  else
    let key : LeaseKey := ⟨tenant.identity, definition.contextId, definition.leaseId⟩
    if (s.leases.lookup key).isSome then (s, .error "lease identity is already live")
    else if maxLeases ≤ s.leases.size then (s, .error "lease capacity is exhausted")
    else
      match tenant.contexts.lookup definition.contextId with
      | none => (s, .error "lease context is absent")
      | some parent =>
        match C.reserveChild parent.operationClasses parent.contract parent.charges
            { contextId := definition.leaseId
              parentContextId := definition.contextId
              operationClasses := parent.operationClasses
              requestedContract := definition.requestedContract } with
        | none => (s, .error "context capacity is exhausted")
        | some (charges, _, contract) =>
          let contexts := tenant.contexts.insert definition.contextId { parent with charges }
          let s := s.setTenant handle { tenant with contexts }
          ({ s with leases := s.leases.insert key { contract, issuer := handle } }, .ok ())

/-- `remove_session` -/
def unregister (sessionId : ℕ) : Estate C := { s with sessions := s.sessions.erase sessionId }

/-- The registry's part of `revoke_lease`: the lease goes, and its child's session is retired. -/
def retire (releaser : ℕ) (key : LeaseKey) : Estate C :=
  match s.leases.lookup key with
  | none => s
  | some lease =>
    let s := { s with
      leases := s.leases.erase key
      releasing := s.releasing ++ [⟨releaser, key.contextId, lease.contract⟩] }
    match lease.child with
    | none => s
    | some child => s.unregister child.sessionId

/-- The rest of `revoke_lease`, for one of the leases that were retired. -/
def release (index : ℕ) : Estate C :=
  match s.releasing[index]? with
  | none => s
  | some release =>
    { s with
      releasing := s.releasing.eraseIdx index
      tenants := s.tenants.adjust release.handle fun tenant =>
        { tenant with
          contexts := tenant.contexts.adjust release.contextId (·.releaseChild release.contract) } }

/-- The handler of `REVOKE_SESSION_LEASE`. -/
def revokeLease (handle : ℕ) (tenant : Tenant C) (contextId leaseId : ℕ) :
    Estate C × Except String Unit :=
  if ¬ s.mayDelegate tenant contextId then
    (s, .error "context is outside this session operation authority")
  else
    let key : LeaseKey := ⟨tenant.identity, contextId, leaseId⟩
    if (s.leases.lookup key).isNone then (s, .error "lease does not exist")
    else (s.retire handle key, .ok ())

/-- The handler of `REVOKE_CONTEXT`. No loop goes around more often than there are contexts, and
once more. -/
def revokeContext (handle : ℕ) (tenant : Tenant C) (contextId : ℕ) :
    Estate C × Except String Unit :=
  if contextId = rootContextId then (s, .error "context cannot be revoked")
  else if (tenant.contexts.lookup contextId).isNone then (s, .error "context does not exist")
  else
    match tenant.contexts.revoke (tenant.contexts.size + 1) contextId with
    | none => (s, .error "the loops do not end")
    | some (contexts, _) => (s.setTenant handle { tenant with contexts }, .ok ())

def issuedBy (identity : SessionIdentity) : List LeaseKey :=
  (s.leases.entries.map Prod.fst).filter (·.issuer = identity)

/-- How a connection ends, with what the lease machine makes of it. -/
structure Ending where
  clean : Bool
  /-- The machine confirms the loss of a transport that nothing was admitted on. -/
  unused : Bool
  suspends : Bool
  deriving DecidableEq, Repr

/-- The transport was lost before a first request, so that an attempt may be made again. -/
def isRetried (tenant : Tenant C) (ending : Ending) : Bool :=
  !ending.clean && tenant.lease.any fun key =>
    (s.leases.lookup key).any fun lease => lease.awaitingFirst && ending.unused

/-- A session that ends takes the leases that it issued along. -/
def retireIssued (handle : ℕ) (identity : SessionIdentity) : Estate C :=
  (s.issuedBy identity).foldl (fun s key => s.retire handle key) s

/-- A leased session that ends gives its lease back to the issuer, unless it is suspended. -/
def giveBack (tenant : Tenant C) (ending : Ending) : Estate C :=
  match tenant.lease with
  | none => s
  | some key =>
    match s.sessions.lookup key.issuer.sessionId with
    | none => s
    | some issuer => if ¬ ending.clean ∧ ending.suspends then s else s.retire issuer key

/-- `finish_session` -/
def finish (handle : ℕ) (tenant : Tenant C) (ending : Ending) : Estate C :=
  let retired := if s.isRetried tenant ending then s
    else (s.retireIssued handle tenant.identity).giveBack tenant ending
  (retired.setTenant handle { tenant with isLive := false }).unregister tenant.identity.sessionId

/-- A session is established, by a lease if it is not a root session. -/
def establish (handle : ℕ) (identity : SessionIdentity) (lease : Option LeaseKey)
    (operationClasses : ℕ) (contract : C.Contract) : Estate C :=
  if (s.tenants.lookup handle).isSome ∨ lease.any fun key => (s.leases.lookup key).isNone then s
  else
    match ContextTable.root operationClasses contract with
    | none => s
    | some contexts =>
      let s := s.setTenant handle { identity, lease, contexts }
      let s := { s with sessions := s.sessions.insert identity.sessionId handle }
      match lease with
      | none => s
      | some key =>
        { s with
          leases := s.leases.adjust key fun lease =>
            { lease with child := some identity, awaitingFirst := true } }

end Estate

/-- A step of one of the threads. -/
inductive Tenure (C : ContextProtocol) where
  | establish (handle : ℕ) (identity : SessionIdentity) (lease : Option LeaseKey)
      (operationClasses : ℕ) (contract : C.Contract)
  | createContext (handle : ℕ) (definition : ContextDefinition C.Contract)
  | createLease (handle objectId : ℕ) (definition : LeaseDefinition C.Contract)
  | revokeLease (handle contextId leaseId : ℕ)
  | revokeContext (handle contextId : ℕ)
  /-- One of the leases that the session issued is found to be expired. -/
  | expire (handle : ℕ) (key : LeaseKey)
  | release (index : ℕ)
  | finish (handle : ℕ) (ending : Estate.Ending)

namespace Estate

variable (s : Estate C)

/-- A session acts while it is live. -/
def asLive (handle : ℕ) (work : Tenant C → Estate C) : Estate C :=
  match s.tenants.lookup handle with
  | none => s
  | some tenant => if tenant.isLive then work tenant else s

/-- A session's actor has a record of it to handle. -/
def onRecord (handle : ℕ) (work : Estate C → Tenant C → Estate C) : Estate C :=
  s.asLive handle fun tenant =>
    work (s.admitFirst handle tenant) { tenant with admitted := true }

def step : Tenure C → Estate C
  | .establish handle identity lease operationClasses contract =>
    s.establish handle identity lease operationClasses contract
  | .createContext handle definition =>
    s.onRecord handle fun s tenant =>
      s.setTenant handle { tenant with contexts := (tenant.contexts.create definition).1 }
  | .createLease handle objectId definition =>
    s.onRecord handle fun s tenant => (s.createLease handle tenant objectId definition).1
  | .revokeLease handle contextId leaseId =>
    s.onRecord handle fun s tenant => (s.revokeLease handle tenant contextId leaseId).1
  | .revokeContext handle contextId =>
    s.onRecord handle fun s tenant => (s.revokeContext handle tenant contextId).1
  | .expire handle key =>
    s.asLive handle fun tenant => if key.issuer = tenant.identity then s.retire handle key else s
  | .release index => s.release index
  | .finish handle ending => s.asLive handle fun tenant => s.finish handle tenant ending

/-- A service that starts. -/
def start (C : ContextProtocol) (delegate : ℕ) (offeredProfiles : List String) : Estate C where
  delegate
  offeredProfiles
  tenants := .empty
  sessions := .empty
  leases := .empty
  releasing := []

def run (C : ContextProtocol) (delegate : ℕ) (offeredProfiles : List String)
    (history : List (Tenure C)) : Estate C :=
  history.foldl step (start C delegate offeredProfiles)

theorem run_concat (delegate : ℕ) (offeredProfiles : List String) (history : List (Tenure C))
    (tenure : Tenure C) : run C delegate offeredProfiles (history ++ [tenure]) =
      (run C delegate offeredProfiles history).step tenure :=
  List.foldl_append

end Estate

end Vivido.Authority
