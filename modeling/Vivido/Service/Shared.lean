import Vivido.Service.Lease

/-!
What the service shares between its connections: the registry of sessions and
leases, the scene, the overlay windows, the audio outputs and the file-drop
bindings. Each stands behind a lock of its own, and what is one definition here
holds one of them.
-/

namespace Vivido.Service

open Scene

def maxSessions : ℕ := 16

/-- A published session; its mutable parts stand at its handle. -/
structure SessionRuntime (L : LeaseProtocol) where
  handle : ℕ
  identity : SessionIdentity
  sessionTag : ℕ
  lease : Option LeaseKey
  resumeKey : L.Key

/-- A session's connection: whether its control transport is open, and its contexts. -/
structure Connection (L : LeaseProtocol) where
  identity : SessionIdentity
  isOpen : Bool
  contexts : SortedMap ℕ L.Context

structure Registry (L : LeaseProtocol) where
  sessions : SortedMap ℕ (SessionRuntime L)
  byTag : SortedMap ℕ ℕ
  leases : LeaseTable L

structure BindingKey where
  session : SessionIdentity
  contextId : ℕ
  surfaceId : ℕ
  deriving DecidableEq, Repr

structure ServiceShared (P : Protocol) (L : LeaseProtocol) where
  presenter : ℕ
  offeredProfiles : List String
  targetGeneration : ℕ
  registry : Registry L
  connections : SortedMap ℕ (Connection L)
  nextSession : ℕ
  scene : State P
  overlays : List SurfaceIdentity
  /-- The channel generation that each output plays. -/
  audioOutputs : SortedMap TrackIdentity ℕ
  fileDrops : List BindingKey

variable {P : Protocol} {L : LeaseProtocol}

namespace Registry

variable (registry : Registry L)

def insertSession (runtime : SessionRuntime L) : Registry L :=
  { registry with
    byTag := registry.byTag.insert runtime.sessionTag runtime.identity.sessionId
    sessions := registry.sessions.insert runtime.identity.sessionId runtime }

/-- Retire a session from both indexes; its tag goes only where it still points here. -/
def removeSession (sessionId : ℕ) : Registry L :=
  match registry.sessions.lookup sessionId with
  | none => registry
  | some runtime =>
    { registry with
      sessions := registry.sessions.erase sessionId
      byTag :=
        if registry.byTag.lookup runtime.sessionTag = some sessionId then
          registry.byTag.erase runtime.sessionTag
        else registry.byTag }

end Registry

namespace ServiceShared

variable (s : ServiceShared P L)

def setLease (key : LeaseKey) (lease : Lease L) : ServiceShared P L :=
  { s with registry := { s.registry with leases := s.registry.leases.insert key lease } }

def unregister (sessionId : ℕ) : ServiceShared P L :=
  { s with registry := s.registry.removeSession sessionId }

/-- The overlay windows of a session go; the surfaces they were shown on. -/
def removeOverlays (owner : SessionIdentity) : ServiceShared P L × List SurfaceIdentity :=
  ({ s with overlays := s.overlays.filter (·.context.session ≠ owner) },
    s.overlays.filter (·.context.session = owner))

def removeFileDrops (session : SessionIdentity) : ServiceShared P L :=
  { s with fileDrops := s.fileDrops.filter (·.session ≠ session) }

/-- Silence and drop every audio output a session owns. -/
def stopSessionAudio (session : SessionIdentity) : ServiceShared P L :=
  { s with
    audioOutputs := s.audioOutputs.filter fun entry =>
      entry.1.surface.context.session ≠ session }

def onScene (work : State P → State P) : ServiceShared P L := { s with scene := work s.scene }

/-- The capacity that a lease held back from its owning context. -/
def releaseCapacity (issuer contextId : ℕ) (contract : L.Contract) : ServiceShared P L :=
  { s with
    connections := s.connections.adjust issuer fun connection =>
      { connection with
        contexts := connection.contexts.adjust contextId (L.releaseChild · contract) } }

/-- The registry's part of a revocation: the lease goes, and its child's session is retired. -/
def retireLease (key : LeaseKey) : ServiceShared P L × Option (Lease L) :=
  match s.registry.leases.lookup key with
  | none => (s, none)
  | some lease =>
    let s := { s with registry := { s.registry with leases := s.registry.leases.erase key } }
    (match lease.child with
      | none => s
      | some child => s.unregister child.sessionId, some lease)

/-- Revoke one lease, issued by the session at a handle. -/
def revokeLease (issuer : ℕ) (key : LeaseKey) : ServiceShared P L :=
  match s.retireLease key with
  | (s, none) => s
  | (s, some lease) =>
    let s := s.releaseCapacity issuer key.contextId lease.contract
    match lease.child with
    | none => s
    | some child => (s.removeOverlays child).1.onScene (·.removeSession child)

/-- A record of a connection is served by its actor, which runs while the transport is open. -/
def serve (handle : ℕ) (work : ServiceShared P L → ServiceShared P L) : ServiceShared P L :=
  if (s.connections.lookup handle).any (·.isOpen) then work s else s

end ServiceShared

end Vivido.Service
