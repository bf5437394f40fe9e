import Vivido.Scene.Request
import Vivido.Service.Shared

/-!
What the revocation of a lease takes down. It takes the lease, the published
session of its child, and the child's windows and scene. The child's connection
goes on, and so does what hangs on the child elsewhere.
-/

namespace Vivido.Service

open Scene SortedMap Option

variable {P : Protocol} {L : LeaseProtocol}

/-- The sessions that a lease delegates to, directly and through the leases they issued. -/
inductive Delegated (leases : LeaseTable L) (key : LeaseKey) : SessionIdentity → Prop where
  | child {lease : Lease L} {child : SessionIdentity} (hlease : leases.lookup key = some lease)
      (hchild : lease.child = some child) : Delegated leases key child
  | issued {issuer child : SessionIdentity} {other : LeaseKey} {lease : Lease L}
      (hissuer : Delegated leases key issuer) (hother : other.issuer = issuer)
      (hlease : leases.lookup other = some lease) (hchild : lease.child = some child) :
      Delegated leases key child

namespace ServiceShared

/-- Nothing is left of a session's scene. -/
def NoScene (scene : State P) (session : SessionIdentity) : Prop :=
  scene.scenes.lookup session = none ∧
    (∀ key surface, scene.surfaces.lookup key = some surface → key.context.session ≠ session) ∧
    (∀ key track, scene.tracks.lookup key = some track → key.surface.context.session ≠ session) ∧
    (∀ key anchor, scene.anchors.lookup key = some anchor → key.context.session ≠ session) ∧
    ∀ poster ∈ scene.retainedPosters, poster.anchor.context.session ≠ session

/-- A session has lost its authority and all it had. -/
structure TornDown (s : ServiceShared P L) (session : SessionIdentity) : Prop where
  closed : ∀ handle connection, s.connections.lookup handle = some connection →
    connection.identity = session → connection.isOpen = false
  powerless : ∀ handle connection, s.connections.lookup handle = some connection →
    connection.identity = session → ∀ work, s.serve handle work = s
  scene : NoScene s.scene session
  overlays : ∀ surface ∈ s.overlays, surface.context.session ≠ session
  fileDrops : ∀ key ∈ s.fileDrops, key.session ≠ session
  audio : ∀ track generation, s.audioOutputs.lookup track = some generation →
    track.surface.context.session ≠ session
  leases : ∀ key lease, s.registry.leases.lookup key = some lease → key.issuer ≠ session

/-- A child whose connection is gone, and which holds neither audio nor a file-drop binding nor a
lease besides the one it came from. -/
structure Abandoned (s : ServiceShared P L) (key : LeaseKey) (child : SessionIdentity) : Prop where
  closed : ∀ handle connection, s.connections.lookup handle = some connection →
    connection.identity = child → connection.isOpen = false
  fileDrops : ∀ binding ∈ s.fileDrops, binding.session ≠ child
  audio : ∀ track generation, s.audioOutputs.lookup track = some generation →
    track.surface.context.session ≠ child
  leases : ∀ other lease, s.registry.leases.lookup other = some lease → other ≠ key →
    other.issuer ≠ child

variable {s : ServiceShared P L} {issuer : ℕ} {key : LeaseKey} {lease : Lease L}
  {child : SessionIdentity}

theorem leases_removeSession (registry : Registry L) (sessionId : ℕ) :
    (registry.removeSession sessionId).leases = registry.leases := by
  unfold Registry.removeSession
  split <;> rfl

/-- What a revocation makes of a child's share in the service. -/
theorem revokeLease_eq (hlease : s.registry.leases.lookup key = some lease)
    (hchild : lease.child = some child) : s.revokeLease issuer key =
      ((((({ s with registry := { s.registry with leases := s.registry.leases.erase key } } :
        ServiceShared P L).unregister child.sessionId).releaseCapacity issuer key.contextId
          lease.contract).removeOverlays child).1).onScene (·.removeSession child) := by
  unfold revokeLease retireLease
  rw [hlease]
  dsimp only
  rw [hchild]

theorem noScene_removeSession (scene : State P) (session : SessionIdentity) :
    NoScene (scene.removeSession session) session := by
  refine ⟨?_, fun key surface h => ?_, fun key track h => ?_, fun key anchor h => ?_,
    fun poster hposter => of_decide_eq_true (List.mem_filter.mp hposter).2⟩
  · change (scene.scenes.erase session).lookup session = none
    rw [lookup_erase, if_pos rfl]
  · change (scene.surfaces.filter _).lookup key = some surface at h
    rw [lookup_filter, filter_eq_some_iff] at h
    exact of_decide_eq_true h.2
  · change (scene.tracks.filter _).lookup key = some track at h
    rw [lookup_filter, filter_eq_some_iff] at h
    exact of_decide_eq_true h.2
  · change (scene.anchors.filter _).lookup key = some anchor at h
    rw [lookup_filter, filter_eq_some_iff] at h
    exact of_decide_eq_true h.2

variable {handle : ℕ} {connection : Connection L}

theorem lookup_releaseCapacity {contextId : ℕ} {contract : L.Contract} {connection' : Connection L}
    (h : (s.releaseCapacity issuer contextId contract).connections.lookup handle =
      some connection') : ∃ connection, s.connections.lookup handle = some connection ∧
      connection'.identity = connection.identity ∧ connection'.isOpen = connection.isOpen := by
  change (s.connections.adjust issuer _).lookup handle = some connection' at h
  rw [lookup_adjust] at h
  split at h
  · obtain ⟨connection, hconnection, rfl⟩ := Option.map_eq_some_iff.mp h
    exact ⟨connection, hconnection, rfl, rfl⟩
  · exact ⟨connection', h, rfl, rfl⟩

theorem lookup_releaseCapacity_of (issuer contextId : ℕ) (contract : L.Contract)
    (h : s.connections.lookup handle = some connection) :
    ∃ connection', (s.releaseCapacity issuer contextId contract).connections.lookup handle =
        some connection' ∧
      connection'.identity = connection.identity ∧ connection'.isOpen = connection.isOpen := by
  change ∃ connection', (s.connections.adjust issuer _).lookup handle = some connection' ∧ _
  rw [lookup_adjust, h]
  split <;> exact ⟨_, rfl, rfl, rfl⟩

theorem powerless_of_closed (h : s.connections.lookup handle = some connection)
    (hclosed : connection.isOpen = false) (work : ServiceShared P L → ServiceShared P L) :
    s.serve handle work = s := by
  unfold serve
  rw [h, any_some, hclosed, if_neg Bool.false_ne_true]

theorem leases_revokeLease (issuer : ℕ) (hlease : s.registry.leases.lookup key = some lease)
    (hchild : lease.child = some child) :
    (s.revokeLease issuer key).registry.leases = s.registry.leases.erase key := by
  rw [revokeLease_eq hlease hchild]
  exact leases_removeSession _ _

section

variable (hlease : s.registry.leases.lookup key = some lease) (hchild : lease.child = some child)
include hlease hchild

theorem tornDown_of_abandoned (h : s.Abandoned key child) :
    (s.revokeLease issuer key).TornDown child := by
  have hleases := leases_revokeLease issuer hlease hchild
  rw [revokeLease_eq hlease hchild] at hleases ⊢
  have hclosed : ∀ handle connection', (((({ s with registry := { s.registry with
        leases := s.registry.leases.erase key } } : ServiceShared P L).unregister
          child.sessionId).releaseCapacity issuer key.contextId lease.contract).connections).lookup
            handle = some connection' → connection'.identity = child →
              connection'.isOpen = false := by
    intro handle _ hconnection' hidentity
    obtain ⟨connection, hconnection, hsame, hopen⟩ := lookup_releaseCapacity hconnection'
    rw [hopen]
    exact h.closed handle connection hconnection (hsame.symm.trans hidentity)
  exact
    { closed := hclosed
      powerless := fun handle connection hconnection hidentity work =>
        powerless_of_closed hconnection (hclosed handle connection hconnection hidentity) work
      scene := noScene_removeSession _ child
      overlays := fun surface hsurface => of_decide_eq_true (List.mem_filter.mp hsurface).2
      fileDrops := h.fileDrops
      audio := h.audio
      leases := fun other left hother => by
        rw [hleases] at hother
        obtain ⟨hne, hother⟩ := lookup_erase_some hother
        exact h.leases other left hother hne }

/-- It takes nothing but the scene, the windows and the lease. -/
theorem abandoned_of_tornDown (h : (s.revokeLease issuer key).TornDown child) :
    s.Abandoned key child := by
  have hleases := leases_revokeLease issuer hlease hchild
  rw [revokeLease_eq hlease hchild] at hleases h
  exact
    { closed := fun handle connection hconnection hidentity => by
        obtain ⟨connection', hconnection', hsame, hopen⟩ :=
          lookup_releaseCapacity_of issuer key.contextId lease.contract hconnection
        rw [← hopen]
        exact h.closed handle connection' hconnection' (hsame.trans hidentity)
      fileDrops := h.fileDrops
      audio := h.audio
      leases := fun other left hother hne => by
        refine h.leases other left ?_
        rw [hleases, lookup_erase, if_neg hne]
        exact hother }

theorem delegated_abandoned (h : s.Abandoned key child) {session : SessionIdentity}
    (hsession : Delegated s.registry.leases key session) : session = child := by
  induction hsession with
  | child hfound hbound =>
    rw [hlease] at hfound
    cases hfound
    rw [hchild] at hbound
    exact (Option.some_inj.mp hbound).symm
  | @issued issuer bound other found hissuer hother hfound hbound ih =>
    by_cases hkey : other = key
    · rw [hkey, hlease] at hfound
      cases hfound
      rw [hchild] at hbound
      exact (Option.some_inj.mp hbound).symm
    · exact absurd (hother.trans ih) (h.leases other found hfound hkey)

end

/-- A revocation tears down the lease's whole subtree just where it has no child, or one that is
abandoned already. -/
theorem revoke_tears_down (s : ServiceShared P L) (issuer : ℕ) (key : LeaseKey) (lease : Lease L)
    (hlease : s.registry.leases.lookup key = some lease) :
    (∀ session, Delegated s.registry.leases key session →
        (s.revokeLease issuer key).TornDown session) ↔
      ∀ child, lease.child = some child → s.Abandoned key child := by
  constructor
  · intro h child hchild
    exact abandoned_of_tornDown hlease hchild (h child (.child hlease hchild))
  · intro h session hsession
    have hbound : ∃ child, lease.child = some child := by
      induction hsession with
      | child hfound hbound =>
        rw [hlease] at hfound
        cases hfound
        exact ⟨_, hbound⟩
      | issued _ _ _ _ ih => exact ih
    obtain ⟨child, hchild⟩ := hbound
    obtain rfl := delegated_abandoned hlease hchild (h child hchild) hsession
    exact tornDown_of_abandoned hlease hchild (h session hchild)

section Running

def rootSession : SessionIdentity := ⟨1, 1⟩

def childSession : SessionIdentity := ⟨1, 2⟩

def childKey : LeaseKey := ⟨rootSession, 1, 7⟩

/-- An active lease, whose child has sent its first request. -/
def activeLease : Lease .plain where
  awaitingFirst := false
  definition :=
    { activationVerifier := (40 : ℕ)
      activationTimeoutUs := 1000
      requestedDisconnectGraceUs := 1000
      suspendOnUncleanLoss := true
      permittedProfiles := [] }
  machine := ({ state := .active, admitted := true } : PlainMachine)
  contract := (0 : ℕ)
  activationDeadline := 1000
  graceDeadline := none
  child := some childSession
  resumeKey := none

def rootRuntime : SessionRuntime .plain := ⟨0, rootSession, 100, none, (1 : ℕ)⟩

def childRuntime : SessionRuntime .plain := ⟨1, childSession, 200, some childKey, (2 : ℕ)⟩

/-- A root session and its leased child, each on an open connection if the child's is. -/
def family (childIsOpen : Bool) : ServiceShared .plain .plain where
  presenter := 1
  offeredProfiles := []
  targetGeneration := 1
  registry :=
    { sessions := (SortedMap.empty.insert 1 rootRuntime).insert 2 childRuntime
      byTag := (SortedMap.empty.insert 100 1).insert 200 2
      leases := SortedMap.empty.insert childKey activeLease }
  connections := (SortedMap.empty.insert 0 ⟨rootSession, true, .empty⟩).insert 1
    ⟨childSession, childIsOpen, .empty⟩
  nextSession := 3
  scene := (((State.new .plain).registerSession rootSession 1).1.registerSession childSession 1).1
  overlays := []
  audioOutputs := .empty
  fileDrops := []

/-- The child of a revoked lease is served as before. -/
theorem revoked_child_served :
    ¬ ∀ (s : ServiceShared .plain .plain) (issuer : ℕ) (key : LeaseKey) (lease : Lease .plain),
      s.registry.leases.lookup key = some lease → ∀ session,
        Delegated s.registry.leases key session → (s.revokeLease issuer key).TornDown session := by
  intro h
  have hlease : (family true).registry.leases.lookup childKey = some activeLease :=
    lookup_insert_self
  have htorn := h (family true) 0 childKey activeLease hlease childSession (.child hlease rfl)
  have hconnection : (((family true).revokeLease 0 childKey).connections.lookup 1).any
      (fun connection => connection.identity = childSession && connection.isOpen) = true := by
    decide +kernel
  obtain ⟨connection, hfound, hopen⟩ := (Option.any_eq_true _ _).mp hconnection
  rw [Bool.and_eq_true, decide_eq_true_eq] at hopen
  cases (htorn.closed 1 connection hfound hopen.1).symm.trans hopen.2

theorem revoke_closed_child : (∀ session,
      Delegated (family false).registry.leases childKey session →
        ((family false).revokeLease 0 childKey).TornDown session) ↔
    ∀ child, activeLease.child = some child → (family false).Abandoned childKey child :=
  revoke_tears_down (family false) 0 childKey activeLease lookup_insert_self

end Running

end ServiceShared

end Vivido.Service
