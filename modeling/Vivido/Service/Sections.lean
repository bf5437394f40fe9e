import Vivido.Service.Handover
import Vivido.Service.Revocation

/-!
What the sections of a finish do to the registry and the scene: each retires one
session at most, and the last of them ends whatever goes by the lost session's
number.
-/

namespace Vivido.Service

open Scene SortedMap

variable {P : Protocol} {L : LeaseProtocol}

/-! ### The registry -/

/-- Nothing is published or retired. -/
def SameIndex (before after : Registry L) : Prop :=
  after.sessions = before.sessions ∧ after.byTag = before.byTag

/-- At most one session is retired. -/
def Retires (before after : Registry L) : Prop :=
  SameIndex before after ∨ ∃ sessionId, SameIndex (before.removeSession sessionId) after

theorem sessions_removeSession (registry : Registry L) (sessionId : ℕ) :
    (registry.removeSession sessionId).sessions = registry.sessions.erase sessionId := by
  unfold Registry.removeSession
  cases hlookup : registry.sessions.lookup sessionId with
  | none => exact (erase_of_lookup hlookup).symm
  | some => rfl

theorem lookup_removeSession_self (registry : Registry L) (sessionId : ℕ) :
    (registry.removeSession sessionId).sessions.lookup sessionId = none := by
  rw [sessions_removeSession, lookup_erase, if_pos rfl]

theorem byTag_removeSession {registry : Registry L} {sessionId tag id : ℕ}
    (h : (registry.removeSession sessionId).byTag.lookup tag = some id) :
    registry.byTag.lookup tag = some id ∧
      ∀ runtime, registry.sessions.lookup sessionId = some runtime →
        registry.byTag.lookup runtime.sessionTag = some sessionId → tag ≠ runtime.sessionTag := by
  unfold Registry.removeSession at h
  cases hlookup : registry.sessions.lookup sessionId with
  | none =>
    rw [hlookup] at h
    exact ⟨h, nofun⟩
  | some runtime =>
    rw [hlookup] at h
    dsimp only at h
    split at h
    · obtain ⟨hne, h⟩ := lookup_erase_some h
      refine ⟨h, fun other hother _ => ?_⟩
      cases hother
      exact hne
    · rename_i hnot
      refine ⟨h, fun other hother hpoints => ?_⟩
      cases hother
      exact absurd hpoints hnot

/-- One session is retired, whatever the leases are. -/
theorem retires_unregister {before : Registry L} {s : ServiceShared P L}
    (h : SameIndex before s.registry) (sessionId : ℕ) :
    Retires before (s.unregister sessionId).registry := by
  refine Or.inr ⟨sessionId, ?_⟩
  unfold ServiceShared.unregister Registry.removeSession
  rw [h.1]
  split
  · exact h
  · refine ⟨rfl, ?_⟩
    dsimp only
    rw [h.2]

/-! ### What a section makes of the registry -/

namespace ServiceShared

variable (s : ServiceShared P L)

/-- A lease goes, and the session that its child is published by. -/
theorem retireLease_cases (key : LeaseKey) :
    (s.registry.leases.lookup key = none ∧ s.retireLease key = (s, none)) ∨
      ∃ lease s', s.registry.leases.lookup key = some lease ∧
        s.retireLease key = (s', some lease) ∧ s'.nextSession = s.nextSession ∧
        s'.registry.leases = s.registry.leases.erase key ∧
        ∀ n, s'.registry.sessions.lookup n = s.registry.sessions.lookup n ∨
          ∃ child, lease.child = some child ∧ child.sessionId = n := by
  unfold retireLease
  cases hlease : s.registry.leases.lookup key with
  | none => exact Or.inl ⟨rfl, rfl⟩
  | some lease =>
    right
    refine ⟨lease, _, rfl, rfl, ?_⟩
    cases hchild : lease.child with
    | none => exact ⟨rfl, rfl, fun _ => Or.inl rfl⟩
    | some child =>
      refine ⟨rfl, leases_removeSession _ _, fun n => ?_⟩
      by_cases hn : child.sessionId = n
      · exact Or.inr ⟨child, rfl, hn⟩
      · left
        change (Registry.removeSession _ _).sessions.lookup n = _
        rw [sessions_removeSession, lookup_erase, if_neg (Ne.symm hn)]

theorem retires_retireLease (key : LeaseKey) :
    Retires s.registry (s.retireLease key).1.registry := by
  unfold retireLease
  split
  · exact Or.inl ⟨rfl, rfl⟩
  · dsimp only
    split
    · exact Or.inl ⟨rfl, rfl⟩
    · refine retires_unregister ?_ _
      exact ⟨rfl, rfl⟩

end ServiceShared

namespace Finishing

variable (lost : SessionRuntime L) (clean : Bool) (now : ℕ) (s : ServiceShared P L)

/-- A lease that awaits its first request is kept, with the loss confirmed; a lease that does not
is left to what follows. -/
theorem awaited_cases :
    (awaited lost clean s = (s, false) ∧ ∀ key lease, clean = false → lost.lease = some key →
        s.registry.leases.lookup key = some lease → lease.awaitingFirst = false) ∨
      ∃ key lease, lost.lease = some key ∧ s.registry.leases.lookup key = some lease ∧
        lease.awaitingFirst = true ∧ (awaited lost clean s = (s.setLease key
            { lease with machine := (L.confirmTransportLost lease.machine false).1 }, false) ∨
          awaited lost clean s = ((s.setLease key
            { lease with machine := (L.confirmTransportLost lease.machine false).1 }).unregister
              lost.identity.sessionId, true)) := by
  unfold awaited
  by_cases hclean : clean = true
  · rw [if_pos hclean]
    exact Or.inl ⟨rfl, fun _ _ h => by cases hclean.symm.trans h⟩
  rw [if_neg hclean]
  cases hkey : lost.lease with
  | none => exact Or.inl ⟨rfl, nofun⟩
  | some key =>
    dsimp only
    cases hlease : s.registry.leases.lookup key with
    | none =>
      refine Or.inl ⟨rfl, fun other lease _ h hother => ?_⟩
      cases h
      cases hlease.symm.trans hother
    | some lease =>
      dsimp only
      by_cases hawaiting : lease.awaitingFirst = true
      · rw [if_pos hawaiting]
        right
        refine ⟨key, lease, rfl, hlease, hawaiting, ?_⟩
        by_cases hconfirmed : (L.confirmTransportLost lease.machine false).2 = true
        · rw [if_pos hconfirmed]
          exact Or.inr rfl
        · rw [if_neg hconfirmed]
          exact Or.inl rfl
      · rw [if_neg hawaiting]
        refine Or.inl ⟨rfl, fun other lease' _ h hother => ?_⟩
        cases h
        cases hlease.symm.trans hother
        exact Bool.eq_false_iff.mpr hawaiting

theorem suspended_cases (key : LeaseKey) : suspended lost now s key = (s, false) ∨
      ∃ lease, s.registry.leases.lookup key = some lease ∧ suspended lost now s key =
        (s.setLease key (lease.suspend lost.resumeKey now).1,
          (lease.suspend lost.resumeKey now).2) := by
  unfold suspended
  cases hlease : s.registry.leases.lookup key with
  | none => exact Or.inl rfl
  | some lease =>
    dsimp only
    split
    · exact Or.inr ⟨lease, rfl, rfl⟩
    · exact Or.inl rfl

/-- A suspension moves the machine alone, or leaves the lease suspended with its grace set. -/
theorem suspend_cases (lease : Lease L) (resumeKey : L.Key) : lease.suspend resumeKey now =
        ({ lease with machine := (L.confirmTransportLost lease.machine false).1 }, false) ∨
      ∃ grace, L.state (L.confirmTransportLost lease.machine false).1 = .suspended ∧
        lease.suspend resumeKey now = ({ lease with
              machine := (L.confirmTransportLost lease.machine false).1, resumeKey := some resumeKey
              graceDeadline := some grace }, true) := by
  unfold Lease.suspend
  dsimp only
  by_cases hlost : ¬ (L.confirmTransportLost lease.machine false).2 = true ∨
      L.state (L.confirmTransportLost lease.machine false).1 ≠ .suspended
  · rw [if_pos hlost]
    exact Or.inl rfl
  · rw [if_neg hlost]
    rw [not_or, not_not, not_not] at hlost
    exact Or.inr ⟨_, hlost.2, rfl⟩

/-- A section writes the lease of the session, takes a lease back or retires the session, and it
leaves the rest of the registry and the counter of sessions as they are. -/
inductive Turns : Finishing L → ServiceShared P L × List (Finishing L) → Prop where
  | same {action : Finishing L} {result : ServiceShared P L × List (Finishing L)}
      (hregistry : result.1.registry = s.registry)
      (hnext : result.1.nextSession = s.nextSession) : Turns action result
  | confirmed {key : LeaseKey} {lease : Lease L} (hkey : lost.lease = some key)
      (hlease : s.registry.leases.lookup key = some lease)
      (hawaiting : lease.awaitingFirst = true) :
      Turns .awaitFirst (s.setLease key
        { lease with machine := (L.confirmTransportLost lease.machine false).1 },
        [.collectIssued, .settleLease])
  | unregistered {key : LeaseKey} {lease : Lease L} (hkey : lost.lease = some key)
      (hlease : s.registry.leases.lookup key = some lease)
      (hawaiting : lease.awaitingFirst = true) :
      Turns .awaitFirst ((s.setLease key
        { lease with machine := (L.confirmTransportLost lease.machine false).1 }).unregister
          lost.identity.sessionId, [])
  | suspended {issuer : ℕ} {key : LeaseKey} {lease : Lease L}
      (hlease : s.registry.leases.lookup key = some lease) :
      Turns (.suspendLease issuer key) (s.setLease key (lease.suspend lost.resumeKey now).1,
        if (lease.suspend lost.resumeKey now).2 then [.suspendScene, .stopAudio, .unregister]
        else .retireLease issuer key :: closing)
  | retired {issuer : ℕ} {key : LeaseKey} {added : List (Finishing L)} :
      Turns (.retireLease issuer key) ((s.retireLease key).1, added)
  | unregister : Turns .unregister (s.unregister lost.identity.sessionId, [])

theorem exec_awaitFirst : (awaitFirst : Finishing L).exec lost clean now s =
    ((awaited lost clean s).1, if (awaited lost clean s).2 then []
      else [.collectIssued, .settleLease]) := by
  dsimp only [exec]
  split <;> (rename_i heq; rw [heq]; rfl)

theorem exec_suspendLease (issuer : ℕ) (key : LeaseKey) :
    (suspendLease issuer key).exec lost clean now s = ((suspended lost now s key).1,
      if (suspended lost now s key).2 then [.suspendScene, .stopAudio, .unregister]
      else .retireLease issuer key :: closing) := by
  dsimp only [exec]
  split <;> (rename_i heq; rw [heq]; rfl)

theorem turns_exec (action : Finishing L) :
    Turns lost now s action (action.exec lost clean now s) := by
  cases action with
  | awaitFirst =>
    rw [exec_awaitFirst]
    rcases awaited_cases lost clean s with
      ⟨heq, -⟩ | ⟨key, lease, hkey, hlease, hawaiting, heq | heq⟩ <;> rw [heq]
    · exact .same rfl rfl
    · exact .confirmed hkey hlease hawaiting
    · exact .unregistered hkey hlease hawaiting
  | suspendLease _ key =>
    rw [exec_suspendLease]
    rcases suspended_cases lost now s key with heq | ⟨_, hlease, heq⟩ <;> rw [heq]
    · exact .same rfl rfl
    · exact .suspended hlease
  | retireLease issuer key =>
    dsimp only [exec]
    split <;> (rename_i heq; obtain rfl := congrArg Prod.fst heq; exact .retired)
  | settleLease =>
    dsimp only [exec]
    split
    · exact .same rfl rfl
    · split
      · exact .same rfl rfl
      · split <;> exact .same rfl rfl
  | unregister => exact .unregister
  | _ => exact .same rfl rfl

variable {lost now s}

/-- A section retires one session at most. -/
theorem Turns.retires {action : Finishing L} {result : ServiceShared P L × List (Finishing L)}
    (h : Turns lost now s action result) : Retires s.registry result.1.registry := by
  cases h with
  | same hregistry => exact Or.inl ⟨congrArg _ hregistry, congrArg _ hregistry⟩
  | unregistered =>
    refine retires_unregister ?_ _
    exact ⟨rfl, rfl⟩
  | retired => exact s.retires_retireLease _
  | unregister => exact Or.inr ⟨_, rfl, rfl⟩
  | _ => exact Or.inl ⟨rfl, rfl⟩

variable (lost now)

/-- The section leaves the lost session unregistered, or adds one that will. -/
def unlists : Finishing L → Bool
  | .awaitFirst | .settleLease | .suspendLease _ _ | .unregister => true
  | _ => false

/-- The section ends what goes by the session's number, or adds one that will. -/
def threatens (action : Finishing L) : Bool :=
  action.unlists || match action with
  | .retireScene => true
  | _ => false

theorem awaited_unlists (h : (awaited lost clean s).2 = true) :
    (awaited lost clean s).1.registry.sessions.lookup lost.identity.sessionId = none := by
  unfold awaited at h ⊢
  split at h
  · cases h
  rename_i hclean
  rw [if_neg hclean]
  split at h
  · cases h
  dsimp only at h ⊢
  split at h
  · cases h
  split at h
  · rename_i hawaiting
    rw [if_pos hawaiting]
    split at h
    · rename_i hconfirmed
      rw [if_pos hconfirmed]
      exact lookup_removeSession_self _ _
    · cases h
  · cases h

theorem exec_unlists {action : Finishing L} (h : action.unlists = true) :
    ((action.exec lost clean now s).2.any unlists = true) ∨
      (action.exec lost clean now s).1.registry.sessions.lookup lost.identity.sessionId = none := by
  cases action with
  | awaitFirst =>
    have hunlists := awaited_unlists lost clean (s := s)
    dsimp only [exec]
    split
    · rename_i heq
      rw [heq] at hunlists
      exact Or.inr (hunlists rfl)
    · exact Or.inl rfl
  | settleLease =>
    dsimp only [exec]
    split
    · exact Or.inl rfl
    · split
      · exact Or.inl rfl
      · split <;> exact Or.inl rfl
  | suspendLease =>
    dsimp only [exec]
    split <;> exact Or.inl rfl
  | unregister => exact Or.inr (lookup_removeSession_self _ _)
  | _ => cases h

end Finishing

/-! ### The scene of a session that was ended -/

theorem scenes_destroySurface_none (scene : State P) (surface : SurfaceIdentity)
    {session : SessionIdentity} (h : scene.scenes.lookup session = none) :
    (scene.destroySurface surface).1.scenes.lookup session = none := by
  have hset : ∀ (s : State P) (other : SessionIdentity) (entry entry' : SessionScene P),
      s.scenes.lookup session = none → s.scenes.lookup other = some entry →
        (s.setScene other entry').scenes.lookup session = none := by
    intro s other _ entry' hnone hsome
    change (s.scenes.insert other entry').lookup session = none
    rw [lookup_insert, if_neg, hnone]
    rintro rfl
    cases hnone.symm.trans hsome
  unfold State.destroySurface
  dsimp only
  split
  · exact h
  split
  · exact h
  · rename_i hscene
    split
    · split <;> exact hset _ _ _ _ h hscene
    · exact hset _ _ _ _ h hscene

section

variable (scene : State P) (session : SessionIdentity)
include scene session

theorem scenes_detachSession
    {other : SessionIdentity} (h : other = session ∨ scene.scenes.lookup other = none) :
    (scene.detachSession session).scenes.lookup other = none := by
  unfold State.detachSession
  dsimp only
  split
  · rename_i hnone
    rcases h with rfl | h
    · exact hnone
    · exact h
  · change (scene.scenes.erase session).lookup other = none
    rw [lookup_erase]
    split
    · rfl
    · rename_i hne
      exact h.resolve_left hne

theorem scenes_removeSession
    {other : SessionIdentity} (h : other = session ∨ scene.scenes.lookup other = none) :
    (scene.removeSession session).scenes.lookup other = none := by
  change (scene.scenes.erase session).lookup other = none
  rw [lookup_erase]
  split
  · rfl
  · rename_i hne
    exact h.resolve_left hne

theorem scenes_suspendSession : (scene.suspendSession session).scenes = scene.scenes := by
  unfold State.suspendSession
  dsimp only
  split <;> rfl

end

/-- The successor is not registered any more, or its scene is not. -/
def Gone (s : ServiceShared P L) (runtime : SessionRuntime L) : Prop :=
  s.registry.sessions.lookup runtime.identity.sessionId ≠ some runtime ∨
    s.scene.scenes.lookup runtime.identity = none

namespace Finishing

variable {lost : SessionRuntime L} {clean : Bool} {now : ℕ} {s : ServiceShared P L}
  {runtime : SessionRuntime L} {action : Finishing L}

theorem lookup_retires {before after : Registry L} (h : Retires before after) {id : ℕ}
    (hne : before.sessions.lookup id ≠ some runtime) : after.sessions.lookup id ≠ some runtime := by
  rcases h with ⟨hsame, -⟩ | ⟨_, hsame, -⟩
  · rw [hsame]
    exact hne
  · rw [hsame, sessions_removeSession, lookup_erase]
    split
    · intro hnone
      cases hnone
    · exact hne

theorem scenes_exec (h : s.scene.scenes.lookup runtime.identity = none) :
    (action.exec lost clean now s).1.scene.scenes.lookup runtime.identity = none := by
  have hscene : ∀ s' : ServiceShared P L, s'.scene = s.scene →
      s'.scene.scenes.lookup runtime.identity = none := by
    intro _ heq
    rw [heq]
    exact h
  cases action with
  | destroySurface => exact scenes_destroySurface_none _ _ h
  | removeChildScene => exact scenes_removeSession _ _ (Or.inr h)
  | suspendScene =>
    change (s.scene.suspendSession _).scenes.lookup _ = none
    rw [scenes_suspendSession]
    exact h
  | retireScene =>
    dsimp only [exec]
    dsimp only [ServiceShared.onScene]
    split
    · exact scenes_detachSession _ _ (Or.inr h)
    · exact scenes_removeSession _ _ (Or.inr h)
  | awaitFirst =>
    rw [exec_awaitFirst]
    rcases awaited_cases lost clean s with ⟨heq, -⟩ | ⟨_, _, -, -, -, heq | heq⟩ <;>
      (rw [heq]; exact h)
  | retireLease issuer key =>
    have hsame : (s.retireLease key).1.scene = s.scene := by
      unfold ServiceShared.retireLease
      split
      · rfl
      · dsimp only
        split <;> rfl
    dsimp only [exec]
    split <;> (rename_i heq; rw [heq] at hsame; exact hscene _ hsame)
  | suspendLease _ key =>
    rw [exec_suspendLease]
    rcases suspended_cases lost now s key with heq | ⟨_, -, heq⟩ <;> (rw [heq]; exact h)
  | settleLease =>
    dsimp only [exec]
    split
    · exact h
    · split
      · exact h
      · split <;> exact h
  | _ => exact h

/-- No section brings the successor back. -/
theorem gone_exec (h : Gone s runtime) : Gone (action.exec lost clean now s).1 runtime := by
  rcases h with h | h
  · exact Or.inl (lookup_retires ((turns_exec lost clean now s action).retires) h)
  · exact Or.inr (scenes_exec h)

/-- The last section of a finish ends the successor, or adds another last one that will. -/
theorem exec_threatens (hidentity : runtime.identity = lost.identity)
    (h : action.threatens = true) :
    (∃ last, (action.exec lost clean now s).2.getLast? = some last ∧ last.threatens = true) ∨
      (action.exec lost clean now s).2 = [] ∧ Gone (action.exec lost clean now s).1 runtime := by
  have hgone : ∀ s' : ServiceShared P L,
      s'.registry.sessions.lookup lost.identity.sessionId = none → Gone s' runtime := by
    intro _ hnone
    left
    rw [hidentity, hnone]
    intro heq
    cases heq
  cases action with
  | awaitFirst =>
    have hunlists := awaited_unlists lost clean (s := s)
    dsimp only [exec]
    split
    · rename_i heq
      rw [heq] at hunlists
      exact Or.inr ⟨rfl, hgone _ (hunlists rfl)⟩
    · exact Or.inl ⟨.settleLease, rfl, rfl⟩
  | settleLease =>
    dsimp only [exec]
    split
    · exact Or.inl ⟨.retireScene, rfl, rfl⟩
    · split
      · exact Or.inl ⟨.retireScene, rfl, rfl⟩
      · split
        · exact Or.inl ⟨.retireScene, rfl, rfl⟩
        · exact Or.inl ⟨.suspendLease _ _, rfl, rfl⟩
  | suspendLease =>
    dsimp only [exec]
    split
    · exact Or.inl ⟨.unregister, rfl, rfl⟩
    · exact Or.inl ⟨.retireScene, rfl, rfl⟩
  | unregister => exact Or.inr ⟨rfl, hgone _ (lookup_removeSession_self _ _)⟩
  | retireScene =>
    refine Or.inr ⟨rfl, Or.inr ?_⟩
    dsimp only [exec]
    dsimp only [ServiceShared.onScene]
    split
    · exact scenes_detachSession _ _ (Or.inl hidentity)
    · exact scenes_removeSession _ _ (Or.inl hidentity)
  | _ => cases h

end Finishing

end Vivido.Service
