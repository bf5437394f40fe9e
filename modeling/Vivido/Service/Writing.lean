import Vivido.Service.Presenter
import Vivido.Service.Sections

/-!
Which sections write which leases. A section takes leases away at most, besides
one that it writes: the lease of the session it decides on, admits or suspends,
or a new one.
-/

namespace Vivido.Service

open Scene

variable {P : Protocol} {L : LeaseProtocol} {written : Option LeaseKey}
  {before after : LeaseTable L} {key : LeaseKey}

/-- The leases are among those before, each as it was unless it is the one written. -/
def Reworks (written : Option LeaseKey) (before after : LeaseTable L) : Prop :=
  ∀ key lease, after.lookup key = some lease →
    ∃ prior, before.lookup key = some prior ∧ (written ≠ some key → lease = prior)

theorem reworks_refl (leases : LeaseTable L) : Reworks written leases leases :=
  fun _ lease h => ⟨lease, h, fun _ => rfl⟩

theorem reworks_of_eq (h : after = before) : Reworks written before after := by
  rw [h]
  exact reworks_refl before

theorem reworks_erase (leases : LeaseTable L) (key : LeaseKey) :
    Reworks written leases (leases.erase key) :=
  fun _ lease h => ⟨lease, (SortedMap.lookup_erase_some h).2, fun _ => rfl⟩

theorem reworks_insert {lease' : Lease L} (lease : Lease L) (h : before.lookup key = some lease') :
    Reworks (some key) before (before.insert key lease) := by
  intro _ found hfound
  rw [SortedMap.lookup_insert] at hfound
  split at hfound
  · rename_i heq
    subst heq
    exact ⟨lease', h, fun hne => (hne rfl).elim⟩
  · exact ⟨found, hfound, fun _ => rfl⟩

/-! ### Finishing -/

namespace Finishing

/-- The lease that a section of a finish writes. -/
def writes (lost : SessionRuntime L) : Finishing L → Option LeaseKey
  | .awaitFirst => lost.lease
  | .suspendLease _ key => some key
  | _ => none

variable (lost : SessionRuntime L) (clean : Bool) (now : ℕ) (s : ServiceShared P L)

theorem reworks_exec (action : Finishing L) : Reworks (action.writes lost) s.registry.leases
      (action.exec lost clean now s).1.registry.leases := by
  have h := turns_exec lost clean now s action
  generalize action.exec lost clean now s = result at h ⊢
  cases h with
  | same hregistry => exact reworks_of_eq (congrArg _ hregistry)
  | confirmed hkey hlease =>
    rw [writes, hkey]
    exact reworks_insert _ hlease
  | unregistered hkey hlease =>
    rw [writes, hkey]
    change Reworks _ _ (Registry.removeSession _ _).leases
    rw [ServiceShared.leases_removeSession]
    exact reworks_insert _ hlease
  | suspended hlease => exact reworks_insert _ hlease
  | @retired _ key =>
    rcases s.retireLease_cases key with ⟨-, heq⟩ | ⟨_, _, -, heq, -, hleases, -⟩ <;> rw [heq]
    · exact reworks_refl _
    · dsimp only
      rw [hleases]
      exact reworks_erase _ _
  | unregister => exact reworks_of_eq (ServiceShared.leases_removeSession _ _)

end Finishing

/-! ### Establishing -/

namespace ServiceShared

variable (s : ServiceShared P L)

theorem leases_commitLease (key : LeaseKey) (lease : Lease L) (sent : Bool) :
    ∃ lease', (s.commitLease key lease sent).1.registry.leases =
      s.registry.leases.insert key lease' := by
  unfold commitLease
  split
  · exact ⟨_, rfl⟩
  · split <;> exact ⟨_, rfl⟩

theorem registry_registerScene (identity : SessionIdentity) :
    (s.registerScene identity).1.registry = s.registry := by
  unfold registerScene
  split
  · rfl
  · split <;> rfl

section

variable (now : ℕ) (principal : Principal L) (hello : L.Hello) (candidate : Candidate L)
include now principal hello candidate

theorem leases_conclude (lease : Lease L) (decision : AttemptDecision L.Nonce L.Welcome) :
    ∃ lease', (s.conclude now principal hello candidate lease decision).1.registry.leases =
      s.registry.leases.insert principal.key lease' := by
  unfold conclude
  dsimp only
  split
  · exact ⟨_, rfl⟩
  obtain ⟨lease', hcommit⟩ := s.leases_commitLease principal.key
    (reserveLease principal lease ⟨s.presenter, decision.sessionId⟩ now) candidate.sent
  refine ⟨lease', ?_⟩
  rw [← hcommit]
  rcases s.commitLease principal.key _ candidate.sent with ⟨committed, _ | _⟩
  · rfl
  dsimp only
  cases L.rootContext ⟨s.presenter, decision.sessionId⟩ lease.contract with
  | none => rfl
  | some =>
    have hregister := congrArg Registry.leases
      (committed.registry_registerScene ⟨s.presenter, decision.sessionId⟩)
    rcases heq : committed.registerScene ⟨s.presenter, decision.sessionId⟩ with
      ⟨_, _ | _⟩ <;> (rw [heq] at hregister; exact hregister)

/-- A decision writes a lease that was there. -/
theorem reworks_establish : Reworks (some principal.key) s.registry.leases
      (s.establish now principal hello candidate).1.registry.leases := by
  unfold establish
  split
  · exact reworks_refl _
  dsimp only
  split
  · exact reworks_refl _
  split
  · exact reworks_refl _
  rename_i lease hlease
  split
  · exact reworks_refl _
  split
  · exact reworks_insert _ hlease
  rename_i machine decision _
  obtain ⟨_, hconclude⟩ := leases_conclude
    { s with nextSession := (s.nextSession + 1) % 2 ^ 64 } now principal hello candidate
    { lease with machine } decision
  rw [hconclude]
  exact reworks_insert _ hlease

end

theorem reworks_admitPostHello (runtime : SessionRuntime L) :
    Reworks runtime.lease s.registry.leases (s.admitPostHello runtime).registry.leases := by
  unfold admitPostHello
  split
  · exact reworks_refl _
  rename_i key hkey
  rw [hkey]
  split
  · exact reworks_refl _
  · rename_i lease hlease
    exact reworks_insert _ hlease

theorem leases_establishRoot (D : Delegation L) (hello : L.Hello) (candidate : Candidate L) :
    (s.establishRoot D hello candidate).1.registry.leases = s.registry.leases := by
  unfold establishRoot
  split
  · rfl
  dsimp only
  split
  · rfl
  split
  · rfl
  · have hregister := congrArg Registry.leases (registry_registerScene
      { s with nextSession := (s.nextSession + 1) % 2 ^ 64 } ⟨s.presenter, s.nextSession⟩)
    rcases heq : ServiceShared.registerScene _ ⟨s.presenter, s.nextSession⟩ with
      ⟨_, _ | _⟩ <;> (rw [heq] at hregister; exact hregister)

theorem lookup_createSessionLease {D : Delegation L} {issuer : SessionRuntime L}
    {request : LeaseRequest L} {now : ℕ} {key : LeaseKey}
    (hne : key ≠ ⟨issuer.identity, request.contextId, request.leaseId⟩) :
    (s.createSessionLease D issuer request now).1.registry.leases.lookup key =
      s.registry.leases.lookup key := by
  unfold createSessionLease
  dsimp only
  split
  · rfl
  split
  · rfl
  split
  · rfl
  · split
    · rfl
    · split
      · rfl
      · exact SortedMap.lookup_insert_of_ne hne

end ServiceShared

/-- The lease that a section of an establishment writes. -/
def Establishing.writes : Establishing L → Option LeaseKey
  | .authenticated principal _ => some principal.key
  | _ => none

theorem Establishing.reworks_exec (stage : Establishing L) (now : ℕ) (candidate : Candidate L)
    (s : ServiceShared P L) :
    Reworks stage.writes s.registry.leases (stage.exec now candidate s).1.registry.leases := by
  cases stage with
  | authenticated principal hello =>
    have h := s.reworks_establish now principal hello candidate
    dsimp only [exec]
    split <;> (rename_i heq; rw [heq] at h; exact h)
  | serving | refused => exact reworks_refl _
  | _ =>
    dsimp only [exec]
    split <;> exact reworks_refl _

/-! ### The presenter -/

def Task.writes (issuer : SessionRuntime L) : Task L → Option LeaseKey
  | .revoke action => action.writes issuer
  | _ => none

/-- The lease that a connection's next section writes. -/
def Party.writes : Party L → Option LeaseKey
  | .establishing stage => stage.writes
  | .serving runtime _ (task :: _) => task.writes runtime
  | .finishing lost _ (action :: _) => action.writes lost
  | _ => none

theorem Task.reworks_exec (issuer : SessionRuntime L) (now : ℕ) (s : ServiceShared P L)
    (task : Task L) : Reworks (task.writes issuer) s.registry.leases
      (task.exec issuer now s).1.registry.leases := by
  cases task with
  | explainExpiry => exact reworks_refl _
  | expire key =>
    exact Finishing.reworks_exec issuer false now s (.retireLease issuer.handle key)
  | revoke action => exact Finishing.reworks_exec issuer false now s action

theorem Party.reworks_advance (clock age : ℕ) (candidate : Candidate L) (s : ServiceShared P L)
    (party : Party L) : Reworks party.writes s.registry.leases
      (party.advance clock age candidate s).1.registry.leases := by
  cases party with
  | establishing stage =>
    have h := stage.reworks_exec clock candidate s
    dsimp only [advance]
    split <;> (rename_i heq; rw [heq] at h; exact h)
  | serving runtime _ tasks =>
    cases tasks with
    | nil => exact reworks_refl _
    | cons task => exact task.reworks_exec runtime (clock - age) s
  | finishing lost clean sections =>
    cases sections with
    | nil => exact reworks_refl _
    | cons action => exact Finishing.reworks_exec lost clean (clock - age) s action

namespace Presenter

variable {D : Delegation L} (p : Presenter P L)

/-- The lease that stands under a key. -/
def lease? (key : LeaseKey) : Option (Lease L) := p.shared.registry.leases.lookup key

/-- The lease that is written next: by the section that a connection comes to, or by the first
request of its session. -/
def writes : Act P L → Option LeaseKey
  | .advance i _ _ => p.parties[i]?.bind Party.writes
  | .firstRequest i =>
    match p.parties[i]? with
    | some (.serving runtime false []) => runtime.lease
    | _ => none
  | _ => none

/-- The lease that is asked for next. -/
def creates : Act P L → Option LeaseKey
  | .createLease i request =>
    match p.parties[i]? with
    | some (.serving runtime true []) =>
      some ⟨runtime.identity, request.contextId, request.leaseId⟩
    | _ => none
  | _ => none

variable {p}

theorem onParty_cases (i : ℕ) (work : ServiceShared P L → Party L → ServiceShared P L × Party L) :
    (∃ party, p.parties[i]? = some party ∧ p.onParty i work =
      { p with shared := (work p.shared party).1
               parties := p.parties.set i (work p.shared party).2 }) ∨ p.onParty i work = p := by
  unfold onParty
  split
  · exact Or.inr rfl
  · rename_i party hparty
    exact Or.inl ⟨party, hparty, rfl⟩

theorem onActor_cases (i : ℕ)
    (work : ServiceShared P L → SessionRuntime L → Bool → ServiceShared P L × Party L) :
    (∃ runtime admitted, p.parties[i]? = some (.serving runtime admitted []) ∧ p.onActor i work =
      { p with shared := (work p.shared runtime admitted).1
               parties := p.parties.set i (work p.shared runtime admitted).2 }) ∨
      p.onActor i work = p := by
  unfold onActor
  rcases p.onParty_cases i _ with ⟨party, hparty, heq⟩ | heq
  · rw [heq]
    have hself : p.parties.set i party = p.parties := by
      obtain ⟨hi, rfl⟩ := List.getElem?_eq_some_iff.mp hparty
      exact List.set_getElem_self hi
    cases party with
    | serving runtime admitted tasks =>
      cases tasks with
      | nil => exact Or.inl ⟨runtime, admitted, hparty, rfl⟩
      | cons =>
        right
        dsimp only
        rw [hself]
    | establishing | finishing =>
      right
      dsimp only
      rw [hself]
  · exact Or.inr heq

/-- Each lease was there before, unless it was asked for, and only a section that writes it may
have changed it. -/
theorem lease_step {act : Act P L} {key : LeaseKey} {lease : Lease L}
    (h : (p.step D act).lease? key = some lease) : p.creates act = some key ∨
      ∃ prior, p.lease? key = some prior ∧ (p.writes act ≠ some key → lease = prior) := by
  have hsame : ∀ p' : Presenter P L, p'.lease? key = some lease →
      p'.shared.registry.leases = p.shared.registry.leases → p.creates act = some key ∨
        ∃ prior, p.lease? key = some prior ∧ (p.writes act ≠ some key → lease = prior) := by
    intro _ h' heq
    unfold lease? at h'
    rw [heq] at h'
    exact Or.inr ⟨lease, h', fun _ => rfl⟩
  cases act with
  | connectRoot hello candidate =>
    have hroot := p.shared.leases_establishRoot D hello candidate
    dsimp only [step] at h
    split at h <;> (rename_i heq; rw [heq] at hroot; exact hsame _ h hroot)
  | advance i age candidate =>
    dsimp only [step] at h
    rcases p.onParty_cases i (Party.advance p.clock age candidate) with ⟨party, hparty, heq⟩ | heq
    · rw [heq] at h
      obtain ⟨prior, hprior, hkept⟩ :=
        party.reworks_advance p.clock age candidate p.shared key lease h
      refine Or.inr ⟨prior, hprior, fun hne => hkept ?_⟩
      intro hwrites
      refine hne ?_
      dsimp only [writes]
      rw [hparty]
      exact hwrites
    · rw [heq] at h
      exact Or.inr ⟨lease, h, fun _ => rfl⟩
  | firstRequest i =>
    dsimp only [step] at h
    rcases p.onActor_cases i _ with ⟨runtime, admitted, hparty, heq⟩ | heq
    · rw [heq] at h
      cases admitted with
      | true => exact hsame _ h rfl
      | false =>
        obtain ⟨prior, hprior, hkept⟩ := p.shared.reworks_admitPostHello runtime key lease h
        refine Or.inr ⟨prior, hprior, fun hne => hkept ?_⟩
        intro hwrites
        refine hne ?_
        dsimp only [writes]
        rw [hparty]
        exact hwrites
    · rw [heq] at h
      exact Or.inr ⟨lease, h, fun _ => rfl⟩
  | expireLeases i | revokeLease i =>
    dsimp only [step] at h
    rcases p.onActor_cases i _ with ⟨runtime, admitted, hparty, heq⟩ | heq
    · rw [heq] at h
      exact hsame _ h rfl
    · rw [heq] at h
      exact Or.inr ⟨lease, h, fun _ => rfl⟩
  | createLease i request =>
    dsimp only [step] at h
    rcases p.onActor_cases i _ with ⟨runtime, admitted, hparty, heq⟩ | heq
    · rw [heq] at h
      cases admitted with
      | false => exact hsame _ h rfl
      | true =>
        by_cases hkey : key = ⟨runtime.identity, request.contextId, request.leaseId⟩
        · left
          dsimp only [creates]
          rw [hparty, hkey]
        · refine Or.inr ⟨lease, ?_, fun _ => rfl⟩
          exact (p.shared.lookup_createSessionLease hkey).symm.trans h
    · rw [heq] at h
      exact Or.inr ⟨lease, h, fun _ => rfl⟩
  | lose i =>
    dsimp only [step] at h
    rcases p.onActor_cases i _ with ⟨_, _, _, heq⟩ | heq
    · rw [heq] at h
      refine hsame _ h ?_
      dsimp only
      split <;> rfl
    · rw [heq] at h
      exact Or.inr ⟨lease, h, fun _ => rfl⟩
  | _ => exact hsame _ h rfl

end Presenter

end Vivido.Service
