import Vivido.Service.Succession
import Vivido.Service.Writing

/-!
What a section can make of the registry: the outcomes of each, with the leases
that they write, for the results about whole runs to tell apart. And what leases
rely on their machine for.
-/

namespace Vivido.Service

open Scene

variable {P : Protocol} {L : LeaseProtocol}

/-- What a lease relies on its machine for. A machine is retryable until the first request is
admitted, when it has begun, and again once a resume is decided on; `decided` is the number of the
session that it decided on last. -/
structure LeaseProtocol.Keeps (L : LeaseProtocol) (retryable begun : L.Machine → Prop)
    (decided : L.Machine → Option ℕ) : Prop where
  state_retryable : ∀ machine, retryable machine →
    L.state machine = .issued ∨ L.state machine = .reserved ∨ L.state machine = .active
  /-- A loss leaves a lease as retryable as it was. -/
  lost_retryable : ∀ machine, retryable machine →
    retryable (L.confirmTransportLost machine false).1
  lost_begun : ∀ machine, begun machine → begun (L.confirmTransportLost machine false).1
  lost_decided : ∀ machine, decided (L.confirmTransportLost machine false).1 = decided machine
  committed : ∀ machine, retryable machine → L.state machine = .reserved →
    retryable (L.commitWelcome machine).1
  committed_decided : ∀ machine, decided (L.commitWelcome machine).1 = decided machine
  admitted : ∀ machine, L.state machine = .active →
    begun (L.admitPostHello machine) ∧ L.state (L.admitPostHello machine) = .active
  admitted_decided : ∀ machine, decided (L.admitPostHello machine) = decided machine
  /-- An activation, and an exact retry of it, is refused once the first request was admitted. -/
  activation_refused : ∀ machine attempt, begun machine →
    L.beginActivation machine attempt = (machine, none)
  resume_refused : ∀ machine generation attempt, begun machine → L.state machine ≠ .suspended →
    L.beginResume machine generation attempt = (machine, none)
  activated : ∀ machine attempt, retryable machine →
    retryable (L.beginActivation machine attempt).1
  resumed : ∀ machine generation attempt machine' decision, retryable machine ∨ begun machine →
    L.beginResume machine generation attempt = (machine', some decision) → retryable machine'
  /-- A refused resume changes nothing. -/
  resume_kept : ∀ machine generation attempt machine',
    L.beginResume machine generation attempt = (machine', none) → machine' = machine
  /-- A refused activation decides on nothing. -/
  activation_kept : ∀ machine attempt machine',
    L.beginActivation machine attempt = (machine', none) → decided machine' = decided machine
  /-- A fresh decision is for the attempt's session, and a replay for the one decided before. -/
  activation_decided : ∀ machine attempt machine' decision,
    L.beginActivation machine attempt = (machine', some decision) →
      (decision.sessionId = attempt.sessionId ∨ decided machine = some decision.sessionId) ∧
        decided machine' = some decision.sessionId
  resume_decided : ∀ machine generation attempt machine' decision,
    L.beginResume machine generation attempt = (machine', some decision) →
      (decision.sessionId = attempt.sessionId ∨ decided machine = some decision.sessionId) ∧
        decided machine' = some decision.sessionId

namespace ServiceShared

variable (s : ServiceShared P L)

theorem admitPostHello_cases (runtime : SessionRuntime L) :
    (s.admitPostHello runtime = s ∧ ∀ key, runtime.lease = some key →
        s.registry.leases.lookup key = none) ∨
      ∃ key lease, runtime.lease = some key ∧ s.registry.leases.lookup key = some lease ∧
        s.admitPostHello runtime = s.setLease key { lease with
            machine := L.admitPostHello lease.machine, awaitingFirst := false, graceDeadline := none
            resumeKey := none } := by
  unfold admitPostHello
  cases hkey : runtime.lease with
  | none => exact Or.inl ⟨rfl, nofun⟩
  | some key =>
    dsimp only
    cases hlease : s.registry.leases.lookup key with
    | none =>
      refine Or.inl ⟨rfl, fun other h => ?_⟩
      cases h
      exact hlease
    | some lease => exact Or.inr ⟨key, lease, rfl, hlease, rfl⟩

/-- A lease is created as its definition says, where none stood. -/
theorem createSessionLease_cases (D : Delegation L) (issuer : SessionRuntime L)
    (request : LeaseRequest L) (now : ℕ) : (s.createSessionLease D issuer request now).1 = s ∨
      ∃ contract, (s.createSessionLease D issuer request now).1.nextSession = s.nextSession ∧
        (s.createSessionLease D issuer request now).1.registry.sessions = s.registry.sessions ∧
        (s.createSessionLease D issuer request now).1.registry.leases =
          s.registry.leases.insert ⟨issuer.identity, request.contextId, request.leaseId⟩
            (Lease.new request.definition (D.newMachine request.definition) contract now) := by
  unfold createSessionLease
  dsimp only
  split
  · exact Or.inl rfl
  split
  · exact Or.inl rfl
  split
  · exact Or.inl rfl
  · split
    · exact Or.inl rfl
    · split
      · exact Or.inl rfl
      · exact Or.inr ⟨_, rfl, rfl, rfl⟩

/-! ### Establishing -/

/-- What becomes of a lease that was decided on, by its first value with the machine's decision. -/
structure Reserves (principal : Principal L) (decided after : Lease L) (sessionId : ℕ) : Prop where
  awaiting : after.awaitingFirst = true ∨
    after.awaitingFirst = decided.awaitingFirst ∧ ∃ key secret, principal = .lease key secret
  child : after.child = decided.child ∨
    ∃ child, after.child = some child ∧ child.sessionId = sessionId
  machine : after.machine = decided.machine ∨
    after.machine = (L.confirmTransportLost decided.machine false).1 ∨
      L.state decided.machine = .reserved ∧ after.machine = (L.commitWelcome decided.machine).1

/-- What the section that decides on a session makes of the registry. -/
inductive Decides (s : ServiceShared P L) (principal : Principal L) :
    ServiceShared P L × Option (SessionRuntime L) → Prop where
  | nothing {s' : ServiceShared P L} (hregistry : s'.registry = s.registry)
      (hnext : s'.nextSession = s.nextSession ∨
        s'.nextSession = (s.nextSession + 1) % 2 ^ 64) : Decides s principal (s', none)
  | refused {s' : ServiceShared P L} {lease : Lease L} {machine : L.Machine}
      {attempt : EstablishmentAttempt L.Hello L.Nonce L.Welcome}
      (hlease : s.registry.leases.lookup principal.key = some lease)
      (hdecide : decideAttempt principal lease attempt = (machine, none))
      (hleases : s'.registry.leases =
        s.registry.leases.insert principal.key { lease with machine })
      (hsessions : s'.registry.sessions = s.registry.sessions)
      (hnext : s'.nextSession = (s.nextSession + 1) % 2 ^ 64) : Decides s principal (s', none)
  | decided {s' : ServiceShared P L} {lease lease' : Lease L} {machine : L.Machine}
      {attempt : EstablishmentAttempt L.Hello L.Nonce L.Welcome}
      {decision : AttemptDecision L.Nonce L.Welcome} {published : Option (SessionRuntime L)}
      (hlease : s.registry.leases.lookup principal.key = some lease)
      (hattempt : attempt.sessionId = principal.candidateId s.nextSession)
      (hdecide : decideAttempt principal lease attempt = (machine, some decision))
      (hreserves : Reserves principal { lease with machine } lease' decision.sessionId)
      (hleases : s'.registry.leases = s.registry.leases.insert principal.key lease')
      (hnext : s'.nextSession = (s.nextSession + 1) % 2 ^ 64)
      (hsessions : published = none ∧ s'.registry.sessions = s.registry.sessions ∨
        ∃ runtime, published = some runtime ∧ runtime.identity.sessionId = decision.sessionId ∧
          runtime.lease = some principal.key ∧
          s'.registry.sessions = s.registry.sessions.insert decision.sessionId runtime) :
      Decides s principal (s', published)

section

variable (principal : Principal L) (lease : Lease L) (child : SessionIdentity) (now : ℕ)
include principal lease child now

theorem machine_reserveLease
 : (reserveLease principal lease child now).machine = lease.machine := by
  cases principal with
  | lease =>
    unfold reserveLease
    dsimp only
    split <;> rfl
  | resume => rfl

theorem reserves_reserveLease
 : Reserves principal lease (reserveLease principal lease child now) child.sessionId := by
  cases principal with
  | lease key secret =>
    unfold reserveLease
    dsimp only
    split
    · exact ⟨Or.inr ⟨rfl, key, secret, rfl⟩, Or.inr ⟨child, rfl, rfl⟩, Or.inl rfl⟩
    · exact ⟨Or.inr ⟨rfl, key, secret, rfl⟩, Or.inl rfl, Or.inl rfl⟩
  | resume => exact ⟨Or.inl rfl, Or.inl rfl, Or.inl rfl⟩

end

/-- The `WELCOME` and its loss move the machine of the lease alone. -/
theorem commitLease_cases (key : LeaseKey) (lease : Lease L) (sent : Bool) :
    ∃ machine, (s.commitLease key lease sent).1 = s.setLease key { lease with machine } ∧
      (machine = lease.machine ∨ machine = (L.confirmTransportLost lease.machine false).1 ∨
        L.state lease.machine = .reserved ∧ machine = (L.commitWelcome lease.machine).1) := by
  unfold commitLease
  split
  · exact ⟨_, rfl, Or.inr (Or.inl rfl)⟩
  · split
    · rename_i hstate
      exact ⟨_, rfl, Or.inr (Or.inr ⟨hstate, rfl⟩)⟩
    · exact ⟨_, rfl, Or.inl rfl⟩

theorem nextSession_registerScene (identity : SessionIdentity) :
    (s.registerScene identity).1.nextSession = s.nextSession := by
  unfold registerScene
  split
  · rfl
  · split <;> rfl

theorem decides_conclude {s₀ : ServiceShared P L} {principal : Principal L} {lease : Lease L}
    {machine : L.Machine} {attempt : EstablishmentAttempt L.Hello L.Nonce L.Welcome}
    {decision : AttemptDecision L.Nonce L.Welcome} (now : ℕ) (hello : L.Hello)
    (candidate : Candidate L) (hregistry : s.registry = s₀.registry)
    (hnext : s.nextSession = (s₀.nextSession + 1) % 2 ^ 64)
    (hlease : s₀.registry.leases.lookup principal.key = some lease)
    (hattempt : attempt.sessionId = principal.candidateId s₀.nextSession)
    (hdecide : decideAttempt principal lease attempt = (machine, some decision)) :
    Decides s₀ principal
      (s.conclude now principal hello candidate { lease with machine } decision) := by
  have hreserves := reserves_reserveLease principal { lease with machine }
    ⟨s.presenter, decision.sessionId⟩ now
  have hmachine := machine_reserveLease principal { lease with machine }
    ⟨s.presenter, decision.sessionId⟩ now
  unfold conclude
  dsimp only at hreserves hmachine ⊢
  generalize reserveLease principal { lease with machine } _ now = reserved at hreserves hmachine ⊢
  have hinserted : ∀ lease' : Lease L, (s.setLease principal.key lease').registry.leases =
      s₀.registry.leases.insert principal.key lease' := by
    intro lease'
    rw [← hregistry]
    rfl
  have hsame : ∀ lease' : Lease L, (s.setLease principal.key lease').registry.sessions =
      s₀.registry.sessions := by
    intro _
    rw [← hregistry]
    rfl
  by_cases hid : ¬ L.isSessionId decision.sessionId = true
  · rw [if_pos hid]
    exact .decided hlease hattempt hdecide hreserves (hinserted _) hnext
      (Or.inl ⟨rfl, hsame _⟩)
  rw [if_neg hid]
  obtain ⟨machine', hcommit, hmoved⟩ := s.commitLease_cases principal.key reserved candidate.sent
  rw [hmachine] at hmoved
  have hsettled : Reserves principal { lease with machine } { reserved with machine := machine' }
      decision.sessionId := ⟨hreserves.awaiting, hreserves.child, hmoved⟩
  rcases hcommitted : s.commitLease principal.key reserved candidate.sent with ⟨committed, _ | _⟩
  · rw [hcommitted] at hcommit
    dsimp only at hcommit ⊢
    subst hcommit
    exact .decided hlease hattempt hdecide hsettled (hinserted _) hnext (Or.inl ⟨rfl, hsame _⟩)
  · rw [hcommitted] at hcommit
    dsimp only at hcommit ⊢
    subst hcommit
    cases L.rootContext ⟨s.presenter, decision.sessionId⟩ lease.contract with
    | none =>
      exact .decided hlease hattempt hdecide hsettled (hinserted _) hnext (Or.inl ⟨rfl, hsame _⟩)
    | some =>
      have hregister := registry_registerScene
        (s.setLease principal.key { reserved with machine := machine' })
        ⟨s.presenter, decision.sessionId⟩
      have hcounter := nextSession_registerScene
        (s.setLease principal.key { reserved with machine := machine' })
        ⟨s.presenter, decision.sessionId⟩
      rcases heq : (s.setLease principal.key { reserved with machine := machine' }).registerScene
        ⟨s.presenter, decision.sessionId⟩ with ⟨registered, _ | _⟩
      · rw [heq] at hregister hcounter
        dsimp only at hregister hcounter ⊢
        refine .decided hlease hattempt hdecide hsettled ?_ (hcounter.trans hnext)
          (Or.inl ⟨rfl, ?_⟩)
        · rw [hregister, hinserted]
        · rw [hregister, hsame]
      · rw [heq] at hregister hcounter
        dsimp only at hregister hcounter ⊢
        refine .decided hlease hattempt hdecide hsettled ?_ (hcounter.trans hnext)
          (Or.inr ⟨_, rfl, rfl, rfl, ?_⟩)
        · change registered.registry.leases = _
          rw [hregister, hinserted]
        · change registered.registry.sessions.insert _ _ = _
          rw [hregister, hsame]

theorem decides_establish (now : ℕ) (principal : Principal L) (hello : L.Hello)
    (candidate : Candidate L) :
    Decides s principal (s.establish now principal hello candidate) := by
  unfold establish
  split
  · exact .nothing rfl (Or.inl rfl)
  dsimp only
  split
  · exact .nothing rfl (Or.inr rfl)
  cases hlease : s.registry.leases.lookup principal.key with
  | none => exact .nothing rfl (Or.inr rfl)
  | some lease =>
    dsimp only
    split
    · exact .nothing rfl (Or.inr rfl)
    split
    · rename_i hdecide
      exact .refused hlease hdecide rfl rfl rfl
    · rename_i hdecide
      exact decides_conclude { s with nextSession := _ } now hello candidate rfl rfl hlease
        rfl hdecide

/-- A root session is published under the number that is drawn for it, or nothing is. -/
theorem establishRoot_cases (D : Delegation L) (hello : L.Hello) (candidate : Candidate L) :
    (s.establishRoot D hello candidate).1.registry.leases = s.registry.leases ∧
      (((s.establishRoot D hello candidate).2 = none ∧
          (s.establishRoot D hello candidate).1.registry = s.registry ∧
          ((s.establishRoot D hello candidate).1.nextSession = s.nextSession ∨
            (s.establishRoot D hello candidate).1.nextSession = (s.nextSession + 1) % 2 ^ 64)) ∨
        ∃ runtime, (s.establishRoot D hello candidate).2 = some runtime ∧
          runtime.identity.sessionId = s.nextSession ∧ runtime.lease = none ∧
          (s.establishRoot D hello candidate).1.nextSession = (s.nextSession + 1) % 2 ^ 64 ∧
          (s.establishRoot D hello candidate).1.registry.sessions =
            s.registry.sessions.insert s.nextSession runtime) := by
  refine ⟨s.leases_establishRoot D hello candidate, ?_⟩
  unfold establishRoot
  split
  · exact Or.inl ⟨rfl, rfl, Or.inl rfl⟩
  dsimp only
  split
  · exact Or.inl ⟨rfl, rfl, Or.inr rfl⟩
  split
  · exact Or.inl ⟨rfl, rfl, Or.inr rfl⟩
  have hregister := registry_registerScene
    { s with nextSession := (s.nextSession + 1) % 2 ^ 64 } ⟨s.presenter, s.nextSession⟩
  have hcounter := nextSession_registerScene
    { s with nextSession := (s.nextSession + 1) % 2 ^ 64 } ⟨s.presenter, s.nextSession⟩
  rcases heq : ServiceShared.registerScene _ ⟨s.presenter, s.nextSession⟩ with
    ⟨registered, _ | _⟩
  · rw [heq] at hregister hcounter
    exact Or.inl ⟨rfl, hregister, Or.inr hcounter⟩
  · rw [heq] at hregister hcounter
    refine Or.inr ⟨_, rfl, rfl, rfl, hcounter, ?_⟩
    change registered.registry.sessions.insert _ _ = _
    rw [hregister]

end ServiceShared

end Vivido.Service
