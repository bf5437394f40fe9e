import Vivido.Service.Numbering
import Vivido.Service.Owing
import Vivido.Service.Waiting
import Vivido.Support.Since

/-!
Whether a lease is left without an end. A lease that stands is served by its
child, or it waits for a deadline, or the finish of a lost session has still to
take it up. So it goes on while first requests come from sessions that nothing
is about to end, and while a finish finds the issuer of its lease.
-/

namespace Vivido.Service

open Scene List

variable {P : Protocol} {L : LeaseProtocol}

/-- The lease of a session whose finish has not gone through. -/
def Party.unfinished? : Party L → Option LeaseKey
  | .finishing lost _ (_ :: _) => lost.lease
  | _ => none

/-- The lease of a session whose finish is done with it, and will unregister the session. -/
def Party.unregisters? : Party L → Option LeaseKey
  | .finishing lost _ sections =>
    if sections.all Finishing.isTail && sections.any Finishing.isUnregister then lost.lease
    else none
  | _ => none

namespace Presenter

variable (D : Delegation L) (p : Presenter P L)

/-- Every finish of a session of the lease has gone through. -/
def Finished (key : LeaseKey) : Prop := ∀ party ∈ p.parties, party.unfinished? ≠ some key

/-- The child of the lease has a session published, under that lease. -/
def Publishes (key : LeaseKey) (lease : Lease L) : Prop :=
  (lease.child.bind fun child => p.shared.registry.sessions.lookup child.sessionId).any
    (·.lease = some key) = true

/-- The lease that a finish comes to settle. -/
def settles : Act P L → Option LeaseKey
  | .advance i _ _ =>
    match p.parties[i]? with
    | some (.finishing lost _ (.settleLease :: _)) => lost.lease
    | _ => none
  | _ => none

/-- The lease whose first request is taken. -/
def admits : Act P L → Option LeaseKey
  | .firstRequest i =>
    match p.parties[i]? with
    | some (.serving runtime false []) => runtime.lease
    | _ => none
  | _ => none

/-- The session numbers have not run out. A finish that comes to a lease which is active past its
first request finds its issuer. And a first request comes to an active lease, whose child is
published and is not about to be unregistered by the finish of another session of the lease. -/
def Orderly (p : Presenter P L) (act : Act P L) : Prop :=
  p.shared.nextSession ≠ 0 ∧
    (∀ key ∈ p.settles act, ∀ lease ∈ p.lease? key, L.state lease.machine = .active →
      lease.awaitingFirst = false →
        (p.shared.registry.sessions.lookup key.issuer.sessionId).isSome = true) ∧
    ∀ key ∈ p.admits act, ∀ lease ∈ p.lease? key,
      L.state lease.machine = .active ∧ p.Publishes key lease ∧
        ∀ party ∈ p.parties, party.unregisters? ≠ some key

instance (key : LeaseKey) (lease : Lease L) : Decidable (p.Publishes key lease) :=
  inferInstanceAs (Decidable (_ = true))

instance (key : LeaseKey) : Decidable (p.Finished key) :=
  inferInstanceAs (Decidable (∀ party ∈ p.parties, _))

instance (act : Act P L) : Decidable (p.Orderly act) := inferInstanceAs (Decidable (_ ∧ _ ∧ _))

/-- The lease is served: its first request is admitted, and its child is published. -/
def Served (key : LeaseKey) (lease : Lease L) : Prop :=
  L.state lease.machine = .active ∧ lease.awaitingFirst = false ∧ p.Publishes key lease

/-- The lease waits for a deadline. It is expired from then on, the next deadline of its issuer is
no later, and an actor of the issuer that comes to its leases from then on, and is left alone, has
taken this one back when it is through. -/
structure Timed (key : LeaseKey) (lease : Lease L) (due : ℕ) : Prop where
  expired : ∀ now, lease.expired now = true ↔ due ≤ now
  next : ∃ next, LeaseTable.nextDeadline p.shared.registry.leases key.issuer = some next ∧
    next ≤ due
  takenBack : ∀ i issuer admitted candidate elapsed,
    p.parties[i]? = some (.serving issuer admitted []) → issuer.identity = key.issuer →
      due ≤ p.clock + elapsed →
        ∃ n after, ((p.step D (.pass elapsed)).step D (.expireLeases i 0)).advanceAlone D i
            candidate n = { p with shared := after, clock := p.clock + elapsed } ∧
          ServiceShared.TakenBack p.shared after issuer.handle key

/-- No lease is stranded: where the finishes of its sessions have gone through, it is served, or
waits for a deadline. -/
def NoneStranded : Prop :=
  ∀ key lease, p.lease? key = some lease → p.Finished key →
    p.Served key lease ∨ ∃ due, p.Timed D key lease due

variable {D} {p} {act : Act P L} {key : LeaseKey} {lease prior : Lease L}
  {retryable begun : L.Machine → Prop} {decided : L.Machine → Option ℕ}

theorem timed_of_deadline {due : ℕ} (hlease : p.lease? key = some lease)
    (h : lease.deadline = some due) : p.Timed D key lease due where
  expired := Lease.expired_iff h
  next := LeaseTable.nextDeadline_le hlease h
  takenBack i issuer admitted candidate elapsed hparty hissuer hdue := by
    obtain ⟨n, hn⟩ := expires_alone (D := D) (p := p.step D (.pass elapsed)) hparty candidate
    exact ⟨n, _, hn, ServiceShared.takenBack_expireLeases hissuer hlease
      ((Lease.expired_iff h (p.clock + elapsed)).mpr hdue)⟩

/-! ### What the steps do to the leases -/

/-- The finish of a lost session is about to take the lease back. -/
def Pending (p : Presenter P L) (key : LeaseKey) : Prop :=
  ∃ lost clean sections issuer, Party.finishing lost clean sections ∈ p.parties ∧
    lost.lease = some key ∧ .retireLease issuer key ∈ sections

/-- What a step makes of a lease that stands before and after it. -/
inductive Rewrites (p p' : Presenter P L) (key : LeaseKey) (prior : Lease L) :
    Option LeaseKey → Lease L → Prop where
  | same {admitted : Option LeaseKey} : Rewrites p p' key prior admitted prior
  | confirm {admitted : Option LeaseKey} (hawaiting : prior.awaitingFirst = true) :
      Rewrites p p' key prior admitted
        { prior with machine := (L.confirmTransportLost prior.machine false).1 }
  | suspend {admitted : Option LeaseKey} {i : ℕ} {lost : SessionRuntime L} {clean : Bool}
      {now issuer : ℕ} {rest : List (Finishing L)}
      (hparty : p.parties[i]? = some (.finishing lost clean (.suspendLease issuer key :: rest)))
      (hfails : (prior.suspend lost.resumeKey now).2 = false →
        ∃ sections, Party.finishing lost clean sections ∈ p'.parties ∧
          .retireLease issuer key ∈ sections) :
      Rewrites p p' key prior admitted (prior.suspend lost.resumeKey now).1
  | accept : Rewrites p p' key prior (some key)
      { prior with
        machine := L.admitPostHello prior.machine
        awaitingFirst := false
        graceDeadline := none
        resumeKey := none }
  | refuse {admitted : Option LeaseKey} {principal : Principal L} {machine : L.Machine}
      {attempt : EstablishmentAttempt L.Hello L.Nonce L.Welcome}
      (hdecide : ServiceShared.decideAttempt principal prior attempt = (machine, none)) :
      Rewrites p p' key prior admitted { prior with machine }
  | decide {admitted : Option LeaseKey} {principal : Principal L} {machine : L.Machine}
      {lease : Lease L} {attempt : EstablishmentAttempt L.Hello L.Nonce L.Welcome}
      {decision : AttemptDecision L.Nonce L.Welcome}
      (hdecide : ServiceShared.decideAttempt principal prior attempt = (machine, some decision))
      (hreserves : ServiceShared.Reserves principal { prior with machine } lease
        decision.sessionId) :
      Rewrites p p' key prior admitted lease

/-- A lease after a step is a new one, or one that stood before. -/
def Comes (D : Delegation L) (p p' : Presenter P L) (admitted : Option LeaseKey)
    (key : LeaseKey) (lease : Lease L) : Prop :=
  (∃ definition contract now,
    lease = Lease.new definition (D.newMachine definition) contract now) ∨
      ∃ prior, p.lease? key = some prior ∧ Rewrites p p' key prior admitted lease

section

variable {p' : Presenter P L} {admitted : Option LeaseKey}
include p' admitted

theorem comes_of_eq (h : p'.shared.registry.leases = p.shared.registry.leases)
    (hlease : p'.lease? key = some lease) : Comes D p p' admitted key lease := by
  unfold lease? at hlease
  rw [h] at hlease
  exact Or.inr ⟨lease, hlease, .same⟩

theorem comes_of_erase {other : LeaseKey}
    (h : p'.shared.registry.leases = p.shared.registry.leases.erase other)
    (hlease : p'.lease? key = some lease) : Comes D p p' admitted key lease := by
  unfold lease? at hlease
  rw [h] at hlease
  exact Or.inr ⟨lease, (SortedMap.lookup_erase_some hlease).2, .same⟩

theorem comes_of_insert {other : LeaseKey}
    (lease' : Lease L)
    (h : p'.shared.registry.leases = p.shared.registry.leases.insert other lease')
    (hnew : Comes D p p' admitted other lease') (hlease : p'.lease? key = some lease) :
    Comes D p p' admitted key lease := by
  unfold lease? at hlease
  rw [h, SortedMap.lookup_insert] at hlease
  split at hlease
  · rename_i heq
    subst heq
    cases hlease
    exact hnew
  · exact Or.inr ⟨lease, hlease, .same⟩

theorem comes_retireLease (other : LeaseKey)
    (h : p'.shared.registry.leases = (p.shared.retireLease other).1.registry.leases)
    (hlease : p'.lease? key = some lease) : Comes D p p' admitted key lease := by
  rcases p.shared.retireLease_cases other with ⟨-, heq⟩ | ⟨_, _, -, heq, -, hleases, -⟩
  · rw [heq] at h
    exact comes_of_eq h hlease
  · rw [heq] at h
    exact comes_of_erase (h.trans hleases) hlease

end

theorem comes_finishing {admitted : Option LeaseKey} {i : ℕ} {lost : SessionRuntime L}
    {clean : Bool} {action : Finishing L} {rest : List (Finishing L)} (now : ℕ)
    (hparty : p.parties[i]? = some (.finishing lost clean (action :: rest))) (hlease : ({ p with
        shared := (action.exec lost clean now p.shared).1
        parties := p.parties.set i (.finishing lost clean
          ((action.exec lost clean now p.shared).2 ++ rest)) } : Presenter P L).lease? key =
      some lease) : Comes D p { p with
        shared := (action.exec lost clean now p.shared).1
        parties := p.parties.set i (.finishing lost clean
          ((action.exec lost clean now p.shared).2 ++ rest)) } admitted key lease := by
  have h := Finishing.turns_exec lost clean now p.shared action
  generalize action.exec lost clean now p.shared = result at h hlease ⊢
  cases h with
  | same hregistry => exact comes_of_eq (congrArg _ hregistry) hlease
  | confirmed _ hprior hawaiting =>
    exact comes_of_insert _ rfl (Or.inr ⟨_, hprior, .confirm hawaiting⟩) hlease
  | unregistered _ hprior hawaiting =>
    exact comes_of_insert _ (ServiceShared.leases_removeSession _ _)
      (Or.inr ⟨_, hprior, .confirm hawaiting⟩) hlease
  | @suspended _ other prior hprior =>
    refine comes_of_insert (prior.suspend lost.resumeKey now).1 rfl
      (Or.inr ⟨prior, hprior, .suspend hparty fun hfails => ?_⟩) hlease
    refine ⟨_, mem_set (List.getElem?_eq_some_iff.mp hparty).1 _, ?_⟩
    rw [hfails, if_neg Bool.false_ne_true]
    exact mem_append_left _ mem_cons_self
  | @retired _ other => exact comes_retireLease other rfl hlease
  | unregister => exact comes_of_eq (ServiceShared.leases_removeSession _ _) hlease

/-- A section that decides on a session. -/
theorem comes_decides {p' : Presenter P L} {admitted : Option LeaseKey} {principal : Principal L}
    {published : Option (SessionRuntime L)}
    (hdecides : ServiceShared.Decides p.shared principal (p'.shared, published))
    (hlease : p'.lease? key = some lease) : Comes D p p' admitted key lease := by
  cases hdecides with
  | nothing hregistry => exact comes_of_eq (congrArg _ hregistry) hlease
  | refused hprior hdecide hleases =>
    exact comes_of_insert _ hleases (Or.inr ⟨_, hprior, .refuse hdecide⟩) hlease
  | decided hprior _ hdecide hreserves hleases =>
    exact comes_of_insert _ hleases (Or.inr ⟨_, hprior, .decide hdecide hreserves⟩) hlease

/-- The actors take nothing but leases back. -/
def Revoking (p : Presenter P L) : Prop :=
  ∀ runtime admitted tasks, Party.serving runtime admitted tasks ∈ p.parties →
    ∀ action, Task.revoke action ∈ tasks → action.isRevoking = true

/-- What a task of an actor makes of the registry: a lease goes, or nothing does. -/
theorem Task.exec_cases (issuer : SessionRuntime L) (now : ℕ) (s : ServiceShared P L)
    (task : Task L) (h : ∀ action, task = .revoke action → action.isRevoking = true) :
    (task.exec issuer now s).1.registry = s.registry ∨
      ∃ key, (task.exec issuer now s).1.registry = (s.retireLease key).1.registry := by
  have hretire : ∀ issuer' key, ((Finishing.retireLease issuer' key).exec issuer false now
      s).1.registry = (s.retireLease key).1.registry := by
    intro issuer' key
    dsimp only [Finishing.exec]
    split <;> (rename_i heq; rw [heq])
  cases task with
  | explainExpiry => exact Or.inl rfl
  | expire key => exact Or.inr ⟨key, hretire _ key⟩
  | revoke action =>
    have hrevoking := h action rfl
    cases action with
    | retireLease issuer' key => exact Or.inr ⟨key, hretire issuer' key⟩
    | releaseCapacity | removeChildOverlays | removeChildScene => exact Or.inl rfl
    | _ => cases hrevoking

theorem comes_onActor {i : ℕ} {admitted : Option LeaseKey}
    {work : ServiceShared P L → SessionRuntime L → Bool → ServiceShared P L × Party L}
    (h : ∀ runtime taken, p.parties[i]? = some (.serving runtime taken []) →
      ∀ p' : Presenter P L, p'.shared = (work p.shared runtime taken).1 →
        p'.lease? key = some lease → Comes D p p' admitted key lease)
    (hlease : (p.onActor i work).lease? key = some lease) :
    Comes D p (p.onActor i work) admitted key lease := by
  rcases p.onActor_cases i work with ⟨runtime, taken, hparty, heq⟩ | heq
  · rw [heq] at hlease ⊢
    exact h runtime taken hparty _ rfl hlease
  · rw [heq] at hlease ⊢
    exact comes_of_eq rfl hlease

theorem comes_step (hrevoking : p.Revoking) (act : Act P L)
    (hlease : (p.step D act).lease? key = some lease) :
    Comes D p (p.step D act) (p.admits act) key lease := by
  cases act with
  | connectRoot hello candidate =>
    have hleases := (p.shared.establishRoot_cases D hello candidate).1
    dsimp only [step] at hlease ⊢
    split at hlease <;> (rename_i heq; rw [heq] at hleases; exact comes_of_eq hleases hlease)
  | advance i age candidate =>
    dsimp only [step] at hlease ⊢
    rcases p.onParty_cases i (Party.advance p.clock age candidate) with ⟨party, hparty, heq⟩ | heq
    · rw [heq] at hlease ⊢
      cases party with
      | establishing stage =>
        by_cases hstage : ∃ principal hello, stage = .authenticated principal hello
        · obtain ⟨principal, hello, rfl⟩ := hstage
          have hdecides := p.shared.decides_establish p.clock principal hello candidate
          have hshared : ((Party.establishing (.authenticated principal hello)).advance p.clock age
              candidate p.shared).1 = (p.shared.establish p.clock principal hello candidate).1 := by
            dsimp only [Party.advance, Establishing.exec]
            rcases p.shared.establish p.clock principal hello candidate with
              ⟨_, _ | runtime⟩ <;> rfl
          rw [← Prod.mk.eta (p := p.shared.establish p.clock principal hello candidate),
            ← hshared] at hdecides
          exact comes_decides hdecides hlease
        · refine comes_of_eq ?_ hlease
          dsimp only
          rw [(uses_establishing (fun _ => none) p.clock age candidate
            (fun principal hello h => hstage ⟨principal, hello, h⟩)
            (mem_of_getElem? hparty)).1]
      | serving runtime admitted tasks =>
        cases tasks with
        | nil => exact comes_of_eq rfl hlease
        | cons task =>
          have hmem := mem_of_getElem? hparty
          rcases Task.exec_cases runtime (p.clock - age) p.shared task fun action h =>
            hrevoking runtime admitted _ hmem action (h ▸ mem_cons_self) with
            hsame | ⟨other, hretired⟩
          · exact comes_of_eq (congrArg _ hsame) hlease
          · exact comes_retireLease other (congrArg Registry.leases hretired) hlease
      | finishing _ _ sections =>
        cases sections with
        | nil => exact comes_of_eq rfl hlease
        | cons => exact comes_finishing (p.clock - age) hparty hlease
    · rw [heq] at hlease ⊢
      exact comes_of_eq rfl hlease
  | firstRequest i =>
    refine comes_onActor (fun runtime taken hparty p' hshared hlease => ?_) hlease
    cases taken with
    | true => exact comes_of_eq (congrArg (·.registry.leases) hshared) hlease
    | false =>
      have hadmits : p.admits (.firstRequest i) = runtime.lease := by
        dsimp only [admits]
        rw [hparty]
      rw [hadmits]
      rw [if_neg Bool.false_ne_true] at hshared
      rcases p.shared.admitPostHello_cases runtime with ⟨heq, -⟩ | ⟨other, prior, hkey, hprior, heq⟩
      · exact comes_of_eq (congrArg (·.registry.leases) (hshared.trans heq)) hlease
      rw [hkey]
      by_cases hother : key = other
      · subst hother
        exact comes_of_insert _ (congrArg (·.registry.leases) (hshared.trans heq))
          (Or.inr ⟨prior, hprior, .accept⟩) hlease
      · refine Or.inr ⟨lease, ?_, .same⟩
        unfold lease? at hlease ⊢
        rw [hshared, heq] at hlease
        exact (SortedMap.lookup_insert_of_ne hother).symm.trans hlease
  | expireLeases | revokeLease =>
    exact comes_onActor (fun _ _ _ p' hshared hlease =>
      comes_of_eq (congrArg (·.registry.leases) hshared) hlease) hlease
  | createLease _ request =>
    refine comes_onActor (fun runtime taken hparty p' hshared hlease => ?_) hlease
    cases taken with
    | false => exact comes_of_eq (congrArg (·.registry.leases) hshared) hlease
    | true =>
      rw [if_pos rfl] at hshared
      rcases p.shared.createSessionLease_cases D runtime request p.clock with
        heq | ⟨contract, -, -, hleases⟩
      · exact comes_of_eq (congrArg (·.registry.leases) (hshared.trans heq)) hlease
      · exact comes_of_insert _ ((congrArg (·.registry.leases) hshared).trans hleases)
          (Or.inl ⟨_, contract, _, rfl⟩) hlease
  | lose =>
    refine comes_onActor (fun _ _ _ p' hshared hlease => ?_) hlease
    refine comes_of_eq ?_ hlease
    rw [hshared]
    split <;> rfl
  | _ => exact comes_of_eq rfl hlease

end Presenter

end Vivido.Service
