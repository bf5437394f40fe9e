import Vivido.Service.Expiry
import Vivido.Service.Republishing

/-!
What keeps leases from being stranded, over whole runs. A lease that awaits its
first request has its machine still retryable. Past it the lease is served, or
suspended with its grace, or about to be taken back; and while the last sections
of a finish are under way, its lease is not an active one.
-/

namespace Vivido.Service

open Scene List Option

variable {P : Protocol} {L : LeaseProtocol}

namespace Presenter

variable {D : Delegation L} {p : Presenter P L} {act : Act P L} {key : LeaseKey}
  {lease prior : Lease L} {retryable begun : L.Machine → Prop} {decided : L.Machine → Option ℕ}
  {lost : SessionRuntime L} {clean : Bool} {sections : List (Finishing L)}

/-- The lease is not an active one past its first request, unless it is about to be taken back. -/
def Quiet (p : Presenter P L) (key : LeaseKey) : Prop :=
  ∀ lease, p.lease? key = some lease → lease.awaitingFirst = false →
    L.state lease.machine = .active → p.Pending key

/-- A lease past its first request has a session published for its child, or is suspended with a
grace, or is about to be taken back. -/
def Kept (p : Presenter P L) (key : LeaseKey) (lease : Lease L) : Prop :=
  (L.state lease.machine = .active ∧ p.Publishes key lease) ∨
    (L.state lease.machine = .suspended ∧ lease.graceDeadline.isSome = true) ∨ p.Pending key

structure Upheld (retryable begun : L.Machine → Prop) (decided : L.Machine → Option ℕ)
    (p : Presenter P L) : Prop where
  numbered : Numbered decided p
  revoking : p.Revoking
  finishing : ∀ lost clean sections, Party.finishing lost clean sections ∈ p.parties →
    Finishing.Owes lost sections ∨ (∀ a ∈ sections, Finishing.isTail a = true) ∧
      (sections.any Finishing.isUnregister = true → ∀ key, lost.lease = some key → p.Quiet key)
  machines : ∀ key lease, p.lease? key = some lease →
    lease.awaitingFirst = true ∧ retryable lease.machine ∨
      lease.awaitingFirst = false ∧ begun lease.machine
  kept : ∀ key lease, p.lease? key = some lease → lease.awaitingFirst = false → p.Kept key lease

/-! ### How a step keeps it -/

theorem Publishes.child (h : p.Publishes key lease) : ∃ child runtime, lease.child = some child ∧
    p.shared.registry.sessions.lookup child.sessionId = some runtime ∧
      runtime.lease = some key := by
  obtain ⟨runtime, hbound, hkey⟩ := (Option.any_eq_true _ _).mp h
  obtain ⟨child, hchild, hruntime⟩ := Option.bind_eq_some_iff.mp hbound
  exact ⟨child, runtime, hchild, hruntime, of_decide_eq_true hkey⟩

theorem publishes_of_child {child : SessionIdentity} {runtime : SessionRuntime L}
    (hchild : lease.child = some child)
    (hruntime : p.shared.registry.sessions.lookup child.sessionId = some runtime)
    (hkey : runtime.lease = some key) : p.Publishes key lease := by
  unfold Publishes
  rw [hchild, bind_some, hruntime, any_some]
  exact decide_eq_true hkey

/-- Where a finish comes to, if its lease is taken up now. -/
theorem finishing_takesUp (horderly : p.Orderly act) {action : Finishing L}
    {rest : List (Finishing L)} {age : ℕ} (hadvances : p.Advances D act lost clean action rest age)
    (htakes : action.TakesUp lost) (htail : ∀ a ∈ rest, Finishing.isTail a = true) :
    Finishing.Owes lost ((action.exec lost clean (p.clock - age) p.shared).2 ++ rest) ∨
      (∀ a ∈ (action.exec lost clean (p.clock - age) p.shared).2 ++ rest,
        Finishing.isTail a = true) ∧ ∀ key, lost.lease = some key → (p.step D act).Quiet key := by
  obtain ⟨i, _, hact, hparty, hstep⟩ := id hadvances
  have hclosing : ∀ a ∈ Finishing.closing ++ rest, Finishing.isTail a = true := by
    intro a ha
    exact (List.mem_append.mp ha).elim (Finishing.isTail_closing a) (htail a)
  rcases htakes with rfl | rfl | ⟨issuer, key, hown, rfl | rfl⟩
  · have hexec := Finishing.exec_awaitFirst lost clean (p.clock - age) p.shared
    rw [hexec]
    by_cases htaken : (Finishing.awaited lost clean p.shared).2 = true
    · right
      rw [if_pos htaken]
      refine ⟨htail, fun key hown lease hlease hawaiting _ => ?_⟩
      -- the lease awaits its first request
      rcases Finishing.awaited_cases lost clean p.shared with
        ⟨heq, -⟩ | ⟨other, prior, hother, hprior, hawaiting', heq | heq⟩
      · rw [heq] at htaken
        cases htaken
      · rw [heq] at htaken
        cases htaken
      cases hother.symm.trans hown
      unfold lease? at hlease
      rw [hstep] at hlease
      dsimp only at hlease
      rw [hexec, heq] at hlease
      change (Registry.removeSession _ _).leases.lookup key = some lease at hlease
      rw [ServiceShared.leases_removeSession] at hlease
      cases SortedMap.lookup_insert_self.symm.trans hlease
      cases hawaiting'.symm.trans hawaiting
    · left
      rw [if_neg htaken]
      refine ⟨[.collectIssued], .settleLease, rest, rfl, fun a ha => ?_, Or.inr (Or.inl rfl), htail⟩
      rw [List.mem_singleton.mp ha]
      rfl
  · dsimp only [Finishing.exec] at hstep ⊢
    cases hown : lost.lease with
    | none => exact Or.inr ⟨hclosing, nofun⟩
    | some key =>
      rw [hown] at hstep
      dsimp only at hstep ⊢
      cases hissuer : p.shared.registry.sessions.lookup key.issuer.sessionId with
      | none =>
        rw [hissuer] at hstep
        refine Or.inr ⟨hclosing, fun other hother lease hlease hawaiting hstate => ?_⟩
        cases hother
        rw [hstep] at hlease
        have hsettles : p.settles act = some key := by
          rw [hact]
          dsimp only [settles]
          rw [hparty]
          exact hown
        have hfound := horderly.2.1 key hsettles lease hlease hstate hawaiting
        rw [hissuer] at hfound
        cases hfound
      | some issuer =>
        dsimp only
        split
        · exact Or.inl (Finishing.owes_cons
            (Or.inr (Or.inr ⟨issuer.handle, key, hown, Or.inr rfl⟩)) hclosing)
        · exact Or.inl (Finishing.owes_cons
            (Or.inr (Or.inr ⟨issuer.handle, key, hown, Or.inl rfl⟩)) htail)
  · have hexec := Finishing.exec_suspendLease lost clean (p.clock - age) p.shared issuer key
    rw [hexec]
    by_cases hsuspended : (Finishing.suspended lost (p.clock - age) p.shared key).2 = true
    · right
      rw [if_pos hsuspended]
      refine ⟨fun a ha => ?_, fun other hother lease hlease _ hstate => ?_⟩
      · rcases List.mem_append.mp ha with ha | ha
        · simp only [mem_cons, not_mem_nil, or_false] at ha
          rcases ha with rfl | rfl | rfl <;> rfl
        · exact htail a ha
      · -- the lease is suspended
        cases hown.symm.trans hother
        rcases Finishing.suspended_cases lost (p.clock - age) p.shared key with
          heq | ⟨prior, _, heq⟩
        · rw [heq] at hsuspended
          cases hsuspended
        unfold lease? at hlease
        rw [hstep] at hlease
        dsimp only at hlease
        rw [hexec, heq] at hlease
        have hfound := SortedMap.lookup_insert_self.symm.trans hlease
        rcases Finishing.suspend_cases (p.clock - age) prior lost.resumeKey with
          hmoved | ⟨_, hstate', hmoved⟩
        · rw [heq, hmoved] at hsuspended
          cases hsuspended
        · rw [hmoved] at hfound
          cases hfound
          cases hstate'.symm.trans hstate
    · left
      rw [if_neg hsuspended]
      exact Finishing.owes_cons (Or.inr (Or.inr ⟨issuer, key, hown, Or.inr rfl⟩)) hclosing
  · right
    refine ⟨fun a ha => ?_, fun other hother lease hlease => ?_⟩
    · exact (List.mem_append.mp ha).elim (fun h => (Finishing.exec_retireLease a h).2.1) (htail a)
    · -- the lease is gone
      cases hown.symm.trans hother
      rw [hstep] at hlease
      cases (lease_retired rfl (registry_retireLease p.shared _ issuer key)).symm.trans hlease

namespace Upheld

/-- A finish whose lease is taken up next is one of a session of that lease. -/
theorem suspends_own (h : p.Upheld retryable begun decided) {issuer : ℕ} {rest : List (Finishing L)}
    (hmem : Party.finishing lost clean (.suspendLease issuer key :: rest) ∈ p.parties) :
    lost.lease = some key := by
  rcases h.finishing _ _ _ hmem with howes | ⟨htail, -⟩
  · rcases howes.cases with ⟨hearly, -⟩ | ⟨htakes, -⟩
    · cases hearly
    rcases htakes with htakes | htakes | ⟨_, _, hlost, htakes | htakes⟩
    · cases htakes
    · cases htakes
    · cases htakes
      exact hlost
    · cases htakes
  · cases htail _ mem_cons_self

/-- A session that was published for a lease still is, unless a finish of a session of the lease
has just unregistered it. -/
theorem publishes_step (h : p.Upheld retryable begun decided)
    (hnumbered : Numbered decided (p.step D act)) (hprior : p.lease? key = some prior)
    (hlease : (p.step D act).lease? key = some lease) (hchild : lease.child = prior.child)
    (hpublishes : p.Publishes key prior) :
    (p.step D act).Publishes key lease ∨ ∃ lost clean action rest age,
      p.Advances D act lost clean action rest age ∧ lost.lease = some key ∧
        (action = .unregister ∨ action = .awaitFirst ∧ lease.awaitingFirst = true) := by
  obtain ⟨child, _, hbound, hruntime, hkey⟩ := hpublishes.child
  have huses : Uses decided p child.sessionId (some key) :=
    Or.inr ⟨key, prior, hprior, Or.inl ⟨child, hbound, rfl⟩, rfl⟩
  have hbound' : lease.child = some child := hchild.trans hbound
  cases republishes_step (D := D) h.revoking act child.sessionId with
  | same hsame => exact Or.inl (publishes_of_child hbound' (hsame.trans hruntime) hkey)
  | published hruntime' hparty hnumber =>
    have hsame := hnumbered.unique child.sessionId _ (some key) (Or.inl ⟨_, hparty, hnumber⟩)
      (Or.inr ⟨key, lease, hlease, Or.inl ⟨child, hbound', rfl⟩, rfl⟩)
    exact Or.inl (publishes_of_child hbound' hruntime' hsame)
  | @retired other retired child' hother hchild' hn hgone =>
    have hsame := h.numbered.unique child.sessionId (some other) (some key)
      (Or.inr ⟨other, retired, hother, Or.inl ⟨child', hchild', hn⟩, rfl⟩) huses
    cases hsame
    cases hgone.symm.trans hlease
  | @unregistered lost clean action rest age hadvances hn haction =>
    obtain ⟨i, _, -, hparty, -⟩ := id hadvances
    have hsame := h.numbered.unique child.sessionId lost.lease (some key)
      (Or.inl ⟨_, mem_of_getElem? hparty, congrArg some (Prod.ext hn rfl)⟩) huses
    refine Or.inr ⟨lost, clean, action, rest, age, hadvances, hsame, haction.imp_right ?_⟩
    exact fun haction => ⟨haction.1, haction.2 key lease hsame hlease⟩

variable {admitted : Option LeaseKey}

section

variable (h : p.Upheld retryable begun decided) (hL : L.Keeps retryable begun decided)
include h hL

theorem comes_cases {p' : Presenter P L} (hcomes : Comes D p p' admitted key lease)
    (hawaiting : lease.awaitingFirst = false) : p.lease? key = some lease ∨
      (L.state lease.machine = .suspended ∧ lease.graceDeadline.isSome = true) ∨ p'.Pending key ∨
      admitted = some key ∧ ∃ prior, p.lease? key = some prior ∧
        lease.machine = L.admitPostHello prior.machine ∧ lease.child = prior.child := by
  rcases hcomes with ⟨_, _, now, rfl⟩ | ⟨prior, hprior, hrewrites⟩
  · cases hawaiting
  have hmachines := h.machines key prior hprior
  cases hrewrites with
  | same => exact Or.inl hprior
  | confirm hawaiting' => cases hawaiting'.symm.trans hawaiting
  | @suspend _ i lost clean now issuer rest hparty hfails =>
    rcases Finishing.suspend_cases now prior lost.resumeKey with heq | ⟨_, hstate, heq⟩
    · rw [heq] at hfails
      obtain ⟨sections, hmem, hretire⟩ := hfails rfl
      have hown := h.suspends_own (mem_of_getElem? hparty)
      exact Or.inr (Or.inr (Or.inl ⟨lost, clean, sections, issuer, hmem, hown, hretire⟩))
    · rw [heq]
      exact Or.inr (Or.inl ⟨hstate, rfl⟩)
  | accept => exact Or.inr (Or.inr (Or.inr ⟨rfl, prior, hprior, rfl, rfl⟩))
  | @refuse _ principal machine attempt hdecide =>
    have hbegun := (hmachines.resolve_left fun h => by cases h.1.symm.trans hawaiting).2
    have hsame : machine = prior.machine := by
      cases principal with
      | lease =>
        cases (hL.activation_refused prior.machine attempt hbegun).symm.trans hdecide
        rfl
      | resume => exact hL.resume_kept _ _ _ _ hdecide
    rw [hsame]
    exact Or.inl hprior
  | @decide _ principal machine _ attempt decision hdecide hreserves =>
    rcases hreserves.awaiting with hawaiting' | ⟨hsame, _, _, rfl⟩
    · cases hawaiting'.symm.trans hawaiting
    · have hbegun := (hmachines.resolve_left fun h => by
        cases h.1.symm.trans (hsame.symm.trans hawaiting)).2
      cases (hL.activation_refused prior.machine attempt hbegun).symm.trans hdecide

theorem machines_step
    (hnew : ∀ definition, retryable (D.newMachine definition)) {p' : Presenter P L}
    (hadmitted : ∀ key prior, admitted = some key → p.lease? key = some prior →
      L.state prior.machine = .active) (hcomes : Comes D p p' admitted key lease) :
    lease.awaitingFirst = true ∧ retryable lease.machine ∨
      lease.awaitingFirst = false ∧ begun lease.machine := by
  rcases hcomes with ⟨definition, _, now, rfl⟩ | ⟨prior, hprior, hrewrites⟩
  · exact Or.inl ⟨rfl, hnew definition⟩
  have hmachines := h.machines key prior hprior
  have hlost : ∀ awaiting : Bool, prior.awaitingFirst = awaiting →
      awaiting = true ∧ retryable (L.confirmTransportLost prior.machine false).1 ∨
        awaiting = false ∧ begun (L.confirmTransportLost prior.machine false).1 := by
    rintro _ rfl
    exact hmachines.imp (And.imp_right (hL.lost_retryable _)) (And.imp_right (hL.lost_begun _))
  cases hrewrites with
  | same => exact hmachines
  | confirm => exact hlost _ rfl
  | @suspend _ i lost clean now issuer rest hparty hfails =>
    rcases Finishing.suspend_cases now prior lost.resumeKey with heq | ⟨_, -, heq⟩ <;>
      (rw [heq]; exact hlost _ rfl)
  | accept => exact Or.inr ⟨rfl, (hL.admitted _ (hadmitted key prior rfl hprior)).1⟩
  | @refuse _ principal machine attempt hdecide =>
    cases principal with
    | lease =>
      rcases hmachines with ⟨hawaiting, hretryable⟩ | ⟨hawaiting, hbegun⟩
      · have hkept := hL.activated prior.machine attempt hretryable
        rw [show L.beginActivation prior.machine attempt = (machine, none) from hdecide] at hkept
        exact Or.inl ⟨hawaiting, hkept⟩
      · cases (hL.activation_refused prior.machine attempt hbegun).symm.trans hdecide
        exact Or.inr ⟨hawaiting, hbegun⟩
    | resume =>
      rw [hL.resume_kept _ _ _ _ hdecide]
      exact hmachines
  | @decide _ principal machine _ attempt decision hdecide hreserves =>
    have hdecided : retryable machine := by
      cases principal with
      | lease =>
        rcases hmachines with ⟨-, hretryable⟩ | ⟨-, hbegun⟩
        · have hkept := hL.activated prior.machine attempt hretryable
          rw [show L.beginActivation prior.machine attempt = (machine, some decision) from
            hdecide] at hkept
          exact hkept
        · cases (hL.activation_refused prior.machine attempt hbegun).symm.trans hdecide
      | resume =>
        exact hL.resumed _ _ _ _ _ (hmachines.imp And.right And.right) hdecide
    have hsettled : retryable lease.machine := by
      rcases hreserves.machine with hsame | hsame | ⟨hstate, hsame⟩
      · rw [hsame]
        exact hdecided
      · rw [hsame]
        exact hL.lost_retryable _ hdecided
      · rw [hsame]
        exact hL.committed _ hdecided hstate
    rcases hreserves.awaiting with hawaiting | ⟨hsame, _, _, rfl⟩
    · exact Or.inl ⟨hawaiting, hsettled⟩
    · rcases hmachines with ⟨hawaiting, -⟩ | ⟨-, hbegun⟩
      · exact Or.inl ⟨hsame.trans hawaiting, hsettled⟩
      · cases (hL.activation_refused prior.machine attempt hbegun).symm.trans hdecide

theorem quiet_step
    (hadmits : p.admits act = some key → p.lease? key = none) (hquiet : p.Quiet key) :
    (p.step D act).Quiet key := by
  intro lease hlease hawaiting hstate
  rcases h.comes_cases hL (comes_step h.revoking act hlease) hawaiting with
    hsame | ⟨hsuspended, -⟩ | hpending | ⟨hadmitted, _, hprior, -⟩
  · rcases pending_step D act (hquiet lease hsame hawaiting hstate) with
      hpending | hgone
    · exact hpending
    · cases hgone.symm.trans hlease
  · cases hsuspended.symm.trans hstate
  · exact hpending
  · cases (hadmits hadmitted).symm.trans hprior

theorem kept_step (horderly : p.Orderly act) (hnumbered : Numbered decided (p.step D act))
    (hlease : (p.step D act).lease? key = some lease) (hawaiting : lease.awaitingFirst = false) :
    (p.step D act).Kept key lease := by
  have hpending : p.Pending key → (p.step D act).Kept key lease := by
    intro hpending
    rcases pending_step D act hpending with hpending | hgone
    · exact Or.inr (Or.inr hpending)
    · cases hgone.symm.trans hlease
  rcases h.comes_cases hL (comes_step h.revoking act hlease) hawaiting with
    hsame | hsuspended | hpending' | ⟨hadmitted, prior, hprior, hmachine, hchild⟩
  · rcases h.kept key lease hsame hawaiting with ⟨hstate, hpublishes⟩ | hsuspended | hbefore
    · rcases h.publishes_step hnumbered hsame hlease rfl hpublishes with
        hpublishes | ⟨lost, clean, action, rest, age, hadvances, hown, rfl | ⟨-, hawaiting'⟩⟩
      · exact Or.inl ⟨hstate, hpublishes⟩
      · -- the last sections of a finish are under way, and the lease is an active one
        obtain ⟨i, candidate, -, hparty, -⟩ := hadvances
        rcases h.finishing _ _ _ (mem_of_getElem? hparty) with howes | ⟨-, hquiet⟩
        · exact (howes.head_ne_unregister rfl).elim
        · exact hpending (hquiet rfl key hown lease hsame hawaiting hstate)
      · cases hawaiting'.symm.trans hawaiting
    · exact Or.inr (Or.inl hsuspended)
    · exact hpending hbefore
  · exact Or.inr (Or.inl hsuspended)
  · exact Or.inr (Or.inr hpending')
  · obtain ⟨hstate, hpublishes, -⟩ := horderly.2.2 key hadmitted prior hprior
    left
    rw [hmachine]
    refine ⟨(hL.admitted _ hstate).2, ?_⟩
    rcases h.publishes_step hnumbered hprior hlease hchild hpublishes with
      hpublishes | ⟨_, _, _, _, _, hadvances, -⟩
    · exact hpublishes
    · obtain ⟨i, _, rfl, -⟩ := hadvances
      cases hadmitted

theorem finishing_step (horderly : p.Orderly act)
    (hmem : Party.finishing lost clean sections ∈ (p.step D act).parties) :
    Finishing.Owes lost sections ∨ (∀ a ∈ sections, Finishing.isTail a = true) ∧
      (sections.any Finishing.isUnregister = true → ∀ key, lost.lease = some key →
        (p.step D act).Quiet key) := by
  rcases finishing_of_step hmem with hbefore | ⟨_, _, _, hadvances, rfl⟩ | rfl
  · refine (h.finishing _ _ _ hbefore).imp_right fun htail => ⟨htail.1, fun hany key hown => ?_⟩
    refine h.quiet_step hL (fun hadmits => ?_) (htail.2 hany key hown)
    -- a first request is not taken before the session is unregistered
    cases hlease : p.lease? key with
    | none => rfl
    | some lease =>
      refine ((horderly.2.2 key hadmits lease hlease).2.2 _ hbefore ?_).elim
      unfold Party.unregisters?
      dsimp only
      rw [List.all_eq_true.mpr htail.1, hany]
      exact hown
  · obtain ⟨i, _, hact, hparty, _⟩ := id hadvances
    rcases h.finishing _ _ _ (mem_of_getElem? hparty) with howes | ⟨htail, hquiet⟩
    · rcases howes.cases with ⟨hearly, howes⟩ | ⟨htakes, htail⟩
      · exact Or.inl (Finishing.owes_append (Finishing.isEarly_exec hearly) howes)
      · exact (finishing_takesUp horderly hadvances htakes htail).imp_right fun h =>
          ⟨h.1, fun _ => h.2⟩
    · right
      rw [Finishing.isTail_exec (htail _ mem_cons_self)]
      refine ⟨fun a ha => htail a (mem_cons_of_mem _ ha), fun hany key hown => ?_⟩
      refine h.quiet_step hL (fun hadmits => ?_) (hquiet ?_ key hown)
      · rw [hact] at hadmits
        cases hadmits
      · rw [any_cons, Bool.or_eq_true]
        exact Or.inr hany
  · left
    refine ⟨[.removeOverlays], .awaitFirst, [], rfl, fun a ha => ?_, Or.inl rfl, fun _ h => ?_⟩
    · rw [List.mem_singleton.mp ha]
      rfl
    · cases h

theorem step (hnew : ∀ definition, retryable (D.newMachine definition) ∧
      decided (D.newMachine definition) = none) (horderly : p.Orderly act) :
    (p.step D act).Upheld retryable begun decided := by
  have hnumbered := h.numbered.keeps horderly.1 (keepsNumbers_step hL (fun d => (hnew d).2) act)
  exact
    { numbered := hnumbered
      revoking := h.revoking.step act
      finishing := fun _ _ _ hmem => h.finishing_step hL horderly hmem
      machines := fun key lease hlease =>
        h.machines_step hL (fun d => (hnew d).1)
          (fun key prior hadmits hprior => (horderly.2.2 key hadmits prior hprior).1)
          (comes_step h.revoking act hlease)
      kept := fun key lease hlease hawaiting =>
        h.kept_step hL horderly hnumbered hlease hawaiting }

/-- A lease that waits neither for its first request nor for the end of its grace is served. -/
theorem noneStranded : p.NoneStranded D := by
  intro key lease hlease hfinished
  rcases h.machines key lease hlease with ⟨hawaiting, hretryable⟩ | ⟨hawaiting, -⟩
  · refine Or.inr ⟨lease.activationDeadline, timed_of_deadline hlease ?_⟩
    unfold Lease.deadline
    rcases hL.state_retryable _ hretryable with hstate | hstate | hstate
    · rw [hstate]
    · rw [hstate]
    · rw [hstate]
      exact if_pos hawaiting
  · rcases h.kept key lease hlease hawaiting with hserved | ⟨hstate, hgrace⟩ | hpending
    · exact Or.inl ⟨hserved.1, hawaiting, hserved.2⟩
    · obtain ⟨grace, hgrace⟩ := Option.isSome_iff_exists.mp hgrace
      refine Or.inr ⟨grace, timed_of_deadline hlease ?_⟩
      unfold Lease.deadline
      rw [hstate]
      exact hgrace
    · obtain ⟨_, _, sections, _, hmem, hown, hretire⟩ := hpending
      cases sections with
      | nil => cases hretire
      | cons => exact (hfinished _ hmem hown).elim

end

end Upheld

/-- In a run of orderly steps no lease is ever stranded. -/
theorem none_stranded (D : Delegation L) (retryable begun : L.Machine → Prop)
    (decided : L.Machine → Option ℕ) (hL : L.Keeps retryable begun decided)
    (hnew : ∀ definition, retryable (D.newMachine definition) ∧
      decided (D.newMachine definition) = none)
    (start : ServiceShared P L) (hstart : start.registry.leases = .empty)
    (hnext : start.nextSession = 1) (history : List (Act P L))
    (h : Throughout (run D start) (fun p act => p.Orderly act) history) :
    (run D start history).NoneStranded D := by
  refine Upheld.noneStranded ?_ hL
  refine h.induct (fun history => (run D start history).Upheld retryable begun decided) ?_ ?_
  · have hnone : ∀ key, (new start).lease? key = none := by
      intro key
      unfold lease?
      change start.registry.leases.lookup key = none
      rw [hstart]
      rfl
    have hunused : ∀ n key, ¬ Uses decided (new start) n key := by
      rintro n key (⟨party, hparty, -⟩ | ⟨other, lease, hlease, -⟩)
      · cases hparty
      · cases (hnone other).symm.trans hlease
    exact
      { numbered :=
          { bounded := by
              change start.nextSession < 2 ^ 64
              omega
            drawn := fun _ n key huses => (hunused n key huses).elim
            unique := fun n key _ huses => (hunused n key huses).elim }
        revoking := nofun
        finishing := nofun
        machines := fun key lease hlease => by cases (hnone key).symm.trans hlease
        kept := fun key lease hlease => by cases (hnone key).symm.trans hlease }
  · intro _ _ hupheld horderly
    rw [run_concat]
    exact hupheld.step hL hnew horderly

section Running

/-- What a loss makes of the machine that keeps its last decision. -/
theorem plain_lost (machine : PlainMachine) :
    LeaseProtocol.plain.confirmTransportLost machine false = (machine, false) ∨
      machine.state = .active ∧ ∃ state, (machine.admitted = false → state = .reserved) ∧
        state ≠ .issued ∧ LeaseProtocol.plain.confirmTransportLost machine false =
          (({ machine with state } : PlainMachine), true) := by
  by_cases hstate : machine.state ≠ .active
  · exact Or.inl (if_pos hstate)
  refine Or.inr ⟨not_not.mp hstate, ?_⟩
  by_cases hadmitted : machine.admitted = true
  · refine ⟨if machine.suspends && !false then .suspended else .other 5, fun h => ?_, ?_,
      (if_neg hstate).trans (if_neg (not_not.mpr hadmitted))⟩
    · cases h.symm.trans hadmitted
    · split <;> (intro h; cases h)
  · exact ⟨.reserved, fun _ => rfl, (by intro h; cases h),
      (if_neg hstate).trans (if_pos hadmitted)⟩

theorem replay_begun {machine : PlainMachine} (attempt : EstablishmentAttempt ℕ ℕ ℕ)
    (h : machine.admitted = true) : machine.replay attempt = (machine, none) := by
  unfold PlainMachine.replay
  rw [h]
  cases machine.decided with
  | none => rfl
  | some =>
    rw [filter_some, Bool.not_true, Bool.and_false, if_neg Bool.false_ne_true]
    rfl

theorem replay_decided {machine machine' : PlainMachine} {attempt : EstablishmentAttempt ℕ ℕ ℕ}
    {result : Option (AttemptDecision ℕ ℕ)} (h : machine.replay attempt = (machine', result)) :
    machine' = machine ∧ ∀ decision, result = some decision →
      machine.decided.map (·.2.sessionId) = some decision.sessionId := by
  obtain ⟨rfl, rfl⟩ := Prod.mk.inj h
  refine ⟨rfl, fun decision hdecided => ?_⟩
  obtain ⟨_, hentry, rfl⟩ := Option.map_eq_some_iff.mp hdecided
  rw [(Option.filter_eq_some_iff.mp hentry).1]
  rfl

/-- What an activation, or a resume, makes of the machine: a fresh decision, or a replay. -/
theorem plain_activation (machine : PlainMachine) (attempt : EstablishmentAttempt ℕ ℕ ℕ) :
    machine.state = .issued ∧
        LeaseProtocol.plain.beginActivation machine attempt = machine.decide attempt ∨
      machine.state ≠ .issued ∧
        LeaseProtocol.plain.beginActivation machine attempt = machine.replay attempt := by
  by_cases hstate : machine.state = .issued
  · exact Or.inl ⟨hstate, if_pos hstate⟩
  · exact Or.inr ⟨hstate, if_neg hstate⟩

theorem plain_resume (machine : PlainMachine) (generation : ℕ)
    (attempt : EstablishmentAttempt ℕ ℕ ℕ) :
    machine.state = .suspended ∧ LeaseProtocol.plain.beginResume machine generation attempt =
        { machine with generation := generation + 1 }.decide attempt ∨
      LeaseProtocol.plain.beginResume machine generation attempt = machine.replay attempt := by
  by_cases hstate : machine.state = .suspended ∧ machine.generation = generation
  · exact Or.inl ⟨hstate.1, if_pos hstate⟩
  · exact Or.inr (if_neg hstate)

/-- The machine that keeps its last decision is one that leases may rely on. -/
theorem plain_keeps : LeaseProtocol.plain.Keeps
    (fun machine : PlainMachine => machine.state = .issued ∨
      machine.admitted = false ∧ (machine.state = .reserved ∨ machine.state = .active))
    (fun machine : PlainMachine => machine.state ≠ .issued ∧ machine.admitted = true)
    (fun machine : PlainMachine => machine.decided.map (·.2.sessionId)) where
  state_retryable machine h := h.imp_right And.right
  lost_retryable machine h := by
    rcases plain_lost machine with heq | ⟨hstate, state, hreserved, -, heq⟩
    · exact congrArg Prod.fst heq ▸ h
    · have hadmitted := (h.resolve_left fun h => by cases hstate.symm.trans h).1
      cases hreserved hadmitted
      exact congrArg Prod.fst heq ▸ Or.inr ⟨hadmitted, Or.inl rfl⟩
  lost_begun machine h := by
    rcases plain_lost machine with heq | ⟨hstate, state, -, hnot, heq⟩
    · exact congrArg Prod.fst heq ▸ h
    · exact congrArg Prod.fst heq ▸ ⟨hnot, h.2⟩
  lost_decided machine := by
    rcases plain_lost machine with heq | ⟨hstate, _, -, -, heq⟩
    · exact congrArg (fun result => PlainMachine.decided (Prod.fst result) |>.map _) heq
    · exact congrArg (fun result => PlainMachine.decided (Prod.fst result) |>.map _) heq
  committed machine h hstate :=
    Or.inr ⟨(h.resolve_left fun h => by cases hstate.symm.trans h).1, Or.inr rfl⟩
  committed_decided _ := rfl
  admitted machine hstate := ⟨⟨(fun h => by cases hstate.symm.trans h), rfl⟩, hstate⟩
  admitted_decided _ := rfl
  activation_refused machine attempt h := by
    rcases plain_activation machine attempt with ⟨hstate, -⟩ | ⟨-, heq⟩
    · exact (h.1 hstate).elim
    · exact heq.trans (replay_begun attempt h.2)
  resume_refused machine generation attempt h hstate := by
    rcases plain_resume machine generation attempt with ⟨hsuspended, -⟩ | heq
    · exact (hstate hsuspended).elim
    · exact heq.trans (replay_begun attempt h.2)
  activated machine attempt h := by
    rcases plain_activation machine attempt with ⟨-, heq⟩ | ⟨-, heq⟩
    · exact congrArg Prod.fst heq ▸ Or.inr ⟨rfl, Or.inl rfl⟩
    · exact congrArg Prod.fst heq ▸ h
  resumed machine generation attempt machine' decision h hresume := by
    rcases plain_resume machine generation attempt with ⟨-, heq⟩ | heq
    · cases heq.symm.trans hresume
      exact Or.inr ⟨rfl, Or.inl rfl⟩
    · have hreplay := heq.symm.trans hresume
      rcases h with h | h
      · rw [(replay_decided hreplay).1]
        exact h
      · cases (replay_begun attempt h.2).symm.trans hreplay
  resume_kept machine generation attempt machine' hresume := by
    rcases plain_resume machine generation attempt with ⟨-, heq⟩ | heq
    · cases heq.symm.trans hresume
    · exact (replay_decided (heq.symm.trans hresume)).1
  activation_kept machine attempt machine' hactivation := by
    rcases plain_activation machine attempt with ⟨-, heq⟩ | ⟨-, heq⟩
    · cases heq.symm.trans hactivation
    · rw [(replay_decided (heq.symm.trans hactivation)).1]
  activation_decided machine attempt machine' decision hactivation := by
    rcases plain_activation machine attempt with ⟨-, heq⟩ | ⟨-, heq⟩
    · cases heq.symm.trans hactivation
      exact ⟨Or.inl rfl, rfl⟩
    · obtain ⟨rfl, hdecided⟩ := replay_decided (heq.symm.trans hactivation)
      exact ⟨Or.inr (hdecided decision rfl), hdecided decision rfl⟩
  resume_decided machine generation attempt machine' decision hresume := by
    rcases plain_resume machine generation attempt with ⟨-, heq⟩ | heq
    · cases heq.symm.trans hresume
      exact ⟨Or.inl rfl, rfl⟩
    · obtain ⟨rfl, hdecided⟩ := replay_decided (heq.symm.trans hresume)
      exact ⟨Or.inr (hdecided decision rfl), hdecided decision rfl⟩

/-- A child retries its activation, and sends its first request on both connections; it is lost in
between on the first. -/
def retryingRun : List (Act .plain .plain) :=
  [.connectRoot (1 : ℕ) (candidate 100), .firstRequest 0, .createLease 0 shortRequest,
    .activate 1 7 (40 : ℕ) (5 : ℕ), .advance 1 0 (candidate 200), .advance 1 0 (candidate 200),
    .activate 1 7 (40 : ℕ) (5 : ℕ), .advance 2 0 (candidate 300), .advance 2 0 (candidate 300),
    .firstRequest 1, .lose 1 false] ++ List.replicate 8 (.advance 1 0 (candidate 200)) ++
    [.firstRequest 2]

/-- The second first request clears the grace that the lease is suspended with. -/
theorem retried_lease_stranded : ¬ ∀ history : List (Act .plain .plain),
    (run .plain ServiceShared.idle history).NoneStranded .plain := by
  intro h
  have hcleared : ((run .plain ServiceShared.idle retryingRun).lease? ⟨⟨1, 1⟩, 1, 7⟩).any
      (fun lease => LeaseProtocol.plain.state lease.machine = .suspended &&
        lease.graceDeadline.isNone) = true := by decide +kernel
  have hfinished : (run .plain ServiceShared.idle retryingRun).Finished ⟨⟨1, 1⟩, 1, 7⟩ := by
    decide +kernel
  obtain ⟨lease, hlease, hstood⟩ := (Option.any_eq_true _ _).mp hcleared
  rw [Bool.and_eq_true, decide_eq_true_eq, isNone_iff_eq_none] at hstood
  rcases h retryingRun _ lease hlease hfinished with ⟨hstate, -⟩ | ⟨due, htimed⟩
  · cases hstood.1.symm.trans hstate
  · have hexpired := (htimed.expired due).mpr le_rfl
    unfold Lease.expired at hexpired
    rw [hstood.1, hstood.2] at hexpired
    cases hexpired

theorem none_stranded_suspending :
    (run .plain ServiceShared.idle suspendingRun).NoneStranded .plain :=
  none_stranded .plain _ _ _ plain_keeps (fun _ => ⟨Or.inl rfl, rfl⟩) .idle rfl rfl suspendingRun
    (by decide +kernel)

end Running

end Presenter

end Vivido.Service
