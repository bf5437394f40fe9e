import Vivido.Service.Expiry

/-!
Leases that are issued again under a key. A session keeps the key of its lease
and no more, so what it does to the lease under the key it does to whichever
stands there. It is kept from a newer lease only while none is created under a
key that some session may still look up.
-/

namespace Vivido.Service

open Scene SortedMap List

variable {P : Protocol} {L : LeaseProtocol}

/-- The key that a connection goes by. -/
def Party.key? : Party L → Option LeaseKey
  | .establishing (.resumingLease key _ _ _) => some key
  | .establishing (.authenticated principal _) => some principal.key
  | .serving runtime _ _ => runtime.lease
  | .finishing lost _ _ => lost.lease
  | _ => none

/-- The session of a connection. -/
def Party.session? : Party L → Option SessionIdentity
  | .serving runtime _ _ => some runtime.identity
  | .finishing lost _ _ => some lost.identity
  | _ => none

/-- A section that comes after all those that may look at a lease. -/
def Finishing.isLate : Finishing L → Bool
  | .suspendScene | .stopAudio | .unregister | .removeFileDrops | .retireScene => true
  | _ => false

/-- The connection may still look up the lease under its key. -/
def Party.reaches : Party L → Bool
  | .finishing _ _ sections => sections.any fun action => !action.isLate
  | _ => true

/-- A session keeps its scene, surfaces and tracks. -/
structure SameScene (before after : State P) (session : SessionIdentity) : Prop where
  scene : after.scenes.lookup session = before.scenes.lookup session
  surfaces : ∀ key : SurfaceIdentity, key.context.session = session →
    after.surfaces.lookup key = before.surfaces.lookup key
  tracks : ∀ key : TrackIdentity, key.surface.context.session = session →
    after.tracks.lookup key = before.tracks.lookup key

/-- The lease under a key is as before, and so are all reservations and overlays, and the session
of the lease's child, unless it goes by the number of the session that acts. -/
structure Untouched (before after : ServiceShared P L) (party : Party L) (key : LeaseKey) :
    Prop where
  lease : after.registry.leases.lookup key = before.registry.leases.lookup key
  reservations : after.connections = before.connections
  overlays : after.overlays = before.overlays
  child : ∀ lease child, before.registry.leases.lookup key = some lease →
    lease.child = some child →
      (∀ session, party.session? = some session → child.sessionId ≠ session.sessionId) →
        after.registry.sessions.lookup child.sessionId =
            before.registry.sessions.lookup child.sessionId ∧
          SameScene before.scene after.scene child

theorem sameScene_refl (scene : State P) (session : SessionIdentity) :
    SameScene scene scene session :=
  ⟨rfl, fun _ _ => rfl, fun _ _ => rfl⟩

theorem untouched_refl (s : ServiceShared P L) (party : Party L) (key : LeaseKey) :
    Untouched s s party key :=
  ⟨rfl, rfl, rfl, fun _ child _ _ _ => ⟨rfl, sameScene_refl s.scene child⟩⟩

section Others

variable {session other : SessionIdentity} (scene : State P)

theorem sameScene_removeSession (h : other ≠ session) :
    SameScene scene (scene.removeSession session) other := by
  refine ⟨?_, fun key hkey => ?_, fun key hkey => ?_⟩
  · change (scene.scenes.erase session).lookup other = _
    rw [lookup_erase, if_neg h]
  · exact lookup_filter_kept fun _ => decide_eq_true (hkey ▸ h)
  · exact lookup_filter_kept fun _ => decide_eq_true (hkey ▸ h)

theorem sameScene_detachSession (h : other ≠ session) :
    SameScene scene (scene.detachSession session) other := by
  unfold State.detachSession
  dsimp only
  split
  · exact ⟨rfl, fun _ _ => rfl, fun _ _ => rfl⟩
  · obtain ⟨hscenes, hsurfaces, htracks⟩ := sameScene_removeSession scene h
    exact ⟨hscenes, hsurfaces, htracks⟩

theorem sameScene_suspendSession (h : other ≠ session) :
    SameScene scene (scene.suspendSession session) other := by
  unfold State.suspendSession
  dsimp only
  split
  · exact ⟨rfl, fun _ _ => rfl, fun _ _ => rfl⟩
  · refine ⟨rfl, fun _ _ => rfl, fun key hkey => ?_⟩
    change (scene.tracks.mapValues _).lookup key = scene.tracks.lookup key
    rw [lookup_mapValues, hkey]
    simp only [if_neg h, Option.map_id']

end Others

namespace Finishing

variable {lost : SessionRuntime L} {clean : Bool} {now : ℕ} {action : Finishing L}

theorem added_of_isLate (s : ServiceShared P L) (h : action.isLate = true) :
    (action.exec lost clean now s).2 = [] := by
  cases action <;> first | rfl | cases h

/-- A late section is about the lost session alone. -/
theorem untouched_of_isLate (s : ServiceShared P L) (sections : List (Finishing L))
    (key : LeaseKey) (h : action.isLate = true) :
    Untouched s (action.exec lost clean now s).1 (.finishing lost clean sections) key := by
  have hother : ∀ child : SessionIdentity,
      (∀ session, (Party.finishing lost clean sections).session? = some session →
        child.sessionId ≠ session.sessionId) → child.sessionId ≠ lost.identity.sessionId :=
    fun child h => h lost.identity rfl
  have hidentity : ∀ child : SessionIdentity, child.sessionId ≠ lost.identity.sessionId →
      child ≠ lost.identity := fun child hne heq => hne (congrArg _ heq)
  cases action with
  | suspendScene =>
    exact ⟨rfl, rfl, rfl, fun _ child _ _ h =>
      ⟨rfl, sameScene_suspendSession s.scene (hidentity child (hother child h))⟩⟩
  | stopAudio | removeFileDrops =>
    exact ⟨rfl, rfl, rfl, fun _ child _ _ _ => ⟨rfl, sameScene_refl s.scene child⟩⟩
  | unregister =>
    refine ⟨?_, rfl, rfl, fun _ child _ _ h => ⟨?_, sameScene_refl s.scene child⟩⟩
    · exact congrArg (SortedMap.lookup · key) (ServiceShared.leases_removeSession _ _)
    · change (s.registry.removeSession _).sessions.lookup _ = _
      rw [sessions_removeSession, lookup_erase, if_neg (hother child h)]
  | retireScene =>
    refine ⟨rfl, rfl, rfl, fun _ child _ _ h => ⟨rfl, ?_⟩⟩
    dsimp only [exec]
    dsimp only [ServiceShared.onScene]
    split
    · exact sameScene_detachSession s.scene (hidentity child (hother child h))
    · exact sameScene_removeSession s.scene (hidentity child (hother child h))
  | _ => cases h

end Finishing

/-- A section of the connection, or the first request of its session. -/
def Act.isOf (i : ℕ) : Act P L → Prop
  | .advance j _ _ | .firstRequest j => j = i
  | _ => False

namespace Presenter

variable {D : Delegation L} {p : Presenter P L} {act : Act P L} {i : ℕ} {party : Party L}
  {start : ServiceShared P L} {history : List (Act P L)}

/-- A lease is created under the key. -/
def Creates (D : Delegation L) (p : Presenter P L) (act : Act P L) (key : LeaseKey) : Prop :=
  (p.lease? key).isNone = true ∧ ((p.step D act).lease? key).isSome = true

instance (p : Presenter P L) (act : Act P L) (key : LeaseKey) : Decidable (p.Creates D act key) :=
  inferInstanceAs (Decidable (_ ∧ _))

/-- A lease is only created under a key that no connection may look up any more. -/
def Clears (D : Delegation L) (p : Presenter P L) (act : Act P L) : Prop :=
  ∀ key, p.Creates D act key → ∀ party ∈ p.parties, party.key? = some key → party.reaches = false

/-- The connection goes by the key next, and has not gone by it yet. -/
def Takes (D : Delegation L) (i : ℕ) (key : LeaseKey) (p : Presenter P L) (act : Act P L) : Prop :=
  p.parties[i]?.bind Party.key? ≠ some key ∧
    (p.step D act).parties[i]?.bind Party.key? = some key

instance (i : ℕ) (key : LeaseKey) (p : Presenter P L) (act : Act P L) :
    Decidable (Takes D i key p act) :=
  inferInstanceAs (Decidable (_ ∧ _))

/-- The lease under the key is the one that the connection found there. -/
def Owns (D : Delegation L) (start : ServiceShared P L) (history : List (Act P L)) (i : ℕ)
    (key : LeaseKey) : Prop :=
  Since (run D start) (Takes D i key) (fun p => (p.lease? key).isSome = true) history

instance (p : Presenter P L) (act : Act P L) : Decidable (p.Clears D act) :=
  decidable_of_iff (∀ key ∈ p.creates act, p.Creates D act key →
    ∀ party ∈ p.parties, party.key? = some key → party.reaches = false) <| by
      refine forall_congr' fun key => ⟨fun h hcreates => ?_, fun h _ => h⟩
      obtain ⟨_, hlease⟩ := Option.isSome_iff_exists.mp hcreates.2
      refine h ((lease_step hlease).resolve_right ?_) hcreates
      rintro ⟨_, hprior, -⟩
      cases (Option.isNone_iff_eq_none.mp hcreates.1).symm.trans hprior

/-- What a connection does to a lease that stands under its key: it is the connection's own, or it
is left alone. -/
def SparesReissued (D : Delegation L) (start : ServiceShared P L) (history : List (Act P L))
    (act : Act P L) : Prop :=
  ∀ i party key, act.isOf i → (run D start history).parties[i]? = some party →
    party.key? = some key → ((run D start history).lease? key).isSome →
      Owns D start history i key ∨
        Untouched (run D start history).shared ((run D start history).step D act).shared party key

theorem late_of_reaches (h : party.reaches = false) :
    ∃ lost clean sections, party = .finishing lost clean sections ∧
      ∀ action ∈ sections, Finishing.isLate action = true := by
  cases party with
  | finishing lost clean sections =>
    refine ⟨lost, clean, sections, rfl, fun action haction => ?_⟩
    have hlate := List.any_eq_false.mp h action haction
    rwa [Bool.not_eq_true, Bool.not_eq_false'] at hlate
  | _ => cases h

/-- A connection that is past its lease stays so. -/
theorem reaches_advance {clock age : ℕ} {candidate : Candidate L} {s : ServiceShared P L}
    (h : party.reaches = false) : (party.advance clock age candidate s).2.reaches = false := by
  obtain ⟨_, _, sections, rfl, hlate⟩ := late_of_reaches h
  cases sections with
  | nil => rfl
  | cons action =>
    dsimp only [Party.advance]
    rw [Finishing.added_of_isLate s (hlate action mem_cons_self)]
    refine List.any_eq_false.mpr fun other hother => ?_
    rw [hlate other (mem_cons_of_mem _ hother)]
    exact Bool.false_ne_true

theorem reaches_step (hparty : p.parties[i]? = some party) (h : party.reaches = false) :
    ∃ party', (p.step D act).parties[i]? = some party' ∧ party'.reaches = false := by
  have hactor : ∀ j work, ∃ party', (p.onActor j work).parties[i]? = some party' ∧
      party'.reaches = false := by
    intro j work
    rcases p.onActor_cases j work with ⟨_, _, hserving, heq⟩ | heq
    · rw [heq]
      refine ⟨party, ?_, h⟩
      change (p.parties.set j _)[i]? = some party
      rw [getElem?_set_ne, hparty]
      rintro rfl
      rw [hserving] at hparty
      cases hparty
      cases h
    · rw [heq]
      exact ⟨party, hparty, h⟩
  have hconnect : ∀ p' : Presenter P L, p'.parties = p.parties → ∀ party',
      (p'.connect party').parties[i]? = some party := by
    intro p' heq party'
    change (p'.parties ++ [party'])[i]? = some party
    rw [heq]
    exact getElem?_append_left (List.getElem?_eq_some_iff.mp hparty).1 ▸ hparty
  cases act with
  | pass | elsewhere => exact ⟨party, hparty, h⟩
  | activate | resume => exact ⟨party, hconnect p rfl _, h⟩
  | connectRoot =>
    dsimp only [step]
    split
    · exact ⟨party, hparty, h⟩
    · exact ⟨party, hconnect _ rfl _, h⟩
  | advance j age candidate =>
    dsimp only [step]
    rcases p.onParty_cases j (Party.advance p.clock age candidate) with ⟨_, hother, heq⟩ | heq
    · rw [heq]
      dsimp only
      by_cases hij : j = i
      · subst hij
        rw [hother] at hparty
        cases hparty
        refine ⟨(party.advance p.clock age candidate p.shared).2, ?_, reaches_advance h⟩
        rw [getElem?_set_self (List.getElem?_eq_some_iff.mp hother).1]
      · exact ⟨party, (getElem?_set_ne hij).trans hparty, h⟩
    · rw [heq]
      exact ⟨party, hparty, h⟩
  | firstRequest j | expireLeases j | createLease j | revokeLease j | lose j => exact hactor j _

/-- A connection that is past its lease leaves whatever stands under its key alone. -/
theorem untouched_step (hact : act.isOf i) (hparty : p.parties[i]? = some party)
    (h : party.reaches = false) (key : LeaseKey) :
    Untouched p.shared (p.step D act).shared party key := by
  obtain ⟨_, _, sections, rfl, hlate⟩ := late_of_reaches h
  cases act with
  | advance _ age candidate =>
    cases hact
    dsimp only [step]
    rcases p.onParty_cases i (Party.advance p.clock age candidate) with ⟨_, hother, heq⟩ | heq
    · rw [hparty] at hother
      cases hother
      rw [heq]
      cases sections with
      | nil => exact untouched_refl p.shared _ key
      | cons action =>
        exact Finishing.untouched_of_isLate p.shared _ key (hlate action mem_cons_self)
    · rw [heq]
      exact untouched_refl p.shared _ key
  | firstRequest =>
    cases hact
    dsimp only [step]
    rcases p.onActor_cases i _ with ⟨_, _, hserving, -⟩ | heq
    · rw [hparty] at hserving
      cases hserving
    · rw [heq]
      exact untouched_refl p.shared _ key
  | _ => cases hact

/-- Each connection that goes by a key where a lease stands owns that lease, or is past it. -/
def Settled (D : Delegation L) (start : ServiceShared P L) (history : List (Act P L)) : Prop :=
  ∀ i party key, (run D start history).parties[i]? = some party → party.key? = some key →
    ((run D start history).lease? key).isSome →
      Owns D start history i key ∨ party.reaches = false

theorem Settled.step (h : Settled D start history) (hclears : (run D start history).Clears D act) :
    Settled D start (history ++ [act]) := by
  intro i party key hparty hkey hlease
  rw [run_concat] at hparty
  by_cases hbefore : (run D start history).parties[i]?.bind Party.key? = some key
  · obtain ⟨prior, hprior, hpriorKey⟩ := Option.bind_eq_some_iff.mp hbefore
    have hpast : prior.reaches = false → party.reaches = false := by
      intro hreaches
      obtain ⟨_, hparty', hreaches'⟩ := reaches_step hprior hreaches
      rw [hparty] at hparty'
      cases hparty'
      exact hreaches'
    cases hstood : (run D start history).lease? key with
    | none =>
      rw [run_concat] at hlease
      exact Or.inr (hpast
        (hclears key ⟨by rw [hstood]; rfl, hlease⟩ prior (mem_of_getElem? hprior) hpriorKey))
    | some =>
      refine (h i prior key hprior hpriorKey (by rw [hstood]; rfl)).imp ?_ hpast
      exact fun howns => howns.later hlease
  · refine Or.inl (since_now ⟨hbefore, ?_⟩ hlease)
    rw [hparty]
    exact hkey

/-- Where leases are only created under keys that no connection may look up any more, a connection
leaves the lease under its key alone, unless it is its own. -/
theorem reissued_lease_untouched (D : Delegation L) (start : ServiceShared P L)
    (history : List (Act P L)) (h : Throughout (run D start) (Clears D) history) :
    Throughout id (SparesReissued D start) history := by
  refine h.of_invariant (Settled D start) ?_ ?_ ?_
  · intro i party key hparty
    cases hparty
  · exact fun history act hsettled hclears => hsettled.step hclears
  · intro _ _ hsettled i party key hact hparty hkey hlease
    refine (hsettled i party key hparty hkey hlease).imp_right fun hreaches => ?_
    exact untouched_step hact hparty hreaches key

section Running

/-- A root session delegates to a child, and the child's session is served. -/
def servingRun : List (Act .plain .plain) :=
  [.connectRoot (1 : ℕ) (candidate 100), .firstRequest 0, .createLease 0 shortRequest,
    .activate 1 7 (40 : ℕ) (5 : ℕ), .advance 1 0 (candidate 200), .advance 1 0 (candidate 200),
    .firstRequest 1]

/-- The lease is revoked and issued again while the child is served, which then closes. -/
def reissuingRun : List (Act .plain .plain) :=
  servingRun ++ .revokeLease 0 1 7 :: List.replicate 4 (.advance 0 0 (candidate 0)) ++
    [.createLease 0 shortRequest, .lose 1 true] ++ List.replicate 4 (.advance 1 0 (candidate 0))

/-- The old child's finish takes the new lease away. -/
theorem reissued_lease_revoked : ¬ ∀ (D : Delegation .plain) (start : ServiceShared .plain .plain)
      (history : List (Act .plain .plain)) (act : Act .plain .plain),
      SparesReissued D start history act := by
  intro h
  have hbound : (run .plain .idle reissuingRun).parties[1]?.bind Party.key? =
      some ⟨⟨1, 1⟩, 1, 7⟩ := by decide +kernel
  obtain ⟨party, hparty, hkey⟩ := Option.bind_eq_some_iff.mp hbound
  rcases h .plain .idle reissuingRun (.advance 1 0 (candidate 0)) 1 party _ rfl hparty hkey
    (by decide +kernel) with howns | huntouched
  · have hnot : ¬ Since (run .plain ServiceShared.idle) (Takes .plain 1 ⟨⟨1, 1⟩, 1, 7⟩)
        (fun p => (p.lease? ⟨⟨1, 1⟩, 1, 7⟩).isSome = true) reissuingRun := by decide +kernel
    exact hnot howns
  · have hstood : ((run .plain .idle reissuingRun).lease? ⟨⟨1, 1⟩, 1, 7⟩).isSome = true := by
      decide +kernel
    have hgone : (((run .plain .idle reissuingRun).step .plain
        (.advance 1 0 (candidate 0))).lease? ⟨⟨1, 1⟩, 1, 7⟩).isSome = false := by decide +kernel
    unfold lease? at hstood hgone
    rw [huntouched.lease, hstood] at hgone
    cases hgone

/-- The child closes, and the lease is issued again before its finish has gone through. -/
def closingRun : List (Act .plain .plain) :=
  servingRun ++ .lose 1 true :: List.replicate 8 (.advance 1 0 (candidate 0)) ++
    [.createLease 0 shortRequest, .advance 1 0 (candidate 0)]

theorem reissued_lease_untouched_closing :
    Throughout id (SparesReissued .plain ServiceShared.idle) closingRun :=
  reissued_lease_untouched .plain .idle closingRun (by decide +kernel)

end Running

end Presenter

end Vivido.Service
