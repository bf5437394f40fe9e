import Vivido.Anchor.Admission

/-!
Anchor identities are used once. The scene's tables and those of a connection
are held against what was ever admitted, and at a marker they tell whether its
identity is free and whether there is room for it, or they do not.
-/

namespace Vivido.Anchor

open Scene Authority SortedMap List

variable {P : Protocol} {C : ContextProtocol} {A : AnchorProtocol}

namespace Presenter

variable {x y : Presenter P C A}

/-- How many anchors of a session are active. -/
def activeAnchors (x : Presenter P C A) (session : SessionIdentity) : ℕ :=
  (x.sessions.scene.anchors.filter fun entry => entry.1.context.session = session).size

/-- How many identities a session has used. -/
def usedAnchors (x : Presenter P C A) (session : SessionIdentity) : ℕ :=
  (x.admitted.filter fun identity => identity.context.session = session).length

/-- The session, the connection and the anchor of a marker that is to be looked at. -/
def presented (x : Presenter P C A) :
    Act P C A → Option (SessionIdentity × Runtime A × AnchorIdentity)
  | .marker marker now _ => (x.verifyMarker marker now).2
  | _ => none

/-- Each identity is admitted once, and no session has too many anchors. -/
def Single (x : Presenter P C A) : Prop :=
  x.admitted.Nodup ∧ ∀ session, x.activeAnchors session ≤ maxActiveAnchors

/-- A marker is admitted if its identity is unused and there is room for it. -/
def Admits (x : Presenter P C A) (act : Act P C A) : Prop :=
  ∀ session runtime identity, x.presented act = some (session, runtime, identity) →
    identity ∉ x.admitted → x.activeAnchors session < maxActiveAnchors →
      x.usedAnchors session < maxSeenAnchors → identity ∈ (x.step act).admitted

/-- What a marker names is in one of the tables if it was used, and else the connection has seen
less than it may exactly where there is room. -/
def Careful (x : Presenter P C A) (act : Act P C A) : Prop :=
  ∀ session runtime identity, x.presented act = some (session, runtime, identity) →
    if identity ∈ x.admitted then
      maxActiveAnchors ≤ runtime.seenAnchors.card ∨
        (identity.context.contextId, identity.anchorId) ∈ runtime.seenAnchors ∨
        x.sessions.scene.Marked identity
    else
      (runtime.seenAnchors.card < maxActiveAnchors →
          x.activeAnchors session < maxActiveAnchors) ∧
        (x.activeAnchors session < maxActiveAnchors → x.usedAnchors session < maxSeenAnchors →
          runtime.seenAnchors.card < maxActiveAnchors)

/-- What the tables tell of what was admitted. -/
structure Kept (x : Presenter P C A) : Prop where
  marked : ∀ identity, x.sessions.scene.Marked identity → identity ∈ x.admitted
  seen : ∀ session runtime, x.runtimes.lookup session = some runtime →
    ∀ id ∈ runtime.seenAnchors, (⟨⟨session, id.1⟩, id.2⟩ : AnchorIdentity) ∈ x.admitted ∨
      maxActiveAnchors < runtime.seenAnchors.card

/-! ### Acts without an anchor -/

/-- Nothing is admitted, and a connection has seen what it had, or nothing. -/
structure Quiet (x y : Presenter P C A) : Prop where
  admitted : y.admitted = x.admitted
  wanes : State.Wanes x.sessions.scene y.sessions.scene
  runtimes : ∀ session runtime, y.runtimes.lookup session = some runtime →
    runtime.seenAnchors = ∅ ∨ ∃ earlier, x.runtimes.lookup session = some earlier ∧
      earlier.seenAnchors = runtime.seenAnchors

theorem Quiet.refl (x : Presenter P C A) : Quiet x x :=
  ⟨rfl, .refl _, fun _ runtime h => Or.inr ⟨runtime, h, rfl⟩⟩

theorem Kept.quiet (hx : Kept x) (h : Quiet x y) : Kept y := by
  refine ⟨fun identity hmarked => ?_, fun session runtime hlookup id hid => ?_⟩
  · rw [h.admitted]
    exact hx.marked identity (h.wanes.marked identity hmarked)
  · rcases h.runtimes session runtime hlookup with hempty | ⟨earlier, hearlier, hseen⟩
    · rw [hempty] at hid
      cases hid
    · rw [h.admitted, ← hseen]
      exact hx.seen session earlier hearlier id (hseen ▸ hid)

theorem activeAnchors_le (h : State.Wanes x.sessions.scene y.sessions.scene)
    (session : SessionIdentity) : y.activeAnchors session ≤ x.activeAnchors session := by
  unfold activeAnchors SortedMap.size
  rw [← length_map Prod.fst, ← length_map (f := Prod.fst)]
  refine List.Subperm.length_le (subperm_of_subset (nodup_keys _) ?_)
  intro _ hmem
  obtain ⟨⟨key, anchor⟩, hentry, rfl⟩ := List.mem_map.mp hmem
  obtain ⟨hentry, hsession⟩ := List.mem_filter.mp hentry
  have hsome := h.anchors key (Option.isSome_iff_exists.mpr
    ⟨anchor, mem_entries.mp hentry⟩)
  obtain ⟨earlier, hearlier⟩ := Option.isSome_iff_exists.mp hsome
  exact List.mem_map.mpr ⟨(key, earlier),
    List.mem_filter.mpr ⟨mem_entries.mpr hearlier, hsession⟩, rfl⟩

theorem Single.quiet (hx : Single x) (h : Quiet x y) : Single y := by
  refine ⟨?_, fun session => Nat.le_trans (activeAnchors_le h.wanes session) (hx.2 session)⟩
  rw [h.admitted]
  exact hx.1

theorem Quiet.trans {z : Presenter P C A} (h : Quiet x y) (h' : Quiet y z) : Quiet x z := by
  refine ⟨h'.admitted.trans h.admitted, h.wanes.trans h'.wanes, fun session runtime hlookup => ?_⟩
  rcases h'.runtimes session runtime hlookup with hempty | ⟨middle, hmiddle, hseen⟩
  · exact Or.inl hempty
  · rcases h.runtimes session middle hmiddle with hempty | ⟨earlier, hearlier, hsame⟩
    · exact Or.inl (hseen ▸ hempty)
    · exact Or.inr ⟨earlier, hearlier, hsame.trans hseen⟩

/-- The sessions change, and no connection does. -/
theorem Quiet.of_sessions {sessions : Sessions P C}
    (h : State.Wanes x.sessions.scene sessions.scene) : Quiet x { x with sessions } :=
  ⟨rfl, h, fun _ runtime hlookup => Or.inr ⟨runtime, hlookup, rfl⟩⟩

theorem quiet_removeSession (x : Presenter P C A) (session : SessionIdentity) :
    Quiet x (x.removeSession session) := by
  unfold removeSession
  split
  · exact .refl x
  · refine ⟨rfl, .refl _, fun other runtime hlookup => Or.inr ⟨runtime, ?_, rfl⟩⟩
    exact (lookup_erase_some hlookup).2

variable (target : PresentationTarget P) {runtime : Runtime A} {identity : AnchorIdentity}

theorem quiet_insertSession (x : Presenter P C A) (session : SessionIdentity)
    (h : runtime.seenAnchors = ∅) : Quiet x (x.insertSession session runtime) := by
  refine ⟨rfl, .refl _, fun other later hlookup => ?_⟩
  rw [insertSession, lookup_insert] at hlookup
  split at hlookup
  · cases hlookup
    exact Or.inl h
  · exact Or.inr ⟨later, hlookup, rfl⟩

theorem quiet_establish (x : Presenter P C A) (session : SessionIdentity) (operationClasses : ℕ)
    (contract : C.Contract) (targetGeneration sessionTag : ℕ) (anchorKey : A.AnchorKey) (now : ℕ) :
    Quiet x (x.establish session operationClasses contract targetGeneration sessionTag anchorKey
      now) := by
  unfold establish
  split
  · exact .refl x
  have hsessions : State.Wanes x.sessions.scene
      (x.sessions.establish session operationClasses contract targetGeneration).scene := by
    rcases x.sessions.establish_scene session operationClasses contract targetGeneration with
      h | h
    · rw [h]
      exact .refl _
    · rw [h]
      exact .of_same (.registerSession _ _ _)
  have hquiet : Quiet x { x with
      sessions := x.sessions.establish session operationClasses contract targetGeneration } :=
    .of_sessions hsessions
  dsimp only
  split
  · have hbegun : Quiet x { x with
        sessions := x.sessions.establish session operationClasses contract targetGeneration
        begun := insert session x.begun } := ⟨hquiet.admitted, hquiet.wanes, hquiet.runtimes⟩
    exact hbegun.trans (quiet_insertSession _ _ rfl)
  · exact hquiet

theorem quiet_lose (x : Presenter P C A) (session : SessionIdentity) (ending : Ending) :
    Quiet x (x.step (.lose session ending)) := by
  have hsessions : State.Wanes x.sessions.scene
      (x.sessions.step (.lose session ending)).scene := by
    cases ending with
    | suspended => exact State.wanes_perform _ (.suspendSession session) rfl
    | detached => exact .detachSession _ _
    | removed => exact .removeSession _ _
  exact (Quiet.of_sessions hsessions).trans (quiet_removeSession _ _)

/-- What the sessions do otherwise makes no anchor. -/
theorem wanes_step (sessions : Sessions P C) {act : Authority.Act P C}
    (h : isSeparate act = false) : State.Wanes sessions.scene (sessions.step act).scene := by
  cases act with
  | establish | lose => cases h
  | createContext | chargeContext =>
    dsimp only [Sessions.step]
    unfold Sessions.onTable
    split <;> exact .refl _
  | revokeContext =>
    dsimp only [Sessions.step]
    unfold Sessions.revokeContext
    split
    · exact .refl _
    split
    · exact .refl _
    split
    · exact .refl _
    · exact .removeContexts _ _ _
  | control =>
    dsimp only [Sessions.step]
    split
    · exact State.wanes_perform _ _ h
    · exact .refl _
  | elsewhere =>
    dsimp only [Sessions.step]
    split
    · exact .refl _
    · exact State.wanes_perform _ _ h

/-! ### Markers -/

/-- The connection of a marker that is to be looked at has been charged for it. -/
theorem verifyMarker_some {marker : Marker A} {now : ℕ} {session : SessionIdentity}
    (h : (x.verifyMarker marker now).2 = some (session, runtime, identity)) :
    (x.verifyMarker marker now).1.runtimes.lookup session = some runtime ∧
      identity.context.session = session := by
  unfold verifyMarker at h ⊢
  split at h
  · cases h
  rw [if_neg ‹_›]
  split at h
  · cases h
  dsimp only at h ⊢
  split at h
  · cases h
  rw [if_neg ‹_›]
  split at h
  · cases h
  rw [if_neg ‹_›]
  obtain ⟨_, hcontext, h⟩ := Option.bind_eq_some_iff.mp h
  obtain ⟨_, hanchor, heq⟩ := Option.map_eq_some_iff.mp h
  cases heq
  refine ⟨lookup_insert_self, ?_⟩
  rw [ContextIdentity.anchor?_context hanchor, SessionIdentity.context?_session hcontext]

theorem sessionByTag_some {tag : ℕ} {session : SessionIdentity}
    (h : x.sessionByTag tag = some (session, runtime)) :
    x.runtimes.lookup session = some runtime := by
  obtain ⟨_, -, h⟩ := Option.bind_eq_some_iff.mp h
  obtain ⟨_, hlookup, heq⟩ := Option.map_eq_some_iff.mp h
  cases heq
  exact hlookup

/-- To look at a marker changes only what it costs. -/
theorem verifyMarker_quiet (x : Presenter P C A) (marker : Marker A) (now : ℕ) :
    Quiet x (x.verifyMarker marker now).1 ∧
      (x.verifyMarker marker now).1.sessions = x.sessions := by
  unfold verifyMarker
  split
  · exact ⟨.refl x, rfl⟩
  split
  · exact ⟨.refl x, rfl⟩
  rename_i session runtime hsession
  have hcharged : ∀ markers, Quiet x (x.setRuntime session { runtime with markers }) := by
    refine fun markers => ⟨rfl, .refl _, fun other later hlookup => Or.inr ?_⟩
    rw [setRuntime, lookup_insert] at hlookup
    split at hlookup
    · rename_i heq
      cases hlookup
      exact ⟨runtime, heq ▸ sessionByTag_some hsession, rfl⟩
    · exact ⟨later, hlookup, rfl⟩
  dsimp only
  split
  · exact ⟨hcharged _, rfl⟩
  split <;> exact ⟨hcharged _, rfl⟩

/-- A marker's identity is new to the connection and to the scene, and the connection has seen less
than it may. -/
def Fresh (x : Presenter P C A) (runtime : Runtime A) (identity : AnchorIdentity) : Prop :=
  runtime.seenAnchors.card < maxActiveAnchors ∧
    (identity.context.contextId, identity.anchorId) ∉ runtime.seenAnchors ∧
    ¬ x.sessions.scene.Marked identity

theorem admitAnchor_fresh (session : SessionIdentity) (h : x.Fresh runtime identity)
    (position : Vivid.TextAnchor) :
    (x.admitAnchor session runtime identity position).admitted = x.admitted ++ [identity] ∧
      (x.admitAnchor session runtime identity position).sessions.scene.anchors =
        x.sessions.scene.anchors.insert identity position ∧
      (x.admitAnchor session runtime identity position).sessions.scene.goneAnchors =
        x.sessions.scene.goneAnchors ∧ (x.admitAnchor session runtime identity position).runtimes =
        x.runtimes.insert session { runtime with
          seenAnchors := insert (identity.context.contextId, identity.anchorId)
            runtime.seenAnchors } := by
  obtain ⟨hroom, hunseen, hunmarked⟩ := h
  have hcard := Finset.card_insert_of_notMem hunseen
  have hseen : ¬ maxSeenAnchors ≤ runtime.seenAnchors.card := by
    unfold maxActiveAnchors at hroom
    unfold maxSeenAnchors
    omega
  unfold admitAnchor
  dsimp only
  rw [if_neg hseen, if_neg hunseen, if_neg (by omega)]
  rcases State.addAnchor_cases x.sessions.scene identity position with h | ⟨-, hadd⟩
  · exact absurd h.1 hunmarked
  · have hadd' : (x.setRuntime session { runtime with
        seenAnchors := insert (identity.context.contextId, identity.anchorId)
          runtime.seenAnchors }).sessions.scene.addAnchor identity position = _ := hadd
    rw [hadd']
    exact ⟨rfl, rfl, rfl, rfl⟩

/-- Of another one nothing is left but that it was seen. -/
theorem admitAnchor_stale (session : SessionIdentity) (h : ¬ x.Fresh runtime identity)
    (position : Vivid.TextAnchor) :
    (x.admitAnchor session runtime identity position).admitted = x.admitted ∧
      (x.admitAnchor session runtime identity position).sessions.scene.anchors =
        x.sessions.scene.anchors ∧
      (x.admitAnchor session runtime identity position).sessions.scene.goneAnchors =
        x.sessions.scene.goneAnchors ∧
      ((x.admitAnchor session runtime identity position).runtimes = x.runtimes ∨
        (x.admitAnchor session runtime identity position).runtimes =
            x.runtimes.insert session { runtime with
              seenAnchors := insert (identity.context.contextId, identity.anchorId)
                runtime.seenAnchors } ∧
          (maxActiveAnchors < (insert (identity.context.contextId, identity.anchorId)
              runtime.seenAnchors).card ∨ x.sessions.scene.Marked identity)) := by
  unfold admitAnchor
  dsimp only
  split
  · exact ⟨rfl, rfl, rfl, Or.inl rfl⟩
  split
  · exact ⟨rfl, rfl, rfl, Or.inl rfl⟩
  rename_i hunseen
  split
  · exact ⟨rfl, rfl, rfl, Or.inr ⟨rfl, Or.inl ‹_›⟩⟩
  rename_i hroom
  rcases State.addAnchor_cases x.sessions.scene identity position with ⟨hmarked, hadd⟩ | ⟨hnot, -⟩
  · have hadd' : (x.setRuntime session { runtime with
        seenAnchors := insert (identity.context.contextId, identity.anchorId)
          runtime.seenAnchors }).sessions.scene.addAnchor identity position = _ := hadd
    rw [hadd']
    exact ⟨rfl, rfl, rfl, Or.inr ⟨rfl, Or.inr hmarked⟩⟩
  · refine absurd ⟨?_, hunseen, hnot⟩ h
    rw [Finset.card_insert_of_notMem hunseen] at hroom
    omega

section

variable (hx : Kept x) {session : SessionIdentity}
  (hruntime : x.runtimes.lookup session = some runtime)
  (hsession : identity.context.session = session)
include hx session hruntime hsession

/-- A connection has seen one more identity, which was admitted unless it has seen too many. -/
theorem Kept.seen_insert (hadmitted : ∀ other ∈ x.admitted, other ∈ y.admitted)
    (hruntimes : y.runtimes = x.runtimes.insert session { runtime with
      seenAnchors := insert (identity.context.contextId, identity.anchorId) runtime.seenAnchors })
    (hnew : maxActiveAnchors < (insert (identity.context.contextId, identity.anchorId)
      runtime.seenAnchors).card ∨ identity ∈ y.admitted) :
    ∀ other later, y.runtimes.lookup other = some later → ∀ id ∈ later.seenAnchors,
      (⟨⟨other, id.1⟩, id.2⟩ : AnchorIdentity) ∈ y.admitted ∨
        maxActiveAnchors < later.seenAnchors.card := by
  intro other later hlookup id hid
  rw [hruntimes, lookup_insert] at hlookup
  split at hlookup
  · rename_i heq
    cases hlookup
    rcases hnew with hmany | hnew
    · exact Or.inr hmany
    rcases Finset.mem_insert.mp hid with rfl | hid
    · left
      rw [heq, ← hsession]
      exact hnew
    · rcases hx.seen session runtime hruntime id hid with hused | hmany
      · rw [heq]
        exact Or.inl (hadmitted _ hused)
      · exact Or.inr (Nat.lt_of_lt_of_le hmany (Finset.card_le_card (Finset.subset_insert _ _)))
  · rcases hx.seen other later hlookup id hid with hused | hmany
    · exact Or.inl (hadmitted _ hused)
    · exact Or.inr hmany

theorem Kept.admitAnchor (position : Vivid.TextAnchor) :
    Kept (x.admitAnchor session runtime identity position) := by
  by_cases hfresh : x.Fresh runtime identity
  · obtain ⟨hadmitted, hanchors, hgone, hruntimes⟩ :=
      admitAnchor_fresh session hfresh position
    refine ⟨fun other hmarked => ?_, hx.seen_insert hruntime hsession (fun other hother => ?_)
      hruntimes (Or.inr ?_)⟩
    · rw [hadmitted, mem_append, mem_singleton]
      unfold State.Marked at hmarked
      rw [hanchors, hgone, lookup_insert] at hmarked
      by_cases heq : other = identity
      · exact Or.inr heq
      · rw [if_neg heq] at hmarked
        exact Or.inl (hx.marked other hmarked)
    · rw [hadmitted]
      exact mem_append_left _ hother
    · rw [hadmitted]
      simp
  · obtain ⟨hadmitted, hanchors, hgone, hruntimes⟩ :=
      admitAnchor_stale session hfresh position
    refine ⟨fun other hmarked => ?_, ?_⟩
    · rw [hadmitted]
      unfold State.Marked at hmarked
      rw [hanchors, hgone] at hmarked
      exact hx.marked other hmarked
    · rcases hruntimes with hsame | ⟨hinsert, hnew⟩
      · rw [hadmitted, hsame]
        exact hx.seen
      · refine hx.seen_insert hruntime hsession (fun other hother => hadmitted ▸ hother) hinsert ?_
        rcases hnew with hmany | hmarked
        · exact Or.inl hmany
        · exact Or.inr (hadmitted ▸ hx.marked identity hmarked)

end

/-- A marker is looked at, and what it names is admitted or not. -/
theorem step_presented {act : Act P C A} {session : SessionIdentity}
    (h : x.presented act = some (session, runtime, identity)) :
    ∃ y position, Quiet x y ∧ y.sessions = x.sessions ∧
      y.runtimes.lookup session = some runtime ∧ identity.context.session = session ∧
      x.step act = y.admitAnchor session runtime identity position := by
  cases act with
  | marker marker now position =>
    obtain ⟨hquiet, hsessions⟩ := x.verifyMarker_quiet marker now
    obtain ⟨hruntime, hsession⟩ := verifyMarker_some h
    refine ⟨_, position, hquiet, hsessions, hruntime, hsession, ?_⟩
    dsimp only [step, presented] at h ⊢
    unfold handleTerminalMarker
    generalize x.verifyMarker marker now = result at h
    obtain ⟨y, _⟩ := result
    cases h
    rfl
  | _ => cases h

/-- Another act admits nothing. -/
theorem quiet_step {act : Act P C A} (h : x.presented act = none) : Quiet x (x.step act) := by
  cases act with
  | marker marker now =>
    have hquiet := (x.verifyMarker_quiet marker now).1
    dsimp only [step, presented] at h ⊢
    unfold handleTerminalMarker
    generalize x.verifyMarker marker now = result at h hquiet
    obtain ⟨y, _⟩ := result
    cases h
    exact hquiet
  | establish =>
    exact x.quiet_establish ..
  | lose session ending => exact x.quiet_lose session ending
  | session act =>
    dsimp only [step]
    split
    · exact .refl x
    · rename_i hnot
      exact .of_sessions (wanes_step _ (Bool.not_eq_true _ ▸ hnot))

theorem Kept.step (hx : Kept x) (act : Act P C A) : Kept (x.step act) := by
  cases h : x.presented act with
  | none => exact hx.quiet (quiet_step h)
  | some found =>
    obtain ⟨_, _, _⟩ := found
    obtain ⟨y, position, hquiet, -, hruntime, hsession, hstep⟩ := step_presented h
    rw [hstep]
    exact (hx.quiet hquiet).admitAnchor hruntime hsession position

/-! ### Counting -/

theorem activeAnchors_congr (h : y.sessions.scene.anchors = x.sessions.scene.anchors)
    (session : SessionIdentity) : y.activeAnchors session = x.activeAnchors session := by
  unfold activeAnchors
  rw [h]

/-- An anchor that was not there is one more of its session. -/
theorem activeAnchors_insert {position : Vivid.TextAnchor}
    (hnew : x.sessions.scene.anchors.lookup identity = none)
    (h : y.sessions.scene.anchors = x.sessions.scene.anchors.insert identity position)
    (session : SessionIdentity) : y.activeAnchors session =
      x.activeAnchors session + if identity.context.session = session then 1 else 0 := by
  have hperm : (x.sessions.scene.anchors.insert identity position).entries.Perm
      ((identity, position) :: (x.sessions.scene.anchors.erase identity).entries) :=
    perm_insert
  rw [erase_of_lookup hnew] at hperm
  unfold activeAnchors SortedMap.size SortedMap.filter
  rw [h, (hperm.filter _).length_eq, filter_cons]
  by_cases hsession : identity.context.session = session
  · rw [if_pos (decide_eq_true hsession), if_pos hsession, length_cons]
  · rw [if_neg (by simpa using hsession), if_neg hsession, Nat.add_zero]

/-- At a marker that is fresh to the tables, where no identity was admitted twice. -/
theorem single_fresh (hx : Single x) {session : SessionIdentity}
    (hsession : identity.context.session = session) {position : Vivid.TextAnchor}
    (hnew : ¬ x.sessions.scene.Marked identity) (hadmitted : y.admitted = x.admitted ++ [identity])
    (hanchors : y.sessions.scene.anchors = x.sessions.scene.anchors.insert identity position) :
    Single y ↔ identity ∉ x.admitted ∧ x.activeAnchors session < maxActiveAnchors := by
  have hnone : x.sessions.scene.anchors.lookup identity = none :=
    Option.not_isSome_iff_eq_none.mp fun hsome => hnew (Or.inl hsome)
  have hactive := activeAnchors_insert hnone hanchors
  unfold Single
  rw [hadmitted, nodup_append]
  constructor
  · rintro ⟨⟨-, -, hdisjoint⟩, hbound⟩
    refine ⟨fun hmem => hdisjoint identity hmem identity (by simp) rfl, ?_⟩
    have hlimit := hbound session
    rw [hactive, if_pos hsession] at hlimit
    omega
  · rintro ⟨hunused, hroom⟩
    refine ⟨⟨hx.1, nodup_singleton _, fun a ha b hb heq => ?_⟩, fun other => ?_⟩
    · rw [List.mem_singleton.mp hb] at heq
      exact hunused (heq ▸ ha)
    rw [hactive]
    have hbefore := hx.2 other
    split
    · rename_i heq
      rw [hsession] at heq
      rw [heq] at hroom
      omega
    · exact hbefore

/-- After a step the identities are admitted once and the bounds kept, and it admitted what it had
to, if and only if it was careful. -/
theorem step_single_iff (hkept : Kept x) (hx : Single x) (act : Act P C A) :
    Single (x.step act) ∧ x.Admits act ↔ x.Careful act := by
  cases h : x.presented act with
  | none =>
    have hadmits : x.Admits act := fun _ _ _ hsome => by rw [h] at hsome; cases hsome
    have hcareful : x.Careful act := fun _ _ _ hsome => by rw [h] at hsome; cases hsome
    exact ⟨fun _ => hcareful, fun _ => ⟨hx.quiet (quiet_step h), hadmits⟩⟩
  | some found =>
    obtain ⟨session, runtime, identity⟩ := found
    obtain ⟨y, position, hquiet, hsessions, hruntime, hsession, hstep⟩ := step_presented h
    have hkept' := hkept.quiet hquiet
    have hsame : ∀ other, y.activeAnchors other = x.activeAnchors other :=
      activeAnchors_congr (by rw [hsessions])
    have hadmits_iff : x.Admits act ↔ (identity ∉ x.admitted →
        x.activeAnchors session < maxActiveAnchors → x.usedAnchors session < maxSeenAnchors →
          identity ∈ (x.step act).admitted) := by
      constructor
      · exact fun hadmits => hadmits session runtime identity h
      · intro hadmits session' runtime' identity' h'
        rw [h] at h'
        cases h'
        exact hadmits
    have hcareful_iff : x.Careful act ↔ if identity ∈ x.admitted then ¬ y.Fresh runtime identity
        else (runtime.seenAnchors.card < maxActiveAnchors →
            x.activeAnchors session < maxActiveAnchors) ∧
          (x.activeAnchors session < maxActiveAnchors → x.usedAnchors session < maxSeenAnchors →
            runtime.seenAnchors.card < maxActiveAnchors) := by
      have hstale : ¬ y.Fresh runtime identity ↔ maxActiveAnchors ≤ runtime.seenAnchors.card ∨
          (identity.context.contextId, identity.anchorId) ∈ runtime.seenAnchors ∨
          x.sessions.scene.Marked identity := by
        unfold Fresh
        rw [hsessions, not_and_or, not_and_or, not_not, not_not, Nat.not_lt]
      rw [hstale]
      constructor
      · exact fun hcareful => hcareful session runtime identity h
      · intro hcareful _ _ _ h'
        rw [h] at h'
        cases h'
        exact hcareful
    rw [hadmits_iff, hcareful_iff, hstep]
    by_cases hfresh : y.Fresh runtime identity
    · obtain ⟨hadmitted, hanchors, -, -⟩ :=
        admitAnchor_fresh session hfresh position
      rw [single_fresh (hx.quiet hquiet) hsession hfresh.2.2 hadmitted hanchors, hquiet.admitted,
        hsame]
      have hin : identity ∈ (y.admitAnchor session runtime identity position).admitted := by
        rw [hadmitted]
        simp
      by_cases hused : identity ∈ x.admitted
      · rw [if_pos hused]
        exact ⟨fun hboth => absurd hused hboth.1.1, fun hnot => absurd hfresh hnot⟩
      · rw [if_neg hused]
        exact ⟨fun hboth => ⟨fun _ => hboth.1.2, fun _ _ => hfresh.1⟩,
          fun hcareful => ⟨⟨hused, hcareful.1 hfresh.1⟩, fun _ _ _ => hin⟩⟩
    · obtain ⟨hadmitted, hanchors, -, -⟩ :=
        admitAnchor_stale session hfresh position
      have hsingle : Single (y.admitAnchor session runtime identity position) := by
        obtain ⟨hnodup, hbound⟩ := hx.quiet hquiet
        refine ⟨hadmitted ▸ hnodup, fun other => ?_⟩
        rw [activeAnchors_congr hanchors]
        exact hbound other
      rw [hadmitted, hquiet.admitted]
      by_cases hused : identity ∈ x.admitted
      · rw [if_pos hused]
        exact ⟨fun _ => hfresh, fun _ => ⟨hsingle, fun hunused => absurd hused hunused⟩⟩
      -- an unused identity is stale only where the connection has seen too many
      have hmany : ¬ runtime.seenAnchors.card < maxActiveAnchors := by
        intro hroom
        refine hfresh ⟨hroom, fun hseen => ?_, fun hmarked => ?_⟩
        · rcases hkept'.seen session runtime hruntime _ hseen with hbefore | _
          · rw [hquiet.admitted, ← hsession] at hbefore
            exact hused hbefore
          · omega
        · exact hused (hquiet.admitted ▸ hkept'.marked identity hmarked)
      rw [if_neg hused]
      constructor
      · exact fun hboth => ⟨fun hroom => absurd hroom hmany,
          fun hroom hcount => absurd (hboth.2 hused hroom hcount) hused⟩
      · exact fun hcareful => ⟨hsingle,
          fun _ hroom hcount => absurd (hcareful.2 hroom hcount) hmany⟩

/-! ### Runs -/

theorem kept_run (acceptsAnchors : Bool) (history : List (Act P C A)) :
    Kept (run C A target acceptsAnchors history) := by
  induction history using List.reverseRecOn with
  | nil =>
    refine ⟨fun identity hmarked => ?_, nofun⟩
    rcases hmarked with h | h <;> cases h
  | append_singleton _ act ih =>
    rw [run_concat]
    exact ih.step act

theorem single_start (acceptsAnchors : Bool) : Single (run C A target acceptsAnchors []) :=
  ⟨nodup_nil, fun _ => Nat.zero_le _⟩

/-- All along a run identities are admitted once, no session has too many anchors, and each marker
with an unused identity for which there is room is admitted, if and only if the run is careful. -/
theorem run_single_iff (target : PresentationTarget P) (acceptsAnchors : Bool)
    (history : List (Act P C A)) : ((∀ n, Single (run C A target acceptsAnchors (history.take n))) ∧
        Throughout (run C A target acceptsAnchors) Admits history) ↔
      Throughout (run C A target acceptsAnchors) Careful history := by
  have halways : (∀ n, Single (run C A target acceptsAnchors (history.take n)) ∧
      Throughout (run C A target acceptsAnchors) Admits (history.take n)) ↔
        Throughout (run C A target acceptsAnchors) Careful history := by
    refine throughout_iff_always (fun history => Single (run C A target acceptsAnchors history) ∧
      Throughout (run C A target acceptsAnchors) Admits history) ?_ ?_
    · exact ⟨single_start target acceptsAnchors, fun earlier a later h => by simp at h⟩
    · rintro history act ⟨hsingle, hadmits⟩
      rw [run_concat, ← step_single_iff (kept_run target acceptsAnchors history) hsingle act]
      exact ⟨fun h => ⟨h.1, h.2.at_end⟩, fun h => ⟨h.1, hadmits.concat h.2⟩⟩
  rw [← halways]
  constructor
  · rintro ⟨hsingle, hadmits⟩ n
    refine ⟨hsingle n, ?_⟩
    rw [← take_append_drop n history] at hadmits
    exact hadmits.of_append
  · intro h
    refine ⟨fun n => (h n).1, ?_⟩
    have hall := (h history.length).2
    rwa [take_length] at hall

/-- A session is established, makes a context and marks an anchor in it. -/
def markedOnce (sessionTag : ℕ) : List (Act .plain .plain .plain) :=
  [.establish ⟨1, 1⟩ 2 (fun _ => 0) 1 sessionTag () 0,
    .session (.createContext ⟨1, 1⟩ ⟨2, 1, 2, fun _ => 0⟩),
    .marker ⟨sessionTag, 2, 7, ()⟩ 0 ⟨0, 0, false⟩]

/-- The context is revoked, and the session is resumed and does all of it again. -/
def markedTwice : List (Act .plain .plain .plain) :=
  markedOnce 8 ++ [.session (.revokeContext ⟨1, 1⟩ 3 2), .lose ⟨1, 1⟩ .suspended] ++ markedOnce 9

theorem marked_again : ¬ ∀ history : List (Act .plain .plain .plain),
    (∀ n, Single (run .plain .plain .plain true (history.take n))) ∧
      Throughout (run .plain .plain .plain true) Admits history := by
  intro hall
  have hnodup : ¬ (run .plain .plain .plain true (markedTwice.take 8)).admitted.Nodup := by
    decide +kernel
  exact hnodup ((hall markedTwice).1 8).1

end Presenter

end Vivido.Anchor
