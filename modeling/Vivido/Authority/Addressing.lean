import Vivido.Authority.Sessions

/-!
Which surfaces a producer can still name. A session that is resumed begins with
its root context alone, and finds the surfaces of its other contexts in the
scene, where it cannot reach them.
-/

namespace Vivido.Authority.Sessions

open Scene SortedMap Option

variable {P : Protocol} {C : ContextProtocol} {x : Sessions P C}

/-- Every surface of an established session is in one of its contexts. -/
def Addressable (x : Sessions P C) : Prop :=
  ∀ session table, x.tables.lookup session = some table →
    ∀ key : SurfaceIdentity, key.context.session = session →
      (x.scene.surfaces.lookup key).isSome → (table.lookup key.context.contextId).isSome

/-- A session that comes to be established has surfaces in its root context only. -/
def Recovers (x : Sessions P C) : Act P C → Prop
  | .establish session operationClasses contract targetGeneration =>
    x.Establishes session operationClasses contract targetGeneration →
      ∀ key : SurfaceIdentity, key.context.session = session →
        (x.scene.surfaces.lookup key).isSome → key.context.contextId = rootContextId
  | _ => True

section

variable (h : x.Addressable)
include h

section

variable {y : Sessions P C}
  (hsurfaces : ∀ key, (y.scene.surfaces.lookup key).isSome → (x.scene.surfaces.lookup key).isSome)
include y hsurfaces

/-- No surface comes, and what contexts a session has stay, but for those that lose their
surfaces. -/
theorem Addressable.of_kept (htables : ∀ session table', y.tables.lookup session = some table' →
      ∃ table, x.tables.lookup session = some table ∧ ∀ key : SurfaceIdentity,
        key.context.session = session → (y.scene.surfaces.lookup key).isSome →
          (table.lookup key.context.contextId).isSome →
            (table'.lookup key.context.contextId).isSome) : y.Addressable := by
  intro session table' htable' key hsession hkey
  obtain ⟨table, htable, hkept⟩ := htables session table' htable'
  exact hkept key hsession hkey (h session table htable key hsession (hsurfaces key hkey))

theorem Addressable.of_tables (htables : y.tables = x.tables) : y.Addressable :=
  h.of_kept hsurfaces fun _ table htable => ⟨table, htables ▸ htable, fun _ _ _ hlive => hlive⟩

end

theorem Addressable.onTable (session : SessionIdentity)
    (change : ContextTable C → ContextTable C)
    (hchange : ∀ table a, (table.lookup a).isSome → ((change table).lookup a).isSome) :
    (x.onTable session change).Addressable := by
  unfold Sessions.onTable
  split
  · exact h
  rename_i table htable
  refine h.of_kept (fun _ hkey => hkey) fun other table' htable' => ?_
  dsimp only at htable'
  rw [lookup_insert] at htable'
  split at htable'
  · rename_i heq
    cases htable'
    exact ⟨table, heq ▸ htable, fun _ _ _ hlive => hchange table _ hlive⟩
  · exact ⟨table', htable', fun _ _ _ hlive => hlive⟩

theorem Addressable.revokeContext (session : SessionIdentity)
    (fuel contextId : ℕ) : (x.revokeContext session fuel contextId).Addressable := by
  unfold Sessions.revokeContext
  split
  · exact h
  rename_i table htable
  split
  · exact h
  rename_i hlive
  split
  · exact h
  rename_i table' removed hrevoke
  have hrevokes := ContextTable.revokes_of_revoke hrevoke
  rw [not_or, isNone_iff_eq_none] at hlive
  obtain ⟨revoked, hrevoked⟩ := Option.ne_none_iff_exists'.mp hlive.2
  have hrestricts := State.restricts_removeContexts x.scene session (removed.sort (· ≤ ·))
  have hsurface : ∀ key, ((x.scene.removeContexts session
      (removed.sort (· ≤ ·))).surfaces.lookup key).isSome →
      ¬ key.context.isOf session (removed.sort (· ≤ ·)) ∧
        (x.scene.surfaces.lookup key).isSome := by
    intro key hkey
    obtain ⟨surface, hsurface⟩ := Option.isSome_iff_exists.mp hkey
    obtain ⟨hkeep, hbefore⟩ := hrestricts.surfaces key surface hsurface
    exact ⟨hkeep, isSome_of_eq_some hbefore⟩
  refine h.of_kept (fun key hkey => (hsurface key hkey).2) fun other found hfound => ?_
  dsimp only at hfound
  rw [lookup_insert] at hfound
  split at hfound
  · rename_i heq
    cases hfound
    refine ⟨table, heq ▸ htable, fun key hkey hsome hbefore => ?_⟩
    have hnot : key.context.contextId ∉ removed := by
      intro hmem
      exact (hsurface key hsome).1 ⟨hkey.trans heq, (Finset.mem_sort _).mpr hmem⟩
    rw [hrevokes.left revoked hrevoked _ hnot]
    split
    · rwa [isSome_map]
    · exact hbefore
  · exact ⟨found, hfound, fun _ _ _ hlive => hlive⟩

theorem Addressable.lose (session : SessionIdentity) (ending : Ending) :
    (x.step (.lose session ending)).Addressable := by
  refine h.of_kept (fun key hkey => ?_) fun other table hother => ?_
  · cases ending with
    | suspended =>
      exact (State.shrinks_perform x.scene (.suspendSession session) rfl).surfaces key hkey
    | detached =>
      exact (State.shrinks_perform x.scene (.detachSession session) rfl).surfaces key hkey
    | removed =>
      exact (State.shrinks_perform x.scene (.removeSession session) rfl).surfaces key hkey
  · exact ⟨table, (lookup_erase_some hother).2, fun _ _ _ hlive => hlive⟩

/-- What a producer is let do comes into one of its contexts. -/
theorem Addressable.control (session : SessionIdentity)
    (request : Request P) : (x.step (.control session request)).Addressable := by
  dsimp only [step]
  split
  · rename_i hauthorized
    intro other table htable key hkey hsome
    rcases State.surface_of_perform x.scene request hsome with hbefore | ⟨_, rfl⟩
    · exact h other table htable key hkey hbefore
    dsimp only [authorizes, requiresContextOperation] at hauthorized
    rw [Bool.and_eq_true, Bool.and_eq_true, decide_eq_true_eq] at hauthorized
    obtain ⟨⟨hsession, -⟩, hcontext⟩ := hauthorized
    rw [← hsession, hkey, show x.tables.lookup other = some table from htable,
      any_some] at hcontext
    cases hstate : table.lookup key.context.contextId with
    | none =>
      rw [hstate] at hcontext
      cases hcontext
    | some => rfl
  · exact h

end

theorem lookup_root {operationClasses : ℕ} {contract : C.Contract} {table : ContextTable C}
    (h : ContextTable.root operationClasses contract = some table) (a : ℕ) :
    (table.lookup a).isSome ↔ a = rootContextId := by
  unfold ContextTable.root at h
  split at h
  · cases h
    rw [lookup_insert]
    split
    · exact iff_of_true rfl ‹_›
    · exact iff_of_false (by simp) ‹_›
  · cases h

/-- A session that is established can name the surfaces it finds if they are all in its root
context. -/
theorem Addressable.establish_iff (h : x.Addressable) (session : SessionIdentity)
    (operationClasses : ℕ) (contract : C.Contract) (targetGeneration : ℕ) :
    (x.establish session operationClasses contract targetGeneration).Addressable ↔
      x.Recovers (.establish session operationClasses contract targetGeneration) := by
  have hsurfaces : (x.establish session operationClasses contract
      targetGeneration).scene.surfaces = x.scene.surfaces := by
    rcases x.establish_scene session operationClasses contract targetGeneration with heq | heq
    · rw [heq]
    · rw [heq]
      exact (State.Keeps.registerSession x.scene session targetGeneration).surfaces
  rcases x.establish_tables session operationClasses contract targetGeneration with
    ⟨hestablishes, table, hroot, htables⟩ | ⟨hnot, htables⟩
  · constructor
    · intro hafter _ key hkey hsome
      refine (lookup_root hroot _).mp (hafter session table ?_ key hkey ?_)
      · rw [htables, lookup_insert_self]
      · rwa [hsurfaces]
    · intro hrecovers other table' htable' key hkey hsome
      rw [hsurfaces] at hsome
      rw [htables, lookup_insert] at htable'
      split at htable'
      · rename_i heq
        cases htable'
        exact (lookup_root hroot _).mpr (hrecovers hestablishes key (hkey.trans heq) hsome)
      · exact h other table' htable' key hkey hsome
  · refine iff_of_true (h.of_tables (fun key hkey => hsurfaces ▸ hkey) htables) ?_
    exact fun hestablishes => (hnot hestablishes).elim

theorem Addressable.step_iff (h : x.Addressable) (act : Act P C) :
    (x.step act).Addressable ↔ x.Recovers act := by
  cases act with
  | establish session operationClasses contract targetGeneration =>
    exact h.establish_iff session operationClasses contract targetGeneration
  | lose session ending => exact iff_of_true (h.lose session ending) trivial
  | createContext session definition =>
    exact iff_of_true (h.onTable session _ fun _ _ => ContextTable.isSome_create definition) trivial
  | chargeContext session =>
    refine iff_of_true (h.onTable session _ fun table a hlive => ?_) trivial
    rw [lookup_adjust]
    split
    · rwa [isSome_map]
    · exact hlive
  | revokeContext session fuel contextId =>
    exact iff_of_true (h.revokeContext session fuel contextId) trivial
  | control session request => exact iff_of_true (h.control session request) trivial
  | elsewhere request =>
    refine iff_of_true ?_ trivial
    dsimp only [step]
    split
    · exact h
    · rename_i hother
      rw [not_or, Bool.not_eq_true] at hother
      exact h.of_tables (State.shrinks_perform x.scene request
        (Bool.eq_false_of_not_eq_true hother.2)).surfaces rfl

/-- The surfaces of established sessions can be named all along a history if and only if no session
is resumed over surfaces of other contexts than its first. -/
theorem addressable_iff (target : PresentationTarget P) (history : List (Act P C)) :
    (∀ n, (run C target (history.take n)).Addressable) ↔
      Throughout (run C target) Recovers history := by
  refine throughout_iff_always (fun history => (run C target history).Addressable) ?_ ?_
  · intro _ _ htable
    cases htable
  · intro _ act h
    rw [run_concat]
    exact h.step_iff act

section Resuming

/-- A session makes a surface in a context of its own, is suspended, and is established again. -/
def resumption : List (Act .plain .plain) :=
  [.establish State.viewer 1 (fun _ => 8) 1,
    .createContext State.viewer ⟨2, rootContextId, 1, fun _ => 4⟩,
    .control State.viewer (.createSurface ⟨⟨State.viewer, 2⟩, 1⟩
      { contextId := 2, surfaceId := 1 }),
    .lose State.viewer .suspended,
    .establish State.viewer 1 (fun _ => 8) 1]

/-- The surface is there, and its context is not. -/
theorem resumed_unaddressable :
    ¬ ∀ (target : PresentationTarget .plain) (history : List (Act .plain .plain)),
      (run .plain target history).Addressable := by
  intro h
  have hafter := h .plain resumption
  generalize hx : run .plain .plain resumption = x at hafter
  have htable : (x.tables.lookup State.viewer).any (fun table => (table.lookup 2).isNone) := by
    rw [← hx]
    decide +kernel
  obtain ⟨table, htable, hnone⟩ := (Option.any_eq_true _ _).mp htable
  have hlive := hafter State.viewer table htable ⟨⟨State.viewer, 2⟩, 1⟩ rfl (by
    rw [← hx]
    decide +kernel)
  rw [isNone_iff_eq_none] at hnone
  rw [hnone] at hlive
  cases hlive

end Resuming

end Vivido.Authority.Sessions
