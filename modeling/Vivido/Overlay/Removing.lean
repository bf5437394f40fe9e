import Vivido.Overlay.Host

/-!
What a removal leaves behind. Most tables are cleared of the owner or of the
window; a few are forgotten, and these decide whether anything is left.
-/

namespace Vivido.Overlay

open Vivido.Scene SortedMap List

variable {P : OverlayProtocol} {h h' : Host P}

namespace Host

/-! ### What outcomes change -/

/-- Only what is pending, the outcomes and the log differ. -/
def Settles (h h' : Host P) : Prop :=
  h' = { h with pending := h'.pending, outcomes := h'.outcomes, log := h'.log }

theorem Settles.refl (h : Host P) : Settles h h := rfl

theorem Settles.trans {h'' : Host P} (first : Settles h h') (second : Settles h' h'') :
    Settles h h'' := by
  unfold Settles at first second ⊢
  rw [second, first]

theorem resolve_settles (h : Host P) (owner : SessionIdentity) (submission : Submission)
    (outcome : PresentationOutcome) : Settles h (h.resolve owner submission outcome) := by
  unfold resolve
  split
  · rfl
  · exact .refl h

theorem pending_resolve (h : Host P) (owner : SessionIdentity) (submission : Submission)
    (outcome : PresentationOutcome) : (h.resolve owner submission outcome).pending =
      h.pending.filter fun key => key ≠ (owner, submission) := by
  unfold resolve
  split
  · rfl
  · rename_i hnot
    refine (List.filter_eq_self.mpr fun key hkey => ?_).symm
    exact decide_eq_true fun heq => hnot (heq ▸ hkey)

/-- Several submissions are superseded. -/
def resolveAll (h : Host P) (keys : List Pending) : Host P :=
  keys.foldl (fun h key => h.resolve key.1 key.2 .superseded) h

theorem resolveAll_settles (h : Host P) (keys : List Pending) : Settles h (h.resolveAll keys) := by
  unfold resolveAll
  induction keys generalizing h with
  | nil => exact .refl h
  | cons key _ ih => exact (resolve_settles h key.1 key.2 .superseded).trans (ih _)

theorem mem_pending_resolveAll (h : Host P) (keys : List Pending) (key : Pending) :
    key ∈ (h.resolveAll keys).pending ↔ key ∈ h.pending ∧ key ∉ keys := by
  unfold resolveAll
  induction keys generalizing h with
  | nil => simp
  | cons _ _ ih =>
    rw [foldl_cons, ih, pending_resolve, mem_filter, decide_eq_true_eq, mem_cons,
      not_or, and_assoc]

/-- What is pending of a surface, superseded. -/
def retired (h : Host P) (identity : SurfaceIdentity) : Host P :=
  h.resolveAll (h.pending.filter fun key => key.surface = identity)

theorem mem_pending_retired (h : Host P) (identity : SurfaceIdentity) (key : Pending) :
    key ∈ (h.retired identity).pending ↔ key ∈ h.pending ∧ key.surface ≠ identity := by
  refine (mem_pending_resolveAll ..).trans ?_
  rw [mem_filter, decide_eq_true_eq]
  constructor
  · intro ⟨hmem, hnot⟩
    exact ⟨hmem, fun heq => hnot ⟨hmem, heq⟩⟩
  · intro ⟨hmem, hne⟩
    exact ⟨hmem, fun hboth => hne hboth.2⟩

/-- The tables that `retire_presentation` clears of a surface. -/
theorem retirePresentation_eq (h : Host P) (identity : SurfaceIdentity) :
    h.retirePresentation identity = { h with
        pending := (h.retired identity).pending, outcomes := (h.retired identity).outcomes
        log := (h.retired identity).log, displayed := h.displayed.erase identity
        semantics := h.semantics.erase identity, inflight := h.inflight.erase identity
        active := h.active.erase identity
        submissions := h.submissions.filter fun entry => entry.1.surface ≠ identity
        scenes := h.scenes.filter fun entry => entry.1.surface ≠ identity } := by
  have hsettles : Settles h (h.retired identity) := resolveAll_settles ..
  change { h.retired identity with
    displayed := (h.retired identity).displayed.erase identity
    semantics := (h.retired identity).semantics.erase identity
    inflight := (h.retired identity).inflight.erase identity
    active := (h.retired identity).active.erase identity
    submissions := (h.retired identity).submissions.filter fun entry => entry.1.surface ≠ identity
    scenes := (h.retired identity).scenes.filter fun entry => entry.1.surface ≠ identity } = _
  generalize h.retired identity = retired at hsettles
  unfold Settles at hsettles
  rw [hsettles]

/-! ### What is left of an owner or a window -/

/-- No table has an entry of the session. -/
structure CleanOf (h : Host P) (owner : SessionIdentity) : Prop where
  windows : ∀ id : SurfaceIdentity, id.context.session = owner → P.get h.windows id = none
  surfaces : ∀ id ∈ h.surfaces, id.context.session ≠ owner
  scenes : ∀ track : TrackIdentity, track.surface.context.session = owner →
    h.scenes.lookup track = none
  submissions : ∀ track : TrackIdentity, track.surface.context.session = owner →
    h.submissions.lookup track = none
  active : ∀ id : SurfaceIdentity, id.context.session = owner → h.active.lookup id = none
  accepted : ∀ id : SurfaceIdentity, id.context.session = owner → h.accepted.lookup id = none
  pending : ∀ key ∈ h.pending, key.1 ≠ owner
  displayed : ∀ id : SurfaceIdentity, id.context.session = owner → h.displayed.lookup id = none
  inflight : ∀ id : SurfaceIdentity, id.context.session = owner → h.inflight.lookup id = none
  semantics : ∀ id : SurfaceIdentity, id.context.session = owner → h.semantics.lookup id = none
  accessibility : h.accessibility.lookup owner = none
  layouts : ∀ layout ∈ h.layouts, layout.1.context.session ≠ owner
  layoutCharges : ∀ charge ∈ h.layoutCharges, charge.1 ≠ owner
  gesture : ∀ gesture, h.lastGesture = some gesture → gesture.1.context.session ≠ owner
  editor : ∀ editor, h.editor = some editor → editor.1.context.session ≠ owner
  lanes : h.lanes.lookup owner = none
  viewportDirty : owner ∉ h.viewportDirty
  environmentDirty : owner ∉ h.environmentDirty

/-- No accessibility action is queued for the window. -/
def Unasked (h : Host P) (window : SurfaceIdentity) : Prop :=
  ∀ queue, h.accessibility.lookup window.context.session = some queue → ∀ entry ∈ queue,
    ¬(entry.2.address.contextId = window.context.contextId ∧
      entry.2.address.surfaceId = window.surfaceId)

/-- No table has an entry of the window. -/
structure CleanOfWindow (h : Host P) (window : SurfaceIdentity) : Prop where
  windows : P.get h.windows window = none
  surfaces : window ∉ h.surfaces
  scenes : ∀ track : TrackIdentity, track.surface = window → h.scenes.lookup track = none
  submissions : ∀ track : TrackIdentity, track.surface = window →
    h.submissions.lookup track = none
  active : h.active.lookup window = none
  accepted : h.accepted.lookup window = none
  pending : ∀ key ∈ h.pending, key.surface ≠ window
  displayed : h.displayed.lookup window = none
  inflight : h.inflight.lookup window = none
  semantics : h.semantics.lookup window = none
  accessibility : h.Unasked window
  layouts : ∀ layout ∈ h.layouts, layout.1 ≠ window
  gesture : ∀ gesture, h.lastGesture = some gesture → gesture.1 ≠ window
  editor : ∀ editor, h.editor = some editor → editor.1 ≠ window

/-- The tables that `remove_owner` forgets have nothing of the session. -/
structure OwnerUnmarked (h : Host P) (owner : SessionIdentity) : Prop where
  semantics : ∀ id : SurfaceIdentity, id.context.session = owner → h.semantics.lookup id = none
  accessibility : h.accessibility.lookup owner = none
  layoutCharges : ∀ charge ∈ h.layoutCharges, charge.1 ≠ owner
  gesture : ∀ gesture, h.lastGesture = some gesture → gesture.1.context.session ≠ owner
  environmentDirty : owner ∉ h.environmentDirty

/-- The tables that `remove_surface` forgets have nothing of the window. -/
structure WindowUnmarked (h : Host P) (window : SurfaceIdentity) : Prop where
  accessibility : h.Unasked window
  gesture : ∀ gesture, h.lastGesture = some gesture → gesture.1 ≠ window

end Host

/-- What the library's windows promise of removals. -/
structure OverlayProtocol.Removes (P : OverlayProtocol) : Prop where
  close : ∀ windows id, P.get (P.close windows id) id = none
  revokeOwner : ∀ windows owner (id : SurfaceIdentity), id.context.session = owner →
    P.get (P.revokeOwner windows owner) id = none

namespace Host

theorem removeOwner_clean_iff (hwindows : P.Removes) (h : Host P) (owner : SessionIdentity) :
    (h.removeOwner owner).CleanOf owner ↔ h.OwnerUnmarked owner := by
  constructor
  · intro hclean
    exact ⟨hclean.semantics, hclean.accessibility, hclean.layoutCharges, hclean.gesture,
      hclean.environmentDirty⟩
  intro hunmarked
  have hsurface : ∀ {α : Type} (m : SortedMap SurfaceIdentity α) (id : SurfaceIdentity),
      id.context.session = owner →
        (m.filter fun entry => entry.1.context.session ≠ owner).lookup id = none :=
    fun m id hid => lookup_filter_dropped fun _ => decide_eq_false (not_not.mpr hid)
  have htrack : ∀ {α : Type} (m : SortedMap TrackIdentity α) (track : TrackIdentity),
      track.surface.context.session = owner →
        (m.filter fun entry => entry.1.surface.context.session ≠ owner).lookup track = none :=
    fun m track htrack =>
      lookup_filter_dropped fun _ => decide_eq_false (not_not.mpr htrack)
  exact {
    windows := fun id hid => hwindows.revokeOwner _ _ id hid
    surfaces := fun id hid => (Finset.mem_filter.mp hid).2
    scenes := htrack _
    submissions := htrack _
    active := hsurface _
    accepted := hsurface _
    pending := fun key hkey => of_decide_eq_true (List.mem_filter.mp hkey).2
    displayed := hsurface _
    inflight := hsurface _
    semantics := hunmarked.semantics
    accessibility := hunmarked.accessibility
    layouts := fun layout hlayout => (Finset.mem_filter.mp hlayout).2
    layoutCharges := hunmarked.layoutCharges
    gesture := hunmarked.gesture
    editor := fun editor heditor =>
      of_decide_eq_true (Option.filter_eq_some_iff.mp heditor).2
    lanes := by
      change (h.lanes.erase owner).lookup owner = none
      rw [lookup_erase, if_pos rfl]
    viewportDirty := Finset.notMem_erase _ _
    environmentDirty := hunmarked.environmentDirty }

theorem removeSurface_clean_iff (hwindows : P.Removes) (h : Host P) (window : SurfaceIdentity) :
    (h.removeSurface window).CleanOfWindow window ↔ h.WindowUnmarked window := by
  unfold removeSurface
  rw [retirePresentation_eq]
  constructor
  · intro hclean
    exact ⟨hclean.accessibility, hclean.gesture⟩
  intro hunmarked
  have herase : ∀ {α : Type} (m : SortedMap SurfaceIdentity α),
      (m.erase window).lookup window = none := by
    intro α m
    rw [lookup_erase, if_pos rfl]
  have htrack : ∀ {α : Type} (m : SortedMap TrackIdentity α) (track : TrackIdentity),
      track.surface = window →
        (m.filter fun entry => entry.1.surface ≠ window).lookup track = none :=
    fun m track htrack =>
      lookup_filter_dropped fun _ => decide_eq_false (not_not.mpr htrack)
  exact {
    windows := hwindows.close _ _
    surfaces := Finset.notMem_erase _ _
    scenes := htrack _
    submissions := htrack _
    active := herase _
    accepted := herase _
    pending := fun key hkey => ((mem_pending_retired _ _ key).mp hkey).2
    displayed := herase _
    inflight := herase _
    semantics := herase _
    accessibility := hunmarked.accessibility
    layouts := fun layout hlayout => (Finset.mem_filter.mp hlayout).2
    gesture := hunmarked.gesture
    editor := fun editor heditor =>
      of_decide_eq_true (Option.filter_eq_some_iff.mp heditor).2 }

/-- After an owner is removed, or a window, nothing of it is left in the host's tables if and only
if the tables that the removal forgets had nothing of it. -/
theorem removal_clean_iff (hwindows : P.Removes) (h : Host P) :
    (∀ owner, (h.removeOwner owner).CleanOf owner ↔ h.OwnerUnmarked owner) ∧
      ∀ window, (h.removeSurface window).CleanOfWindow window ↔ h.WindowUnmarked window :=
  ⟨removeOwner_clean_iff hwindows h, removeSurface_clean_iff hwindows h⟩

theorem plain_removes : OverlayProtocol.plain.Removes where
  close _ _ := lookup_erase.trans (if_pos rfl)
  revokeOwner _ _ _ hid :=
    lookup_filter_dropped fun _ => decide_eq_false (not_not.mpr hid)

/-- A session whose input lane was opened and whose producer was not yet told of the environment. -/
def laneOpened : Host .plain :=
  { windows := (.empty : SortedMap _ _) : Host .plain }.laneOpen ⟨1, 1⟩ 1

theorem removal_clean_opened :
    (∀ owner, (laneOpened.removeOwner owner).CleanOf owner ↔ laneOpened.OwnerUnmarked owner) ∧
      ∀ window, (laneOpened.removeSurface window).CleanOfWindow window ↔
        laneOpened.WindowUnmarked window :=
  removal_clean_iff plain_removes laneOpened

/-- The user pressed a key in a window, and the window is removed. -/
theorem gesture_outlives : ¬ ∀ (h : Host .plain) (owner : SessionIdentity)
    (window : SurfaceIdentity), (h.removeOwner owner).CleanOf owner ∧
      (h.removeSurface window).CleanOfWindow window := by
  intro hclean
  have hgesture := (hclean
    { windows := (.empty : SortedMap _ _), lastGesture := some (⟨⟨⟨1, 1⟩, 1⟩, 1⟩, 5) }
    ⟨1, 1⟩ ⟨⟨⟨1, 1⟩, 1⟩, 1⟩).2.gesture
  exact hgesture _ rfl rfl

end Host

end Vivido.Overlay
