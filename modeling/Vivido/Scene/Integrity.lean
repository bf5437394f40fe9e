import Vivido.Scene.Effects

/-!
References between the maps of a scene: a track names its surface, an active
slot a track of its surface, a node the surface it shows. They hold in every
state as long as no update turns a node to a surface that does not exist.
-/

namespace Vivido.Scene.State

open SortedMap Option

variable {P : Protocol} {s s' : State P}

/-- A slot holds a track of the surface that is configured for it. -/
def Fills (s : State P) (identity : SurfaceIdentity) (slot trackId : ℕ) : Prop :=
  ∃ track, s.tracks.lookup ⟨identity, trackId⟩ = some track ∧ track.configuration.slot = slot

/-- A track's surface exists, so does the session of a surface, and an active slot is filled. -/
structure Linked (s : State P) : Prop where
  tracks : ∀ identity track, s.tracks.lookup identity = some track →
    (s.surfaces.lookup identity.surface).isSome
  surfaces : ∀ identity surface, s.surfaces.lookup identity = some surface →
    (s.scenes.lookup identity.context.session).isSome
  slots : ∀ identity surface slot trackId, s.surfaces.lookup identity = some surface →
    surface.activeSlots.lookup slot = some trackId → s.Fills identity slot trackId

/-- The surface a node of a session names. -/
def shownBy (session : SessionIdentity) (node : SceneNode P.Value) : SurfaceIdentity :=
  ⟨⟨session, node.surfaceContextId⟩, node.surfaceId⟩

/-- A node shows a surface of its own session. -/
def NodesShown (s : State P) : Prop :=
  ∀ session scene identity node, s.scenes.lookup session = some scene →
    scene.nodes.lookup identity = some node →
      (s.surfaces.lookup (shownBy session node)).isSome

theorem Keeps.linked (h : Keeps s s') (hs : s.Linked) : s'.Linked where
  tracks identity track htrack := by
    rw [h.surfaces]
    have hconfiguration := h.tracks identity
    rw [htrack, map_some] at hconfiguration
    obtain ⟨old, hold, _⟩ := Option.map_eq_some_iff.mp hconfiguration.symm
    exact hs.tracks identity old hold
  surfaces identity surface hsurface := by
    rw [h.surfaces] at hsurface
    exact h.scenes _ (hs.surfaces identity surface hsurface)
  slots identity surface slot trackId hsurface hslot := by
    rw [h.surfaces] at hsurface
    obtain ⟨_, htrack, hconfiguration⟩ := hs.slots identity surface slot trackId hsurface hslot
    have hkept := h.tracks ⟨identity, trackId⟩
    rw [htrack, map_some] at hkept
    obtain ⟨track', htrack', heq⟩ := Option.map_eq_some_iff.mp hkept
    exact ⟨track', htrack', heq ▸ hconfiguration⟩

theorem Keeps.nodesShown (h : Keeps s s') (hs : s.NodesShown) : s'.NodesShown := by
  intro session scene' identity node hscene hnode
  obtain ⟨scene, hscene, hnode⟩ := h.nodes session scene' identity node hscene hnode
  rw [h.surfaces]
  exact hs session scene identity node hscene hnode

/-! ### Removal of surfaces with all that refers to them -/

/-- The surfaces that `keep` selects stay, with their tracks and the nodes that show them. -/
structure Restricts (keep : SurfaceIdentity → Prop) (s s' : State P) : Prop where
  surfaces : ∀ identity surface, s'.surfaces.lookup identity = some surface →
    keep identity ∧ s.surfaces.lookup identity = some surface
  surfacesLeft : ∀ identity, keep identity → (s.surfaces.lookup identity).isSome →
    (s'.surfaces.lookup identity).isSome
  tracks : ∀ identity track, s'.tracks.lookup identity = some track →
    keep identity.surface ∧ s.tracks.lookup identity = some track
  tracksLeft : ∀ identity track, keep identity.surface → s.tracks.lookup identity = some track →
    s'.tracks.lookup identity = some track
  scenes : ∀ identity, keep identity → (s.scenes.lookup identity.context.session).isSome →
    (s'.scenes.lookup identity.context.session).isSome
  nodes : ∀ session scene' identity node, s'.scenes.lookup session = some scene' →
    scene'.nodes.lookup identity = some node → keep (shownBy session node) ∧
      ∃ scene, s.scenes.lookup session = some scene ∧ scene.nodes.lookup identity = some node

namespace Restricts

variable {keep : SurfaceIdentity → Prop}

theorem linked (h : Restricts keep s s') (hs : s.Linked) : s'.Linked where
  tracks identity track htrack := by
    obtain ⟨hkeep, hold⟩ := h.tracks identity track htrack
    exact h.surfacesLeft _ hkeep (hs.tracks identity track hold)
  surfaces identity surface hsurface := by
    obtain ⟨hkeep, hold⟩ := h.surfaces identity surface hsurface
    exact h.scenes identity hkeep (hs.surfaces identity surface hold)
  slots identity surface slot trackId hsurface hslot := by
    obtain ⟨hkeep, hold⟩ := h.surfaces identity surface hsurface
    obtain ⟨track, htrack, hconfiguration⟩ := hs.slots identity surface slot trackId hold hslot
    exact ⟨track, h.tracksLeft _ track hkeep htrack, hconfiguration⟩

theorem nodesShown (h : Restricts keep s s') (hs : s.NodesShown) : s'.NodesShown := by
  intro session scene' identity node hscene hnode
  obtain ⟨hkeep, scene, hscene, hnode⟩ := h.nodes session scene' identity node hscene hnode
  exact h.surfacesLeft _ hkeep (hs session scene identity node hscene hnode)

end Restricts

/-- The surfaces are filtered, the tracks with them, and the scenes follow. -/
theorem restricts_of_filter (keep : SurfaceIdentity → Prop) [DecidablePred keep]
    (hsurfaces : s'.surfaces = s.surfaces.filter fun entry => keep entry.1)
    (htracks : s'.tracks = s.tracks.filter fun entry => keep entry.1.surface)
    (hscenes : ∀ identity, keep identity → (s.scenes.lookup identity.context.session).isSome →
      (s'.scenes.lookup identity.context.session).isSome)
    (hnodes : ∀ session scene' identity node, s'.scenes.lookup session = some scene' →
      scene'.nodes.lookup identity = some node → keep (shownBy session node) ∧
        ∃ scene, s.scenes.lookup session = some scene ∧ scene.nodes.lookup identity = some node) :
    Restricts keep s s' where
  surfaces identity surface h := by
    rw [hsurfaces] at h
    exact (lookup_filter_keys keep).mp h
  surfacesLeft identity hkeep h := by
    rw [hsurfaces]
    exact isSome_filter_keys keep hkeep h
  tracks identity track h := by
    rw [htracks] at h
    exact (lookup_filter_keys fun identity : TrackIdentity => keep identity.surface).mp h
  tracksLeft identity track hkeep h := by
    rw [htracks]
    exact (lookup_filter_keys fun identity : TrackIdentity => keep identity.surface).mpr ⟨hkeep, h⟩
  scenes := hscenes
  nodes := hnodes

theorem restricts_removeSession (s : State P) (session : SessionIdentity) :
    Restricts (·.context.session ≠ session) s (s.removeSession session) := by
  refine restricts_of_filter (·.context.session ≠ session) rfl rfl ?_ ?_
  · intro identity hkeep hscene
    change ((s.scenes.erase session).lookup _).isSome
    rwa [lookup_erase, if_neg hkeep]
  · intro _ scene' _ _ hscene hnode
    obtain ⟨hne, hscene⟩ := lookup_erase_some hscene
    exact ⟨hne, scene', hscene, hnode⟩

theorem restricts_detachSession (s : State P) (session : SessionIdentity) :
    Keeps s (s.detachSession session) ∨
      Restricts (·.context.session ≠ session) s (s.detachSession session) := by
  unfold detachSession
  dsimp only
  split
  · exact Or.inl (.invalidateTopology s)
  · have hremoved := restricts_removeSession s session
    exact Or.inr (restricts_of_filter _ rfl rfl hremoved.scenes hremoved.nodes)

theorem restricts_removeContexts (s : State P) (session : SessionIdentity) (contexts : List ℕ) :
    Restricts (fun identity => ¬ identity.context.isOf session contexts) s
      (s.removeContexts session contexts) := by
  unfold removeContexts
  dsimp only
  split
  · rename_i hnone
    change s.scenes.lookup session = none at hnone
    refine restricts_of_filter (fun identity => ¬ identity.context.isOf session contexts)
      rfl rfl (fun _ _ h => h) ?_
    intro other scene' identity node hscene hnode
    refine ⟨?_, scene', hscene, hnode⟩
    rintro ⟨heq, _⟩
    change other = session at heq
    change s.scenes.lookup other = some scene' at hscene
    rw [heq, hnone] at hscene
    cases hscene
  · rename_i scene hscene
    change s.scenes.lookup session = some scene at hscene
    refine restricts_of_filter (fun identity => ¬ identity.context.isOf session contexts)
      rfl rfl ?_ ?_
    · intro identity _ h
      change ((s.scenes.insert session _).lookup _).isSome
      rw [lookup_insert]
      split
      · rfl
      · exact h
    · intro other scene' _ _ hother hnode
      change (s.scenes.insert session _).lookup other = some scene' at hother
      rw [lookup_insert] at hother
      split at hother
      · rename_i heq
        cases hother
        rw [lookup_filter, filter_eq_some_iff] at hnode
        obtain ⟨hnode, hkeep⟩ := hnode
        have hkeep := (of_decide_eq_true hkeep).2
        exact ⟨fun hof => hkeep hof.2, scene, heq ▸ hscene, hnode⟩
      · rename_i hne
        exact ⟨fun hof => hne hof.1, scene', hother, hnode⟩

theorem restricts_destroySurface (s : State P) (identity : SurfaceIdentity) :
    Keeps s (s.destroySurface identity).1 ∨
      Restricts (· ≠ identity) s (s.destroySurface identity).1 := by
  -- the scene of the session keeps the nodes that show another surface
  have hdropped : ∀ {scene scene' : SessionScene P},
      s.scenes.lookup identity.context.session = some scene →
      scene'.nodes = scene.dropNodes identity →
      Restricts (· ≠ identity) s
        (setScene { s.invalidateTopology with
            surfaces := s.surfaces.erase identity
            tracks := s.tracks.filter fun entry => entry.1.surface ≠ identity }
          identity.context.session scene') := by
    intro scene _ hscene hnodes
    refine restricts_of_filter (· ≠ identity) rfl rfl ?_ ?_
    · intro _ _ hother
      change ((s.scenes.insert _ _).lookup _).isSome
      rw [lookup_insert]
      split
      · rfl
      · exact hother
    · intro session found node shown hfound hnode
      change (s.scenes.insert _ _).lookup session = some found at hfound
      rw [lookup_insert] at hfound
      split at hfound
      · rename_i heq
        cases hfound
        rw [hnodes] at hnode
        unfold SessionScene.dropNodes at hnode
        rw [lookup_filter, filter_eq_some_iff] at hnode
        obtain ⟨hnode, hkeep⟩ := hnode
        refine ⟨?_, scene, heq ▸ hscene, hnode⟩
        intro hshown
        rw [← hshown] at hkeep
        simp [shownBy] at hkeep
      · rename_i hne
        refine ⟨?_, found, hfound, hnode⟩
        intro hshown
        rw [← hshown] at hne
        exact hne rfl
  unfold destroySurface
  dsimp only
  split
  · exact Or.inl (.invalidateTopology s)
  refine Or.inr ?_
  split
  · rename_i hnone
    change s.scenes.lookup identity.context.session = none at hnone
    refine restricts_of_filter (· ≠ identity) rfl rfl (fun _ _ h => h) ?_
    intro session found _ shown hfound hnode
    refine ⟨?_, found, hfound, hnode⟩
    intro hshown
    change s.scenes.lookup session = some found at hfound
    rw [← hshown] at hnone
    rw [show session = (shownBy session shown).context.session from rfl, hnone] at hfound
    cases hfound
  · rename_i scene hscene
    split
    · split <;> exact hdropped hscene rfl
    · exact hdropped hscene rfl

/-! ### Surfaces and tracks that come or change -/

/-- A surface changes or comes, and what its slots hold exists. -/
theorem linked_setSurface (hs : s.Linked) {identity : SurfaceIdentity} {surface : Surface P}
    (hscene : (s.scenes.lookup identity.context.session).isSome)
    (hslots : ∀ slot trackId, surface.activeSlots.lookup slot = some trackId →
      s.Fills identity slot trackId) : (s.setSurface identity surface).Linked where
  tracks other track htrack := by
    change ((s.surfaces.insert identity surface).lookup _).isSome
    rw [lookup_insert]
    split
    · rfl
    · exact hs.tracks other track htrack
  surfaces other found hfound := by
    change (s.surfaces.insert identity surface).lookup other = some found at hfound
    rw [lookup_insert] at hfound
    split at hfound
    · rename_i heq
      rw [heq]
      exact hscene
    · exact hs.surfaces other found hfound
  slots other found slot trackId hfound hslot := by
    change (s.surfaces.insert identity surface).lookup other = some found at hfound
    rw [lookup_insert] at hfound
    split at hfound
    · rename_i heq
      cases hfound
      rw [heq]
      exact hslots slot trackId hslot
    · exact hs.slots other found slot trackId hfound hslot

theorem nodesShown_setSurface (hs : s.NodesShown) (identity : SurfaceIdentity)
    (surface : Surface P) : (s.setSurface identity surface).NodesShown := by
  intro session scene found node hscene hnode
  change ((s.surfaces.insert identity surface).lookup _).isSome
  rw [lookup_insert]
  split
  · rfl
  · exact hs session scene found node hscene hnode

/-- A surface changes at its place, but not its slots. -/
theorem linked_replaceSurface (hs : s.Linked) {identity : SurfaceIdentity}
    {surface surface' : Surface P} (h : s.surfaces.lookup identity = some surface)
    (hslots : surface'.activeSlots = surface.activeSlots) :
    (s.setSurface identity surface').Linked := by
  refine linked_setSurface hs (hs.surfaces identity surface h) fun slot trackId hslot => ?_
  rw [hslots] at hslot
  exact hs.slots identity surface slot trackId h hslot

theorem linked_createSurface (hs : s.Linked) (identity : SurfaceIdentity)
    (definition : SurfaceDefinition P.Value) : (s.createSurface identity definition).1.Linked := by
  have hs' := (Keeps.invalidateTopology s).linked hs
  unfold createSurface
  split
  · exact hs
  split
  · exact hs
  split
  · exact hs
  dsimp only
  split
  · exact hs'
  rename_i hscene
  split
  · exact hs'
  · refine linked_setSurface hs' ?_ fun slot trackId hslot => ?_
    · rw [isNone_iff_eq_none] at hscene
      exact Option.isSome_iff_ne_none.mpr hscene
    · cases hslot

theorem nodesShown_createSurface (hs : s.NodesShown) (identity : SurfaceIdentity)
    (definition : SurfaceDefinition P.Value) :
    (s.createSurface identity definition).1.NodesShown := by
  have hs' := (Keeps.invalidateTopology s).nodesShown hs
  unfold createSurface
  split
  · exact hs
  split
  · exact hs
  split
  · exact hs
  dsimp only
  split
  · exact hs'
  · split
    · exact hs'
    · exact nodesShown_setSurface hs' _ _

theorem updateSurface_cases (s : State P) (identity : SurfaceIdentity)
    (expectedRevision expectedGeneration : ℕ) (replacement : SurfaceDefinition P.Value) :
    Keeps s (s.updateSurface identity expectedRevision expectedGeneration replacement).1 ∨
      ∃ surface surface', s.surfaces.lookup identity = some surface ∧
        (s.updateSurface identity expectedRevision expectedGeneration replacement).1 =
          s.invalidateCapture.setSurface identity surface' ∧
        surface'.activeSlots = surface.activeSlots := by
  have hs' : Keeps s s.invalidateCapture := .of_eq rfl rfl rfl
  unfold updateSurface
  split
  · exact Or.inl (.refl s)
  split
  · exact Or.inl (.refl s)
  dsimp only
  split
  · exact Or.inl hs'
  rename_i surface hsurface
  split
  · exact Or.inl hs'
  · split
    · exact Or.inl hs'
    · split
      · split <;> exact Or.inr ⟨surface, _, hsurface, rfl, rfl⟩
      · exact Or.inr ⟨surface, _, hsurface, rfl, rfl⟩

theorem linked_createTrack (hs : s.Linked) (identity : TrackIdentity)
    (configuration : TrackConfiguration) : (s.createTrack identity configuration).1.Linked := by
  have hs' := (Keeps.invalidateTopology s).linked hs
  unfold createTrack
  split
  · exact hs
  dsimp only
  split
  · exact hs'
  rename_i hsurface
  split
  · exact hs'
  rename_i hnew
  refine ⟨fun other track htrack => ?_, hs'.surfaces, fun other surface slot trackId h h' => ?_⟩
  · change (s.tracks.insert identity _).lookup other = some track at htrack
    rw [lookup_insert] at htrack
    split at htrack
    · rename_i heq
      rw [heq]
      rw [isNone_iff_eq_none] at hsurface
      exact Option.isSome_iff_ne_none.mpr hsurface
    · exact hs'.tracks other track htrack
  · obtain ⟨track, htrack, hslot⟩ := hs'.slots other surface slot trackId h h'
    refine ⟨track, ?_, hslot⟩
    refine (lookup_insert_of_ne fun heq => hnew ?_).trans htrack
    rw [← heq, htrack]
    rfl

theorem nodesShown_createTrack (hs : s.NodesShown) (identity : TrackIdentity)
    (configuration : TrackConfiguration) : (s.createTrack identity configuration).1.NodesShown := by
  unfold createTrack
  dsimp only
  split
  · exact hs
  · split
    · exact hs
    · split <;> exact hs

/-- Without a track, its surface still names the others. -/
theorem linked_eraseTrack (hs : s.Linked) (identity : TrackIdentity) {surface surface' : Surface P}
    (h : s.surfaces.lookup identity.surface = some surface) (hslots : surface'.activeSlots =
      surface.activeSlots.filter fun entry => entry.2 ≠ identity.trackId) :
    (setSurface { s with tracks := s.tracks.erase identity } identity.surface surface').Linked where
  tracks other track htrack := by
    change ((s.surfaces.insert identity.surface surface').lookup _).isSome
    rw [lookup_insert]
    split
    · rfl
    · exact hs.tracks other track (lookup_erase_some htrack).2
  surfaces other found hfound := by
    change (s.surfaces.insert identity.surface surface').lookup other = some found at hfound
    rw [lookup_insert] at hfound
    split at hfound
    · rename_i heq
      rw [heq]
      exact hs.surfaces _ surface h
    · exact hs.surfaces other found hfound
  slots other found slot trackId hfound hslot := by
    change (s.surfaces.insert identity.surface surface').lookup other = some found at hfound
    rw [lookup_insert] at hfound
    change ∃ track, (s.tracks.erase identity).lookup _ = some track ∧ _
    rw [lookup_erase]
    split at hfound
    · rename_i heq
      cases hfound
      rw [hslots, lookup_filter, filter_eq_some_iff] at hslot
      rw [if_neg fun htrack => ?_]
      · exact hs.slots other surface slot trackId (heq ▸ h) hslot.1
      · rw [← htrack] at hslot
        simp at hslot
    · rename_i hne
      rw [if_neg fun htrack => hne ?_]
      · exact hs.slots other found slot trackId hfound hslot
      · rw [← htrack]

theorem linked_destroyTrack (hs : s.Linked) (identity : TrackIdentity) :
    (s.destroyTrack identity).1.Linked := by
  have hs' := (Keeps.invalidateTopology s).linked hs
  unfold destroyTrack
  dsimp only
  split
  · exact hs'
  split
  · rename_i hnone
    refine ⟨fun other track htrack => ?_, hs'.surfaces, fun other surface slot trackId h h' => ?_⟩
    · exact hs'.tracks other track (lookup_erase_some htrack).2
    obtain ⟨track, htrack, hslot⟩ := hs'.slots other surface slot trackId h h'
    refine ⟨track, ?_, hslot⟩
    change (s.tracks.erase identity).lookup _ = some track
    rw [lookup_erase, if_neg]
    · exact htrack
    · intro heq
      rw [← heq] at hnone
      rw [h] at hnone
      cases hnone
  · rename_i surface hsurface
    split
    · split <;> exact linked_eraseTrack hs' identity hsurface rfl
    · exact linked_eraseTrack hs' identity hsurface rfl

theorem nodesShown_destroyTrack (hs : s.NodesShown) (identity : TrackIdentity) :
    (s.destroyTrack identity).1.NodesShown := by
  have herased : (State.NodesShown
      { s.invalidateTopology with tracks := s.tracks.erase identity }) := hs
  unfold destroyTrack
  dsimp only
  split
  · exact hs
  · split
    · exact hs
    · split
      · split <;> exact nodesShown_setSurface herased _ _
      · exact nodesShown_setSurface herased _ _

/-! ### Activation -/

theorem fills_bindSlot {identity : SurfaceIdentity} {candidate candidate' : SortedMap ℕ ℕ}
    {binding : Binding} (h : s.bindSlot identity candidate binding = .ok candidate')
    (hfills : ∀ slot trackId, candidate.lookup slot = some trackId → s.Fills identity slot trackId) :
    ∀ slot trackId, candidate'.lookup slot = some trackId → s.Fills identity slot trackId := by
  unfold bindSlot at h
  split at h
  · cases h
  split at h
  · split at h
    · cases h
    · cases h
      intro slot trackId hslot
      exact hfills slot trackId (lookup_erase_some hslot).2
  · split at h
    · cases h
    rename_i track htrack
    obtain ⟨_, hkey, htrack⟩ := Option.bind_eq_some_iff.mp htrack
    split at h
    · cases h
    rename_i hrefuses
    cases h
    intro slot trackId hslot
    rw [lookup_insert] at hslot
    split at hslot
    · rename_i heq
      cases hslot
      refine ⟨track, SurfaceIdentity.track?_surface hkey ▸ htrack, ?_⟩
      rw [heq]
      unfold refusesBinding at hrefuses
      split at hrefuses
      · cases hrefuses
      · split at hrefuses
        · cases hrefuses
        · rename_i hconfiguration
          exact not_not.mp hconfiguration
    · exact hfills slot trackId hslot

theorem fills_bindSlots {identity : SurfaceIdentity} (bindings : List Binding)
    {candidate candidate' : SortedMap ℕ ℕ}
    (h : s.bindSlots identity candidate bindings = .ok candidate')
    (hfills : ∀ slot trackId, candidate.lookup slot = some trackId → s.Fills identity slot trackId) :
    ∀ slot trackId, candidate'.lookup slot = some trackId → s.Fills identity slot trackId := by
  induction bindings generalizing candidate with
  | nil =>
    cases h
    exact hfills
  | cons binding bindings ih =>
    unfold bindSlots at h
    split at h
    · cases h
    · rename_i hbind
      exact ih h (fills_bindSlot hbind hfills)

theorem linked_activateTracks (hs : s.Linked) (identity : SurfaceIdentity) (expectedRevision : ℕ)
    (bindings : List Binding) : (s.activateTracks identity expectedRevision bindings).1.Linked := by
  have hs' := (Keeps.invalidateTopology s).linked hs
  unfold activateTracks
  dsimp only
  split
  · exact hs'
  rename_i surface hsurface
  split
  · exact hs'
  split
  · exact hs'
  · rename_i activeSlots hbind
    have hfills := fills_bindSlots bindings hbind fun slot trackId =>
      hs'.slots identity surface slot trackId hsurface
    split <;> exact linked_setSurface hs' (hs'.surfaces _ _ hsurface) hfills

theorem nodesShown_activateTracks (hs : s.NodesShown) (identity : SurfaceIdentity)
    (expectedRevision : ℕ) (bindings : List Binding) :
    (s.activateTracks identity expectedRevision bindings).1.NodesShown := by
  have hs' := (Keeps.invalidateTopology s).nodesShown hs
  unfold activateTracks
  dsimp only
  split
  · exact hs'
  · split
    · exact hs'
    · split
      · exact hs'
      · split <;> exact nodesShown_setSurface hs' _ _

/-! ### Commits -/

/-- The change takes a node that exists. -/
def takes (context : ContextIdentity) (identity : NodeIdentity) : NodeMutation P → Prop
  | .create _ => False
  | .update node => identity = ⟨context, node.nodeId⟩
  | .delete deleted => identity = deleted

instance (context : ContextIdentity) (identity : NodeIdentity) :
    DecidablePred (takes (P := P) context identity)
  | .create _ => inferInstanceAs (Decidable False)
  | .update _ => inferInstanceAs (Decidable (_ = _))
  | .delete _ => inferInstanceAs (Decidable (_ = _))

/-- An update turns its node to a surface that exists, or a later change takes the node again. -/
def TurnsToSurface (s : State P) (context : ContextIdentity) (later : List (NodeMutation P)) :
    NodeMutation P → Prop
  | .update node =>
    (s.surfaces.lookup (shownBy context.session node)).isSome ∨
      ∃ mutation ∈ later, takes context ⟨context, node.nodeId⟩ mutation
  | _ => True

instance (s : State P) (context : ContextIdentity) (later : List (NodeMutation P)) :
    DecidablePred (s.TurnsToSurface context later)
  | .create _ => inferInstanceAs (Decidable True)
  | .update _ => inferInstanceAs (Decidable (_ ∨ _))
  | .delete _ => inferInstanceAs (Decidable True)

def UpdatesShown (s : State P) (context : ContextIdentity) : List (NodeMutation P) → Prop
  | [] => True
  | mutation :: later => s.TurnsToSurface context later mutation ∧ UpdatesShown s context later

instance decidableUpdatesShown (s : State P) (context : ContextIdentity) :
    DecidablePred (s.UpdatesShown context)
  | [] => inferInstanceAs (Decidable True)
  | _ :: later =>
    have := decidableUpdatesShown s context later
    inferInstanceAs (Decidable (_ ∧ _))

/-- A commit's updates turn nodes to surfaces that exist. -/
def PointsToSurfaces (s : State P) : Request P → Prop
  | .commitTransaction context transactionId _ _ =>
    ∀ mutations ∈ s.staged context transactionId, s.UpdatesShown context mutations
  | _ => True

instance (s : State P) : DecidablePred s.PointsToSurfaces := by
  rintro ⟨⟩
  all_goals first
    | exact instDecidableTrue
    | exact inferInstanceAs (Decidable (∀ mutations ∈ s.staged _ _, s.UpdatesShown _ mutations))

/-- A node that is to stay shows its surface. -/
def ShownOrTaken (s : State P) (context : ContextIdentity) (mutations : List (NodeMutation P))
    (nodes : SortedMap NodeIdentity (SceneNode P.Value)) : Prop :=
  ∀ identity node, nodes.lookup identity = some node →
    (s.surfaces.lookup (shownBy context.session node)).isSome ∨
      ∃ mutation ∈ mutations, takes context identity mutation

/-- Nodes that the change does not take wait for the later ones. -/
theorem ShownOrTaken.skip {context : ContextIdentity} {mutation : NodeMutation P}
    {mutations : List (NodeMutation P)} {nodes : SortedMap NodeIdentity (SceneNode P.Value)}
    (h : s.ShownOrTaken context (mutation :: mutations) nodes) {identity : NodeIdentity}
    {node : SceneNode P.Value} (hnode : nodes.lookup identity = some node)
    (htakes : ¬ takes context identity mutation) :
    (s.surfaces.lookup (shownBy context.session node)).isSome ∨
      ∃ mutation ∈ mutations, takes context identity mutation := by
  rcases h identity node hnode with hshown | ⟨other, hother, htaken⟩
  · exact Or.inl hshown
  · rcases List.mem_cons.mp hother with rfl | hother
    · exact (htakes htaken).elim
    · exact Or.inr ⟨other, hother, htaken⟩

theorem shownOrTaken_applyMutation {context : ContextIdentity} {mutation : NodeMutation P}
    {mutations : List (NodeMutation P)} {nodes nodes' : SortedMap NodeIdentity (SceneNode P.Value)}
    (h : s.ShownOrTaken context (mutation :: mutations) nodes)
    (hupdates : s.UpdatesShown context (mutation :: mutations))
    (happly : s.applyMutation context nodes mutation = .ok nodes') :
    s.ShownOrTaken context mutations nodes' := by
  have hchanges := (changes_iff s context mutation).mpr happly
  cases mutation with
  | create =>
    obtain ⟨identity, -, -, ⟨_, _, hcontext, hsurface, hexists⟩, hlookup⟩ :=
      hchanges
    rw [SessionIdentity.context?_session hcontext] at hsurface
    rw [ContextIdentity.surface?_context hsurface] at hexists
    intro other found hfound
    rw [hlookup] at hfound
    split at hfound
    · cases hfound
      exact Or.inl hexists
    · exact h.skip hfound id
  | update node =>
    obtain ⟨_, hnames, -, hlookup⟩ := hchanges
    have hidentity := ContextIdentity.node?_context hnames.name
    intro other found hfound
    rw [hlookup] at hfound
    split at hfound
    · rename_i heq
      cases hfound
      rw [heq, hidentity]
      exact hupdates.1
    · rename_i hne
      exact h.skip hfound fun heq => hne (heq.trans hidentity.symm)
  | delete =>
    obtain ⟨-, -, hlookup⟩ := hchanges
    intro _ _ hfound
    rw [← eq_erase_iff.mp hlookup] at hfound
    obtain ⟨hne, hfound⟩ := lookup_erase_some hfound
    exact h.skip hfound hne

theorem shown_applyMutations {context : ContextIdentity} (mutations : List (NodeMutation P))
    {nodes nodes' : SortedMap NodeIdentity (SceneNode P.Value)}
    (h : s.ShownOrTaken context mutations nodes) (hupdates : s.UpdatesShown context mutations)
    (happly : s.applyMutations context nodes mutations = .ok nodes') :
    s.ShownOrTaken context [] nodes' := by
  induction mutations generalizing nodes with
  | nil =>
    cases happly
    exact h
  | cons mutation mutations ih =>
    unfold applyMutations at happly
    split at happly
    · cases happly
    · rename_i hmutation
      exact ih (shownOrTaken_applyMutation h hupdates hmutation) hupdates.2 happly

theorem applyMutations_invalidateTopology (s : State P) (context : ContextIdentity)
    (mutations : List (NodeMutation P)) (nodes : SortedMap NodeIdentity (SceneNode P.Value)) :
    s.invalidateTopology.applyMutations context nodes mutations =
      s.applyMutations context nodes mutations := by
  induction mutations generalizing nodes with
  | nil => rfl
  | cons mutation _ ih =>
    unfold applyMutations
    rw [show s.invalidateTopology.applyMutation context nodes mutation =
      s.applyMutation context nodes mutation by cases mutation <;> rfl]
    split
    · rfl
    · exact ih _

theorem commitTransaction_cases (s : State P) (context : ContextIdentity)
    (transactionId expectedTarget : ℕ) (expectedRevision : Option ℕ) :
    (s.commitTransaction context transactionId expectedTarget expectedRevision).1 =
        s.invalidateTopology ∨
      ∃ scene scene' mutations, s.scenes.lookup context.session = some scene ∧
        s.staged context transactionId = some mutations ∧
        s.applyMutations context scene.nodes mutations = .ok scene'.nodes ∧
        (s.commitTransaction context transactionId expectedTarget expectedRevision).1 =
          s.invalidateTopology.setScene context.session scene' := by
  unfold commitTransaction
  dsimp only
  split
  · exact Or.inl rfl
  rename_i scene hscene
  split
  · exact Or.inl rfl
  rename_i mutations hpending
  split
  · exact Or.inl rfl
  split
  · exact Or.inl rfl
  split
  · exact Or.inl rfl
  rename_i nodes happly
  split
  · exact Or.inl rfl
  refine Or.inr ⟨scene, _, mutations, hscene, ?_, ?_, rfl⟩
  · change (s.scenes.lookup context.session).bind _ = _
    rw [show s.scenes.lookup context.session = some scene from hscene]
    exact hpending
  · rw [← applyMutations_invalidateTopology]
    exact happly

theorem nodesShown_setScene (hs : s.NodesShown) {session : SessionIdentity} {scene : SessionScene P}
    (hnodes : ∀ identity node, scene.nodes.lookup identity = some node →
      (s.surfaces.lookup (shownBy session node)).isSome) :
    (s.setScene session scene).NodesShown := by
  intro other found identity node hfound hnode
  change (s.scenes.insert session scene).lookup other = some found at hfound
  rw [lookup_insert] at hfound
  split at hfound
  · rename_i heq
    cases hfound
    rw [heq]
    exact hnodes identity node hnode
  · exact hs other found identity node hfound hnode

theorem linked_setScene (hs : s.Linked) (session : SessionIdentity) (scene : SessionScene P) :
    (s.setScene session scene).Linked where
  tracks := hs.tracks
  surfaces identity surface hsurface := by
    change ((s.scenes.insert session scene).lookup _).isSome
    rw [lookup_insert]
    split
    · rfl
    · exact hs.surfaces identity surface hsurface
  slots := hs.slots

theorem linked_commitTransaction (hs : s.Linked) (context : ContextIdentity)
    (transactionId expectedTarget : ℕ) (expectedRevision : Option ℕ) :
    (s.commitTransaction context transactionId expectedTarget expectedRevision).1.Linked := by
  have hs' := (Keeps.invalidateTopology s).linked hs
  rcases commitTransaction_cases s context transactionId expectedTarget expectedRevision with
    h | ⟨_, _, _, _, _, _, h⟩
  · rw [h]
    exact hs'
  · rw [h]
    exact linked_setScene hs' _ _

theorem nodesShown_commitTransaction (hs : s.NodesShown) (context : ContextIdentity)
    (transactionId expectedTarget : ℕ) (expectedRevision : Option ℕ) (hpoints : s.PointsToSurfaces
      (.commitTransaction context transactionId expectedTarget expectedRevision)) :
    (s.commitTransaction context transactionId expectedTarget expectedRevision).1.NodesShown := by
  have hs' := (Keeps.invalidateTopology s).nodesShown hs
  rcases commitTransaction_cases s context transactionId expectedTarget expectedRevision with
    h | ⟨scene, _, mutations, hscene, hstaged, happly, h⟩
  · rw [h]
    exact hs'
  rw [h]
  have hshown : s.ShownOrTaken context mutations scene.nodes := fun identity node hnode =>
    Or.inl (hs context.session scene identity node hscene hnode)
  refine nodesShown_setScene hs' fun identity node hnode => ?_
  rcases shown_applyMutations mutations hshown (hpoints mutations hstaged) happly identity node
    hnode with hsurface | ⟨_, hmem, _⟩
  · exact hsurface
  · cases hmem

/-! ### All operations -/

theorem linked_perform (hs : s.Linked) (request : Request P) : (s.perform request).1.Linked := by
  by_cases hstructural : request.isStructural = false
  · exact (keeps_perform s request hstructural).linked hs
  cases request with
  | removeSession session => exact (restricts_removeSession s session).linked hs
  | detachSession session =>
    rcases restricts_detachSession s session with h | h
    · exact h.linked hs
    · exact h.linked hs
  | removeContexts session contexts => exact (restricts_removeContexts s session contexts).linked hs
  | createSurface identity definition => exact linked_createSurface hs identity definition
  | updateSurface identity revision generation replacement =>
    rcases updateSurface_cases s identity revision generation replacement with
      h | ⟨_, _, hsurface, h, hslots⟩
    · exact h.linked hs
    · change State.Linked (s.updateSurface _ _ _ _).1
      rw [h]
      exact linked_replaceSurface ((Keeps.invalidateCapture s).linked hs) hsurface hslots
  | destroySurface identity =>
    rcases restricts_destroySurface s identity with h | h
    · exact h.linked hs
    · exact h.linked hs
  | createTrack identity configuration => exact linked_createTrack hs identity configuration
  | destroyTrack identity => exact linked_destroyTrack hs identity
  | activateTracks identity revision bindings =>
    exact linked_activateTracks hs identity revision bindings
  | commitTransaction context transactionId expectedTarget expectedRevision =>
    exact linked_commitTransaction hs context transactionId expectedTarget expectedRevision
  | _ => exact (hstructural rfl).elim

theorem nodesShown_perform (hs : s.NodesShown) {request : Request P}
    (hpoints : s.PointsToSurfaces request) : (s.perform request).1.NodesShown := by
  by_cases hstructural : request.isStructural = false
  · exact (keeps_perform s request hstructural).nodesShown hs
  cases request with
  | removeSession session => exact (restricts_removeSession s session).nodesShown hs
  | detachSession session =>
    rcases restricts_detachSession s session with h | h
    · exact h.nodesShown hs
    · exact h.nodesShown hs
  | removeContexts session contexts =>
    exact (restricts_removeContexts s session contexts).nodesShown hs
  | createSurface identity definition => exact nodesShown_createSurface hs identity definition
  | updateSurface identity revision generation replacement =>
    rcases updateSurface_cases s identity revision generation replacement with
      h | ⟨_, _, _, h, _⟩
    · exact h.nodesShown hs
    · change State.NodesShown (s.updateSurface _ _ _ _).1
      rw [h]
      exact nodesShown_setSurface ((Keeps.invalidateCapture s).nodesShown hs) _ _
  | destroySurface identity =>
    rcases restricts_destroySurface s identity with h | h
    · exact h.nodesShown hs
    · exact h.nodesShown hs
  | createTrack identity configuration => exact nodesShown_createTrack hs identity configuration
  | destroyTrack identity => exact nodesShown_destroyTrack hs identity
  | activateTracks identity revision bindings =>
    exact nodesShown_activateTracks hs identity revision bindings
  | commitTransaction context transactionId expectedTarget expectedRevision =>
    exact nodesShown_commitTransaction hs context transactionId expectedTarget expectedRevision
      hpoints
  | _ => exact (hstructural rfl).elim

theorem linked_new (target : PresentationTarget P) : (new target).Linked where
  tracks _ _ h := by cases h
  surfaces _ _ h := by cases h
  slots _ _ _ _ h := by cases h

theorem linked_performAll (hs : s.Linked) (requests : List (Request P)) :
    (s.performAll requests).Linked := by
  induction requests generalizing s with
  | nil => exact hs
  | cons request _ ih => exact ih (linked_perform hs request)

theorem nodesShown_performAll (hs : s.NodesShown) {requests : List (Request P)}
    (hrun : Along PointsToSurfaces s requests) : (s.performAll requests).NodesShown := by
  induction requests generalizing s with
  | nil => exact hs
  | cons _ _ ih => exact ih (nodesShown_perform hs hrun.1) hrun.2

/-- Every reference of a reachable scene is to something that exists. -/
theorem references_hold (target : PresentationTarget P) (requests : List (Request P))
    (hrun : Along PointsToSurfaces (new target) requests) :
    ((new target).performAll requests).Linked ∧ ((new target).performAll requests).NodesShown := by
  refine ⟨linked_performAll (linked_new target) requests, nodesShown_performAll ?_ hrun⟩
  intro _ _ _ _ h
  cases h

section Dangling

def viewer : SessionIdentity := ⟨1, 1⟩

def viewerContext : ContextIdentity := ⟨viewer, 1⟩

def nodeShowing (surfaceId : ℕ) : SceneNode Protocol.plain.Value where
  owningContextId := 1
  nodeId := 1
  surfaceContextId := 1
  surfaceId := surfaceId
  geometry := []

/-- A node is created on the one surface, and an update turns it to the second. -/
def turningRun (surfaceId : ℕ) : List (Request Protocol.plain) :=
  [.registerSession viewer 1, .createSurface ⟨viewerContext, 1⟩ { contextId := 1, surfaceId := 1 },
    .beginTransaction viewerContext 1, .queueMutation viewerContext 1 (.create (nodeShowing 1)),
    .commitTransaction viewerContext 1 1 none,
    .beginTransaction viewerContext 2,
    .queueMutation viewerContext 2 (.update (nodeShowing surfaceId)),
    .commitTransaction viewerContext 2 1 none]

/-- The second node of the run shows no surface. -/
theorem update_dangles :
    ¬ ∀ (target : PresentationTarget Protocol.plain) (requests : List (Request Protocol.plain)),
      ((new target).performAll requests).Linked ∧
        ((new target).performAll requests).NodesShown := by
  intro h
  have hshown := (h .plain (turningRun 2)).2
  generalize hs : (new .plain).performAll (turningRun 2) = s at hshown
  have hscene : ((s.scenes.lookup viewer).bind (·.nodes.lookup ⟨viewerContext, 1⟩)) =
      some (nodeShowing 2) := by
    rw [← hs]
    decide +kernel
  obtain ⟨scene, hscene, hnode⟩ := Option.bind_eq_some_iff.mp hscene
  have hsurface := hshown viewer scene _ _ hscene hnode
  rw [← hs] at hsurface
  revert hsurface
  decide +kernel

theorem references_hold_turning : Along PointsToSurfaces (new .plain) (turningRun 1) ∧
    ((new .plain).performAll (turningRun 1)).Linked ∧
    ((new .plain).performAll (turningRun 1)).NodesShown := by
  have hrun : Along PointsToSurfaces (new .plain) (turningRun 1) := by decide +kernel
  exact ⟨hrun, references_hold .plain (turningRun 1) hrun⟩

end Dangling

end Vivido.Scene.State
