import Vivido.Scene.Works
import Vivido.Scene.Revisions

/-!
Which objects an operation may add to a scene. Only four operations add any: a
surface, a track, a transaction, or the nodes that a commit creates.
-/

namespace Vivido.Scene

open SortedMap Option

variable {P : Protocol}

/-- The operation may add to the scene. -/
def Request.isAdding : Request P → Bool
  | .createSurface _ _ | .createTrack _ _ | .beginTransaction _ _ | .commitTransaction _ _ _ _ =>
    true
  | _ => false

namespace State

variable {s s' s'' : State P}

/-- What a session's scene has staged under a key. -/
def pendingAt (s : State P) (session : SessionIdentity) (key : ContextIdentity ×ₗ ℕ) :
    Option (List (NodeMutation P)) :=
  (s.scenes.lookup session).bind (·.pending.lookup key)

/-- No transaction is there that was not there before. -/
def NoneBegins (s s' : State P) : Prop :=
  ∀ session key, (s'.pendingAt session key).isSome → (s.pendingAt session key).isSome

namespace NoneBegins

theorem of_scenes (h : s'.scenes = s.scenes) : NoneBegins s s' := by
  intro _ _ hkey
  unfold pendingAt at hkey ⊢
  rwa [h] at hkey

theorem refl (s : State P) : NoneBegins s s := of_scenes rfl

theorem trans (h : NoneBegins s s') (h' : NoneBegins s' s'') : NoneBegins s s'' :=
  fun session key hkey => h session key (h' session key hkey)

theorem of_retracks (h : Retracks s s') : NoneBegins s s' := of_scenes (by rw [h.others])

theorem onTrack {α : Type} (identity : TrackIdentity)
    (work : Track P → Track P × Except String α) (missing : String) :
    NoneBegins s (s.onTrack identity work missing).1 :=
  of_scenes (scenes_onTrack s identity work missing)

/-- A session's scene is replaced by one with no more transactions. -/
theorem of_insert {session : SessionIdentity} {scene scene' : SessionScene P}
    (h : s.scenes.lookup session = some scene)
    (hpending : ∀ key, (scene'.pending.lookup key).isSome → (scene.pending.lookup key).isSome)
    (hscenes : s'.scenes = s.scenes.insert session scene') : NoneBegins s s' := by
  intro _ key hkey
  unfold pendingAt at hkey ⊢
  rw [hscenes, lookup_insert] at hkey
  split at hkey
  · rename_i heq
    rw [heq, h]
    exact hpending key hkey
  · exact hkey

theorem of_newScene {session : SessionIdentity} {scene : SessionScene P}
    (h : scene.pending = .empty) (hscenes : s'.scenes = s.scenes.insert session scene) :
    NoneBegins s s' := by
  intro _ _ hkey
  unfold pendingAt at hkey ⊢
  rw [hscenes, lookup_insert] at hkey
  split at hkey
  · rw [bind_some, h] at hkey
    cases hkey
  · exact hkey

/-- All scenes change, but for what they have staged. -/
theorem of_mapScenes (f : SessionIdentity → SessionScene P → SessionScene P)
    (hpending : ∀ session scene, (f session scene).pending = scene.pending)
    (hscenes : s'.scenes = s.scenes.mapValues f) : NoneBegins s s' := by
  intro session _ hkey
  unfold pendingAt at hkey ⊢
  rw [hscenes, lookup_mapValues] at hkey
  cases hscene : s.scenes.lookup session with
  | none =>
    rw [hscene] at hkey
    cases hkey
  | some =>
    rw [hscene, map_some, bind_some, hpending] at hkey
    exact hkey

theorem of_erase {session : SessionIdentity} (hscenes : s'.scenes = s.scenes.erase session) :
    NoneBegins s s' := by
  intro _ _ hkey
  unfold pendingAt at hkey ⊢
  rw [hscenes, lookup_erase] at hkey
  split at hkey
  · cases hkey
  · exact hkey

theorem removeAnchors (s : State P) (removed : List AnchorIdentity) :
    NoneBegins s (s.removeAnchors removed) := by
  unfold State.removeAnchors
  split
  · exact refl s
  exact of_mapScenes
    (fun session scene =>
      { scene with
        nodes := scene.nodes.filter fun entry =>
          (nodeAnchorIdentity session entry.2).all (· ∉ removed) })
    (fun _ _ => rfl) rfl

theorem of_shifts {request : Request P} (h : Shifts request s s') : NoneBegins s s' := by
  rcases h with rfl | ⟨anchors, alternateScreen, _, rfl, -⟩
  · exact refl _
  · have hmoved : NoneBegins s { s.invalidateTopology with anchors, alternateScreen } :=
      of_scenes rfl
    exact hmoved.trans (removeAnchors _ _)

theorem retargeted (s : State P) (generation : ℕ) (target : SessionScene P → ℕ) :
    NoneBegins s (s.retargeted generation target) :=
  of_mapScenes (fun _ scene => { scene with targetGeneration := target scene }) (fun _ _ => rfl) rfl

theorem registerSession (s : State P) (session : SessionIdentity) (targetGeneration : ℕ) :
    NoneBegins s (s.registerSession session targetGeneration).1 := by
  rcases s.registerSession_cases session targetGeneration with h | h | ⟨_, _, -, h⟩
  all_goals rw [h]
  · exact refl s
  · exact of_scenes rfl
  · exact (retargeted s _ _).trans (of_newScene rfl rfl)

theorem removeContexts (s : State P) (session : SessionIdentity) (contexts : List ℕ) :
    NoneBegins s (s.removeContexts session contexts) := by
  unfold State.removeContexts
  dsimp only
  split
  · exact of_scenes rfl
  rename_i scene hscene
  refine of_insert hscene (fun key hkey => ?_) rfl
  obtain ⟨_, hmutations⟩ := Option.isSome_iff_exists.mp hkey
  dsimp only at hmutations
  rw [lookup_filter, filter_eq_some_iff] at hmutations
  exact isSome_of_eq_some hmutations.1

theorem detachSession (s : State P) (session : SessionIdentity) :
    NoneBegins s (s.detachSession session) := by
  unfold State.detachSession
  dsimp only
  split
  · exact of_scenes rfl
  · exact of_erase rfl

theorem destroySurface (s : State P) (identity : SurfaceIdentity) :
    NoneBegins s (s.destroySurface identity).1 := by
  rcases s.destroySurface_cases identity with h | h | ⟨_, _, hscene, h⟩
  all_goals rw [h]
  · exact of_scenes rfl
  · exact of_scenes rfl
  · refine of_insert hscene ?_ rfl
    exact fun _ h => h

theorem queueMutation (s : State P) (context : ContextIdentity) (transactionId : ℕ)
    (mutation : NodeMutation P) :
    NoneBegins s (s.queueMutation context transactionId mutation).1 := by
  unfold State.queueMutation
  split
  · exact refl s
  rename_i scene hscene
  split
  · exact refl s
  rename_i mutations hmutations
  refine of_insert hscene (fun key hkey => ?_) rfl
  dsimp only at hkey
  rw [lookup_insert] at hkey
  split at hkey
  · rename_i heq
    rw [heq, hmutations]
    rfl
  · exact hkey

theorem abortTransaction (s : State P) (context : ContextIdentity) (transactionId : ℕ) :
    NoneBegins s (s.abortTransaction context transactionId).1 := by
  unfold State.abortTransaction
  split
  · exact refl s
  · rename_i scene hscene
    refine of_insert hscene (fun key hkey => ?_) rfl
    obtain ⟨_, hmutations⟩ := Option.isSome_iff_exists.mp hkey
    exact isSome_of_eq_some (lookup_erase_some hmutations).2

end NoneBegins

/-- No operation but the beginning of a transaction and a commit touches what is staged, but to
take some of it away. -/
theorem noneBegins_perform (s : State P) (request : Request P)
    (hbegin : ∀ context transactionId, request ≠ .beginTransaction context transactionId)
    (hcommit : ∀ context transactionId expectedTarget expectedRevision,
      request ≠ .commitTransaction context transactionId expectedTarget expectedRevision) :
    NoneBegins s (s.perform request).1 := by
  by_cases hretracking : request.isRetracking = true
  · exact .of_retracks (retracks_perform s request hretracking)
  cases request with
  | registerSession session targetGeneration => exact .registerSession s session targetGeneration
  | advanceTargetGeneration => exact .retargeted s _ _
  | removeSession => exact .of_erase rfl
  | detachSession session => exact .detachSession s session
  | removeContexts session contexts => exact .removeContexts s session contexts
  | addAnchor identity anchor =>
    change NoneBegins s (s.addAnchor identity anchor).1
    unfold addAnchor
    dsimp only
    split <;> exact .of_scenes rfl
  | applyAnchorResize | scrollAnchors | clearTerminal | setAlternateScreen =>
    exact .of_shifts (shifts_perform s _ rfl)
  | suspendSession | createSurface | updateSurface | createTrack | destroyTrack | activateTracks
  | advanceChannel | detachChannel | loseTrack | flushPlayback =>
    exact .of_scenes (reshapes_perform s _ rfl).scenes
  | destroySurface identity => exact .destroySurface s identity
  | acceptChannel identity generation bytes records =>
    change NoneBegins s (s.acceptChannel identity generation bytes records).1
    unfold acceptChannel
    split
    · exact .refl s
    · exact .onTrack _ _ _
  | admitMedia identity media recordSequence =>
    change NoneBegins s (s.admitMedia identity media recordSequence).1
    unfold admitMedia
    split
    · exact .refl s
    · exact .onTrack _ _ _
  | publishDecodedFrame =>
    exact .of_scenes (scenes_publishDecodedFrame s _ _ _)
  | beginTransaction context transactionId => exact absurd rfl (hbegin context transactionId)
  | queueMutation => exact .queueMutation s _ _ _
  | abortTransaction => exact .abortTransaction s _ _
  | commitTransaction context transactionId expectedTarget expectedRevision =>
    exact absurd rfl (hcommit context transactionId expectedTarget expectedRevision)
  | snapshot => exact .of_scenes rfl
  | _ => exact (hretracking rfl).elim

/-! ### Operations that add nothing -/

/-- No surface, track, node or transaction is there that was not there before. -/
structure Shrinks (s s' : State P) : Prop where
  surfaces : ∀ key, (s'.surfaces.lookup key).isSome → (s.surfaces.lookup key).isSome
  tracks : ∀ key, (s'.tracks.lookup key).isSome → (s.tracks.lookup key).isSome
  nodes : ∀ session scene' key, s'.scenes.lookup session = some scene' →
    (scene'.nodes.lookup key).isSome →
      ∃ scene, s.scenes.lookup session = some scene ∧ (scene.nodes.lookup key).isSome
  pending : NoneBegins s s'

namespace Shrinks

theorem of_scenes (hsurfaces : ∀ key, (s'.surfaces.lookup key).isSome →
      (s.surfaces.lookup key).isSome)
    (htracks : ∀ key, (s'.tracks.lookup key).isSome → (s.tracks.lookup key).isSome)
    (hscenes : s'.scenes = s.scenes) : Shrinks s s' where
  surfaces := hsurfaces
  tracks := htracks
  nodes _ scene' _ hscene hnode := ⟨scene', hscenes ▸ hscene, hnode⟩
  pending := .of_scenes hscenes

theorem refl (s : State P) : Shrinks s s := of_scenes (fun _ h => h) (fun _ h => h) rfl

theorem invalidateTopology (s : State P) : Shrinks s s.invalidateTopology :=
  of_scenes (fun _ h => h) (fun _ h => h) rfl

theorem of_keeps (h : Keeps s s') (hpending : NoneBegins s s') : Shrinks s s' where
  surfaces key hkey := h.surfaces ▸ hkey
  tracks key hkey := by
    have hsome := congrArg Option.isSome (h.tracks key)
    rw [isSome_map, isSome_map] at hsome
    rwa [← hsome]
  nodes session scene' key hscene hnode := by
    obtain ⟨node, hnode⟩ := Option.isSome_iff_exists.mp hnode
    obtain ⟨scene, hold, hnode⟩ := h.nodes session scene' key node hscene hnode
    exact ⟨scene, hold, isSome_of_eq_some hnode⟩
  pending := hpending

theorem of_restricts {keep : SurfaceIdentity → Prop} (h : Restricts keep s s')
    (hpending : NoneBegins s s') : Shrinks s s' where
  surfaces key hkey := by
    obtain ⟨surface, hsurface⟩ := Option.isSome_iff_exists.mp hkey
    exact isSome_of_eq_some (h.surfaces key surface hsurface).2
  tracks key hkey := by
    obtain ⟨track, htrack⟩ := Option.isSome_iff_exists.mp hkey
    exact isSome_of_eq_some (h.tracks key track htrack).2
  nodes session scene' key hscene hnode := by
    obtain ⟨node, hnode⟩ := Option.isSome_iff_exists.mp hnode
    obtain ⟨-, scene, hold, hnode⟩ := h.nodes session scene' key node hscene hnode
    exact ⟨scene, hold, isSome_of_eq_some hnode⟩
  pending := hpending

end Shrinks

theorem isSome_insert {κ α : Type*} [LinearOrder κ] {m : SortedMap κ α} {key : κ} {value : α}
    (h : (m.lookup key).isSome) (other : κ) (hother : ((m.insert key value).lookup other).isSome) :
    (m.lookup other).isSome := by
  rw [lookup_insert] at hother
  split at hother
  · rename_i heq
    rwa [heq]
  · exact hother

variable (s : State P) (identity : SurfaceIdentity) (context : ContextIdentity)

theorem isSome_updateSurface (expectedRevision expectedGeneration : ℕ)
    (replacement : SurfaceDefinition P.Value) (key : SurfaceIdentity)
    (h : ((s.updateSurface identity expectedRevision expectedGeneration
      replacement).1.surfaces.lookup key).isSome) : (s.surfaces.lookup key).isSome := by
  unfold updateSurface at h
  split at h
  · exact h
  split at h
  · exact h
  dsimp only at h
  split at h
  · exact h
  rename_i surface hsurface
  have hset : ∀ surface' : Surface P,
      ((s.surfaces.insert identity surface').lookup key).isSome →
        (s.surfaces.lookup key).isSome :=
    fun surface' => isSome_insert (isSome_of_eq_some hsurface) key
  split at h
  · exact h
  · split at h
    · exact h
    · split at h
      · split at h <;> exact hset _ h
      · exact hset _ h

theorem isSome_activateTracks (expectedRevision : ℕ) (bindings : List Binding)
    (key : SurfaceIdentity)
    (h : ((s.activateTracks identity expectedRevision bindings).1.surfaces.lookup key).isSome) :
    (s.surfaces.lookup key).isSome := by
  unfold activateTracks at h
  dsimp only at h
  split at h
  · exact h
  rename_i surface hsurface
  have hsome := isSome_of_eq_some hsurface
  split at h
  · exact h
  · split at h
    · exact h
    · split at h <;> exact isSome_insert hsome key h

/-- A track goes, and its surface at most frees a slot. -/
theorem shrinks_destroyTrack (identity : TrackIdentity) :
    Shrinks s (s.destroyTrack identity).1 := by
  have hgone : ∀ t : State P, t.tracks = s.tracks.erase identity →
      ∀ key, (t.tracks.lookup key).isSome → (s.tracks.lookup key).isSome := by
    intro t htracks _ hkey
    obtain ⟨_, htrack⟩ := Option.isSome_iff_exists.mp hkey
    rw [htracks] at htrack
    exact isSome_of_eq_some (lookup_erase_some htrack).2
  refine .of_scenes ?_ ?_ (reshapes_perform s (.destroyTrack identity) rfl).scenes
  · unfold destroyTrack
    dsimp only
    split
    · exact fun _ h => h
    split
    · exact fun _ h => h
    rename_i surface hsurface
    have hsome : (s.surfaces.lookup identity.surface).isSome :=
      isSome_of_eq_some hsurface
    split
    · split <;> exact isSome_insert hsome
    · exact isSome_insert hsome
  · unfold destroyTrack
    dsimp only
    split
    · exact fun _ h => h
    · split
      · exact hgone _ rfl
      · split
        · split <;> exact hgone _ rfl
        · exact hgone _ rfl

theorem shrinks_perform (request : Request P) (h : request.isAdding = false) :
    Shrinks s (s.perform request).1 := by
  have hpending : NoneBegins s (s.perform request).1 := by
    refine noneBegins_perform s request ?_ ?_
    · rintro context transactionId rfl
      cases h
    · rintro _ _ _ _ rfl
      cases h
  by_cases hstructural : request.isStructural = false
  · exact .of_keeps (keeps_perform s request hstructural) hpending
  cases request with
  | removeSession session => exact .of_restricts (restricts_removeSession s session) hpending
  | detachSession session =>
    rcases restricts_detachSession s session with hkeeps | hrestricts
    · exact .of_keeps hkeeps hpending
    · exact .of_restricts hrestricts hpending
  | removeContexts session contexts =>
    exact .of_restricts (restricts_removeContexts s session contexts) hpending
  | updateSurface identity revision generation replacement =>
    refine .of_scenes (isSome_updateSurface s identity revision generation replacement) ?_
      (resurfaces_updateSurface s _ _ _ _).reshapes.scenes
    exact fun key hkey => (resurfaces_updateSurface s _ _ _ _).tracks ▸ hkey
  | destroySurface identity =>
    rcases restricts_destroySurface s identity with hkeeps | hrestricts
    · exact .of_keeps hkeeps hpending
    · exact .of_restricts hrestricts hpending
  | destroyTrack identity => exact shrinks_destroyTrack s identity
  | activateTracks identity revision bindings =>
    refine .of_scenes (isSome_activateTracks s identity revision bindings) ?_
      (resurfaces_activateTracks s _ _ _).reshapes.scenes
    exact fun key hkey => (resurfaces_activateTracks s _ _ _).tracks ▸ hkey
  | createSurface | createTrack | beginTransaction | commitTransaction => cases h
  | _ => exact absurd rfl hstructural

/-! ### Operations that add -/

/-- A surface can be created. -/
def AdmitsSurface (s : State P) (identity : SurfaceIdentity)
    (definition : SurfaceDefinition P.Value) : Prop :=
  P.validSurface definition = true ∧ (s.target.validateSurface definition).isNone ∧
    definition.contextId = identity.context.contextId ∧
    definition.surfaceId = identity.surfaceId ∧
    (s.scenes.lookup identity.context.session).isSome ∧ (s.surfaces.lookup identity).isNone

/-- A track can be created. -/
def AdmitsTrack (s : State P) (identity : TrackIdentity) (configuration : TrackConfiguration) :
    Prop :=
  (refusesConfiguration (P := P) identity configuration).isNone ∧
    (s.surfaces.lookup identity.surface).isSome ∧ (s.tracks.lookup identity).isNone

/-- A transaction can be begun. -/
def AdmitsTransaction (s : State P) (context : ContextIdentity) (transactionId : ℕ) : Prop :=
  transactionId ≠ 0 ∧ (s.scenes.lookup context.session).isSome ∧
    (s.staged context transactionId).isNone

instance (s : State P) (identity : SurfaceIdentity) (definition : SurfaceDefinition P.Value) :
    Decidable (s.AdmitsSurface identity definition) :=
  inferInstanceAs (Decidable (_ ∧ _))

instance (s : State P) (identity : TrackIdentity) (configuration : TrackConfiguration) :
    Decidable (s.AdmitsTrack identity configuration) :=
  inferInstanceAs (Decidable (_ ∧ _))

instance (s : State P) (context : ContextIdentity) (transactionId : ℕ) :
    Decidable (s.AdmitsTransaction context transactionId) :=
  inferInstanceAs (Decidable (_ ∧ _))

/-- The changes of a commit that goes through. -/
def committed (s : State P) (context : ContextIdentity) (transactionId expectedTarget : ℕ)
    (expectedRevision : Option ℕ) : Option (List (NodeMutation P)) :=
  (s.scenes.lookup context.session).bind fun scene =>
    (scene.pending.lookup (toLex (context, transactionId))).filter fun mutations =>
      scene.targetGeneration = expectedTarget ∧ ¬ expectedRevision.any (· ≠ scene.revision) ∧
        (s.applyMutations context scene.nodes mutations).isOk ∧ (P.advance scene.revision).isSome

theorem createSurface_cases (definition : SurfaceDefinition P.Value) :
    s.AdmitsSurface identity definition ∧ (∃ surface, (s.createSurface identity definition).1 =
        s.invalidateTopology.setSurface identity surface) ∨ ¬ s.AdmitsSurface identity definition ∧
        Shrinks s (s.createSurface identity definition).1 := by
  unfold createSurface AdmitsSurface
  split
  · rename_i hvalid
    exact Or.inr ⟨fun h => hvalid h.1, .refl s⟩
  rename_i hvalid
  split
  · rename_i hrefused
    refine Or.inr ⟨fun h => ?_, .refl s⟩
    rw [hrefused] at h
    cases h.2.1
  · rename_i haccepted
    split
    · rename_i howner
      exact Or.inr ⟨fun h => howner.elim (· h.2.2.1) (· h.2.2.2.1), .refl s⟩
    rename_i howner
    rw [not_or, not_not, not_not] at howner
    dsimp only
    split
    · rename_i hnone
      refine Or.inr ⟨fun h => ?_, .invalidateTopology s⟩
      rw [isNone_iff_eq_none] at hnone
      rw [show s.scenes.lookup identity.context.session = none from hnone] at h
      cases h.2.2.2.2.1
    · rename_i hscene
      split
      · rename_i hlive
        refine Or.inr ⟨fun h => ?_, .invalidateTopology s⟩
        rw [show s.invalidateTopology.surfaces.lookup identity = none from
          Option.isNone_iff_eq_none.mp h.2.2.2.2.2] at hlive
        cases hlive
      · rename_i hfree
        refine Or.inl ⟨⟨not_not.mp hvalid, ?_, howner.1, howner.2, ?_, ?_⟩, _, rfl⟩
        · rw [haccepted]
          rfl
        · exact Option.isSome_iff_ne_none.mpr fun hnone =>
            hscene (Option.isNone_iff_eq_none.mpr hnone)
        · exact Option.isNone_iff_eq_none.mpr (Option.not_isSome_iff_eq_none.mp hfree)

theorem createTrack_admits (identity : TrackIdentity) (configuration : TrackConfiguration) :
    s.AdmitsTrack identity configuration ∧ (∃ track, (s.createTrack identity configuration).1 =
        s.invalidateTopology.setTrack identity track) ∨ ¬ s.AdmitsTrack identity configuration ∧
        Shrinks s (s.createTrack identity configuration).1 := by
  unfold createTrack AdmitsTrack
  split
  · rename_i hrefused
    refine Or.inr ⟨fun h => ?_, .refl s⟩
    rw [hrefused] at h
    cases h.1
  · rename_i haccepted
    dsimp only
    split
    · rename_i hnone
      refine Or.inr ⟨fun h => ?_, .invalidateTopology s⟩
      rw [isNone_iff_eq_none] at hnone
      rw [show s.surfaces.lookup identity.surface = none from hnone] at h
      cases h.2.1
    · rename_i hsurface
      split
      · rename_i hlive
        refine Or.inr ⟨fun h => ?_, .invalidateTopology s⟩
        rw [show s.invalidateTopology.tracks.lookup identity = none from
          Option.isNone_iff_eq_none.mp h.2.2] at hlive
        cases hlive
      · rename_i hfree
        refine Or.inl ⟨⟨?_, ?_, ?_⟩, _, rfl⟩
        · rw [haccepted]
          rfl
        · exact Option.isSome_iff_ne_none.mpr fun hnone =>
            hsurface (Option.isNone_iff_eq_none.mpr hnone)
        · exact Option.isNone_iff_eq_none.mpr (Option.not_isSome_iff_eq_none.mp hfree)

/-- A transaction that is there already is begun anew, with nothing staged. -/
theorem beginTransaction_cases (transactionId : ℕ) :
    s.AdmitsTransaction context transactionId ∧ (∃ scene,
        s.scenes.lookup context.session = some scene ∧
        (scene.pending.lookup (toLex (context, transactionId))).isNone ∧
        (s.beginTransaction context transactionId).1 = s.setPending context.session scene
          (scene.pending.insert (toLex (context, transactionId)) [])) ∨
      ¬ s.AdmitsTransaction context transactionId ∧
        Shrinks s (s.beginTransaction context transactionId).1 := by
  by_cases hzero : transactionId = 0
  · refine Or.inr ⟨fun h => h.1 hzero, ?_⟩
    unfold beginTransaction
    rw [if_pos hzero]
    exact .refl s
  · cases hscene : s.scenes.lookup context.session with
    | none =>
      refine Or.inr ⟨fun h => ?_, ?_⟩
      · have hsome := h.2.1
        rw [hscene] at hsome
        cases hsome
      · unfold beginTransaction
        rw [if_neg hzero, hscene]
        exact .refl s
    | some scene =>
      have hstaged : s.staged context transactionId =
          scene.pending.lookup (toLex (context, transactionId)) := by
        unfold staged
        rw [hscene, bind_some]
      have hbegun : (s.beginTransaction context transactionId).1 =
          s.setPending context.session scene
            (scene.pending.insert (toLex (context, transactionId)) []) := by
        unfold beginTransaction
        rw [if_neg hzero, hscene]
      by_cases hnew : (scene.pending.lookup (toLex (context, transactionId))).isNone = true
      · refine Or.inl ⟨⟨hzero, ?_, hstaged ▸ hnew⟩, scene, rfl, hnew, hbegun⟩
        rw [hscene]
        rfl
      · refine Or.inr ⟨fun h => hnew (hstaged ▸ h.2.2), ?_⟩
        rw [hbegun]
        refine .of_keeps (.setScene hscene rfl) (.of_insert hscene (isSome_insert ?_) rfl)
        exact Option.isSome_iff_ne_none.mpr fun hnone =>
          hnew (Option.isNone_iff_eq_none.mpr hnone)

theorem commitTransaction_committed (transactionId expectedTarget : ℕ)
    (expectedRevision : Option ℕ) :
    (∃ scene nodes revision mutations, s.scenes.lookup context.session = some scene ∧
        s.committed context transactionId expectedTarget expectedRevision = some mutations ∧
        (scene.pending.lookup (toLex (context, transactionId))).isSome ∧
        s.applyMutations context scene.nodes mutations = .ok nodes ∧
        (s.commitTransaction context transactionId expectedTarget expectedRevision).1 =
          s.invalidateTopology.setScene context.session { scene with
              revision, nodes, pending := scene.pending.erase (toLex (context, transactionId)) }) ∨
      s.committed context transactionId expectedTarget expectedRevision = none ∧
        (s.commitTransaction context transactionId expectedTarget expectedRevision).1 =
          s.invalidateTopology := by
  unfold commitTransaction committed
  dsimp only
  rw [show s.invalidateTopology.scenes = s.scenes from rfl]
  cases hscene : s.scenes.lookup context.session with
  | none => exact Or.inr ⟨rfl, rfl⟩
  | some scene =>
    dsimp only [bind_some]
    cases hpending : scene.pending.lookup (toLex (context, transactionId)) with
    | none => exact Or.inr ⟨rfl, rfl⟩
    | some mutations =>
      dsimp only
      rw [applyMutations_invalidateTopology, filter_some]
      by_cases hgoes : scene.targetGeneration = expectedTarget ∧
          ¬ expectedRevision.any (· ≠ scene.revision) ∧
          (s.applyMutations context scene.nodes mutations).isOk ∧
          (P.advance scene.revision).isSome
      · obtain ⟨htarget, hrevision, happly, hadvance⟩ := hgoes
        obtain ⟨revision, hadvance⟩ := Option.isSome_iff_exists.mp hadvance
        cases hnodes : s.applyMutations context scene.nodes mutations with
        | error =>
          rw [hnodes] at happly
          cases happly
        | ok nodes =>
          refine Or.inl ⟨scene, nodes, revision, mutations, rfl, ?_, ?_, hnodes, ?_⟩
          · refine if_pos (decide_eq_true ⟨htarget, hrevision, rfl, ?_⟩)
            rw [hadvance]
            rfl
          · rw [hpending]
            rfl
          · rw [if_neg (not_not.mpr htarget), if_neg hrevision]
            dsimp only
            rw [hadvance]
      · refine Or.inr ⟨if_neg fun h => hgoes (of_decide_eq_true h), ?_⟩
        split
        · rfl
        rename_i htarget
        split
        · rfl
        rename_i hrevision
        split
        · rfl
        rename_i nodes happly
        split
        · rfl
        rename_i revision hadvance
        refine (hgoes ⟨not_not.mp htarget, hrevision, ?_, ?_⟩).elim
        · rw [happly]
          rfl
        · rw [hadvance]
          rfl

/-- Only its creation brings a surface. -/
theorem surface_of_perform (request : Request P) {key : SurfaceIdentity}
    (h : ((s.perform request).1.surfaces.lookup key).isSome) :
    (s.surfaces.lookup key).isSome ∨ ∃ definition, request = .createSurface key definition := by
  by_cases hadding : request.isAdding = false
  · exact Or.inl ((shrinks_perform s request hadding).surfaces key h)
  cases request with
  | createSurface identity definition =>
    change ((s.createSurface identity definition).1.surfaces.lookup key).isSome at h
    rcases createSurface_cases s identity definition with ⟨-, surface, heq⟩ | ⟨-, hshrinks⟩
    · rw [heq] at h
      change ((s.surfaces.insert identity surface).lookup key).isSome at h
      rw [lookup_insert] at h
      split at h
      · rename_i hkey
        exact Or.inr ⟨definition, by rw [hkey]⟩
      · exact Or.inl h
    · exact Or.inl (hshrinks.surfaces key h)
  | createTrack identity configuration =>
    change ((s.createTrack identity configuration).1.surfaces.lookup key).isSome at h
    rcases createTrack_admits s identity configuration with ⟨-, _, heq⟩ | ⟨-, hshrinks⟩
    · rw [heq] at h
      exact Or.inl h
    · exact Or.inl (hshrinks.surfaces key h)
  | beginTransaction =>
    exact Or.inl ((Keeps.of_stages (stages_perform s (.beginTransaction _ _) rfl)).surfaces ▸ h)
  | commitTransaction context transactionId expectedTarget expectedRevision =>
    change ((s.commitTransaction _ _ _ _).1.surfaces.lookup key).isSome at h
    rcases commitTransaction_committed s context transactionId expectedTarget expectedRevision with
      ⟨_, _, _, _, -, -, -, -, heq⟩ | ⟨-, heq⟩ <;>
    · rw [heq] at h
      exact Or.inl h
  | _ => exact absurd rfl hadding

end State

end Vivido.Scene
