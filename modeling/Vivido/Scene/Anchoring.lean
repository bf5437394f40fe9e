import Vivido.Scene.Works

/-!
The anchors of a scene. Only one operation adds any. Each of the others moves
anchors or takes them away, and an anchor that goes is kept as gone until its
context or its session goes.
-/

namespace Vivido.Scene

variable {P : Protocol}

def Request.isAnchoring : Request P → Bool
  | .addAnchor _ _ => true
  | _ => false

/-- The operations that anchors and posters come or go with, or move. -/
def Request.movesAnchors : Request P → Bool
  | .addAnchor _ _ | .applyAnchorResize _ | .scrollAnchors _ | .clearTerminal
  | .setAlternateScreen _ | .removeSession _ | .detachSession _ | .removeContexts _ _ => true
  | _ => false

namespace State

variable {s s' s'' : State P}

/-- Anchors and posters are left as they are. -/
structure SameAnchors (s s' : State P) : Prop where
  anchors : s'.anchors = s.anchors
  gone : s'.goneAnchors = s.goneAnchors
  posters : s'.retainedPosters = s.retainedPosters
  detached : s'.detachedSessions = s.detachedSessions

namespace SameAnchors

theorem of_retracks (h : Retracks s s') : SameAnchors s s' := by
  refine ⟨?_, ?_, ?_, ?_⟩ <;> rw [h.others]

theorem onTrack {α : Type} (s : State P) (identity : TrackIdentity)
    (work : Track P → Track P × Except String α) (missing : String) :
    SameAnchors s (s.onTrack identity work missing).1 := by
  unfold State.onTrack
  split
  · exact ⟨rfl, rfl, rfl, rfl⟩
  · exact ⟨rfl, rfl, rfl, rfl⟩

theorem of_reshapes (h : Reshapes s s') : SameAnchors s s' := by
  rcases h with rfl | ⟨_, _, _, rfl⟩ <;> exact ⟨rfl, rfl, rfl, rfl⟩

theorem of_stages (h : Stages s s') : SameAnchors s s' := by
  rcases h with rfl | ⟨_, _, _, -, rfl⟩ <;> exact ⟨rfl, rfl, rfl, rfl⟩

theorem registerSession (s : State P) (session : SessionIdentity) (targetGeneration : ℕ) :
    SameAnchors s (s.registerSession session targetGeneration).1 := by
  rcases s.registerSession_cases session targetGeneration with h | h | ⟨_, _, -, h⟩ <;>
    rw [h] <;> exact ⟨rfl, rfl, rfl, rfl⟩

theorem destroySurface (s : State P) (identity : SurfaceIdentity) :
    SameAnchors s (s.destroySurface identity).1 := by
  rcases s.destroySurface_cases identity with h | h | ⟨_, _, -, h⟩ <;>
    rw [h] <;> exact ⟨rfl, rfl, rfl, rfl⟩

theorem acceptChannel (s : State P) (identity : TrackIdentity) (generation bytes records : ℕ) :
    SameAnchors s (s.acceptChannel identity generation bytes records).1 := by
  unfold State.acceptChannel
  split
  · exact ⟨rfl, rfl, rfl, rfl⟩
  · exact onTrack _ _ _ _

theorem admitMedia (s : State P) (identity : TrackIdentity) (media : ReceivedMedia)
    (recordSequence : ℕ) : SameAnchors s (s.admitMedia identity media recordSequence).1 := by
  unfold State.admitMedia
  split
  · exact ⟨rfl, rfl, rfl, rfl⟩
  · exact onTrack _ _ _ _

theorem publishDecodedFrame (s : State P) (identity : TrackIdentity) (generation : ℕ)
    (frame : Frame) : SameAnchors s (s.publishDecodedFrame identity generation frame).1 := by
  rcases s.publishDecodedFrame_cases identity generation frame with h | h | h <;>
    rw [h] <;> exact ⟨rfl, rfl, rfl, rfl⟩

theorem commitTransaction (s : State P) (context : ContextIdentity)
    (transactionId expectedTarget : ℕ) (expectedRevision : Option ℕ) : SameAnchors s
      (s.commitTransaction context transactionId expectedTarget expectedRevision).1 := by
  rcases commitTransaction_cases s context transactionId expectedTarget expectedRevision with
    h | ⟨_, _, _, -, -, -, h⟩ <;> rw [h] <;> exact ⟨rfl, rfl, rfl, rfl⟩

end SameAnchors

theorem sameAnchors_perform (s : State P) (request : Request P)
    (h : request.movesAnchors = false) : SameAnchors s (s.perform request).1 := by
  by_cases hretracking : request.isRetracking = true
  · exact .of_retracks (retracks_perform s request hretracking)
  cases request with
  | registerSession session targetGeneration => exact .registerSession s session targetGeneration
  | advanceTargetGeneration | snapshot => exact ⟨rfl, rfl, rfl, rfl⟩
  | destroySurface identity => exact .destroySurface s identity
  | suspendSession | createSurface | updateSurface | createTrack | destroyTrack | activateTracks
  | advanceChannel | detachChannel | loseTrack | flushPlayback =>
    exact .of_reshapes (reshapes_perform s _ rfl)
  | acceptChannel identity => exact .acceptChannel s identity _ _ _
  | admitMedia identity media recordSequence => exact .admitMedia s identity media recordSequence
  | publishDecodedFrame identity generation frame =>
    exact .publishDecodedFrame s identity generation frame
  | beginTransaction | queueMutation | abortTransaction =>
    exact .of_stages (stages_perform s _ rfl)
  | commitTransaction context transactionId expectedTarget expectedRevision =>
    exact .commitTransaction s context transactionId expectedTarget expectedRevision
  | addAnchor | applyAnchorResize | scrollAnchors | clearTerminal | setAlternateScreen
  | removeSession | detachSession | removeContexts => cases h
  | _ => exact (hretracking rfl).elim

/-- An identity is an anchor's, or was an anchor's that is gone. -/
def Marked (s : State P) (identity : AnchorIdentity) : Prop :=
  (s.anchors.lookup identity).isSome = true ∨ identity ∈ s.goneAnchors

instance (s : State P) : DecidablePred s.Marked := fun _ => inferInstanceAs (Decidable (_ ∨ _))

/-- No anchor comes, and what is gone was an anchor or gone before. -/
structure Wanes (s s' : State P) : Prop where
  anchors : ∀ identity, (s'.anchors.lookup identity).isSome = true →
    (s.anchors.lookup identity).isSome = true
  marked : ∀ identity, s'.Marked identity → s.Marked identity

namespace Wanes

theorem refl (s : State P) : Wanes s s := ⟨fun _ h => h, fun _ h => h⟩

theorem trans (h : Wanes s s') (h' : Wanes s' s'') : Wanes s s'' :=
  ⟨fun identity hsome => h.anchors identity (h'.anchors identity hsome),
    fun identity hmarked => h.marked identity (h'.marked identity hmarked)⟩

theorem of_eq (hanchors : s'.anchors = s.anchors) (hgone : s'.goneAnchors = s.goneAnchors) :
    Wanes s s' := by
  refine ⟨fun identity h => hanchors ▸ h, fun identity h => ?_⟩
  unfold Marked at h
  rw [hanchors, hgone] at h
  exact h

theorem of_same (h : SameAnchors s s') : Wanes s s' := of_eq h.anchors h.gone

theorem invalidateTopology (s : State P) : Wanes s s.invalidateTopology := of_eq rfl rfl

/-- Some anchors are forgotten, and some of those that are gone. -/
theorem of_filter {keep : AnchorIdentity × Vivid.TextAnchor → Bool}
    (hanchors : s'.anchors = s.anchors.filter keep) (hgone : s'.goneAnchors ⊆ s.goneAnchors) :
    Wanes s s' := by
  have hsome : ∀ identity, (s'.anchors.lookup identity).isSome = true →
      (s.anchors.lookup identity).isSome = true := by
    intro identity h
    obtain ⟨anchor, hlookup⟩ := Option.isSome_iff_exists.mp h
    rw [hanchors] at hlookup
    exact Option.isSome_iff_exists.mpr ⟨anchor, SortedMap.lookup_of_filter hlookup⟩
  refine ⟨hsome, fun identity h => ?_⟩
  rcases h with h | h
  · exact Or.inl (hsome identity h)
  · exact Or.inr (hgone h)

theorem gcDetachedSessions (s : State P) : Wanes s s.gcDetachedSessions :=
  of_filter rfl (Finset.filter_subset _ _)

/-- Anchors that there are become gone. -/
theorem removeAnchors (s : State P) {removed : List AnchorIdentity}
    (hremoved : ∀ identity ∈ removed, (s.anchors.lookup identity).isSome = true) :
    Wanes s (s.removeAnchors removed) := by
  unfold State.removeAnchors
  split
  · exact refl s
  refine trans ?_ (gcDetachedSessions _)
  have hsome : ∀ identity, ((s.anchors.filter fun entry =>
      entry.1 ∉ removed).lookup identity).isSome = true →
        (s.anchors.lookup identity).isSome = true := by
    intro identity h
    obtain ⟨anchor, hlookup⟩ := Option.isSome_iff_exists.mp h
    exact Option.isSome_iff_exists.mpr ⟨anchor, SortedMap.lookup_of_filter hlookup⟩
  refine ⟨hsome, fun identity h => ?_⟩
  rcases h with h | h
  · exact Or.inl (hsome identity h)
  · rcases Finset.mem_union.mp h with h | h
    · exact Or.inr h
    · exact Or.inl (hremoved identity (List.mem_toFinset.mp h))

/-- Anchors move, and those that are to go are among them. -/
theorem of_shifts {request : Request P} (h : Shifts request s s') : Wanes s s' := by
  rcases h with rfl | ⟨anchors, alternateScreen, _, rfl, hsome, hremoved⟩
  · exact refl _
  · have hmoved : Wanes s { s.invalidateTopology with anchors, alternateScreen } := by
      refine ⟨fun identity h => (hsome identity).symm.trans h, fun identity h => ?_⟩
      exact h.imp (hsome identity).symm.trans id
    exact hmoved.trans (removeAnchors _ fun identity hidentity =>
      (hsome identity).trans (hremoved identity hidentity).1)

/-! ### Sessions -/

theorem removeSession (s : State P) (session : SessionIdentity) :
    Wanes s (s.removeSession session) := of_filter rfl (Finset.filter_subset _ _)

theorem detachSession (s : State P) (session : SessionIdentity) :
    Wanes s (s.detachSession session) := by
  unfold State.detachSession
  dsimp only
  split
  · exact invalidateTopology s
  · exact (of_filter rfl (Finset.filter_subset _ _)).trans (gcDetachedSessions _)

theorem removeContexts (s : State P) (session : SessionIdentity) (contexts : List ℕ) :
    Wanes s (s.removeContexts session contexts) := by
  unfold State.removeContexts
  dsimp only
  split
  · exact (of_filter rfl (Finset.filter_subset _ _)).trans (gcDetachedSessions _)
  · exact (of_filter rfl (Finset.filter_subset _ _)).trans (gcDetachedSessions _)

end Wanes

theorem wanes_perform (s : State P) (request : Request P) (h : request.isAnchoring = false) :
    Wanes s (s.perform request).1 := by
  by_cases hmoves : request.movesAnchors = false
  · exact .of_same (sameAnchors_perform s request hmoves)
  cases request with
  | addAnchor => cases h
  | removeSession session => exact .removeSession s session
  | detachSession session => exact .detachSession s session
  | removeContexts session contexts => exact .removeContexts s session contexts
  | applyAnchorResize | scrollAnchors | clearTerminal | setAlternateScreen =>
    exact .of_shifts (shifts_perform s _ rfl)
  | _ => exact (hmoves rfl).elim

/-- An anchor is added, unless its identity is marked. -/
theorem addAnchor_cases (s : State P) (identity : AnchorIdentity) (anchor : Vivid.TextAnchor) :
    s.Marked identity ∧ s.addAnchor identity anchor =
          (s.invalidateTopology, .error "anchor identity was already used") ∨ ¬ s.Marked identity ∧
        s.addAnchor identity anchor =
          ({ s.invalidateTopology with anchors := s.anchors.insert identity anchor }, .ok ()) := by
  unfold addAnchor
  by_cases hmarked : s.Marked identity
  · exact Or.inl ⟨hmarked, if_pos hmarked⟩
  · exact Or.inr ⟨hmarked, if_neg hmarked⟩

end State

end Vivido.Scene
