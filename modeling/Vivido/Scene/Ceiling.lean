import Vivido.Scene.Isolation

/-!
How many items a snapshot holds. The compositor sizes its geometry by a product
of limits: the sessions, the nodes of a scene's contract and the posters kept.
Only the posters are counted where they are made; a commit counts no nodes.
-/

namespace Vivido.Scene

open SortedMap List

variable {P : Protocol}

def maxSessions : ℕ := 16
def maxSceneNodes : ℕ := 256

/-- `MAX_RENDER_ITEMS` -/
def maxRenderItems : ℕ := maxSessions * maxSceneNodes + maxRetainedPosters

namespace NodeMutation

/-- The change makes a node. -/
def creates : NodeMutation P → Bool
  | .create _ => true
  | _ => false

/-- The change takes a node away. -/
def deletes : NodeMutation P → Bool
  | .delete _ => true
  | _ => false

end NodeMutation

namespace State

variable {s s' s'' : State P}

def nodeCount (s : State P) : ℕ := (s.scenes.entries.map fun entry => entry.2.nodes.size).sum

theorem length_items_le (s : State P) : s.items.length ≤ s.nodeCount + s.retainedPosters.length := by
  have hnodes : (s.scenes.entries.flatMap fun entry =>
      entry.2.nodes.entries.filterMap fun node => s.nodeItem entry.1 node.2).length ≤
        s.nodeCount := by
    unfold nodeCount
    induction s.scenes.entries with
    | nil => exact Nat.le_refl _
    | cons _ _ ih =>
      rw [flatMap_cons, length_append, map_cons, sum_cons]
      exact Nat.add_le_add (length_filterMap_le _ _) ih
  unfold items
  rw [length_append]
  exact Nat.add_le_add hnodes (length_filterMap_le _ _)

theorem length_rebuild (s : State P) : s.rebuild.length = s.items.length :=
  (perm_insertionSort _ _).length_eq

/-- No operation but a commit adds nodes, none takes the posters over their limit, and a cached
list stays as long as it is. -/
structure Slims (s s' : State P) : Prop where
  nodes : s'.nodeCount ≤ s.nodeCount
  posters : s.retainedPosters.length ≤ maxRetainedPosters →
    s'.retainedPosters.length ≤ maxRetainedPosters
  renderCache : ∀ items', s'.renderCache = some items' →
    ∃ items, s.renderCache = some items ∧ items'.length = items.length

namespace Slims

theorem of_eq (hscenes : s'.scenes = s.scenes) (hposters : s'.retainedPosters = s.retainedPosters)
    (hcache : s'.renderCache = s.renderCache) : Slims s s' where
  nodes := by
    unfold nodeCount
    rw [hscenes]
  posters h := hposters ▸ h
  renderCache items h := ⟨items, hcache ▸ h, rfl⟩

theorem refl (s : State P) : Slims s s := of_eq rfl rfl rfl

theorem trans (h : Slims s s') (h' : Slims s' s'') : Slims s s'' where
  nodes := h'.nodes.trans h.nodes
  posters hposters := h'.posters (h.posters hposters)
  renderCache items'' hitems := by
    obtain ⟨items', hitems, hlength'⟩ := h'.renderCache items'' hitems
    obtain ⟨items, hitems, hlength⟩ := h.renderCache items' hitems
    exact ⟨items, hitems, hlength'.trans hlength⟩

theorem of_retracks (h : Retracks s s') : Slims s s' := by
  apply of_eq <;> rw [h.others]

/-- Nothing is cached any more. -/
theorem of_dropped (hnodes : s'.nodeCount ≤ s.nodeCount)
    (hposters : s.retainedPosters.length ≤ maxRetainedPosters →
      s'.retainedPosters.length ≤ maxRetainedPosters)
    (hcache : s'.renderCache = none) : Slims s s' where
  nodes := hnodes
  posters := hposters
  renderCache items h := by
    rw [hcache] at h
    cases h

theorem invalidateTopology (s : State P) : Slims s s.invalidateTopology :=
  of_dropped (Nat.le_refl _) (fun h => h) rfl

theorem onTrack {α : Type} (s : State P) (identity : TrackIdentity)
    (work : Track P → Track P × Except String α) (missing : String) :
    Slims s (s.onTrack identity work missing).1 := by
  unfold State.onTrack
  split <;> exact of_eq rfl rfl rfl

/-- Surfaces and tracks are not counted. -/
theorem of_reshapes (h : Reshapes s s') : Slims s s' := by
  rcases h with rfl | ⟨_, _, _, rfl⟩
  · exact refl _
  · exact of_dropped (Nat.le_refl _) (fun h => h) rfl

end Slims

theorem nodeCount_setScene (s : State P) (session : SessionIdentity) (scene : SessionScene P) :
    (s.setScene session scene).nodeCount +
        ((s.scenes.lookup session).elim 0 fun old => old.nodes.size) =
      s.nodeCount + scene.nodes.size :=
  sum_insert fun entry : SessionIdentity × SessionScene P => entry.2.nodes.size

/-- A scene is replaced by one with fewer nodes. -/
theorem slims_setScene {session : SessionIdentity} {scene scene' : SessionScene P}
    (h : s.scenes.lookup session = some scene) (hnodes : scene'.nodes.size ≤ scene.nodes.size) :
    Slims s (s.setScene session scene') := by
  refine ⟨?_, fun h => h, fun items h => ⟨items, h, rfl⟩⟩
  have hcount := nodeCount_setScene s session scene'
  rw [h, Option.elim_some] at hcount
  omega

theorem slims_newScene {session : SessionIdentity} {scene : SessionScene P}
    (hnodes : scene.nodes = .empty) : Slims s (s.setScene session scene) := by
  refine ⟨?_, fun h => h, fun items h => ⟨items, h, rfl⟩⟩
  have hcount := nodeCount_setScene s session scene
  have hsize : scene.nodes.size = 0 := by
    rw [hnodes]
    rfl
  omega

theorem nodeCount_mapValues_le (f : SessionIdentity → SessionScene P → SessionScene P)
    (hf : ∀ session scene, (f session scene).nodes.size ≤ scene.nodes.size)
    (hscenes : s'.scenes = s.scenes.mapValues f) : s'.nodeCount ≤ s.nodeCount := by
  unfold nodeCount
  rw [hscenes]
  change ((s.scenes.entries.map _).map _).sum ≤ _
  induction s.scenes.entries with
  | nil => exact Nat.le_refl _
  | cons _ _ ih => exact Nat.add_le_add (hf _ _) ih

theorem nodeCount_filter_le (keep : SessionIdentity × SessionScene P → Bool)
    (hscenes : s'.scenes = s.scenes.filter keep) : s'.nodeCount ≤ s.nodeCount := by
  unfold nodeCount
  rw [hscenes]
  exact sum_filter_le _ keep

/-! ### The operations -/

theorem slims_removeAnchors (s : State P) (removed : List AnchorIdentity) :
    Slims s (s.removeAnchors removed) := by
  unfold removeAnchors
  split
  · exact .refl s
  refine ⟨?_, fun h => (length_filter_le _ _).trans h, fun items h => ⟨items, h, rfl⟩⟩
  exact nodeCount_mapValues_le
    (fun session scene =>
      { scene with
        nodes := scene.nodes.filter fun entry =>
          (nodeAnchorIdentity session entry.2).all (· ∉ removed) })
    (fun _ _ => size_filter_le _) rfl

theorem slims_shifts {request : Request P} (h : Shifts request s s') : Slims s s' := by
  rcases h with rfl | ⟨anchors, alternateScreen, _, rfl, -⟩
  · exact .refl _
  · have hmoved : Slims s { s.invalidateTopology with anchors, alternateScreen } :=
      .of_dropped (Nat.le_refl _) (fun h => h) rfl
    exact hmoved.trans (slims_removeAnchors _ _)

theorem slims_retargeted (s : State P) (generation : ℕ) (target : SessionScene P → ℕ) :
    Slims s (s.retargeted generation target) := by
  refine .of_dropped ?_ (fun h => h) rfl
  exact nodeCount_mapValues_le (fun _ scene => { scene with targetGeneration := target scene })
    (fun _ _ => Nat.le_refl _) rfl

section

variable (s) (session : SessionIdentity)
include s session

theorem slims_registerSession (targetGeneration : ℕ) :
    Slims s (s.registerSession session targetGeneration).1 := by
  rcases s.registerSession_cases session targetGeneration with h | h | ⟨_, _, -, h⟩
  all_goals rw [h]
  · exact .refl s
  · exact .invalidateTopology s
  · exact (slims_retargeted s _ _).trans (slims_newScene rfl)

theorem slims_removeSession :
    Slims s (s.removeSession session) := by
  refine .of_dropped ?_ (fun h => (length_filter_le _ _).trans h) rfl
  exact nodeCount_filter_le (fun entry => entry.1 ≠ session) rfl

theorem length_collectPosters (kept : ℕ)
    (nodes : List (SceneNode P.Value)) (posters : List RetainedPoster) (pixels : ℕ)
    (h : kept + posters.length ≤ maxRetainedPosters) :
    kept + (s.collectPosters session kept posters pixels nodes).length ≤ maxRetainedPosters := by
  induction nodes generalizing posters pixels with
  | nil => exact h
  | cons node nodes ih =>
    unfold collectPosters
    split
    · split
      · rename_i hroom
        apply ih
        rw [length_append, length_singleton]
        exact hroom.2
      · exact ih posters pixels h
    · exact ih posters pixels h

theorem slims_detachSession :
    Slims s (s.detachSession session) := by
  unfold detachSession
  refine (Slims.invalidateTopology s).trans ?_
  dsimp only
  split
  · exact .refl _
  refine .of_dropped ?_ (fun h => ?_) rfl
  · exact nodeCount_filter_le (fun entry => entry.1 ≠ session) rfl
  · change (_ ++ _ : List RetainedPoster).length ≤ _
    rw [length_append]
    apply length_collectPosters
    exact (length_filter_le _ _).trans h

theorem slims_removeContexts (contexts : List ℕ) :
    Slims s (s.removeContexts session contexts) := by
  unfold removeContexts
  refine (Slims.invalidateTopology s).trans ?_
  dsimp only
  split
  · exact ⟨Nat.le_refl _, fun h => (length_filter_le _ _).trans h,
      fun items h => ⟨items, h, rfl⟩⟩
  · rename_i scene hscene
    refine ⟨?_, fun h => (length_filter_le _ _).trans h, fun items h => ⟨items, h, rfl⟩⟩
    change State.nodeCount (setScene _ session _) ≤ _
    exact (slims_setScene hscene (size_filter_le _)).nodes

end

theorem slims_addAnchor (s : State P) (identity : AnchorIdentity) (anchor : Vivid.TextAnchor) :
    Slims s (s.addAnchor identity anchor).1 := by
  unfold addAnchor
  refine (Slims.invalidateTopology s).trans ?_
  dsimp only
  split <;> exact .of_eq rfl rfl rfl

theorem slims_destroySurface (s : State P) (identity : SurfaceIdentity) :
    Slims s (s.destroySurface identity).1 := by
  have hgone : Slims s (s.withoutSurface identity) :=
    .of_dropped (Nat.le_refl _) (fun h => h) rfl
  rcases s.destroySurface_cases identity with h | h | ⟨_, _, hscene, h⟩
  all_goals rw [h]
  · exact .invalidateTopology s
  · exact hgone
  · refine hgone.trans (slims_setScene hscene ?_)
    exact size_filter_le _

theorem slims_stages (h : Stages s s') : Slims s s' := by
  rcases h with rfl | ⟨_, _, _, hscene, rfl⟩
  · exact .refl _
  · exact slims_setScene hscene (Nat.le_refl _)

theorem slims_publishDecodedFrame (s : State P) (identity : TrackIdentity) (generation : ℕ)
    (frame : Frame) : Slims s (s.publishDecodedFrame identity generation frame).1 := by
  rcases s.publishDecodedFrame_cases identity generation frame with h | h | h
  all_goals rw [h]
  · exact .of_eq rfl rfl rfl
  · refine ⟨Nat.le_refl _, fun h => h, fun items' h => ?_⟩
    obtain ⟨items, hitems, rfl⟩ := Option.map_eq_some_iff.mp h
    exact ⟨items, hitems, length_map _⟩
  · exact .of_dropped (Nat.le_refl _) (fun h => h) rfl

theorem slims_perform (s : State P) (request : Request P)
    (hcommit : ∀ context transactionId expectedTarget expectedRevision,
      request ≠ .commitTransaction context transactionId expectedTarget expectedRevision)
    (hsnapshot : request ≠ .snapshot) : Slims s (s.perform request).1 := by
  by_cases hretracking : request.isRetracking = true
  · exact .of_retracks (retracks_perform s request hretracking)
  cases request with
  | registerSession session targetGeneration =>
    exact slims_registerSession s session targetGeneration
  | advanceTargetGeneration => exact slims_retargeted s _ _
  | removeSession session => exact slims_removeSession s session
  | detachSession session => exact slims_detachSession s session
  | removeContexts session contexts => exact slims_removeContexts s session contexts
  | addAnchor identity anchor => exact slims_addAnchor s identity anchor
  | applyAnchorResize | scrollAnchors | clearTerminal | setAlternateScreen =>
    exact slims_shifts (shifts_perform s _ rfl)
  | suspendSession | createSurface | updateSurface | createTrack | destroyTrack | activateTracks
  | advanceChannel | detachChannel | loseTrack | flushPlayback =>
    exact .of_reshapes (reshapes_perform s _ rfl)
  | destroySurface identity => exact slims_destroySurface s identity
  | acceptChannel identity generation bytes records =>
    change Slims s (s.acceptChannel identity generation bytes records).1
    unfold acceptChannel
    split
    · exact .refl s
    · exact .onTrack s identity _ _
  | admitMedia identity media recordSequence =>
    change Slims s (s.admitMedia identity media recordSequence).1
    unfold admitMedia
    split
    · exact .refl s
    · exact .onTrack s identity _ _
  | publishDecodedFrame identity generation frame =>
    exact slims_publishDecodedFrame s identity generation frame
  | beginTransaction | queueMutation | abortTransaction =>
    exact slims_stages (stages_perform s _ rfl)
  | commitTransaction context transactionId expectedTarget expectedRevision =>
    exact absurd rfl (hcommit context transactionId expectedTarget expectedRevision)
  | snapshot => exact absurd rfl hsnapshot
  | _ => exact (hretracking rfl).elim

/-! ### Commits -/

variable {candidate candidate' : SortedMap NodeIdentity (SceneNode P.Value)}

theorem size_applyMutation {context : ContextIdentity} {mutation : NodeMutation P}
    (h : s.applyMutation context candidate mutation = .ok candidate') :
    candidate'.size + mutation.deletes.toNat = candidate.size + mutation.creates.toNat := by
  have hchanges := (changes_iff s context mutation).mpr h
  cases mutation with
  | create =>
    obtain ⟨identity, -, hfree, -, hlookup⟩ := hchanges
    rw [← eq_insert_iff.mp hlookup]
    exact size_insert_new hfree
  | update =>
    obtain ⟨_, -, hheld, hlookup⟩ := hchanges
    obtain ⟨old, hold⟩ := Option.isSome_iff_exists.mp hheld
    rw [← eq_insert_iff.mp hlookup]
    exact size_insert_some hold
  | delete =>
    obtain ⟨-, hheld, hlookup⟩ := hchanges
    obtain ⟨_, hold⟩ := Option.isSome_iff_exists.mp hheld
    rw [← eq_erase_iff.mp hlookup]
    exact size_erase hold

/-- Nodes come and go one for a change. -/
theorem size_applyMutations {context : ContextIdentity} (mutations : List (NodeMutation P))
    (h : s.applyMutations context candidate mutations = .ok candidate') :
    candidate'.size + mutations.countP NodeMutation.deletes =
      candidate.size + mutations.countP NodeMutation.creates := by
  induction mutations generalizing candidate with
  | nil =>
    cases h
    rfl
  | cons mutation mutations ih =>
    unfold applyMutations at h
    split at h
    · cases h
    rename_i middle hmiddle
    have hrest := ih h
    have hfirst := size_applyMutation hmiddle
    rw [countP_cons, countP_cons]
    cases hcreates : mutation.creates <;> cases hdeletes : mutation.deletes <;>
      simp [hcreates, hdeletes] at hfirst ⊢ <;> omega

theorem commitTransaction_rejected (s : State P) (context : ContextIdentity)
    (transactionId expectedTarget : ℕ) (expectedRevision : Option ℕ)
    (h : (s.commitTransaction context transactionId expectedTarget expectedRevision).2.isOk ≠
      true) : (s.commitTransaction context transactionId expectedTarget expectedRevision).1 =
      s.invalidateTopology := by
  unfold commitTransaction at h ⊢
  dsimp only at h ⊢
  split
  · rfl
  split
  · rfl
  split
  · rfl
  split
  · rfl
  · split
    · rfl
    · split
      · rfl
      · simp_all [Except.isOk, Except.toBool]

/-- A commit is accepted that takes the nodes of all scenes over what the sessions' contracts
admit together. -/
def Overfills (s : State P) : Request P → Prop
  | .commitTransaction context transactionId expectedTarget expectedRevision =>
    (s.commitTransaction context transactionId expectedTarget expectedRevision).2.isOk = true ∧
      (s.staged context transactionId).any (fun mutations =>
        maxSessions * maxSceneNodes + mutations.countP NodeMutation.deletes <
          s.nodeCount + mutations.countP NodeMutation.creates) = true
  | _ => False

instance (s : State P) : DecidablePred s.Overfills := by
  rintro ⟨⟩
  all_goals first
    | exact instDecidableFalse
    | exact inferInstanceAs (Decidable (_ ∧ _))

/-- The nodes and the posters keep to their limits, and a cached list to the whole. -/
structure Bounded (s : State P) : Prop where
  nodes : s.nodeCount ≤ maxSessions * maxSceneNodes
  posters : s.retainedPosters.length ≤ maxRetainedPosters
  renderCache : ∀ items, s.renderCache = some items → items.length ≤ maxRenderItems

theorem Slims.bounded (h : Slims s s') (hs : s.Bounded) : s'.Bounded where
  nodes := h.nodes.trans hs.nodes
  posters := h.posters hs.posters
  renderCache items' hitems := by
    obtain ⟨items, hitems, hlength⟩ := h.renderCache items' hitems
    rw [hlength]
    exact hs.renderCache items hitems

theorem Bounded.length_rebuild_le (hs : s.Bounded) : s.rebuild.length ≤ maxRenderItems := by
  rw [length_rebuild]
  exact (length_items_le s).trans (Nat.add_le_add hs.nodes hs.posters)

theorem Bounded.length_snapshot_le (hs : s.Bounded) :
    s.snapshot.2.items.length ≤ maxRenderItems := by
  change (s.renderCache.getD s.rebuild).length ≤ maxRenderItems
  cases hcache : s.renderCache with
  | none => exact hs.length_rebuild_le
  | some items => exact hs.renderCache items hcache

theorem bounded_commitTransaction (hs : s.Bounded) (context : ContextIdentity)
    (transactionId expectedTarget : ℕ) (expectedRevision : Option ℕ) (h : ¬ s.Overfills
      (.commitTransaction context transactionId expectedTarget expectedRevision)) :
    (s.commitTransaction context transactionId expectedTarget expectedRevision).1.Bounded := by
  by_cases haccepted :
      (s.commitTransaction context transactionId expectedTarget expectedRevision).2.isOk = true
  · rcases commitTransaction_cases s context transactionId expectedTarget expectedRevision with
      heq | ⟨scene, scene', mutations, hscene, hstaged, happly, heq⟩
    · rw [heq]
      exact (Slims.invalidateTopology s).bounded hs
    rw [heq]
    have hfits : s.nodeCount + mutations.countP NodeMutation.creates ≤
        maxSessions * maxSceneNodes + mutations.countP NodeMutation.deletes := by
      by_contra hover
      refine h ⟨haccepted, ?_⟩
      rw [hstaged]
      exact decide_eq_true (Nat.lt_of_not_le hover)
    have hsize := size_applyMutations mutations happly
    have hcount := nodeCount_setScene s.invalidateTopology context.session scene'
    rw [show s.invalidateTopology.scenes.lookup context.session = some scene from hscene,
      Option.elim_some] at hcount
    change _ = s.nodeCount + scene'.nodes.size at hcount
    refine ⟨?_, hs.posters, fun items hitems => by cases hitems⟩
    omega
  · rw [commitTransaction_rejected s _ _ _ _ haccepted]
    exact (Slims.invalidateTopology s).bounded hs

theorem bounded_perform (hs : s.Bounded) {request : Request P} (h : ¬ s.Overfills request) :
    (s.perform request).1.Bounded := by
  by_cases hsnapshot : request = .snapshot
  · subst hsnapshot
    exact ⟨hs.nodes, hs.posters, fun items hitems => by
      cases hitems
      exact hs.length_snapshot_le⟩
  · by_cases hcommit : ∃ context transactionId expectedTarget expectedRevision,
        request = .commitTransaction context transactionId expectedTarget expectedRevision
    · obtain ⟨context, transactionId, expectedTarget, expectedRevision, rfl⟩ := hcommit
      exact bounded_commitTransaction hs context transactionId expectedTarget expectedRevision h
    · refine (slims_perform s request (fun _ _ _ _ heq => ?_) hsnapshot).bounded hs
      exact hcommit ⟨_, _, _, _, heq⟩

theorem bounded_performAll (hs : s.Bounded) {requests : List (Request P)}
    (h : Along (fun s request => ¬ s.Overfills request) s requests) :
    (s.performAll requests).Bounded := by
  induction requests generalizing s with
  | nil => exact hs
  | cons _ _ ih => exact ih (bounded_perform hs h.1) h.2

/-- As long as no commit takes the nodes over what the contracts admit, a snapshot keeps to the
ceiling of the compositor. -/
theorem snapshot_within_ceiling (target : PresentationTarget P) (requests : List (Request P))
    (h : Along (fun s request => ¬ s.Overfills request) (new target) requests) :
    ((new target).performAll requests).snapshot.2.items.length ≤ maxRenderItems := by
  have hnew : (new target).Bounded :=
    ⟨Nat.zero_le _, Nat.zero_le _, fun items hitems => by cases hitems⟩
  exact (bounded_performAll hnew h).length_snapshot_le

section Crowd

def crowdNode (n : ℕ) : SceneNode Protocol.plain.Value := { nodeShowing 1 with nodeId := n + 1 }

/-- The viewer's scene while it stages changes. -/
def crowdedScene (mutations : List (NodeMutation Protocol.plain)) : SessionScene Protocol.plain where
  revision := 0
  targetGeneration := 1
  nodes := .empty
  pending := SortedMap.empty.insert (toLex (viewerContext, 1)) mutations

/-- The nodes of a crowd. -/
def crowd : ℕ → SortedMap NodeIdentity (SceneNode Protocol.plain.Value)
  | 0 => .empty
  | n + 1 => (crowd n).insert ⟨viewerContext, n + 1⟩ (crowdNode n)

def crowdMutations (n : ℕ) : List (NodeMutation Protocol.plain) :=
  (List.range n).map fun i => .create (crowdNode i)

/-- The viewer shows its picture, and begins a transaction. -/
def showingRun : List (Request Protocol.plain) :=
  openingRun ++ [.activateTracks viewerSurface 1 [⟨3, 1, 1, {.outputReady}⟩],
    .beginTransaction viewerContext 1]

/-- One transaction creates all the nodes. -/
def crowdingRun (n : ℕ) : List (Request Protocol.plain) :=
  showingRun ++ (crowdMutations n).map (.queueMutation viewerContext 1) ++
    [.commitTransaction viewerContext 1 1 none]

variable {t : State Protocol.plain}

/-- The state with the viewer's scene as the only one. -/
def withScene (t : State Protocol.plain) (scene : SessionScene Protocol.plain) :
    State Protocol.plain :=
  { t with scenes := SortedMap.empty.insert viewer scene }

theorem queue_crowded (t : State Protocol.plain) (mutations : List (NodeMutation Protocol.plain))
    (mutation : NodeMutation Protocol.plain) : ((withScene t (crowdedScene mutations)).perform
        (.queueMutation viewerContext 1 mutation)).1 =
      withScene t (crowdedScene (mutations ++ [mutation])) := by
  change ((withScene t (crowdedScene mutations)).queueMutation viewerContext 1 mutation).1 = _
  have hscene : (withScene t (crowdedScene mutations)).scenes.lookup viewerContext.session =
      some (crowdedScene mutations) := lookup_insert_self
  have hpending : (crowdedScene mutations).pending.lookup (toLex (viewerContext, 1)) =
      some mutations := lookup_insert_self
  unfold queueMutation
  rw [hscene]
  dsimp only
  rw [hpending]
  dsimp only [setPending, setScene, withScene, crowdedScene]
  rw [insert_insert]
  exact congrArg (fun scenes => ({ t with scenes } : State Protocol.plain))
    insert_insert

theorem queues_crowded (t : State Protocol.plain) (n : ℕ) :
    (withScene t (crowdedScene [])).performAll
        ((crowdMutations n).map (.queueMutation viewerContext 1)) =
      withScene t (crowdedScene (crowdMutations n)) := by
  induction n with
  | zero => rfl
  | succ _ ih =>
    unfold crowdMutations at ih ⊢
    rw [range_succ, map_append, map_append, performAll_append, ih]
    exact queue_crowded t _ _

theorem lookup_crowd {n m : ℕ} (h : n ≤ m) : (crowd n).lookup ⟨viewerContext, m + 1⟩ = none := by
  induction n with
  | zero => rfl
  | succ n ih =>
    unfold crowd
    rw [lookup_insert, if_neg, ih (by omega)]
    intro heq
    have hid : m + 1 = n + 1 := congrArg NodeIdentity.nodeId heq
    omega

theorem size_crowd (n : ℕ) : (crowd n).size = n := by
  induction n with
  | zero => rfl
  | succ n ih =>
    unfold crowd
    rw [size_insert_new (lookup_crowd (Nat.le_refl n)), ih]

theorem mem_crowd {n : ℕ} {entry : NodeIdentity × SceneNode Protocol.plain.Value}
    (h : entry ∈ (crowd n).entries) : ∃ i, entry.2 = crowdNode i := by
  induction n with
  | zero => cases h
  | succ n ih =>
    have hlookup := mem_entries.mp h
    unfold crowd at hlookup
    rw [lookup_insert] at hlookup
    split at hlookup
    · exact ⟨n, (Option.some_inj.mp hlookup).symm⟩
    · exact ih (mem_entries.mpr hlookup)

theorem applyMutations_cons (s : State P) (context : ContextIdentity)
    (candidate : SortedMap NodeIdentity (SceneNode P.Value)) (mutation : NodeMutation P)
    (mutations : List (NodeMutation P)) :
    s.applyMutations context candidate (mutation :: mutations) =
      match s.applyMutation context candidate mutation with
      | .error reason => .error reason
      | .ok candidate => s.applyMutations context candidate mutations :=
  rfl

theorem applyMutations_append (s : State P) (context : ContextIdentity)
    (candidate : SortedMap NodeIdentity (SceneNode P.Value))
    (earlier later : List (NodeMutation P)) :
    s.applyMutations context candidate (earlier ++ later) =
      match s.applyMutations context candidate earlier with
      | .error reason => .error reason
      | .ok candidate => s.applyMutations context candidate later := by
  induction earlier generalizing candidate with
  | nil => rfl
  | cons mutation _ ih =>
    rw [cons_append, applyMutations_cons, applyMutations_cons]
    cases s.applyMutation context candidate mutation with
    | error => rfl
    | ok candidate => exact ih candidate

section

variable (htarget : t.target = .plain)
include htarget

theorem apply_crowd (hsurface : (t.surfaces.lookup viewerSurface).isSome) (n : ℕ) :
    t.applyMutations viewerContext .empty (crowdMutations n) = .ok (crowd n) := by
  induction n with
  | zero => rfl
  | succ n ih =>
    have hcreate : t.applyMutation viewerContext (crowd n) (.create (crowdNode n)) =
        .ok (crowd (n + 1)) := by
      refine (changes_iff ..).mp ⟨⟨viewerContext, n + 1⟩, ⟨?_, rfl, rfl⟩,
        lookup_crowd (Nat.le_refl n), ⟨_, _, rfl, rfl, hsurface⟩, eq_insert_iff.mpr rfl⟩
      rw [htarget]
      rfl
    unfold crowdMutations at ih ⊢
    rw [range_succ, map_append, applyMutations_append, ih]
    change t.applyMutations viewerContext (crowd n) [.create (crowdNode n)] = _
    rw [applyMutations_cons, hcreate]
    rfl

/-- After the commit every node of the crowd is there, and nothing is cached. -/
theorem commit_crowded (hsurface : (t.surfaces.lookup viewerSurface).isSome) (n : ℕ) :
    ∃ pending, ((withScene t (crowdedScene (crowdMutations n))).perform
        (.commitTransaction viewerContext 1 1 none)).1 =
      (withScene t { revision := 1, targetGeneration := 1, nodes := crowd n, pending }
        ).invalidateTopology := by
  refine ⟨(crowdedScene (crowdMutations n)).pending.erase (toLex (viewerContext, 1)), ?_⟩
  change ((withScene t (crowdedScene (crowdMutations n))).commitTransaction viewerContext 1 1
    none).1 = _
  have hscene : (withScene t (crowdedScene (crowdMutations n))).invalidateTopology.scenes.lookup
      viewerContext.session = some (crowdedScene (crowdMutations n)) := lookup_insert_self
  have hpending : (crowdedScene (crowdMutations n)).pending.lookup (toLex (viewerContext, 1)) =
      some (crowdMutations n) := lookup_insert_self
  have happly : (withScene t (crowdedScene (crowdMutations n))).invalidateTopology.applyMutations
      viewerContext (crowdedScene (crowdMutations n)).nodes (crowdMutations n) = .ok (crowd n) :=
    apply_crowd (t := (withScene t _).invalidateTopology) htarget hsurface n
  unfold commitTransaction
  dsimp only
  rw [hscene]
  dsimp only
  rw [hpending]
  dsimp only
  rw [if_neg (fun h => h rfl), if_neg (by simp), happly]
  exact congrArg (fun scenes => ({ t with scenes } : State Protocol.plain).invalidateTopology)
    insert_insert

/-- The number of a node does not matter to what it draws. -/
theorem nodeItem_crowd (i : ℕ) :
    t.nodeItem viewer (crowdNode i) = t.nodeItem viewer (crowdNode 0) := by
  unfold nodeItem nodePosition
  rw [htarget]
  rfl

/-- Every node of the crowd is drawn. -/
theorem snapshot_crowded (hposters : t.retainedPosters = [])
    (hitem : (t.nodeItem viewer (crowdNode 0)).isSome) (n : ℕ) (pending) :
    (withScene t { revision := 1, targetGeneration := 1, nodes := crowd n, pending }
      ).invalidateTopology.snapshot.2.items.length = n := by
  change (rebuild _).length = n
  rw [length_rebuild]
  unfold items
  have hdrawn : ∀ entry ∈ (crowd n).entries, (t.nodeItem viewer entry.2).isSome := by
    intro entry hentry
    obtain ⟨i, hi⟩ := mem_crowd hentry
    rw [hi, nodeItem_crowd htarget]
    exact hitem
  rw [length_append]
  change ((((crowd n).entries.filterMap
      fun entry : NodeIdentity × SceneNode Protocol.plain.Value => t.nodeItem viewer entry.2) ++
    []).length) + (t.retainedPosters.filterMap _).length = n
  rw [hposters, append_nil, filterMap_nil, length_nil, Nat.add_zero,
    length_filterMap_eq_countP, List.countP_eq_length.mpr hdrawn]
  exact size_crowd n

end

/-- The state before the nodes are staged. -/
def showingState : State Protocol.plain := (new .plain).performAll showingRun

theorem showingState_eq : showingState = withScene showingState (crowdedScene []) := by
  have hscenes : showingState.scenes = SortedMap.empty.insert viewer (crowdedScene []) := by
    decide +kernel
  unfold withScene
  rw [← hscenes]

theorem performAll_crowdingRun (n : ℕ) :
    ((new .plain).performAll (crowdingRun n)).snapshot.2.items.length = n := by
  unfold crowdingRun
  rw [performAll_snoc, performAll_append]
  change ((showingState.performAll _).perform _).1.snapshot.2.items.length = n
  rw [showingState_eq, queues_crowded]
  obtain ⟨pending, hcommit⟩ := commit_crowded (t := showingState) rfl (by decide +kernel) n
  rw [hcommit]
  exact snapshot_crowded rfl (by decide +kernel) (by decide +kernel) n pending

theorem along_crowdingRun (n : ℕ) :
    Along (fun s _ => s.scenes.size ≤ maxSessions) (new .plain) (crowdingRun n) := by
  have hsize : ∀ scene : SessionScene Protocol.plain,
      (withScene showingState scene).scenes.size ≤ maxSessions := fun _ => by
    change 1 ≤ maxSessions
    decide
  have hqueues : ∀ mutations staged : List (NodeMutation Protocol.plain),
      Along (fun s _ => s.scenes.size ≤ maxSessions)
        (withScene showingState (crowdedScene staged))
        (mutations.map (.queueMutation viewerContext 1)) := by
    intro mutations
    induction mutations with
    | nil => exact fun _ => trivial
    | cons _ _ ih =>
      intro _
      refine ⟨hsize _, ?_⟩
      rw [queue_crowded]
      exact ih _
  have hstaging : Along (fun s _ => s.scenes.size ≤ maxSessions) (new .plain) showingRun := by
    decide +kernel
  refine (hstaging.of_append ?_).of_append ⟨?_, trivial⟩
  · change Along _ showingState _
    rw [showingState_eq]
    exact hqueues _ _
  · rw [performAll_append]
    change (showingState.performAll _).scenes.size ≤ maxSessions
    rw [showingState_eq, queues_crowded]
    exact hsize _

/-- One session commits more nodes than all sessions may have. -/
theorem crowd_over_ceiling :
    ¬ ∀ (target : PresentationTarget Protocol.plain) (requests : List (Request Protocol.plain)),
      Along (fun s _ => s.scenes.size ≤ maxSessions) (new target) requests →
        ((new target).performAll requests).snapshot.2.items.length ≤ maxRenderItems := by
  intro h
  have hitems := h .plain (crowdingRun (maxRenderItems + 1)) (along_crowdingRun _)
  rw [performAll_crowdingRun] at hitems
  omega

end Crowd

theorem snapshot_within_ceiling_anchoring :
    ((new .plain).performAll (openingRun ++ anchoringRun)).snapshot.2.items.length ≤
      maxRenderItems :=
  snapshot_within_ceiling .plain (openingRun ++ anchoringRun) (by decide +kernel)

end State

end Vivido.Scene
