import Vivido.Authority.Contexts
import Vivido.Scene.Census
import Vivido.Scene.Ceiling

/-!
How many objects of a scene belong to the contexts of a kind, and how many more
an operation makes of them. What a contract limits is counted nowhere.
-/

namespace Vivido.Authority

open Scene

/-- What an operation makes: objects of a resource, and their context. Some are dropped again. -/
structure Gain where
  resource : Resource
  context : ContextIdentity
  made : ℕ
  dropped : ℕ := 0

end Vivido.Authority

namespace Vivido.Scene.State

open Authority SortedMap Option

variable {P : Protocol} {s s' : State P} {owned : ContextIdentity → Bool}

/-- How many objects of a resource belong to contexts of a kind. -/
def used (s : State P) (owned : ContextIdentity → Bool) : Resource → ℕ
  | .surfaces => s.surfaces.count fun key => owned key.context
  | .tracks => s.tracks.count fun key => owned key.surface.context
  | .nodes => (s.scenes.entries.map fun entry =>
      entry.2.nodes.count fun key => owned key.context).sum
  | .openSceneTransactions => (s.scenes.entries.map fun entry =>
      entry.2.pending.count fun key => owned (ofLex key).1).sum

theorem used_surfaces : s.used owned .surfaces = s.surfaces.count fun key => owned key.context :=
  rfl

theorem used_tracks : s.used owned .tracks = s.tracks.count fun key => owned key.surface.context :=
  rfl

/-- What an operation adds to the scene if it goes through. -/
def gain (s : State P) : Request P → Option Gain
  | .createSurface identity definition =>
    if s.AdmitsSurface identity definition then some ⟨.surfaces, identity.context, 1, 0⟩ else none
  | .createTrack identity configuration =>
    if s.AdmitsTrack identity configuration then some ⟨.tracks, identity.surface.context, 1, 0⟩
    else none
  | .beginTransaction context transactionId =>
    if s.AdmitsTransaction context transactionId then
      some ⟨.openSceneTransactions, context, 1, 0⟩
    else none
  | .commitTransaction context transactionId expectedTarget expectedRevision =>
    (s.committed context transactionId expectedTarget expectedRevision).map fun mutations =>
      ⟨.nodes, context, mutations.countP NodeMutation.creates,
        mutations.countP NodeMutation.deletes⟩
  | _ => none

/-- A sum over the sessions' scenes does not grow where no scene has more of what is summed. -/
theorem sum_scenes_le (f : SessionScene P → ℕ)
    (h : ∀ session scene', s'.scenes.lookup session = some scene' → f scene' = 0 ∨
      ∃ scene, s.scenes.lookup session = some scene ∧ f scene' ≤ f scene) :
    (s'.scenes.entries.map fun entry => f entry.2).sum ≤
      (s.scenes.entries.map fun entry => f entry.2).sum :=
  sum_le_of_lookup (fun entry => f entry.2) h

theorem count_eq_zero {κ α : Type*} [LinearOrder κ] {m : SortedMap κ α} {kind : κ → Bool}
    (h : ∀ key, m.lookup key = none) : m.count kind = 0 := by
  have hempty : m = .empty := ext_lookup fun key => h key
  rw [hempty]
  rfl

/-- Where nothing comes, no count grows. -/
theorem Shrinks.used_le (h : Shrinks s s') (owned : ContextIdentity → Bool)
    (resource : Resource) : s'.used owned resource ≤ s.used owned resource := by
  cases resource with
  | surfaces =>
    rw [used_surfaces, used_surfaces]
    exact count_le_of_keys h.surfaces
  | tracks =>
    rw [used_tracks, used_tracks]
    exact count_le_of_keys h.tracks
  | nodes =>
    refine sum_scenes_le (fun scene => scene.nodes.count fun key => owned key.context)
      fun session scene' hscene' => ?_
    cases hscene : s.scenes.lookup session with
    | none =>
      refine Or.inl (count_eq_zero fun key => ?_)
      by_contra hne
      obtain ⟨scene, hfound, -⟩ := h.nodes session scene' key hscene'
        (Option.isSome_iff_ne_none.mpr hne)
      rw [hscene] at hfound
      cases hfound
    | some scene =>
      refine Or.inr ⟨scene, rfl, count_le_of_keys fun key hkey => ?_⟩
      obtain ⟨_, hfound, hnode⟩ := h.nodes session scene' key hscene' hkey
      rw [hscene] at hfound
      cases hfound
      exact hnode
  | openSceneTransactions =>
    refine sum_scenes_le (fun scene => scene.pending.count fun key => owned (ofLex key).1)
      fun session scene' hscene' => ?_
    have hkeys : ∀ key, (scene'.pending.lookup key).isSome → (s.pendingAt session key).isSome := by
      intro key hkey
      refine h.pending session key ?_
      unfold pendingAt
      rwa [hscene', bind_some]
    cases hscene : s.scenes.lookup session with
    | none =>
      refine Or.inl (count_eq_zero fun key => ?_)
      by_contra hne
      have hsome := hkeys key (Option.isSome_iff_ne_none.mpr hne)
      unfold pendingAt at hsome
      rw [hscene] at hsome
      cases hsome
    | some scene =>
      refine Or.inr ⟨scene, rfl, count_le_of_keys fun key hkey => ?_⟩
      have hsome := hkeys key hkey
      unfold pendingAt at hsome
      rwa [hscene, bind_some] at hsome

theorem count_applyMutation (owned : ContextIdentity → Bool) {context : ContextIdentity}
    {mutation : NodeMutation P} {candidate candidate' : SortedMap NodeIdentity (SceneNode P.Value)}
    (h : s.applyMutation context candidate mutation = .ok candidate') :
    (candidate'.count fun key => owned key.context) +
        mutation.deletes.toNat * (owned context).toNat =
      (candidate.count fun key => owned key.context) +
        mutation.creates.toNat * (owned context).toNat := by
  have hchanges := (changes_iff s context mutation).mpr h
  cases mutation with
  | create =>
    obtain ⟨identity, hnames, hfree, -, hlookup⟩ := hchanges
    rw [← eq_insert_iff.mp hlookup, count_insert_new _ hfree,
      ContextIdentity.node?_context hnames.name]
    simp [NodeMutation.creates, NodeMutation.deletes]
  | update =>
    obtain ⟨identity, -, hheld, hlookup⟩ := hchanges
    obtain ⟨old, hold⟩ := Option.isSome_iff_exists.mp hheld
    rw [← eq_insert_iff.mp hlookup, count_insert_some _ hold]
    rfl
  | delete identity =>
    obtain ⟨howner, hheld, hlookup⟩ := hchanges
    obtain ⟨_, hold⟩ := Option.isSome_iff_exists.mp hheld
    have hcount : ((candidate.erase identity).count fun key => owned key.context) +
        (owned identity.context).toNat = candidate.count fun key => owned key.context :=
      count_erase _ hold
    rw [howner, eq_erase_iff.mp hlookup] at hcount
    simpa [NodeMutation.creates, NodeMutation.deletes] using hcount

theorem count_applyMutations (owned : ContextIdentity → Bool) {context : ContextIdentity}
    (mutations : List (NodeMutation P))
    {candidate candidate' : SortedMap NodeIdentity (SceneNode P.Value)}
    (h : s.applyMutations context candidate mutations = .ok candidate') :
    (candidate'.count fun key => owned key.context) +
        mutations.countP NodeMutation.deletes * (owned context).toNat =
      (candidate.count fun key => owned key.context) +
        mutations.countP NodeMutation.creates * (owned context).toNat := by
  induction mutations generalizing candidate with
  | nil =>
    cases h
    rfl
  | cons mutation mutations ih =>
    unfold applyMutations at h
    split at h
    · cases h
    rename_i middle hmiddle
    have hrest := ih h
    have hfirst := count_applyMutation owned hmiddle
    rw [List.countP_cons, List.countP_cons]
    cases hcreates : mutation.creates <;> cases hdeletes : mutation.deletes <;>
      simp [hcreates, hdeletes, Nat.add_mul] at hfirst ⊢ <;> omega

theorem sum_newScene (f : SessionScene P → ℕ) {session : SessionIdentity}
    {scene : SessionScene P} (h : s.scenes.lookup session = none) (hzero : f scene = 0) :
    ((s.setScene session scene).scenes.entries.map fun entry => f entry.2).sum =
      (s.scenes.entries.map fun entry => f entry.2).sum := by
  have hinsert : ((s.scenes.insert session scene).entries.map fun entry => f entry.2).sum +
      (s.scenes.lookup session).elim 0 f =
        (s.scenes.entries.map fun entry => f entry.2).sum + f scene :=
    sum_insert fun entry : SessionIdentity × SessionScene P => f entry.2
  rw [h, hzero] at hinsert
  exact hinsert

/-- A session that comes has nothing yet. -/
theorem used_registerSession (s : State P) (session : SessionIdentity) (targetGeneration : ℕ)
    (owned : ContextIdentity → Bool) (resource : Resource) :
    (s.registerSession session targetGeneration).1.used owned resource = s.used owned resource := by
  have hsum : ∀ f : SessionScene P → ℕ,
      (∀ scene : SessionScene P, f { scene with targetGeneration } = f scene) →
      (∀ scene : SessionScene P, scene.nodes = .empty → scene.pending = .empty → f scene = 0) →
      ((s.registerSession session targetGeneration).1.scenes.entries.map fun entry =>
        f entry.2).sum = (s.scenes.entries.map fun entry => f entry.2).sum := by
    intro f hraised hempty
    unfold registerSession
    split
    · rfl
    dsimp only
    split
    · rfl
    rename_i hnew
    have hraise : ((s.invalidateTopology.raiseTarget targetGeneration).scenes.entries.map
        fun entry => f entry.2).sum = (s.scenes.entries.map fun entry => f entry.2).sum ∧
          (s.invalidateTopology.raiseTarget targetGeneration).scenes.lookup session = none := by
      rw [not_isSome_iff_eq_none] at hnew
      unfold raiseTarget
      split
      · refine ⟨sum_mapValues _ _ _ fun _ scene _ => hraised scene, ?_⟩
        change (s.scenes.mapValues _).lookup session = none
        rw [lookup_mapValues, show s.scenes.lookup session = none from hnew]
        rfl
      · exact ⟨rfl, hnew⟩
    exact (sum_newScene f hraise.2 (hempty _ rfl rfl)).trans hraise.1
  have hkeeps := Keeps.registerSession s session targetGeneration
  cases resource with
  | surfaces => rw [used_surfaces, hkeeps.surfaces, used_surfaces]
  | tracks =>
    rw [used_tracks, used_tracks]
    refine le_antisymm (count_le_of_keys fun key hkey => ?_)
      (count_le_of_keys fun key hkey => ?_)
    · rwa [← isSome_map (f := (·.configuration)), hkeeps.tracks, isSome_map] at hkey
    · rwa [← isSome_map (f := (·.configuration)), ← hkeeps.tracks, isSome_map] at hkey
  | nodes =>
    refine hsum (fun scene => scene.nodes.count fun key => owned key.context) (fun _ => rfl)
      fun scene hnodes _ => ?_
    rw [hnodes]
    rfl
  | openSceneTransactions =>
    refine hsum (fun scene => scene.pending.count fun key => owned (ofLex key).1) (fun _ => rfl)
      fun scene _ hpending => ?_
    rw [hpending]
    rfl

/-! ### What an operation makes of the counts -/

theorem used_setScene (s : State P) (session : SessionIdentity) {scene : SessionScene P}
    (scene' : SessionScene P) (h : s.scenes.lookup session = some scene)
    (owned : ContextIdentity → Bool) : (s.setScene session scene').used owned .nodes +
          (scene.nodes.count fun key => owned key.context) =
        s.used owned .nodes + (scene'.nodes.count fun key => owned key.context) ∧
      (s.setScene session scene').used owned .openSceneTransactions +
          (scene.pending.count fun key => owned (ofLex key).1) =
        s.used owned .openSceneTransactions +
          (scene'.pending.count fun key => owned (ofLex key).1) := by
  have hsum : ∀ f : SessionScene P → ℕ,
      ((s.scenes.insert session scene').entries.map fun entry => f entry.2).sum + f scene =
        (s.scenes.entries.map fun entry => f entry.2).sum + f scene' := by
    intro f
    have hinsert : ((s.scenes.insert session scene').entries.map fun entry => f entry.2).sum +
        (s.scenes.lookup session).elim 0 f =
          (s.scenes.entries.map fun entry => f entry.2).sum + f scene' :=
      sum_insert fun entry : SessionIdentity × SessionScene P => f entry.2
    rw [h, elim_some] at hinsert
    exact hinsert
  exact ⟨hsum fun scene => scene.nodes.count fun key => owned key.context,
    hsum fun scene => scene.pending.count fun key => owned (ofLex key).1⟩

/-- What an operation that goes through makes is counted, but for what it drops. -/
theorem used_perform (s : State P) (request : Request P) (owned : ContextIdentity → Bool) :
    (∃ gain, s.gain request = some gain ∧ (s.perform request).1.used owned gain.resource +
            gain.dropped * (owned gain.context).toNat =
          s.used owned gain.resource + gain.made * (owned gain.context).toNat ∧
        ∀ other, other ≠ gain.resource →
          (s.perform request).1.used owned other ≤ s.used owned other) ∨ s.gain request = none ∧
        ∀ resource, (s.perform request).1.used owned resource ≤ s.used owned resource := by
  by_cases hadding : request.isAdding = false
  · refine Or.inr ⟨?_, (shrinks_perform s request hadding).used_le owned⟩
    cases request <;> first | rfl | cases hadding
  cases request with
  | createSurface identity definition =>
    dsimp only [gain]
    rcases createSurface_cases s identity definition with
      ⟨hadmits, _, heq⟩ | ⟨hrefused, hshrinks⟩
    · refine Or.inl ⟨_, if_pos hadmits, ?_, fun other hother => ?_⟩
      · change State.used (s.createSurface identity definition).1 _ _ + _ = _
        rw [heq, Nat.zero_mul, Nat.one_mul, used_surfaces, used_surfaces]
        exact count_insert_new (fun key : SurfaceIdentity => owned key.context)
          (Option.isNone_iff_eq_none.mp hadmits.2.2.2.2.2)
      · change State.used (s.createSurface identity definition).1 _ _ ≤ _
        rw [heq]
        cases other with
        | surfaces => exact absurd rfl hother
        | _ => exact Nat.le_refl _
    · exact Or.inr ⟨if_neg hrefused, hshrinks.used_le owned⟩
  | createTrack identity configuration =>
    dsimp only [gain]
    rcases createTrack_admits s identity configuration with
      ⟨hadmits, _, heq⟩ | ⟨hrefused, hshrinks⟩
    · refine Or.inl ⟨_, if_pos hadmits, ?_, fun other hother => ?_⟩
      · change State.used (s.createTrack identity configuration).1 _ _ + _ = _
        rw [heq, Nat.zero_mul, Nat.one_mul, used_tracks, used_tracks]
        exact count_insert_new (fun key : TrackIdentity => owned key.surface.context)
          (Option.isNone_iff_eq_none.mp hadmits.2.2)
      · change State.used (s.createTrack identity configuration).1 _ _ ≤ _
        rw [heq]
        cases other with
        | tracks => exact absurd rfl hother
        | _ => exact Nat.le_refl _
    · exact Or.inr ⟨if_neg hrefused, hshrinks.used_le owned⟩
  | beginTransaction context transactionId =>
    dsimp only [gain]
    rcases beginTransaction_cases s context transactionId with
      ⟨hadmits, scene, hscene, hnew, heq⟩ | ⟨hrefused, hshrinks⟩
    · obtain ⟨hnodes, hpending⟩ := used_setScene s context.session
        { scene with pending := scene.pending.insert (toLex (context, transactionId)) [] }
        hscene owned
      dsimp only at hnodes hpending
      rw [count_insert_new _ (Option.isNone_iff_eq_none.mp hnew)] at hpending
      refine Or.inl ⟨_, if_pos hadmits, ?_, fun other hother => ?_⟩
      · change State.used (s.beginTransaction context transactionId).1 _ _ + _ = _
        rw [heq, Nat.zero_mul, Nat.one_mul]
        change State.used (s.setScene _ _) _ _ + _ = _
        change _ = _ + (_ + (owned context).toNat) at hpending
        dsimp only
        omega
      · change State.used (s.beginTransaction context transactionId).1 _ _ ≤ _
        rw [heq]
        cases other with
        | openSceneTransactions => exact absurd rfl hother
        | nodes => exact (Nat.add_right_cancel hnodes).le
        | _ => exact Nat.le_refl _
    · exact Or.inr ⟨if_neg hrefused, hshrinks.used_le owned⟩
  | commitTransaction context transactionId expectedTarget expectedRevision =>
    dsimp only [gain]
    rcases commitTransaction_committed s context transactionId expectedTarget expectedRevision with
      ⟨scene, nodes, revision, mutations, hscene, hcommitted, hpending, happly, heq⟩ |
        ⟨hnone, heq⟩
    · obtain ⟨hnodes, hpendings⟩ := used_setScene s.invalidateTopology context.session
        { scene with
          revision
          nodes
          pending := scene.pending.erase (toLex (context, transactionId)) } hscene owned
      dsimp only at hnodes hpendings
      have hcount := count_applyMutations owned mutations happly
      refine Or.inl ⟨_, by rw [hcommitted]; rfl, ?_, fun other hother => ?_⟩
      · change State.used (s.commitTransaction _ _ _ _).1 _ _ + _ = _
        rw [heq]
        dsimp only
        change _ + _ = s.used owned .nodes + _ at hnodes
        omega
      · change State.used (s.commitTransaction _ _ _ _).1 _ _ ≤ _
        rw [heq]
        cases other with
        | nodes => exact absurd rfl hother
        | openSceneTransactions =>
          obtain ⟨_, hstaged⟩ := Option.isSome_iff_exists.mp hpending
          have herase := count_erase
            (fun key : ContextIdentity ×ₗ ℕ => owned (ofLex key).1) hstaged
          change _ + _ = s.used owned .openSceneTransactions + _ at hpendings
          omega
        | _ => exact Nat.le_refl _
    · refine Or.inr ⟨by rw [hnone]; rfl, fun resource => ?_⟩
      change State.used (s.commitTransaction _ _ _ _).1 _ _ ≤ _
      rw [heq]
      exact (Shrinks.invalidateTopology s).used_le owned resource
  | _ => exact absurd rfl hadding

end Vivido.Scene.State
