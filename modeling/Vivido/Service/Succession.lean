import Vivido.Service.Sections

/-!
What the end of a lost connection does to its successor. Both go by one session
number, and the finish removes what stands under it. So the successor is left
alone just where it is published after the finish has gone through.
-/

namespace Vivido.Service

open Scene SortedMap List

variable {P : Protocol} {L : LeaseProtocol}

/-- A session is published under its number, and under its tag alone. -/
structure Registry.Publishes (registry : Registry L) (runtime : SessionRuntime L) : Prop where
  session : registry.sessions.lookup runtime.identity.sessionId = some runtime
  tags : ∀ tag, registry.byTag.lookup tag = some runtime.identity.sessionId ↔
    tag = runtime.sessionTag

/-- A session's scene is there, with all that was there before. -/
structure Retained (before after : State P) (session : SessionIdentity) : Prop where
  isRegistered : (after.scenes.lookup session).isSome = true
  scene : ∀ scene, before.scenes.lookup session = some scene →
    after.scenes.lookup session = some scene
  surfaces : ∀ key : SurfaceIdentity, key.context.session = session →
    after.surfaces.lookup key = before.surfaces.lookup key
  tracks : ∀ key : TrackIdentity, key.surface.context.session = session →
    after.tracks.lookup key = before.tracks.lookup key
  anchors : ∀ key : AnchorIdentity, key.context.session = session →
    after.anchors.lookup key = before.anchors.lookup key

/-! ### The publication -/

namespace ServiceShared

variable {s : ServiceShared P L}

theorem setLease_same (s : ServiceShared P L) (key : LeaseKey) (lease : Lease L) :
    SameIndex s.registry (s.setLease key lease).registry ∧ (s.setLease key lease).scene = s.scene ∧
      (s.setLease key lease).audioOutputs = s.audioOutputs :=
  ⟨⟨rfl, rfl⟩, rfl, rfl⟩

theorem commitLease_same (s : ServiceShared P L) (key : LeaseKey) (lease : Lease L) (sent : Bool) :
    SameIndex s.registry (s.commitLease key lease sent).1.registry ∧
      (s.commitLease key lease sent).1.scene = s.scene ∧
      (s.commitLease key lease sent).1.audioOutputs = s.audioOutputs := by
  unfold commitLease
  split
  · exact setLease_same _ _ _
  · split
    · exact setLease_same _ _ _
    · exact setLease_same _ _ _

theorem registerScene_same (s : ServiceShared P L) (identity : SessionIdentity) :
    (s.registerScene identity).1.registry = s.registry ∧
      (s.registerScene identity).1.audioOutputs = s.audioOutputs := by
  unfold registerScene
  split
  · exact ⟨rfl, rfl⟩
  · split <;> exact ⟨rfl, rfl⟩

theorem retained_registerSession {scene scene' : State P} {session : SessionIdentity}
    {targetGeneration : ℕ} (hnone : scene.scenes.lookup session = none)
    (h : scene.registerSession session targetGeneration = (scene', .ok ())) :
    Retained scene scene' session := by
  unfold State.registerSession at h
  split at h
  · cases h
  dsimp only at h
  split at h
  · cases h
  cases h
  have hraise : ∀ s : State P, (s.raiseTarget targetGeneration).surfaces = s.surfaces ∧
      (s.raiseTarget targetGeneration).tracks = s.tracks ∧
      (s.raiseTarget targetGeneration).anchors = s.anchors := by
    intro s
    unfold State.raiseTarget
    split <;> exact ⟨rfl, rfl, rfl⟩
  obtain ⟨hsurfaces, htracks, hanchors⟩ := hraise scene.invalidateTopology
  refine ⟨?_, fun scene' hsome => ?_, fun key _ => ?_, fun key _ => ?_, fun key _ => ?_⟩
  · exact congrArg Option.isSome lookup_insert_self
  · cases hnone.symm.trans hsome
  · exact congrArg (SortedMap.lookup · key) hsurfaces
  · exact congrArg (SortedMap.lookup · key) htracks
  · exact congrArg (SortedMap.lookup · key) hanchors

theorem retained_registerScene {s' : ServiceShared P L} {identity : SessionIdentity}
    (h : s.registerScene identity = (s', true)) : Retained s.scene s'.scene identity := by
  unfold registerScene at h
  split at h
  · rename_i hsome
    cases h
    exact ⟨hsome, fun _ h => h, fun _ _ => rfl, fun _ _ => rfl, fun _ _ => rfl⟩
  · rename_i hnone
    split at h
    · cases h
    · rename_i heq
      cases h
      exact retained_registerSession (Option.not_isSome_iff_eq_none.mp hnone) heq

/-- A session is published in the indexes over what a scene retained, or nothing is published. -/
def Concludes (before : ServiceShared P L)
    (result : ServiceShared P L × Option (SessionRuntime L)) : Prop :=
  match result with
  | (after, none) => SameIndex before.registry after.registry
  | (after, some runtime) => ∃ registry, SameIndex before.registry registry ∧
      SameIndex (registry.insertSession runtime) after.registry ∧
      Retained before.scene after.scene runtime.identity ∧
      after.audioOutputs = before.audioOutputs

theorem concludes_conclude (s : ServiceShared P L) (now : ℕ) (principal : Principal L)
    (hello : L.Hello) (candidate : Candidate L) (lease : Lease L)
    (decision : AttemptDecision L.Nonce L.Welcome) :
    Concludes s (s.conclude now principal hello candidate lease decision) := by
  unfold conclude
  dsimp only
  split
  · exact ⟨rfl, rfl⟩
  generalize reserveLease principal lease _ now = reserved
  have hcommit := s.commitLease_same principal.key reserved candidate.sent
  rcases hcommitted : s.commitLease principal.key reserved candidate.sent with
    ⟨committed, _ | _⟩
  · rw [hcommitted] at hcommit
    exact hcommit.1
  rw [hcommitted] at hcommit
  dsimp only at hcommit ⊢
  cases L.rootContext ⟨s.presenter, decision.sessionId⟩ lease.contract with
  | none => exact hcommit.1
  | some =>
    have hregister := committed.registerScene_same ⟨s.presenter, decision.sessionId⟩
    rcases heq : committed.registerScene ⟨s.presenter, decision.sessionId⟩ with
      ⟨registered, _ | _⟩
    · rw [heq] at hregister
      change SameIndex s.registry registered.registry
      rw [hregister.1]
      exact hcommit.1
    · rw [heq] at hregister
      have hretained := retained_registerScene heq
      rw [hcommit.2.1] at hretained
      refine ⟨registered.registry, ?_, ⟨rfl, rfl⟩, hretained, ?_⟩
      · rw [hregister.1]
        exact hcommit.1
      · exact hregister.2.trans hcommit.2.2

theorem concludes_establish (s : ServiceShared P L) (now : ℕ) (principal : Principal L)
    (hello : L.Hello) (candidate : Candidate L) :
    Concludes s (s.establish now principal hello candidate) := by
  unfold establish
  split
  · exact ⟨rfl, rfl⟩
  dsimp only
  split
  · exact ⟨rfl, rfl⟩
  split
  · exact ⟨rfl, rfl⟩
  · split
    · exact ⟨rfl, rfl⟩
    · split
      · exact ⟨rfl, rfl⟩
      · exact concludes_conclude { s with nextSession := _ } now principal hello candidate _ _

end ServiceShared

/-! ### The two together -/

namespace Handover

variable {h : Handover P L} {runtime : SessionRuntime L}

/-- The next section of the establishment publishes a session. -/
def Publishes (h : Handover P L) (now : ℕ) (candidate : Candidate L) (runtime : SessionRuntime L) :
    Prop :=
  (∃ principal hello, h.establishing = .authenticated principal hello) ∧
    (h.move (.establish now candidate)).establishing = .serving runtime []

/-- The audio outputs that the successor has opened. -/
def outputs (h : Handover P L) : List TrackIdentity :=
  match h.establishing with
  | .serving _ outputs => outputs
  | _ => []

/-- The successor is published as it was, with the scene it found and its audio outputs. -/
structure Intact (before : ServiceShared P L) (runtime : SessionRuntime L) (h : Handover P L) :
    Prop where
  published : h.shared.registry.Publishes runtime
  scene : Retained before.scene h.shared.scene runtime.identity
  audio : ∀ track : TrackIdentity, track.surface.context.session = runtime.identity →
    (before.audioOutputs.lookup track).isSome = true ∨ track ∈ h.outputs →
      (h.shared.audioOutputs.lookup track).isSome = true

/-- The session's number stands for the lost session or for none. -/
structure Held (registry : Registry L) (lost : SessionRuntime L) : Prop where
  session : registry.sessions.lookup lost.identity.sessionId = none ∨
    registry.sessions.lookup lost.identity.sessionId = some lost
  tags : ∀ tag, registry.byTag.lookup tag = some lost.identity.sessionId →
    registry.sessions.lookup lost.identity.sessionId = some lost ∧ tag = lost.sessionTag

theorem Held.same {before after : Registry L} {lost : SessionRuntime L} (h : Held before lost)
    (hsame : SameIndex before after) : Held after lost := by
  obtain ⟨hsessions, htags⟩ := hsame
  constructor
  · rw [hsessions]
    exact h.session
  · rw [hsessions, htags]
    exact h.tags

theorem Held.retires {before after : Registry L} {lost : SessionRuntime L} (h : Held before lost)
    (hretires : Retires before after) : Held after lost := by
  rcases hretires with hsame | ⟨_, hsame⟩
  · exact h.same hsame
  refine Held.same ?_ hsame
  constructor
  · rw [sessions_removeSession, lookup_erase]
    split
    · exact Or.inl rfl
    · exact h.session
  · intro tag htag
    obtain ⟨hpoints, hother⟩ := byTag_removeSession htag
    obtain ⟨hsession, rfl⟩ := h.tags tag hpoints
    rw [sessions_removeSession, lookup_erase, if_neg]
    · exact ⟨hsession, rfl⟩
    · rintro rfl
      exact hother lost hsession hpoints rfl

/-- The list ends with a section that ends what goes by the session's number. -/
def Threatened (actions : List (Finishing L)) : Prop :=
  ∃ last, actions.getLast? = some last ∧ last.threatens = true

/-- A finish that still goes on while nobody has come after. -/
structure Losing (h : Handover P L) : Prop where
  held : Held h.shared.registry h.lost
  listed : h.finishing.any Finishing.unlists = true ∨
    h.shared.registry.sessions.lookup h.lost.identity.sessionId = none
  last : h.finishing = [] ∨ Threatened h.finishing

variable {before : ServiceShared P L} (moves : List (Move L)) {rest : List (Finishing L)}

theorem threatened_exec (lost : SessionRuntime L) (clean : Bool) (now : ℕ) (s : ServiceShared P L)
    (runtime : SessionRuntime L) (hidentity : runtime.identity = lost.identity)
    {action : Finishing L} (hlast : Threatened (action :: rest)) :
    Threatened ((action.exec lost clean now s).2 ++ rest) ∨
      (action.exec lost clean now s).2 ++ rest = [] ∧
        Gone (action.exec lost clean now s).1 runtime := by
  obtain ⟨last, hlast, hthreatens⟩ := hlast
  cases rest with
  | nil =>
    cases hlast
    rw [append_nil]
    exact Finishing.exec_threatens hidentity hthreatens
  | cons next rest =>
    left
    refine ⟨last, ?_, hthreatens⟩
    rw [getLast?_cons_cons] at hlast
    rw [getLast?_append_of_ne_nil _ (cons_ne_nil next rest)]
    exact hlast

theorem listed_exec (lost : SessionRuntime L) (clean : Bool) (now : ℕ) (s : ServiceShared P L)
    {action : Finishing L} (hlisted : (action :: rest).any Finishing.unlists = true ∨
      s.registry.sessions.lookup lost.identity.sessionId = none) :
    ((action.exec lost clean now s).2 ++ rest).any Finishing.unlists = true ∨
      (action.exec lost clean now s).1.registry.sessions.lookup lost.identity.sessionId = none := by
  rw [any_append, Bool.or_eq_true]
  rcases hlisted with hlisted | hnone
  · rw [any_cons, Bool.or_eq_true] at hlisted
    rcases hlisted with haction | hrest
    · rcases Finishing.exec_unlists lost clean now (s := s) haction with hadded | hnone
      · exact Or.inl (Or.inl hadded)
      · exact Or.inr hnone
    · exact Or.inl (Or.inr hrest)
  · right
    rcases (Finishing.turns_exec lost clean now s action).retires with hsame | ⟨_, hsame⟩
    · rw [hsame.1]
      exact hnone
    · rw [hsame.1, sessions_removeSession, lookup_erase, hnone, ite_self]

/-- The successor is published. -/
def isServing (h : Handover P L) : Bool :=
  match h.establishing with
  | .serving _ _ => true
  | _ => false

theorem isServing_move (move : Move L) (hserving : h.isServing = true) :
    (h.move move).isServing = true := by
  obtain ⟨_, _, _, finishing, establishing⟩ := h
  cases establishing with
  | serving =>
    cases move with
    | finish => cases finishing <;> rfl
    | establish | firstRequest => rfl
    | openAudio =>
      dsimp only [Handover.move]
      split <;> rfl
  | _ => cases hserving

theorem lost_move (move : Move L) : (h.move move).lost = h.lost := by
  obtain ⟨_, _, _, finishing, _⟩ := h
  cases move with
  | finish => cases finishing <;> rfl
  | establish => rfl
  | openAudio =>
    dsimp only [Handover.move]
    split
    · split <;> rfl
    · rfl
  | firstRequest =>
    dsimp only [Handover.move]
    split <;> rfl

theorem lost_run : (h.run moves).lost = h.lost := by
  induction moves generalizing h with
  | nil => rfl
  | cons move _ ih => exact ih.trans (lost_move move)

theorem run_append (earlier later : List (Move L)) :
    h.run (earlier ++ later) = (h.run earlier).run later :=
  foldl_append

/-- Until the successor is published, nobody but the lost session goes by its number. -/
theorem losing_move (move : Move L) (hlosing : h.Losing)
    (hserving : (h.move move).isServing = false) : (h.move move).Losing := by
  obtain ⟨lost, clean, shared, finishing, establishing⟩ := h
  cases move with
  | finish now =>
    cases finishing with
    | nil => exact hlosing
    | cons action rest =>
      have hlast := threatened_exec lost clean now shared lost rfl
        (hlosing.last.resolve_left (cons_ne_nil action rest))
      exact
        { held := hlosing.held.retires (Finishing.turns_exec lost clean now shared action).retires
          listed := listed_exec lost clean now shared hlosing.listed
          last := hlast.symm.imp_left And.left }
  | establish now candidate =>
    have hsame : ∀ s' : ServiceShared P L, SameIndex shared.registry s'.registry →
        ∀ establishing', (⟨lost, clean, s', finishing, establishing'⟩ : Handover P L).Losing := by
      intro s' hsame _
      refine ⟨hlosing.held.same hsame, ?_, hlosing.last⟩
      have hlisted := hlosing.listed
      dsimp only at hlisted ⊢
      rw [hsame.1]
      exact hlisted
    dsimp only [Handover.move] at hserving ⊢
    cases establishing with
    | authenticated principal hello =>
      have hconcludes := shared.concludes_establish now principal hello candidate
      dsimp only [Establishing.exec] at hserving ⊢
      rcases hestablish : shared.establish now principal hello candidate with ⟨s', _ | _⟩
      · rw [hestablish] at hconcludes
        exact hsame s' hconcludes _
      · rw [hestablish] at hserving
        cases hserving
    | serving | refused => exact hsame _ ⟨rfl, rfl⟩ _
    | _ =>
      dsimp only [Establishing.exec]
      split <;> exact hsame _ ⟨rfl, rfl⟩ _
  | openAudio =>
    cases establishing with
    | serving =>
      dsimp only [Handover.move] at hserving
      split at hserving <;> cases hserving
    | _ => exact hlosing
  | firstRequest =>
    cases establishing with
    | serving => cases hserving
    | _ => exact hlosing

theorem losing_run (hlosing : h.Losing) (hserving : (h.run moves).isServing = false) :
    (h.run moves).Losing := by
  induction moves generalizing h with
  | nil => exact hlosing
  | cons move moves ih =>
    refine ih (losing_move move hlosing ?_) hserving
    -- who is published stays so
    by_contra hpublished
    rw [Bool.not_eq_false] at hpublished
    have hstays : ∀ (later : List (Move L)) (h : Handover P L), h.isServing = true →
        (h.run later).isServing = true := by
      intro later
      induction later with
      | nil => exact fun _ h => h
      | cons move _ ih => exact fun h hserving => ih _ (isServing_move move hserving)
    cases hserving.symm.trans (hstays moves (h.move move) hpublished)

theorem losing_start {lost : SessionRuntime L} (clean : Bool) {shared : ServiceShared P L}
    (establishing : Establishing L) (hlost : shared.registry.Publishes lost) :
    (start lost clean shared establishing).Losing where
  held := ⟨Or.inr hlost.session, fun tag htag => ⟨hlost.session, (hlost.tags tag).mp htag⟩⟩
  listed := Or.inl rfl
  last := Or.inr ⟨.awaitFirst, rfl, rfl⟩

/-! ### After the publication -/

/-- The successor is served, and what goes on ends it. -/
structure Doomed (runtime : SessionRuntime L) (h : Handover P L) : Prop where
  serving : ∃ outputs, h.establishing = .serving runtime outputs
  last : Gone h.shared runtime ∨ Threatened h.finishing

theorem doomed_move (move : Move L) (hidentity : runtime.identity = h.lost.identity)
    (hdoomed : h.Doomed runtime) : (h.move move).Doomed runtime := by
  obtain ⟨lost, clean, shared, finishing, _⟩ := h
  obtain ⟨⟨outputs, hserving⟩, hlast⟩ := hdoomed
  dsimp only at hserving hidentity hlast
  subst hserving
  cases move with
  | finish now =>
    cases finishing with
    | nil => exact ⟨⟨outputs, rfl⟩, hlast⟩
    | cons =>
      refine ⟨⟨outputs, rfl⟩, ?_⟩
      rcases hlast with hgone | hthreatened
      · exact Or.inl (Finishing.gone_exec hgone)
      · rcases threatened_exec lost clean now shared runtime hidentity hthreatened with
          hthreatened | ⟨-, hgone⟩
        · exact Or.inr hthreatened
        · exact Or.inl hgone
  | establish => exact ⟨⟨outputs, rfl⟩, hlast⟩
  | openAudio track =>
    dsimp only [Handover.move]
    split
    · exact ⟨⟨track :: outputs, rfl⟩, hlast⟩
    · exact ⟨⟨outputs, rfl⟩, hlast⟩
  | firstRequest =>
    refine ⟨⟨outputs, rfl⟩, hlast.imp_left fun hgone => ?_⟩
    dsimp only [Handover.move]
    unfold ServiceShared.admitPostHello
    split
    · exact hgone
    · split <;> exact hgone

theorem doomed_run (hidentity : runtime.identity = h.lost.identity) (hdoomed : h.Doomed runtime) :
    (h.run moves).Doomed runtime := by
  induction moves generalizing h with
  | nil => exact hdoomed
  | cons move _ ih =>
    exact ih (hidentity.trans (congrArg _ (lost_move move).symm))
      (doomed_move move hidentity hdoomed)

theorem intact_move (move : Move L) (hfinished : h.finishing = [])
    (hserving : ∃ outputs, h.establishing = .serving runtime outputs)
    (hintact : Intact before runtime h) : (h.move move).finishing = [] ∧
      (∃ outputs, (h.move move).establishing = .serving runtime outputs) ∧
      Intact before runtime (h.move move) := by
  obtain ⟨_, _, _, _, _⟩ := h
  obtain ⟨outputs, hserving⟩ := hserving
  dsimp only at hserving hfinished
  subst hserving hfinished
  cases move with
  | finish | establish => exact ⟨rfl, ⟨outputs, rfl⟩, hintact⟩
  | openAudio track generation =>
    dsimp only [Handover.move]
    split
    · refine ⟨rfl, ⟨track :: outputs, rfl⟩, hintact.published, hintact.scene, ?_⟩
      intro other hsession hopened
      dsimp only
      rw [lookup_insert]
      split
      · rfl
      · rename_i hne
        refine hintact.audio other hsession (hopened.imp_right fun hmem => ?_)
        exact (List.mem_cons.mp hmem).resolve_left hne
    · exact ⟨rfl, ⟨outputs, rfl⟩, hintact⟩
  | firstRequest =>
    refine ⟨rfl, ⟨outputs, rfl⟩, ?_⟩
    dsimp only [Handover.move]
    unfold ServiceShared.admitPostHello
    split
    · exact hintact
    · split
      · exact hintact
      · exact ⟨⟨hintact.published.session, hintact.published.tags⟩, hintact.scene, hintact.audio⟩

theorem intact_run (hfinished : h.finishing = [])
    (hserving : ∃ outputs, h.establishing = .serving runtime outputs)
    (hintact : Intact before runtime h) : Intact before runtime (h.run moves) := by
  induction moves generalizing h with
  | nil => exact hintact
  | cons move _ ih =>
    obtain ⟨hfinished, hserving, hintact⟩ := intact_move move hfinished hserving hintact
    exact ih hfinished hserving hintact

/-- What a publication makes of the registry and leaves of the rest. -/
theorem publishes_cases {now : ℕ} {candidate : Candidate L}
    (h' : h.Publishes now candidate runtime) :
    (h.move (.establish now candidate)).finishing = h.finishing ∧
      ∃ registry, SameIndex h.shared.registry registry ∧ SameIndex (registry.insertSession runtime)
          (h.move (.establish now candidate)).shared.registry ∧
        Retained h.shared.scene (h.move (.establish now candidate)).shared.scene runtime.identity ∧
        (h.move (.establish now candidate)).shared.audioOutputs = h.shared.audioOutputs := by
  obtain ⟨_, _, shared, _, _⟩ := h
  obtain ⟨⟨principal, hello, hauthenticated⟩, hserving⟩ := h'
  dsimp only at hauthenticated
  subst hauthenticated
  refine ⟨rfl, ?_⟩
  have hconcludes := shared.concludes_establish now principal hello candidate
  dsimp only [Handover.move, Establishing.exec] at hserving ⊢
  rcases hestablish : shared.establish now principal hello candidate with ⟨_, _ | _⟩
  · rw [hestablish] at hserving
    cases hserving
  · rw [hestablish] at hserving hconcludes
    cases hserving
    exact hconcludes

theorem intact_published {now : ℕ} {candidate : Candidate L}
    (hpublish : h.Publishes now candidate runtime) (hidentity : runtime.identity = h.lost.identity)
    (hlosing : h.Losing) (hfinished : h.finishing = []) :
    Intact h.shared runtime (h.move (.establish now candidate)) := by
  obtain ⟨-, registry, hsame, hinserted, hretained, haudio⟩ := publishes_cases hpublish
  have hnone : h.shared.registry.sessions.lookup h.lost.identity.sessionId = none := by
    rcases hlosing.listed with hlisted | hnone
    · rw [hfinished] at hlisted
      cases hlisted
    · exact hnone
  refine ⟨⟨?_, fun tag => ?_⟩, hretained, fun track _ hopened => ?_⟩
  · rw [hinserted.1]
    exact lookup_insert_self
  · rw [hinserted.2]
    change (registry.byTag.insert runtime.sessionTag _).lookup tag = _ ↔ _
    rw [lookup_insert]
    split
    · rename_i htag
      exact iff_of_true rfl htag
    · rename_i htag
      refine iff_of_false (fun hpoints => ?_) htag
      rw [hsame.2, hidentity] at hpoints
      cases hnone.symm.trans (hlosing.held.tags tag hpoints).1
  · rw [haudio]
    refine hopened.resolve_right ?_
    unfold outputs
    rw [hpublish.2]
    exact not_mem_nil

/-- The successor of a lost session is left intact just where it is published when nothing is left
of the finish to do. -/
theorem successor_intact {lost : SessionRuntime L} {clean : Bool} {shared : ServiceShared P L}
    {establishing : Establishing L} (hlost : shared.registry.Publishes lost)
    (early late : List (Move L)) (now : ℕ) (candidate : Candidate L) (runtime : SessionRuntime L)
    (hpublish : ((start lost clean shared establishing).run early).Publishes now candidate runtime)
    (hidentity : runtime.identity = lost.identity)
    (hfinished : ((start lost clean shared establishing).run
      (early ++ .establish now candidate :: late)).finishing = []) :
    Intact ((start lost clean shared establishing).run early).shared runtime
        ((start lost clean shared establishing).run (early ++ .establish now candidate :: late)) ↔
      ((start lost clean shared establishing).run early).finishing = [] := by
  rw [run_append] at hfinished ⊢
  have hsame : ((start lost clean shared establishing).run early).lost = lost := lost_run early
  have hlosing := losing_run early (losing_start clean establishing hlost) (by
      obtain ⟨⟨_, _, hauthenticated⟩, -⟩ := hpublish
      unfold isServing
      rw [hauthenticated])
  generalize (start lost clean shared establishing).run early = before at *
  have hidentity' : runtime.identity = before.lost.identity := by rw [hsame, hidentity]
  have hpublished := publishes_cases hpublish
  change Intact before.shared runtime ((before.move (.establish now candidate)).run late) ↔ _
  change ((before.move (.establish now candidate)).run late).finishing = [] at hfinished
  constructor
  · intro hintact
    by_contra hleft
    have hdoomed := doomed_run late (hidentity'.trans (congrArg _ (lost_move _).symm))
      (⟨⟨[], hpublish.2⟩, Or.inr (by
        rw [hpublished.1]
        exact hlosing.last.resolve_left hleft)⟩ :
        (before.move (.establish now candidate)).Doomed runtime)
    rcases hdoomed.last with hgone | ⟨_, hlast, -⟩
    · rcases hgone with hsession | hscene
      · exact hsession hintact.published.session
      · have hregistered := hintact.scene.isRegistered
        rw [hscene] at hregistered
        cases hregistered
    · rw [hfinished] at hlast
      cases hlast
  · intro hleft
    exact intact_run late (hpublished.1.trans hleft) ⟨[], hpublish.2⟩
      (intact_published hpublish hidentity' hlosing hleft)

section Resume

open ServiceShared

def resumeHello : Establishing .plain := .resuming 1 7 2 0 (5 : ℕ)

def resumeCandidate : Candidate .plain := ⟨(9 : ℕ), 300, (300 : ℕ), true⟩

def resumedRuntime : SessionRuntime .plain := ⟨2, childSession, 300, some childKey, (11 : ℕ)⟩

/-- The leased child's connection is lost, and the child resumes. -/
def lossStart : Handover .plain .plain := start childRuntime false (family true) resumeHello

theorem publishes_child : (family true).registry.Publishes childRuntime where
  session := lookup_insert_self
  tags tag := by
    change ((SortedMap.empty.insert 100 1).insert 200 2).lookup tag = some 2 ↔ tag = 200
    rw [lookup_insert, lookup_insert]
    split
    · rename_i htag
      exact iff_of_true rfl htag
    · rename_i htag
      refine iff_of_false (fun hpoints => ?_) htag
      split at hpoints <;> cases hpoints

/-- The lease is suspended, and the child resumes before the rest of the finish. -/
def hastyMoves : List (Move .plain) :=
  List.replicate 5 (.finish 10) ++ List.replicate 2 (.establish 20 resumeCandidate)

/-- The finish goes through before the child resumes. -/
def patientMoves : List (Move .plain) :=
  List.replicate 8 (.finish 10) ++ List.replicate 2 (.establish 20 resumeCandidate)

theorem publishes_hasty : (lossStart.run hastyMoves).Publishes 20 resumeCandidate resumedRuntime :=
  ⟨⟨.resume childKey (2 : ℕ) 2 0, (5 : ℕ), rfl⟩, rfl⟩

theorem publishes_patient :
    (lossStart.run patientMoves).Publishes 20 resumeCandidate resumedRuntime :=
  ⟨⟨.resume childKey (2 : ℕ) 2 0, (5 : ℕ), rfl⟩, rfl⟩

/-- The finish unregisters the child that has resumed. -/
theorem resumed_child_unregistered :
    ¬ ∀ (early late : List (Move .plain)) (now : ℕ) (candidate : Candidate .plain)
      (runtime : SessionRuntime .plain),
      (lossStart.run early).Publishes now candidate runtime → runtime.identity = childSession →
        (lossStart.run (early ++ .establish now candidate :: late)).finishing = [] →
          Intact (lossStart.run early).shared runtime
            (lossStart.run (early ++ .establish now candidate :: late)) := by
  intro h
  have hintact := h hastyMoves (List.replicate 3 (.finish 30)) 20 resumeCandidate resumedRuntime
    publishes_hasty rfl rfl
  have hnone : ((lossStart.run (hastyMoves ++ .establish 20 resumeCandidate ::
      List.replicate 3 (.finish 30))).shared.registry.sessions.lookup 2).isNone = true := by
    decide +kernel
  rw [Option.isNone_iff_eq_none] at hnone
  cases hnone.symm.trans hintact.published.session

theorem patient_child_intact : Intact (lossStart.run patientMoves).shared resumedRuntime
        (lossStart.run (patientMoves ++ .establish 20 resumeCandidate :: [])) ↔
      (lossStart.run patientMoves).finishing = [] :=
  successor_intact publishes_child patientMoves [] 20 resumeCandidate resumedRuntime
    publishes_patient rfl rfl

end Resume

end Handover

end Vivido.Service
