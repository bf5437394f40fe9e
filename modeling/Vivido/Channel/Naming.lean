import Vivido.Channel.Tables

/-!
Whether the tables beside the scene name live tracks only, and whether a
transport that counts as attached is served. A track that goes takes neither its
audio output nor the state of its openings along, but for one request.
-/

namespace Vivido.Scene.State

open List Option

variable {P : Protocol}

/-- The destruction of a track goes through: its surface can advance if it frees a slot. -/
def Destroys (s : State P) (identity : TrackIdentity) : Prop :=
  (s.tracks.lookup identity).isSome ∧
    (s.surfaces.lookup identity.surface).all fun surface =>
      (surface.activeSlots.filter fun entry => entry.2 ≠ identity.trackId).size =
          surface.activeSlots.size ||
        (P.advance surface.revision).isSome

theorem destroyTrack_isOk (s : State P) (identity : TrackIdentity) :
    (s.destroyTrack identity).2.isOk = true ↔ s.Destroys identity := by
  unfold destroyTrack Destroys
  dsimp only
  rw [show s.invalidateTopology.tracks = s.tracks from rfl,
    show s.invalidateTopology.surfaces = s.surfaces from rfl]
  split
  · rename_i hnone
    rw [isNone_iff_eq_none] at hnone
    rw [hnone]
    exact iff_of_false nofun fun h => by cases h.1
  · rename_i hsome
    rw [isNone_iff_eq_none] at hsome
    rw [and_iff_right (Option.isSome_iff_ne_none.mpr hsome)]
    cases s.surfaces.lookup identity.surface with
    | none => exact iff_of_true rfl rfl
    | some surface =>
      dsimp only [all_some]
      split
      · rename_i hfreed
        rw [decide_eq_false hfreed, Bool.false_or]
        cases P.advance surface.revision with
        | none => exact iff_of_false nofun nofun
        | some => exact iff_of_true rfl rfl
      · rename_i hkept
        rw [decide_eq_true (not_not.mp hkept), Bool.true_or]
        exact iff_of_true rfl rfl

def AcceptsChannel (s : State P) (identity : TrackIdentity)
    (generation maximumBytes maximumRecords : ℕ) : Prop :=
  (maximumBytes ≠ 0 ∧ maximumRecords ≠ 0) ∧
    (s.tracks.lookup identity).any fun track =>
      track.isCurrent generation ∧
        (P.acceptChannel track.state generation maximumBytes maximumRecords
          track.configuration.maximumRecordBody).2

theorem perform_acceptChannel (s : State P) (identity : TrackIdentity)
    (generation maximumBytes maximumRecords : ℕ) :
    (s.perform (.acceptChannel identity generation maximumBytes maximumRecords)).2 = true ↔
      s.AcceptsChannel identity generation maximumBytes maximumRecords := by
  change (s.acceptChannel identity generation maximumBytes maximumRecords).2.isOk = true ↔ _
  unfold acceptChannel AcceptsChannel onTrack
  split
  · rename_i hzero
    refine iff_of_false nofun fun h => ?_
    exact hzero.elim h.1.1 h.1.2
  rename_i hpositive
  rw [not_or] at hpositive
  rw [and_iff_right hpositive]
  cases s.tracks.lookup identity with
  | none => exact iff_of_false nofun nofun
  | some track =>
    dsimp only [any_some]
    rw [decide_eq_true_eq]
    unfold Track.acceptChannel
    split
    · rename_i hstale
      exact iff_of_false nofun fun h => hstale h.1
    rename_i hcurrent
    rw [and_iff_right (not_not.mp hcurrent)]
    dsimp only
    split
    · rename_i haccepted
      exact iff_of_true rfl haccepted
    · rename_i hrefused
      exact iff_of_false nofun hrefused

end Vivido.Scene.State

namespace Vivido.Channel.Tables

open Scene SortedMap List Option

variable {P : Protocol} {K : ChannelProtocol} {x y : Tables P K}

/-- Some thread serves a transport of the generation. -/
def Served (workers : List Worker) (identity : TrackIdentity) (generation : ℕ) : Prop :=
  ∃ worker ∈ workers, worker.isServing ∧ worker.identity = identity ∧
    worker.generation = generation

/-- The tables name live tracks, and a transport that counts as attached is served. -/
structure Named (x : Tables P K) : Prop where
  outputs : ∀ key, (x.audioOutputs.lookup key).isSome → (x.scene.tracks.lookup key).isSome
  opens : ∀ key, (x.channelOpens.lookup key).isSome → (x.scene.tracks.lookup key).isSome
  attached : ∀ key opens generation, x.channelOpens.lookup key = some opens →
    K.attached opens = some generation → Served x.workers key generation

/-- Another thread serves the transport of a thread. -/
def ServedElse (x : Tables P K) (i : ℕ) (worker : Worker) : Prop :=
  ∃ j other, j ≠ i ∧ x.workers[j]? = some other ∧ other.isServing ∧
    other.identity = worker.identity ∧ other.generation = worker.generation

/-- No track goes that one of the tables names after the event, and no opening comes to nothing
once it has been decided on. -/
def Sound (x : Tables P K) : Act P K → Prop
  | .request request => ∀ key, x.scene.Discards request key →
    x.channelOpens.lookup key = none ∧ (x.audioOutputs.lookup key = none ∨
      request = .destroyTrack key ∧ x.scene.Destroys key)
  | .decide i _ => ∀ worker, x.workers[i]? = some worker → worker.phase = .opening →
    (x.scene.tracks.lookup worker.identity).isSome
  | .accept i maximumBytes maximumRecords => ∀ worker replayed, x.workers[i]? = some worker →
    worker.phase = .decided replayed →
      (if replayed then (x.scene.tracks.lookup worker.identity).isSome = true
        else x.scene.AcceptsChannel worker.identity worker.generation maximumBytes
          maximumRecords) ∨
      x.ServedElse i worker ∨ ∀ opens, x.channelOpens.lookup worker.identity = some opens →
        K.attached opens ≠ some worker.generation
  | .play i => ∀ worker, x.workers[i]? = some worker → worker.phase = .armed →
    (x.scene.tracks.lookup worker.identity).isSome
  | _ => True

/-! ### What is named stays -/

section

variable (h : x.Named)
  (htracks : ∀ key, (x.scene.tracks.lookup key).isSome → (y.scene.tracks.lookup key).isSome)
  (houtputs : ∀ key, (y.audioOutputs.lookup key).isSome → (x.audioOutputs.lookup key).isSome)
include h htracks houtputs

/-- The tables at most lose entries, and what stays attached stays served. -/
theorem Named.of_kept (hopens : ∀ key opens', y.channelOpens.lookup key = some opens' →
      ∃ opens, x.channelOpens.lookup key = some opens ∧ ∀ generation,
        K.attached opens' = some generation → K.attached opens = some generation ∧
          (Served x.workers key generation → Served y.workers key generation)) : y.Named where
  outputs key hkey := htracks key (h.outputs key (houtputs key hkey))
  opens key hkey := by
    obtain ⟨opens', hopens'⟩ := Option.isSome_iff_exists.mp hkey
    obtain ⟨opens, hbefore, -⟩ := hopens key opens' hopens'
    exact htracks key (h.opens key (isSome_of_eq_some hbefore))
  attached key opens' generation hopens' hattached := by
    obtain ⟨opens, hbefore, hkept⟩ := hopens key opens' hopens'
    obtain ⟨hattached, hserved⟩ := hkept generation hattached
    exact hserved (h.attached key opens generation hbefore hattached)

/-- Only the outputs and the scene change. -/
theorem Named.of_outputs
    (hopens : y.channelOpens = x.channelOpens) (hworkers : y.workers = x.workers) : y.Named := by
  refine h.of_kept htracks houtputs fun key opens' hopens' => ⟨opens', hopens ▸ hopens', ?_⟩
  intro _ hattached
  rw [hworkers]
  exact ⟨hattached, fun hserved => hserved⟩

end

variable {i : ℕ} {request : Request P}

theorem isSome_perform {s : State P} {key : TrackIdentity} (hkept : ¬ s.Discards request key)
    (h : (s.tracks.lookup key).isSome) : ((s.perform request).1.tracks.lookup key).isSome :=
  (State.leaves_perform s request key).2 hkept h

/-! ### Requests -/

/-- An accepted request at most takes audio outputs away. -/
theorem isSome_outputsAfter {scene : State P} {key : TrackIdentity}
    (h : ((x.outputsAfter scene request).lookup key).isSome) :
    (x.audioOutputs.lookup key).isSome := by
  have herase : ∀ identity, ((x.audioOutputs.erase identity).lookup key).isSome →
      (x.audioOutputs.lookup key).isSome := by
    intro identity hkey
    obtain ⟨generation, hgeneration⟩ := Option.isSome_iff_exists.mp hkey
    exact isSome_of_eq_some (lookup_erase_some hgeneration).2
  cases request with
  | destroyTrack identity => exact herase identity h
  | advanceChannel identity =>
    dsimp only [outputsAfter] at h
    split at h
    · exact h
    rename_i generation hgeneration
    split at h
    · split at h
      · rw [lookup_insert] at h
        split at h
        · rename_i hkey
          rw [hkey, hgeneration]
          rfl
        · exact h
      · exact herase identity h
    · exact herase identity h
  | _ => exact h

theorem request_eq (x : Tables P K) (request : Request P) : x.request request = { x with
      scene := (x.scene.perform request).1, audioOutputs := if (x.scene.perform request).2 then
          x.outputsAfter (x.scene.perform request).1 request
        else x.audioOutputs } := by
  unfold Tables.request
  split
  · rename_i heq
    rw [heq]
    rfl
  · rename_i heq
    rw [heq]
    rfl

theorem isSome_request {key : TrackIdentity}
    (h : ((x.request request).audioOutputs.lookup key).isSome) :
    (x.audioOutputs.lookup key).isSome := by
  rw [request_eq] at h
  dsimp only at h
  split at h
  · exact isSome_outputsAfter h
  · exact h

theorem outputs_dropped {key : TrackIdentity} (hdrops : x.scene.Discards request key)
    (h : (x.request request).audioOutputs.lookup key = none) :
    x.audioOutputs.lookup key = none ∨ request = .destroyTrack key ∧ x.scene.Destroys key := by
  rw [request_eq] at h
  dsimp only at h
  split at h
  · rename_i haccepted
    cases request with
    | destroyTrack =>
      cases hdrops
      exact Or.inr ⟨rfl, (State.destroyTrack_isOk x.scene key).mp haccepted⟩
    | advanceChannel => exact hdrops.elim
    | _ => exact Or.inl h
  · exact Or.inl h

theorem Named.request_iff (h : x.Named) (request : Request P) :
    (x.request request).Named ↔ x.Sound (.request request) := by
  have hopens : (x.request request).channelOpens = x.channelOpens := by rw [request_eq]
  have hworkers : (x.request request).workers = x.workers := by rw [request_eq]
  have hscene : (x.request request).scene = (x.scene.perform request).1 := by rw [request_eq]
  constructor
  · intro hafter key hdrops
    have hgone := (State.leaves_perform x.scene request key).1 hdrops
    rw [← hscene] at hgone
    have hnone : ∀ {α : Type} {found : Option α},
        (found.isSome → ((x.request request).scene.tracks.lookup key).isSome) → found = none := by
      intro α _ hfound
      by_contra hne
      have := hfound (Option.isSome_iff_ne_none.mpr hne)
      rw [hgone] at this
      cases this
    exact ⟨hopens ▸ hnone (hafter.opens key), outputs_dropped hdrops (hnone (hafter.outputs key))⟩
  · intro hsound
    refine ⟨fun key hkey => ?_, fun key hkey => ?_, fun key opens generation hkey hattached => ?_⟩
    · have hbefore := isSome_request hkey
      rw [hscene]
      refine isSome_perform (fun hdrops => ?_) (h.outputs key hbefore)
      rcases (hsound key hdrops).2 with hnone | ⟨rfl, hdestroys⟩
      · rw [hnone] at hbefore
        cases hbefore
      have hok : (x.scene.perform (.destroyTrack key)).2 = true :=
        (State.destroyTrack_isOk x.scene key).mpr hdestroys
      rw [request_eq] at hkey
      dsimp only at hkey
      rw [if_pos hok] at hkey
      change ((x.audioOutputs.erase key).lookup key).isSome at hkey
      rw [lookup_erase, if_pos rfl] at hkey
      cases hkey
    · rw [hopens] at hkey
      rw [hscene]
      refine isSome_perform (fun hdrops => ?_) (h.opens key hkey)
      rw [(hsound key hdrops).1] at hkey
      cases hkey
    · rw [hopens] at hkey
      rw [hworkers]
      exact h.attached key opens generation hkey hattached

/-! ### The threads of channels -/

/-- What is served once a thread has changed its phase. -/
theorem served_set {workers : List Worker} {worker worker' : Worker}
    (h : workers[i]? = some worker) {identity : TrackIdentity} {generation : ℕ} :
    Served (workers.set i worker') identity generation ↔
      (worker'.isServing ∧ worker'.identity = identity ∧ worker'.generation = generation) ∨
        ∃ j other, j ≠ i ∧ workers[j]? = some other ∧ other.isServing ∧
          other.identity = identity ∧ other.generation = generation := by
  obtain ⟨hi, -⟩ := List.getElem?_eq_some_iff.mp h
  constructor
  · rintro ⟨other, hmem, hserves⟩
    obtain ⟨j, hj⟩ := List.mem_iff_getElem?.mp hmem
    by_cases hji : j = i
    · subst hji
      rw [getElem?_set_self hi] at hj
      cases hj
      exact Or.inl hserves
    · rw [getElem?_set_ne (Ne.symm hji)] at hj
      exact Or.inr ⟨j, other, hji, hj, hserves⟩
  · rintro (hserves | ⟨j, other, hji, hj, hserves⟩)
    · refine ⟨worker', List.mem_iff_getElem?.mpr ⟨i, ?_⟩, hserves⟩
      rw [getElem?_set_self hi]
    · refine ⟨other, List.mem_iff_getElem?.mpr ⟨j, ?_⟩, hserves⟩
      rw [getElem?_set_ne (Ne.symm hji)]
      exact hj

theorem served_setPhase {workers : List Worker} {worker : Worker} {phase : Phase}
    (h : workers[i]? = some worker)
    (hserving : worker.isServing → ({ worker with phase } : Worker).isServing)
    {identity : TrackIdentity} {generation : ℕ} (hserved : Served workers identity generation) :
    Served (workers.set i { worker with phase }) identity generation := by
  obtain ⟨other, hmem, hserves, hidentity, hgeneration⟩ := hserved
  obtain ⟨j, hj⟩ := List.mem_iff_getElem?.mp hmem
  refine (served_set h).mpr ?_
  by_cases hji : j = i
  · rw [hji, h] at hj
    cases hj
    exact Or.inl ⟨hserving hserves, hidentity, hgeneration⟩
  · exact Or.inr ⟨j, other, hji, hj, hserves, hidentity, hgeneration⟩

theorem Named.connect (h : x.Named) (identity : TrackIdentity) (generation : ℕ) :
    (x.connect identity generation).Named := by
  unfold Tables.connect
  split
  · exact h
  split
  · exact h
  · refine h.of_kept (fun _ hkey => hkey) (fun _ hkey => hkey) fun key opens' hopens' =>
      ⟨opens', hopens', fun generation hattached => ⟨hattached, ?_⟩⟩
    rintro ⟨worker, hmem, hserves⟩
    exact ⟨worker, mem_append_left _ hmem, hserves⟩

/-- An opening is decided on for a track that is there. -/
theorem Named.decide_iff (hK : K.Lawful) (h : x.Named) {worker : Worker}
    (hworker : x.workers[i]? = some worker) (hphase : worker.phase = .opening)
    (attempt : K.Attempt) :
    (x.decide i worker attempt).Named ↔ (x.scene.tracks.lookup worker.identity).isSome := by
  generalize hdecided : K.openAttempt ((x.channelOpens.lookup worker.identity).getD K.unopened)
    worker.generation worker.generation attempt = decided
  obtain ⟨opens, decision⟩ := decided
  have hidle : worker.isServing = false := by
    unfold Worker.isServing
    rw [hphase]
  obtain ⟨phase, hphase', hdecide⟩ : ∃ phase,
      (decision.opens = true ↔ ({ worker with phase } : Worker).isServing = true) ∧
        x.decide i worker attempt =
          { x with
            channelOpens := x.channelOpens.insert worker.identity opens
            workers := x.workers.set i { worker with phase } } := by
    unfold Tables.decide
    rw [hdecided]
    cases decision with
    | fresh => exact ⟨.decided false, iff_of_true rfl rfl, rfl⟩
    | exactReplay => exact ⟨.decided true, iff_of_true rfl rfl, rfl⟩
    | _ => exact ⟨.done, iff_of_false (by decide) nofun, rfl⟩
  have hattached : ∀ generation, K.attached opens = some generation →
      (decision.opens = true ∧ generation = worker.generation) ∨
        ∃ before, x.channelOpens.lookup worker.identity = some before ∧
          K.attached before = some generation := by
    intro generation hattached
    have hopened : (K.openAttempt ((x.channelOpens.lookup worker.identity).getD K.unopened)
        worker.generation worker.generation attempt).2.opens = true →
          K.attached (K.openAttempt ((x.channelOpens.lookup worker.identity).getD K.unopened)
            worker.generation worker.generation attempt).1 = some worker.generation := hK.opened
    have hrefused : (K.openAttempt ((x.channelOpens.lookup worker.identity).getD K.unopened)
        worker.generation worker.generation attempt).2.opens = false →
          K.attached (K.openAttempt ((x.channelOpens.lookup worker.identity).getD K.unopened)
            worker.generation worker.generation attempt).1 =
            K.attached ((x.channelOpens.lookup worker.identity).getD K.unopened) := hK.refused
    rw [hdecided] at hopened hrefused
    cases hopens : decision.opens with
    | true =>
      rw [hopened hopens] at hattached
      exact Or.inl ⟨rfl, (Option.some.inj hattached).symm⟩
    | false =>
      rw [hrefused hopens] at hattached
      cases hbefore : x.channelOpens.lookup worker.identity with
      | none =>
        rw [hbefore, getD_none, hK.unopened] at hattached
        cases hattached
      | some before =>
        rw [hbefore, getD_some] at hattached
        exact Or.inr ⟨before, rfl, hattached⟩
  rw [hdecide]
  constructor
  · intro hafter
    refine hafter.opens worker.identity ?_
    rw [lookup_insert_self]
    rfl
  · intro _
    have hserved : ∀ {identity : TrackIdentity} {generation : ℕ},
        Served x.workers identity generation →
          Served (x.workers.set i { worker with phase }) identity generation := by
      refine served_setPhase hworker fun hserving => ?_
      rw [hidle] at hserving
      cases hserving
    refine ⟨h.outputs, fun key hkey => ?_, fun key found generation hfound hkeyAttached => ?_⟩
    · rw [lookup_insert] at hkey
      split at hkey
      · rename_i heq
        rwa [heq]
      · exact h.opens key hkey
    · rw [lookup_insert] at hfound
      split at hfound
      · rename_i heq
        cases hfound
        rcases hattached generation hkeyAttached with ⟨hopens, rfl⟩ | ⟨before, hbefore, hheld⟩
        · exact (served_set hworker).mpr (Or.inl ⟨hphase'.mp hopens, heq.symm, rfl⟩)
        · exact hserved (h.attached key before generation (heq ▸ hbefore) hheld)
      · exact hserved (h.attached key found generation hfound hkeyAttached)

/-- The scene changes by an operation that drops no track, and a thread serves as much as
before. -/
theorem Named.of_scene (h : x.Named) {scene : State P} {workers : List Worker}
    (hscene : ∀ key, (x.scene.tracks.lookup key).isSome → (scene.tracks.lookup key).isSome)
    (hworkers : ∀ key generation, Served x.workers key generation → Served workers key generation) :
    ({ x with scene, workers } : Tables P K).Named := by
  refine h.of_kept hscene (fun _ hkey => hkey) fun key opens' hopens' => ⟨opens', hopens', ?_⟩
  exact fun generation hattached => ⟨hattached, hworkers key generation⟩

/-- A thread that gives up after its opening was decided on leaves a transport attached that nobody
serves. -/
theorem Named.giveUp_iff (h : x.Named) {scene : State P}
    (hscene : ∀ key, (x.scene.tracks.lookup key).isSome → (scene.tracks.lookup key).isSome)
    {worker : Worker} (hworker : x.workers[i]? = some worker) :
    (({ x with scene } : Tables P K).setPhase i worker .done).Named ↔ x.ServedElse i worker ∨
      ∀ opens, x.channelOpens.lookup worker.identity = some opens →
        K.attached opens ≠ some worker.generation := by
  have hset : ∀ {identity : TrackIdentity} {generation : ℕ},
      Served (x.workers.set i { worker with phase := .done }) identity generation ↔
        ∃ j other, j ≠ i ∧ x.workers[j]? = some other ∧ other.isServing ∧
          other.identity = identity ∧ other.generation = generation := by
    intro _ generation
    rw [served_set hworker, or_iff_right]
    exact fun hserving => by cases hserving.1
  constructor
  · intro hafter
    by_cases hopens : ∃ opens, x.channelOpens.lookup worker.identity = some opens ∧
        K.attached opens = some worker.generation
    · obtain ⟨opens, hfound, hattached⟩ := hopens
      exact Or.inl (hset.mp (hafter.attached worker.identity opens worker.generation hfound
        hattached))
    · exact Or.inr fun opens hfound hattached => hopens ⟨opens, hfound, hattached⟩
  · intro hsound
    refine ⟨fun key hkey => hscene key (h.outputs key hkey),
      fun key hkey => hscene key (h.opens key hkey), ?_⟩
    intro key opens generation hfound hattached
    obtain ⟨other, hmem, hserves, hidentity, hgeneration⟩ :=
      h.attached key opens generation hfound hattached
    obtain ⟨j, hj⟩ := List.mem_iff_getElem?.mp hmem
    by_cases hji : j = i
    · rw [hji, hworker] at hj
      cases hj
      subst hidentity hgeneration
      rcases hsound with helse | hnone
      · exact hset.mpr helse
      · exact (hnone opens hfound hattached).elim
    · exact hset.mpr ⟨j, other, hji, hj, hserves, hidentity, hgeneration⟩

theorem Named.accept_iff (h : x.Named) {worker : Worker} {replayed : Bool}
    (hworker : x.workers[i]? = some worker) (hphase : worker.phase = .decided replayed)
    (maximumBytes maximumRecords : ℕ) :
    (x.accept i worker replayed maximumBytes maximumRecords).Named ↔
      (if replayed then (x.scene.tracks.lookup worker.identity).isSome = true
        else x.scene.AcceptsChannel worker.identity worker.generation maximumBytes maximumRecords) ∨
      x.ServedElse i worker ∨ ∀ opens, x.channelOpens.lookup worker.identity = some opens →
        K.attached opens ≠ some worker.generation := by
  have harmed : ∀ scene : State P,
      (∀ key, (x.scene.tracks.lookup key).isSome → (scene.tracks.lookup key).isSome) →
        (({ x with scene } : Tables P K).setPhase i worker .armed).Named :=
    fun scene hscene => h.of_scene hscene fun _ _ => served_setPhase hworker fun _ => rfl
  unfold Tables.accept
  cases replayed with
  | true =>
    rw [if_pos rfl, if_pos rfl]
    split
    · rename_i htrack
      exact iff_of_true (harmed x.scene fun _ hkey => hkey) (Or.inl htrack)
    · rename_i hgone
      rw [or_iff_right hgone]
      exact h.giveUp_iff (fun _ hkey => hkey) hworker
  | false =>
    rw [if_neg Bool.false_ne_true, if_neg Bool.false_ne_true, ← State.perform_acceptChannel]
    have hscene : ∀ key, (x.scene.tracks.lookup key).isSome →
        ((x.scene.perform (.acceptChannel worker.identity worker.generation maximumBytes
          maximumRecords)).1.tracks.lookup key).isSome :=
      fun key => isSome_perform fun hdrops => hdrops
    split
    · rename_i scene heq
      rw [heq] at hscene ⊢
      exact iff_of_true (harmed scene hscene) (Or.inl rfl)
    · rename_i scene heq
      rw [heq] at hscene ⊢
      rw [or_iff_right Bool.false_ne_true]
      exact h.giveUp_iff hscene hworker

/-- An audio output begins for a track that is there. -/
theorem Named.play_iff (h : x.Named) (worker : Worker) :
    (x.play worker).Named ↔ (x.scene.tracks.lookup worker.identity).isSome := by
  unfold Tables.play
  split
  · rename_i hplays
    exact iff_of_true h (h.outputs worker.identity (isSome_of_eq_some hplays))
  constructor
  · intro hafter
    refine hafter.outputs worker.identity ?_
    rw [lookup_insert_self]
    rfl
  · intro _
    refine ⟨fun key hkey => ?_, h.opens, h.attached⟩
    rw [lookup_insert] at hkey
    split at hkey
    · rename_i heq
      rwa [heq]
    · exact h.outputs key hkey

theorem isSome_erase {κ α : Type*} [LinearOrder κ] {m : SortedMap κ α} {key key' : κ}
    (h : ((m.erase key').lookup key).isSome) : (m.lookup key).isSome := by
  obtain ⟨_, hvalue⟩ := Option.isSome_iff_exists.mp h
  exact isSome_of_eq_some (lookup_erase_some hvalue).2

/-- The transport of a thread is lost, and the thread serves it no more. -/
theorem Named.detach (hK : K.Lawful) (h : x.Named) {worker : Worker} {phase : Phase}
    (hworker : x.workers[i]? = some worker) (outputs : SortedMap TrackIdentity ℕ)
    (houtputs : ∀ key, (outputs.lookup key).isSome → (x.audioOutputs.lookup key).isSome) :
    ((({ x with audioOutputs := outputs } : Tables P K).detach worker).setPhase i worker
      phase).Named := by
  refine h.of_kept (fun key => isSome_perform fun hdrops => hdrops) houtputs
    fun key opens' hopens' => ?_
  change (x.channelOpens.adjust _ _).lookup key = some opens' at hopens'
  rw [lookup_adjust] at hopens'
  have hother : ∀ generation, (key = worker.identity → generation ≠ worker.generation) →
      Served x.workers key generation →
        Served (x.workers.set i { worker with phase }) key generation := by
    rintro generation hne ⟨other, hmem, hserves, rfl, rfl⟩
    obtain ⟨j, hj⟩ := List.mem_iff_getElem?.mp hmem
    refine (served_set hworker).mpr (Or.inr ⟨j, other, ?_, hj, hserves, rfl, rfl⟩)
    rintro rfl
    rw [hworker] at hj
    cases hj
    exact hne rfl rfl
  split at hopens'
  · rename_i hkey
    obtain ⟨opens, hbefore, rfl⟩ := Option.map_eq_some_iff.mp hopens'
    refine ⟨opens, hbefore, fun generation hattached => ?_⟩
    rw [hK.lost] at hattached
    split at hattached
    · cases hattached
    · rename_i hlost
      refine ⟨hattached, hother generation fun _ heq => hlost ?_⟩
      rw [hattached, heq]
  · rename_i hkey
    exact ⟨opens', hopens', fun generation hattached =>
      ⟨hattached, hother generation fun heq => (hkey heq).elim⟩⟩

theorem Named.lose (h : x.Named) (worker : Worker) : (x.lose worker).Named := by
  have hscene : ∀ key, (x.scene.tracks.lookup key).isSome →
      ((x.scene.invalidateTopology.onTrack worker.identity
        (·.loseTrack worker.generation)).1.tracks.lookup key).isSome :=
    fun key => (State.leaves_perform x.scene (.loseTrack worker.identity worker.generation) key).2
      fun hdrops => hdrops
  unfold Tables.lose
  split
  · rename_i heq
    rw [heq] at hscene
    exact h.of_outputs hscene (fun key => isSome_erase) rfl rfl
  · rename_i heq
    rw [heq] at hscene
    exact h.of_outputs hscene (fun _ hkey => hkey) rfl rfl

theorem Named.admitMedia (hK : K.Lawful) (h : x.Named) (identity : TrackIdentity)
    (generation : ℕ) : ({ x with channelOpens := x.channelOpens.adjust identity fun opens =>
      (K.admitMedia opens generation).1 } : Tables P K).Named := by
  refine h.of_kept (fun _ hkey => hkey) (fun _ hkey => hkey) fun key opens' hopens' => ?_
  rw [lookup_adjust] at hopens'
  split at hopens'
  · obtain ⟨opens, hbefore, rfl⟩ := Option.map_eq_some_iff.mp hopens'
    refine ⟨opens, hbefore, fun generation hattached => ?_⟩
    rw [hK.admits] at hattached
    exact ⟨hattached, fun hserved => hserved⟩
  · exact ⟨opens', hopens', fun _ hattached => ⟨hattached, fun hserved => hserved⟩⟩

/-! ### Histories -/

/-- A thread goes on only if it is there. -/
theorem onWorker_iff {work : Worker → Tables P K} {good : Worker → Prop} (h : x.Named)
    (hwork : ∀ worker, x.workers[i]? = some worker → ((work worker).Named ↔ good worker)) :
    (x.onWorker i work).Named ↔ ∀ worker, x.workers[i]? = some worker → good worker := by
  unfold onWorker
  cases hworker : x.workers[i]? with
  | none => exact iff_of_true h fun worker hsome => by cases hsome
  | some worker =>
    refine (hwork worker hworker).trans ⟨fun hgood _ hsame => ?_, fun hgood => hgood worker rfl⟩
    cases hsame
    exact hgood

theorem Named.step_iff (hK : K.Lawful) (h : x.Named) (act : Act P K) :
    (x.step act).Named ↔ x.Sound act := by
  cases act with
  | request request => exact h.request_iff request
  | stopSessionAudio =>
    refine iff_of_true ?_ trivial
    refine h.of_outputs (fun _ hkey => hkey) (fun key hkey => ?_) rfl rfl
    obtain ⟨generation, hgeneration⟩ := Option.isSome_iff_exists.mp hkey
    dsimp only [step] at hgeneration
    rw [lookup_filter, filter_eq_some_iff] at hgeneration
    exact isSome_of_eq_some hgeneration.1
  | connect identity generation => exact iff_of_true (h.connect identity generation) trivial
  | decide i attempt =>
    refine onWorker_iff h fun worker hworker => ?_
    split
    · rename_i hphase
      rw [h.decide_iff hK hworker hphase]
      exact ⟨fun htrack _ => htrack, fun hsound => hsound hphase⟩
    · rename_i hphase
      exact iff_of_true h fun hopening => (hphase hopening).elim
  | accept i maximumBytes maximumRecords =>
    have hsound : x.Sound (.accept i maximumBytes maximumRecords) ↔
        ∀ worker, x.workers[i]? = some worker → ∀ replayed, worker.phase = .decided replayed →
          (if replayed then (x.scene.tracks.lookup worker.identity).isSome = true
            else x.scene.AcceptsChannel worker.identity worker.generation maximumBytes
              maximumRecords) ∨
          x.ServedElse i worker ∨ ∀ opens, x.channelOpens.lookup worker.identity = some opens →
            K.attached opens ≠ some worker.generation :=
      forall_congr' fun worker => forall_comm
    rw [hsound]
    refine onWorker_iff h fun worker hworker => ?_
    split
    · rename_i replayed hphase
      rw [h.accept_iff hworker hphase]
      refine ⟨fun hgood other hother => ?_, fun hgood => hgood replayed hphase⟩
      cases hphase.symm.trans hother
      exact hgood
    · rename_i hphase
      exact iff_of_true h fun replayed hdecided => (hphase replayed hdecided).elim
  | play i =>
    refine onWorker_iff h fun worker hworker => ?_
    split
    · rename_i hphase
      rw [h.play_iff worker]
      exact ⟨fun htrack _ => htrack, fun hsound => hsound hphase⟩
    · rename_i hphase
      exact iff_of_true h fun harmed => (hphase harmed).elim
  | admitMedia =>
    refine iff_of_true ((onWorker_iff h fun worker hworker => iff_of_true ?_ trivial).mpr
      fun _ _ => trivial) trivial
    split
    · exact h.admitMedia hK worker.identity worker.generation
    · exact h
  | abandon =>
    refine iff_of_true ((onWorker_iff h fun worker hworker => iff_of_true ?_ trivial).mpr
      fun _ _ => trivial) trivial
    split
    · exact h.detach hK hworker (x.audioOutputs.erase worker.identity) fun key => isSome_erase
    · exact h
  | detach =>
    refine iff_of_true ((onWorker_iff h fun worker hworker => iff_of_true ?_ trivial).mpr
      fun _ _ => trivial) trivial
    split
    · exact h.detach hK hworker x.audioOutputs fun _ hkey => hkey
    · exact h
  | lose i =>
    refine iff_of_true ((onWorker_iff h fun worker hworker => iff_of_true ?_ trivial).mpr
      fun _ _ => trivial) trivial
    split
    · rename_i hphase
      have hworkers : (x.lose worker).workers = x.workers := by
        unfold Tables.lose
        split <;> rfl
      refine (h.lose worker).of_scene (fun _ hkey => hkey) fun key generation => ?_
      rw [hworkers]
      refine served_setPhase hworker fun hserving => ?_
      unfold Worker.isServing at hserving
      rw [hphase] at hserving
      cases hserving
    · exact h

/-- The tables name what is there throughout a history exactly if no event leaves an entry
behind. -/
theorem named_iff (hK : K.Lawful) (target : PresentationTarget P) (history : List (Act P K)) :
    (∀ n, (run K target (history.take n)).Named) ↔ Throughout (run K target) Sound history := by
  refine throughout_iff_always (fun history => (run K target history).Named) ?_ ?_
  · constructor
    · intro key hkey
      cases hkey
    · intro key hkey
      cases hkey
    · intro _ _ _ hfound
      cases hfound
  · intro _ act h
    rw [run_concat]
    exact h.step_iff hK act

theorem plain_decide (opens : PlainOpens) (channelGeneration generation attempt : ℕ) :
    (opens.decide channelGeneration generation attempt).1.attached =
      if (opens.decide channelGeneration generation attempt).2.opens then some generation
      else opens.attached := by
  unfold PlainOpens.decide
  by_cases hstale : generation ≠ channelGeneration
  · rw [if_pos hstale]
    rfl
  rw [if_neg hstale]
  cases opens.last with
  | none => rfl
  | some last =>
    obtain ⟨before, bytes⟩ := last
    dsimp only
    by_cases hearlier : generation < before
    · simp only [if_pos hearlier]
      rfl
    simp only [if_neg hearlier]
    by_cases hlater : before < generation
    · simp only [if_pos hlater]
      rfl
    simp only [if_neg hlater]
    by_cases hbusy : opens.isAttached = true
    · simp only [if_pos hbusy]
      rfl
    · simp only [if_neg hbusy]
      by_cases hsame : bytes = attempt
      · simp only [if_pos hsame]
        rfl
      · simp only [if_neg hsame]
        rfl

theorem plain_lost (opens : PlainOpens) (generation : ℕ) :
    (if opens.attached = some generation then { opens with isAttached := false }
      else opens : PlainOpens).attached =
      if opens.attached = some generation then none else opens.attached := by
  by_cases hattached : opens.attached = some generation
  · rw [if_pos hattached, if_pos hattached]
    rfl
  · rw [if_neg hattached, if_neg hattached]

theorem plain_lawful : ChannelProtocol.plain.Lawful where
  unopened := rfl
  opened h := (plain_decide _ _ _ _).trans (if_pos h)
  refused h := (plain_decide _ _ _ _).trans (if_neg (Bool.eq_false_iff.mp h))
  lost := plain_lost
  admits _ _ := rfl

section Leaving

def leftTrack : TrackIdentity := ⟨⟨State.viewerContext, 1⟩, 1⟩

/-- A raster track is opened, its channel ends, and the track is destroyed. -/
def leaving : List (Act .plain .plain) :=
  [.request (.registerSession State.viewer 1),
    .request (.createSurface leftTrack.surface { contextId := 1, surfaceId := 1 }),
    .request (.createTrack leftTrack
      { contextId := 1, surfaceId := 1, trackId := 1, slot := 3, mode := .live, kind := .raster }),
    .connect leftTrack 1, .decide 0 (7 : ℕ), .accept 0 1024 8, .detach 0,
    .request (.destroyTrack leftTrack)]

/-- The state of the channel's openings stays. -/
theorem opening_left :
    ¬ ∀ (target : PresentationTarget .plain) (history : List (Act .plain .plain)),
      (run .plain target history).Named := by
  intro h
  have hopens : ((run .plain .plain leaving).channelOpens.lookup leftTrack).isSome := by
    decide +kernel
  have hgone : ((run .plain .plain leaving).scene.tracks.lookup leftTrack).isNone := by
    decide +kernel
  rw [isNone_iff_eq_none] at hgone
  have htrack := (h .plain leaving).opens leftTrack hopens
  rw [hgone] at htrack
  cases htrack

theorem leaving_iff : (∀ n, (run .plain .plain (leaving.take n)).Named) ↔
    Throughout (run .plain .plain) Sound leaving :=
  named_iff plain_lawful .plain leaving

end Leaving

end Vivido.Channel.Tables
