import Vivido.Overlay.Outcomes

/-!
A presentation takes the reserved drawings one by one, and in the end each has
its outcome or is its track's current submission. With what the other acts do
this settles every submission of a run.
-/

namespace Vivido.Overlay

open Vivido.Scene SortedMap List

variable {P : OverlayProtocol} {h h' : Host P} {key : Pending}

namespace Host

/-! ### Submitting and activating -/

theorem Sound.syncActive (hh : Sound h) (view : SceneView) (surface : SurfaceIdentity) :
    Sound (h.syncActive view surface) ∧ (Held h → Held (h.syncActive view surface)) := by
  have hsynced : ∀ submission, Sound { h with active := h.active.insert surface submission } ∧
      (Held h → Held { h with active := h.active.insert surface submission }) := fun submission =>
    ⟨hh.of_eq rfl rfl rfl rfl rfl rfl, fun hheld => hheld.of_eq rfl rfl rfl⟩
  unfold Host.syncActive
  split
  · exact ⟨hh, id⟩
  dsimp only
  split
  · split
    · exact ⟨hh, id⟩
    split
    · exact ⟨hh, id⟩
    rename_i submission _
    obtain ⟨hsound, hheld⟩ := hsynced submission
    split
    · exact ⟨hsound, hheld⟩
    split
    · exact ⟨hsound, hheld⟩
    · exact ⟨hsound.supersede _ _, fun hbefore => (hheld hbefore).settles
        (supersede_settles ..) (supersede_pending_subset ..)⟩
  · exact ⟨hh, id⟩

theorem Sound.submit (hh : Sound h) (view : SceneView) (identity : TrackIdentity)
    (generation epoch revision : ℕ) (compiled : P.Compiled) :
    Sound (h.submit view identity generation epoch revision compiled).1 ∧
      (Held h → Held (h.submit view identity generation epoch revision compiled).1) := by
  unfold Host.submit
  dsimp only
  split
  · exact ⟨hh, id⟩
  split
  · exact ⟨hh.of_eq rfl rfl rfl rfl rfl rfl, fun hheld => hheld.of_eq rfl rfl rfl⟩
  split
  · exact ⟨hh, id⟩
  rename_i hnewer
  split
  · exact ⟨hh, id⟩
  rename_i window _
  split
  · exact ⟨hh, id⟩
  · exact ⟨hh, id⟩
  have hinstalled := hh.install identity generation compiled
    { address :=
        ⟨identity.surface.context.contextId, identity.surface.surfaceId, window.generation⟩
      trackId := identity.trackId, channelGeneration := generation, epoch, revision }
    rfl fun accepted hlookup => by
      rw [hlookup] at hnewer
      simpa using hnewer
  split
  · exact hinstalled
  · obtain ⟨hsound, hheld⟩ := hinstalled.1.syncActive view identity.surface
    exact ⟨hsound, fun h => hheld (hinstalled.2 h)⟩

/-! ### Reserving -/

/-- A drawing is of the window that it is made for, and so is its submission. -/
theorem drawingOf_placed (hplaced : Placed h) {view : SceneView} {viewport : P.Viewport}
    {window : Window P.Bounds} {drawing : Drawing P}
    (hdrawing : h.drawingOf view viewport window = some drawing) :
    drawing.window = window.identity ∧ drawing.key.surface = window.identity := by
  unfold drawingOf at hdrawing
  split at hdrawing
  · cases hdrawing
  dsimp only at hdrawing
  split at hdrawing
  · cases hdrawing
  split at hdrawing
  · obtain ⟨previous, hlookup, rfl⟩ := Option.map_eq_some_iff.mp hdrawing
    exact hplaced.displayed window.identity previous hlookup
  · split at hdrawing
    · cases hdrawing
    · obtain ⟨submission, hlookup, rfl⟩ := Option.map_eq_some_iff.mp hdrawing
      exact ⟨rfl, congrArg TrackIdentity.surface (hplaced.submissions _ submission hlookup)⟩

theorem reserved_placed (drawings : List (Drawing P))
    (hdrawings : ∀ drawing ∈ drawings, drawing.key.surface = drawing.window)
    (reserved : SortedMap SurfaceIdentity (Drawing P))
    (hreserved : ∀ surface drawing, reserved.lookup surface = some drawing →
      drawing.window = surface ∧ drawing.key.surface = surface)
    {surface : SurfaceIdentity} {drawing : Drawing P}
    (hlookup : (drawings.foldl (fun reserved d => reserved.insert d.window d) reserved).lookup
      surface = some drawing) : drawing.window = surface ∧ drawing.key.surface = surface := by
  induction drawings generalizing reserved with
  | nil => exact hreserved surface drawing hlookup
  | cons first drawings ih =>
    refine ih (fun other hother => hdrawings other (by simp [hother])) _ ?_ hlookup
    intro surface drawing hlookup
    rw [lookup_insert] at hlookup
    split at hlookup
    · rename_i heq
      cases hlookup
      exact ⟨heq.symm, heq ▸ hdrawings first (by simp)⟩
    · exact hreserved surface drawing hlookup

theorem Placed.prepare (hplaced : Placed h) (view : SceneView) : Placed (h.prepare view) := by
  refine ⟨hplaced.submissions, fun surface drawing hlookup => ?_, hplaced.displayed⟩
  refine reserved_placed (h.drawings view) ?_ .empty nofun hlookup
  intro _ hmem
  unfold drawings at hmem
  split at hmem
  · cases hmem
  · obtain ⟨_, -, hdrawing⟩ := List.mem_filterMap.mp hmem
    obtain ⟨hwindow, hsurface⟩ := drawingOf_placed hplaced hdrawing
    rw [hsurface, hwindow]

theorem Sound.prepare (hh : Sound h) (view : SceneView) : Sound (h.prepare view) :=
  ⟨hh.told.of_eq rfl rfl, hh.placed.prepare view, hh.backed⟩

/-- A snapshot that takes no other one's place. -/
theorem Held.prepare (hh : Held h) (hempty : h.inflight = .empty) (view : SceneView) :
    Held (h.prepare view) := by
  intro key hkey
  rcases hh key hkey with hcurrent | hcomposed
  · exact Or.inl hcurrent
  · rw [isInflight, hempty] at hcomposed
    cases hcomposed

/-! ### Finishing -/

/-- While a presentation is finished: what is still to be dealt with, of what was composed. -/
structure Finishing (composed : List Pending) (presented : Bool)
    (rest : List (SurfaceIdentity × Drawing P)) (h : Host P) : Prop where
  sound : Sound h
  empty : h.inflight = .empty
  entries : ∀ entry ∈ rest, entry.2.window = entry.1 ∧ entry.2.key.surface = entry.1 ∧
    entry.2.key ∈ composed
  justified : presented = true → ∃ before after, h.log = before ++ .composed composed :: after ∧
    ∀ key, Event.entered key ∉ after

/-- What is pending is current or among what is still to be dealt with. -/
def HeldOr (rest : List (SurfaceIdentity × Drawing P)) (h : Host P) : Prop :=
  ∀ key ∈ h.pending, h.Current key ∨ ∃ entry ∈ rest, entry.2.key = key

theorem log_resolve (h : Host P) (owner : SessionIdentity) (submission : Submission)
    (outcome : PresentationOutcome) : (h.resolve owner submission outcome).log = h.log ∨
      (h.resolve owner submission outcome).log =
        h.log ++ [.resolved (owner, submission) outcome] := by
  unfold resolve
  split
  · exact Or.inr rfl
  · exact Or.inl rfl

section

variable {composed : List Pending} {presented : Bool} {rest : List (SurfaceIdentity × Drawing P)}
  (hh : Finishing composed presented rest h)
include composed presented rest hh

theorem Finishing.resolve (owner : SessionIdentity) (submission : Submission)
    (outcome : PresentationOutcome)
    (houtcome : outcome = .presented → presented = true ∧ (owner, submission) ∈ composed) :
    Finishing composed presented rest (h.resolve owner submission outcome) := by
  have hsettles := resolve_settles h owner submission outcome
  have hjustified : (Event.resolved (owner, submission) outcome).Justified h.log := by
    cases outcome with
    | superseded => trivial
    | presented =>
      obtain ⟨hpresented, hmem⟩ := houtcome rfl
      obtain ⟨before, after, hlog, hafter⟩ := hh.justified hpresented
      exact ⟨before, composed, after, hlog, hmem, hafter _⟩
  refine ⟨hh.sound.settles hsettles (resolve_pending_subset ..)
    (hh.sound.told.resolve _ _ _ hjustified), ?_, hh.entries, fun hpresented => ?_⟩
  · unfold Settles at hsettles
    rw [hsettles]
    exact hh.empty
  · obtain ⟨before, after, hlog, hafter⟩ := hh.justified hpresented
    rcases log_resolve h owner submission outcome with heq | heq
    · exact ⟨before, after, heq.trans hlog, hafter⟩
    · refine ⟨before, after ++ [.resolved (owner, submission) outcome], ?_, fun key hmem => ?_⟩
      · rw [heq, hlog, append_assoc, cons_append]
      · rcases List.mem_append.mp hmem with hmem | hmem
        · exact hafter key hmem
        · simp at hmem

theorem Finishing.of_eq (hsound : Sound h') (hinflight : h'.inflight = h.inflight)
    (hlog : h'.log = h.log) :
    Finishing composed presented rest h' := by
  refine ⟨hsound, hinflight.trans hh.empty, hh.entries, fun hpresented => ?_⟩
  rw [hlog]
  exact hh.justified hpresented

end

theorem HeldOr.settles {rest : List (SurfaceIdentity × Drawing P)} (hh : HeldOr rest h)
    (hsettles : Settles h h') (hsubset : h'.pending ⊆ h.pending) : HeldOr rest h' := by
  intro key hkey
  unfold Settles at hsettles
  have hcurrent : h'.Current key ↔ h.Current key := by
    unfold Current
    rw [hsettles]
  rw [hcurrent]
  exact hh key (hsubset hkey)

/-- The first part of `finishDrawing`: what is presented is displayed. -/
def presentDrawing (h : Host P) (presented : Bool) (surface : SurfaceIdentity)
    (drawing : Drawing P) : Host P :=
  match P.get h.windows surface with
  | none => h
  | some window =>
    if presented && window.generation = drawing.submission.address.generation then
      let published :=
        if window.sceneRevision < drawing.revision then
          { h with
            windows := P.publishScene h.windows surface drawing.submission.address.generation
              drawing.revision }
        else h
      let resolved := published.resolve surface.context.session drawing.submission .presented
      { resolved with displayed := resolved.displayed.insert surface drawing }
    else h

theorem finishDrawing_eq (h : Host P) (presented : Bool) (surface : SurfaceIdentity)
    (drawing : Drawing P) :
    h.finishDrawing presented surface drawing =
      if (h.presentDrawing presented surface drawing).submissions.entries.any fun entry =>
          entry.1.surface = surface && entry.2 = drawing.submission then
        h.presentDrawing presented surface drawing
      else (h.presentDrawing presented surface drawing).resolve surface.context.session
        drawing.submission .superseded := rfl

section

variable {composed : List Pending} {presented : Bool} {entry : SurfaceIdentity × Drawing P}
  {rest : List (SurfaceIdentity × Drawing P)} (hh : Finishing composed presented (entry :: rest) h)
include composed presented entry rest hh

/-- A drawing that is presented is displayed, and its submission resolved. -/
theorem Finishing.shown (hpresented : presented = true)
    (windows : P.Windows) :
    let resolved := ({ h with windows } : Host P).resolve entry.1.context.session
      entry.2.submission .presented
    Finishing composed presented (entry :: rest)
        { resolved with displayed := resolved.displayed.insert entry.1 entry.2 } ∧
      (HeldOr (entry :: rest) h →
        HeldOr (entry :: rest)
          { resolved with displayed := resolved.displayed.insert entry.1 entry.2 }) := by
  intro resolved
  obtain ⟨hwindow, hsurface, hmem⟩ := hh.entries entry (by simp)
  have hkey : entry.2.key = (entry.1.context.session, entry.2.submission) := by
    rw [← hwindow]
    rfl
  have hfirst : Finishing composed presented (entry :: rest) ({ h with windows } : Host P) :=
    hh.of_eq (hh.sound.of_eq rfl rfl rfl rfl rfl rfl) rfl rfl
  have hresolved : Finishing composed presented (entry :: rest) resolved :=
    hfirst.resolve _ _ _ fun _ => ⟨hpresented, hkey ▸ hmem⟩
  have hplaced := hresolved.sound.placed
  refine ⟨hresolved.of_eq ⟨hresolved.sound.told.of_eq rfl rfl, ⟨hplaced.submissions,
    hplaced.inflight, fun surface drawing hlookup => ?_⟩, hresolved.sound.backed⟩ rfl rfl,
    fun hheld => ?_⟩
  · rw [lookup_insert] at hlookup
    split at hlookup
    · rename_i heq
      cases hlookup
      rw [heq]
      exact ⟨hwindow, hsurface⟩
    · exact hplaced.displayed surface drawing hlookup
  · have hwindows : HeldOr (entry :: rest) ({ h with windows } : Host P) := hheld
    have hheld : HeldOr (entry :: rest) resolved :=
      hwindows.settles (resolve_settles ..) (resolve_pending_subset ..)
    exact hheld

theorem Finishing.step :
    Finishing composed presented rest (h.finishDrawing presented entry.1 entry.2) ∧
      (HeldOr (entry :: rest) h → HeldOr rest (h.finishDrawing presented entry.1 entry.2)) := by
  obtain ⟨hwindow, _, -⟩ := hh.entries entry (by simp)
  have hkey : entry.2.key = (entry.1.context.session, entry.2.submission) := by
    rw [← hwindow]
    rfl
  have hboth : Finishing composed presented (entry :: rest)
      (h.presentDrawing presented entry.1 entry.2) ∧ (HeldOr (entry :: rest) h →
        HeldOr (entry :: rest) (h.presentDrawing presented entry.1 entry.2)) := by
    unfold presentDrawing
    split
    · exact ⟨hh, id⟩
    split
    · rename_i window _ hpresented
      have hpresented := (Bool.and_eq_true_iff.mp hpresented).1
      dsimp only
      split
      · exact hh.shown hpresented _
      · exact hh.shown hpresented h.windows
    · exact ⟨hh, id⟩
  rw [finishDrawing_eq]
  generalize h.presentDrawing presented entry.1 entry.2 = shown at hboth
  obtain ⟨hfinishing, hheld⟩ := hboth
  have hrest : Finishing composed presented rest shown := ⟨hfinishing.sound, hfinishing.empty,
    fun other hother => hfinishing.entries other (by simp [hother]), hfinishing.justified⟩
  split
  · rename_i hcurrent
    refine ⟨hrest, fun hbefore key hmem => ?_⟩
    rcases hheld hbefore key hmem with hcurrent' | ⟨other, hother, hkey'⟩
    · exact Or.inl hcurrent'
    rcases List.mem_cons.mp hother with rfl | hother
    · left
      obtain ⟨⟨track, submission⟩, hentry, hsame⟩ := List.any_eq_true.mp hcurrent
      obtain ⟨htrack, hsubmission⟩ := Bool.and_eq_true_iff.mp hsame
      have htrack : track.surface = other.1 := of_decide_eq_true htrack
      have hsubmission : submission = other.2.submission := of_decide_eq_true hsubmission
      have hlookup := mem_entries.mp hentry
      have hplaced := hfinishing.sound.placed.submissions track submission hlookup
      unfold Current
      rw [← hkey', hkey, ← htrack, ← hsubmission]
      exact (congrArg shown.submissions.lookup hplaced).trans hlookup
    · exact Or.inr ⟨other, hother, hkey'⟩
  · refine ⟨hrest.resolve _ _ _ nofun, fun hbefore key hmem => ?_⟩
    rw [pending_resolve, mem_filter, decide_eq_true_eq] at hmem
    have hsettles := resolve_settles shown entry.1.context.session entry.2.submission .superseded
    have hiff : (shown.resolve entry.1.context.session entry.2.submission .superseded).Current key ↔
        shown.Current key := by
      unfold Settles at hsettles
      unfold Current
      rw [hsettles]
    rw [hiff]
    rcases hheld hbefore key hmem.1 with hcurrent' | ⟨other, hother, hkey'⟩
    · exact Or.inl hcurrent'
    rcases List.mem_cons.mp hother with rfl | hother
    · exact absurd (hkey'.symm.trans hkey) hmem.2
    · exact Or.inr ⟨other, hother, hkey'⟩

end

theorem Finishing.run {composed : List Pending} {presented : Bool}
    {entries : List (SurfaceIdentity × Drawing P)} (hh : Finishing composed presented entries h) :
    Sound (entries.foldl (fun h entry => h.finishDrawing presented entry.1 entry.2) h) ∧
      (HeldOr entries h → HeldOr []
          (entries.foldl (fun h entry => h.finishDrawing presented entry.1 entry.2) h)) := by
  induction entries generalizing h with
  | nil => exact ⟨hh.sound, id⟩
  | cons _ _ ih =>
    obtain ⟨hfinishing, hheld⟩ := hh.step
    obtain ⟨hsound, hheld'⟩ := ih hfinishing
    exact ⟨hsound, fun hbefore => hheld' (hheld hbefore)⟩

/-- What a finished presentation does, to what was composed in it and to the rest. -/
theorem Sound.finish (hh : Sound h) (presented : Bool) :
    Sound (h.finish presented) ∧ (Held h → Held (h.finish presented)) := by
  generalize hcomposed : h.inflight.entries.map (fun entry => entry.2.key) = composed
  have htaken : Sound { h with inflight := .empty } :=
    ⟨hh.told.of_eq rfl rfl, ⟨hh.placed.submissions, nofun, hh.placed.displayed⟩, hh.backed⟩
  generalize hstart : (if presented then
    ({ h with inflight := .empty } : Host P).record (.composed composed)
    else { h with inflight := .empty }) = start
  have hsound : Sound start := by
    rw [← hstart]
    split
    · exact ⟨htaken.told.concat rfl rfl trivial trivial, ⟨htaken.placed.submissions,
        htaken.placed.inflight, htaken.placed.displayed⟩, htaken.backed⟩
    · exact htaken
  have hfinishing : Finishing composed presented h.inflight.entries start := by
    refine ⟨hsound, ?_, ?_, fun hpresented => ?_⟩
    · rw [← hstart]
      split <;> rfl
    · intro entry hentry
      obtain ⟨hwindow, hsurface⟩ := hh.placed.inflight entry.1 entry.2
        (mem_entries.mp hentry)
      exact ⟨hwindow, hsurface, hcomposed ▸ List.mem_map.mpr ⟨entry, hentry, rfl⟩⟩
    · rw [← hstart, if_pos hpresented]
      exact ⟨h.log, [], rfl, nofun⟩
  obtain ⟨hafter, hheld⟩ := hfinishing.run
  have heq : h.finish presented = ((h.inflight.entries.foldl
      (fun h entry => h.finishDrawing presented entry.1 entry.2)
      start).refreshHover).retireStaleSemantics := by
    rw [← hstart, ← hcomposed]
    rfl
  rw [heq]
  have hhover : Sound (h.inflight.entries.foldl
      (fun h entry => h.finishDrawing presented entry.1 entry.2) start).refreshHover :=
    hafter.of_eq rfl rfl rfl rfl rfl rfl
  refine ⟨hhover.of_eq rfl rfl rfl rfl rfl rfl, fun hbefore => ?_⟩
  have hheldOr : HeldOr h.inflight.entries start := by
    have hpending : start.pending = h.pending ∧ start.submissions = h.submissions := by
      rw [← hstart]
      split <;> exact ⟨rfl, rfl⟩
    intro key hkey
    unfold Current
    rw [hpending.2]
    rcases hbefore key (hpending.1 ▸ hkey) with hcurrent | hcomposed
    · exact Or.inl hcurrent
    · obtain ⟨surface, drawing, hlookup, hkey⟩ := isInflight_iff.mp hcomposed
      exact Or.inr ⟨(surface, drawing), mem_entries.mpr hlookup, hkey⟩
  intro key hkey
  rcases hheld hheldOr key hkey with hcurrent | ⟨_, hentry, -⟩
  · exact Or.inl hcurrent
  · cases hentry

/-! ### Runs -/

theorem setWindow_ok {identity : SurfaceIdentity} {generation expectedRevision revision : ℕ}
    {options : P.Options}
    (hset : h.setWindow identity generation expectedRevision options = .ok (h', revision)) :
    ∃ windows, h' = { h with windows } := by
  unfold setWindow at hset
  split at hset
  · cases hset
  · cases hset
    exact ⟨_, rfl⟩

def reserves : Act P → Bool
  | .prepare _ => true
  | _ => false

/-- A snapshot is reserved only where none is outstanding. -/
def Unreplaced (h : Host P) (act : Act P) : Prop :=
  ∀ view, act = .prepare view → h.inflight = .empty

theorem Sound.step (hh : Sound h) (act : Act P) :
    Sound (h.step act) ∧ (h.Unreplaced act → Held h → Held (h.step act)) := by
  cases act with
  | submit view identity generation epoch revision compiled =>
    obtain ⟨hsound, hheld⟩ := hh.submit view identity generation epoch revision compiled
    exact ⟨hsound, fun _ => hheld⟩
  | activate view surface =>
    obtain ⟨hsound, hheld⟩ := hh.syncActive view surface
    exact ⟨hsound, fun _ => hheld⟩
  | prepare view =>
    exact ⟨hh.prepare view, fun hempty hheld => hheld.prepare (hempty view rfl) view⟩
  | finish presented =>
    obtain ⟨hsound, hheld⟩ := hh.finish presented
    exact ⟨hsound, fun _ => hheld⟩
  | removeTrack identity =>
    obtain ⟨hsound, hheld⟩ := hh.removeTrack identity
    exact ⟨hsound, fun _ => hheld⟩
  | trackLost identity =>
    dsimp only [Host.step]
    unfold Host.trackLost
    split
    · obtain ⟨hsound, hheld⟩ := hh.removeTrack identity
      exact ⟨hsound, fun _ => hheld⟩
    · exact ⟨hh, fun _ => id⟩
  | removeSurface identity =>
    exact ⟨hh.removeSurface identity, fun _ hheld => hheld.removeSurface hh.placed identity⟩
  | removeContexts =>
    obtain ⟨hsound, hheld⟩ := hh.removeSurfaces _
    exact ⟨hsound, fun _ => hheld⟩
  | removeOwner owner =>
    exact ⟨hh.removeOwner owner, fun _ hheld => hheld.removeOwner hh.placed owner⟩
  | laneLost owner =>
    dsimp only [Host.step]
    unfold Host.laneLost
    split
    · exact ⟨hh.removeOwner owner, fun _ hheld => hheld.removeOwner hh.placed owner⟩
    · exact ⟨hh, fun _ => id⟩
  | retire identity =>
    exact ⟨hh.retirePresentation identity,
      fun _ hheld => hheld.retirePresentation hh.placed identity⟩
  | openWindow identity generation expectedRevision options =>
    dsimp only [Host.step]
    unfold Host.openWindow
    split
    · exact ⟨hh, fun _ => id⟩
    split
    · exact ⟨hh, fun _ => id⟩
    split
    · exact ⟨hh, fun _ => id⟩
    split
    · exact ⟨hh, fun _ => id⟩
    · rename_i hset
      obtain ⟨windows, rfl⟩ := setWindow_ok hset
      exact ⟨hh.of_eq rfl rfl rfl rfl rfl rfl, fun _ hheld => hheld.of_eq rfl rfl rfl⟩
  | _ => exact ⟨hh.of_eq rfl rfl rfl rfl rfl rfl, fun _ hheld => hheld.of_eq rfl rfl rfl⟩

theorem run_sound (windows : P.Windows) (acts : List (Act P)) : Sound (run windows acts) := by
  induction acts using List.reverseRecOn with
  | nil =>
    exact ⟨⟨rfl, fun earlier a later h => by simp [run] at h,
      fun earlier a later h => by simp [run] at h⟩,
      ⟨nofun, nofun, nofun⟩, nofun⟩
  | append_singleton _ act ih =>
    rw [run_concat]
    exact (ih.step act).1

/-- In every run, a submission is entered where it is not pending and resolved where it is, and is
presented only if it was composed, since then, in a presentation that was finished; what was
entered is pending until it is resolved or its owner is removed; and where no snapshot is replaced
by another one, what is pending is its track's current submission or part of the outstanding
snapshot. -/
theorem run_settles (windows : P.Windows) (acts : List (Act P))
    (hacts : Throughout (run windows) Unreplaced acts) :
    Throughout (openKeys Event.pends) Event.Legal (run windows acts).log ∧
      Throughout id Event.Justified (run windows acts).log ∧
      (run windows acts).pending = openKeys Event.pends (run windows acts).log ∧
      (∀ key, .entered key ∈ (run windows acts).log → key ∉ (run windows acts).pending →
        (∃ outcome, .resolved key outcome ∈ (run windows acts).log) ∨
          .dropped key ∈ (run windows acts).log) ∧ ∀ key ∈ (run windows acts).pending,
        (run windows acts).Current key ∨ (run windows acts).isInflight key = true := by
  have hsound := run_sound windows acts
  refine ⟨hsound.told.legal, hsound.told.justified, hsound.told.pending,
    fun key hentered hnot => ?_, ?_⟩
  · rcases mem_openKeys_or_closed Event.pends hentered rfl with
      hopen | ⟨event, hmem, hcloses⟩
    · exact absurd (hsound.told.pending ▸ hopen) hnot
    · cases event with
      | entered => cases hcloses
      | resolved _ outcome =>
        cases hcloses
        exact Or.inl ⟨outcome, hmem⟩
      | dropped =>
        cases hcloses
        exact Or.inr hmem
      | composed => cases hcloses
  · refine hacts.induct (fun acts => Held (run windows acts)) (fun key hkey => by cases hkey) ?_
    intro acts act hheld hact
    rw [run_concat]
    exact ((run_sound windows acts).step act).2 hact hheld

/-- Two scenes of one track are submitted and each is prepared; between the two snapshots the first
one is finished or not. -/
def submittedTwice (between : List (Act .plain)) : List (Act .plain) :=
  let view : SceneView := { activeTrack := fun _ => some 1, trackStatus := fun _ => some (1, 1) }
  let window : SurfaceIdentity := ⟨⟨⟨1, 1⟩, 1⟩, 1⟩
  [.viewport (), .laneOpen ⟨1, 1⟩ 1, .openWindow window 1 0 (), .submit view ⟨window, 1⟩ 1 1 1 (),
    .prepare view, .submit view ⟨window, 1⟩ 1 1 2 ()] ++ between ++ [.prepare view]

theorem run_settles_finished :
    let host := run (P := .plain) (.empty : SortedMap _ _) (submittedTwice [.finish false])
    Throughout (run (.empty : SortedMap _ _)) Unreplaced (submittedTwice [.finish false]) ∧
      Throughout (openKeys Event.pends) Event.Legal host.log ∧
      Throughout id Event.Justified host.log ∧
      host.pending = openKeys Event.pends host.log ∧
      (∀ key, .entered key ∈ host.log → key ∉ host.pending →
        (∃ outcome, .resolved key outcome ∈ host.log) ∨ .dropped key ∈ host.log) ∧
      ∀ key ∈ host.pending, host.Current key ∨ host.isInflight key = true := by
  have hempty : Throughout (run (P := .plain) (.empty : SortedMap _ _))
      (fun host act => reserves act = true → host.inflight.entries.length = 0)
      (submittedTwice [.finish false]) := by
    decide +kernel
  have hacts : Throughout (run (P := .plain) (.empty : SortedMap _ _)) Unreplaced
      (submittedTwice [.finish false]) := by
    intro earlier act later heq _ hact
    have hlength := hempty earlier act later heq (hact ▸ rfl)
    exact SortedMap.ext (eq_nil_of_length_eq_zero hlength)
  exact ⟨hacts, run_settles (P := .plain) _ (submittedTwice [.finish false]) hacts⟩

/-- A snapshot takes the place of one in which a superseded submission is composed. -/
theorem snapshot_replaced : ¬ ∀ (acts : List (Act .plain)),
    ∀ key ∈ (run (P := .plain) (.empty : SortedMap _ _) acts).pending,
      (run (P := .plain) (.empty : SortedMap _ _) acts).Current key ∨
        (run (P := .plain) (.empty : SortedMap _ _) acts).isInflight key = true := by
  intro hheld
  have hfirst := hheld (submittedTwice []) (⟨1, 1⟩, ⟨⟨1, 1, 1⟩, 1, 1, 1, 1⟩) (by decide +kernel)
  unfold Current at hfirst
  revert hfirst
  decide +kernel

end Host

end Vivido.Overlay
