import Vivido.Graphics.Base64
import Vivido.Graphics.Quota
import Vivido.Graphics.Received

/-!
The stores of a terminal through everything that happens to it. A command acts on
the displayed screen only, a finished decode on the screen it was started on, and
each leaves the store it acts on consistent and within its limits.
-/

namespace Vivido.Graphics

variable {F : Type}

namespace KittyGraphics

/-- What commands keep of a store that do not add to it. -/
structure Stable (holds : ImageStore F → Prop) : Prop where
  removeById : ∀ s id, holds s → holds (s.removeById id)
  delete : ∀ s command row col, holds s → holds (s.delete command row col)

theorem stable_sound : Stable (@ImageStore.Sound F) where
  removeById := fun _ id h => h.removeById id
  delete := fun _ command row col h => h.delete command row col

/-- A change that at most touches the store displayed, and keeps what holds of it. -/
structure Change (holds : ImageStore F → Prop) (g g' : KittyGraphics F) : Prop where
  active : g'.active = g.active
  other : ∀ screen, screen ≠ g.active → g'.screen screen = g.screen screen
  keeps : holds g.store → holds g'.store

variable {holds : ImageStore F → Prop} {g g' g'' : KittyGraphics F}

namespace Change

/-- A change of neither store. -/
theorem of_eq (hactive : g'.active = g.active) (hprimary : g'.primary = g.primary)
    (halternate : g'.alternate = g.alternate) : Change holds g g' := by
  have hscreen : ∀ screen, g'.screen screen = g.screen screen := by
    intro screen
    cases screen
    · exact hprimary
    · exact halternate
  refine ⟨hactive, fun screen _ => hscreen screen, fun h => ?_⟩
  unfold store
  rw [hactive, hscreen]
  exact h

theorem refl (g : KittyGraphics F) : Change holds g g := of_eq rfl rfl rfl

theorem trans (h : Change holds g g') (h' : Change holds g' g'') : Change holds g g'' where
  active := h'.active.trans h.active
  other := fun screen hscreen =>
    (h'.other screen (h.active ▸ hscreen)).trans (h.other screen hscreen)
  keeps := fun hholds => h'.keeps (h.keeps hholds)

end Change

theorem screen_modifyScreen (g : KittyGraphics F) (alternate screen : Bool)
    (f : ImageStore F → ImageStore F) : (g.modifyScreen alternate f).screen screen =
      if screen = alternate then f (g.screen screen) else g.screen screen := by
  cases alternate <;> cases screen <;> rfl

@[simp] theorem active_modifyScreen (g : KittyGraphics F) (alternate : Bool)
    (f : ImageStore F → ImageStore F) : (g.modifyScreen alternate f).active = g.active := by
  cases alternate <;> rfl

@[simp] theorem store_modifyStore (g : KittyGraphics F) (f : ImageStore F → ImageStore F) :
    (g.modifyStore f).store = f g.store := by
  unfold store modifyStore
  rw [active_modifyScreen, screen_modifyScreen, if_pos rfl]

theorem cell_modifyScreen (g : KittyGraphics F) (alternate : Bool)
    (f : ImageStore F → ImageStore F) : (g.modifyScreen alternate f).cell = g.cell := by
  cases alternate <;> rfl

theorem store_reply (g : KittyGraphics F) (command : Command) (result : Except Failure Unit) :
    (g.reply command result).store = g.store ∧ (g.reply command result).cell = g.cell := by
  unfold reply
  split
  · exact ⟨rfl, rfl⟩
  · split <;> exact ⟨rfl, rfl⟩

theorem change_modifyStore {f : ImageStore F → ImageStore F}
    (hf : holds g.store → holds (f g.store)) : Change holds g (g.modifyStore f) where
  active := active_modifyScreen g g.active f
  other := fun screen hscreen => (screen_modifyScreen g g.active screen f).trans (if_neg hscreen)
  keeps := fun hholds => by
    rw [store_modifyStore]
    exact hf hholds

theorem change_reply (g : KittyGraphics F) (command : Command) (result : Except Failure Unit) :
    Change holds g (g.reply command result) := by
  unfold reply
  split
  · exact Change.refl g
  · split
    · exact Change.of_eq rfl rfl rfl
    · exact Change.refl g

theorem change_queue (g : KittyGraphics F) (job : DecodeJob) (target : Option JobTarget)
    (command : Command) : Change holds g (g.queue job target command) := Change.of_eq rfl rfl rfl

theorem change_beginLoad (hholds : Stable holds) (g : KittyGraphics F) (start : Command) :
    Change holds g (g.beginLoad start) := by
  have hstored : Change holds g
      (if (¬(start.id ≠ 0 ∧ start.number ≠ 0) ∧ start.action ≠ ascii 'q') ∧ start.id ≠ 0 then
        g.modifyStore (·.removeById start.id) else g) := by
    split
    · exact change_modifyStore (hholds.removeById _ start.id)
    · exact Change.refl g
  exact hstored.trans (Change.of_eq rfl rfl rfl)

/-! ### Reading a command -/

variable {decoders : Decoders}

theorem Reads.change (hholds : Stable holds) (h : Reads decoders g g') : Change holds g g' := by
  induction h with
  | begun start => exact change_beginLoad hholds _ start
  | trans _ _ ih ih' => exact ih.trans ih'
  | _ => exact Change.of_eq rfl rfl rfl

/-! ### The transmission in progress -/

/-- The transmission in progress, if there is one, keeps to its plan. -/
def Planned (g : KittyGraphics F) : Prop := ∀ load, g.loader = some load → load.Planned

theorem planned_of_eq (h : g.Planned) (hloader : g'.loader = g.loader) : g'.Planned :=
  fun load hload => h load (hloader.symm.trans hload)

theorem planned_of_none (hloader : g.loader = none) : g.Planned := by
  intro _ hload
  rw [hloader] at hload
  cases hload

variable {load : Load} {size : ℕ × ℕ} {pixels : Option Pixels}

theorem planned_of_some (hload : load.Planned) (hloader : g.loader = some load) : g.Planned := by
  intro _ hother
  rw [hloader] at hother
  cases hother
  exact hload

theorem planned_beginLoad (g : KittyGraphics F) (start : Command) : (g.beginLoad start).Planned := by
  refine planned_of_some ?_ rfl
  split
  · exact (Load.continues_reject _ _).planned (Load.planned_begin _)
  · exact Load.planned_begin _

theorem Reads.planned (hreads : Reads decoders g g') (h : g.Planned) : g'.Planned := by
  induction hreads with
  | noted => exact planned_of_eq h rfl
  | begun start => exact planned_beginLoad _ start
  | refused start =>
    exact planned_of_some ((Load.continues_reject _ _).planned (Load.planned_begin start)) rfl
  | fed bytes =>
    intro _ hload
    obtain ⟨old, hold, rfl⟩ := Option.map_eq_some_iff.mp hload
    exact (Load.continues_push old bytes).planned (h old hold)
  | trans _ _ ih ih' => exact ih' (ih h)

/-- What a transmission comes to is as large as it says. -/
theorem receive_spec (hdec : decoders.Limited) (hload : load.Planned) {received : Received}
    {job : Option DecodeJob} (hfinish : load.finish = .ok received)
    (hreceive : g.receive decoders received = .ok (size, pixels, job)) : Fits size.1 size.2 ∧
      ∀ image, pixels = some image → image.rgba.length = size.1 * size.2 * 4 := by
  cases received with
  | pixels =>
    cases hreceive
    obtain ⟨hlength, hfits⟩ := hload.pixels hfinish
    refine ⟨hfits, fun other hother => ?_⟩
    cases hother
    exact hlength
  | job pending =>
    have hbounded := hload.job hfinish
    unfold receive at hreceive
    dsimp only at hreceive
    split at hreceive
    · cases hreceive
    rename_i announced hannounced
    split at hreceive
    · cases hreceive
      exact ⟨DecodeJob.fits_dimensions hbounded hannounced, fun image himage => by cases himage⟩
    · obtain ⟨_, himage, heq⟩ := ok_of_map hreceive
      cases heq
      refine ⟨DecodeJob.fits_run hdec hbounded himage, fun other hother => ?_⟩
      cases hother
      exact DecodeJob.length_run hdec himage

theorem change_answer (g : KittyGraphics F) (start : Command) (key uid : ℕ)
    (job : Option DecodeJob) : Change holds g (g.answer start key uid job) := by
  unfold answer
  split
  · exact change_queue _ _ _ _
  · exact change_reply _ _ _

theorem change_insertImage (g : KittyGraphics F) (start : Command) (hsize : Fits size.1 size.2)
    (hpixels : ∀ image, pixels = some image → image.rgba.length = size.1 * size.2 * 4) :
    Change ImageStore.Consistent g (g.insertImage start size pixels).1 := by
  unfold insertImage
  dsimp only
  generalize hinserted : g.store.insert _ _ _ _ _ _ = inserted
  have hmodified : Change ImageStore.Consistent g (g.modifyStore fun _ => inserted.1) := by
    refine change_modifyStore fun h => ?_
    rw [← hinserted]
    refine h.insert _ _ _ hsize (fun rgba hrgba => ?_) _
    obtain ⟨image, himage, rfl⟩ := Option.map_eq_some_iff.mp hrgba
    exact hpixels image himage
  exact hmodified.trans (Change.of_eq rfl rfl rfl)

/-- Evicting makes a store sound again that is consistent. -/
theorem Change.enforceQuota (h : Change ImageStore.Consistent g g') (keep : Option ℕ) :
    Change ImageStore.Sound g (g'.modifyStore (·.enforceQuota keep)) where
  active := (active_modifyScreen g' g'.active _).trans h.active
  other := fun screen hscreen =>
    ((screen_modifyScreen g' g'.active screen _).trans (if_neg (h.active ▸ hscreen))).trans
      (h.other screen hscreen)
  keeps := fun hsound => by
    rw [store_modifyStore]
    have hconsistent := h.keeps hsound.consistent
    exact ⟨hconsistent.enforceQuota keep, hconsistent.enforceQuota_within keep⟩

@[simp] theorem loader_modifyScreen (g : KittyGraphics F) (alternate : Bool)
    (f : ImageStore F → ImageStore F) : (g.modifyScreen alternate f).loader = g.loader := by
  cases alternate <;> rfl

@[simp] theorem loader_reply (g : KittyGraphics F) (command : Command)
    (result : Except Failure Unit) : (g.reply command result).loader = g.loader := by
  unfold reply
  split
  · rfl
  · split <;> rfl

@[simp] theorem loader_answer (g : KittyGraphics F) (start : Command) (key uid : ℕ)
    (job : Option DecodeJob) : (g.answer start key uid job).loader = g.loader := by
  unfold answer
  split
  · rfl
  · exact loader_reply _ _ _

@[simp] theorem loader_insertImage (g : KittyGraphics F) (start : Command) (size : ℕ × ℕ)
    (pixels : Option Pixels) : (g.insertImage start size pixels).1.loader = g.loader :=
  loader_modifyScreen _ _ _

/-- What holds of the graphics state at any time. -/
structure Valid (g : KittyGraphics F) : Prop where
  sound : ∀ screen, (g.screen screen).Sound
  planned : g.Planned

theorem Change.sound (h : Change ImageStore.Sound g g') (hsound : ∀ screen, (g.screen screen).Sound)
    (screen : Bool) : (g'.screen screen).Sound := by
  by_cases hactive : screen = g.active
  · have hstore := h.keeps (hsound g.active)
    unfold store at hstore
    rw [h.active] at hstore
    exact hactive ▸ hstore
  · exact h.other screen hactive ▸ hsound screen

theorem valid_modifyScreen (h : g.Valid) (alternate : Bool) {f : ImageStore F → ImageStore F}
    (hf : (g.screen alternate).Sound → (f (g.screen alternate)).Sound) :
    (g.modifyScreen alternate f).Valid := by
  refine ⟨fun screen => ?_, planned_of_eq h.planned (loader_modifyScreen g alternate f)⟩
  rw [screen_modifyScreen]
  split
  · rename_i heq
    exact heq ▸ hf (h.sound alternate)
  · exact h.sound screen

theorem valid_finishJob (hdec : decoders.Limited) (h : g.Valid) (job : QueuedJob) :
    (g.finishJob (job.run decoders)).Valid := by
  suffices hinstalled : (g.install (job.run decoders)).1.Valid from
    ⟨hinstalled.sound, hinstalled.planned⟩
  unfold install
  split
  · rename_i pixels target hresult _
    dsimp only
    split
    · rename_i hdeclared
      refine valid_modifyScreen h target.screen (f := (·.setPixels target.key _ _)) fun hsound => ?_
      refine hsound.setPixels _ _ fun image himage => ?_
      rw [himage] at hdeclared
      have hsize := Option.some_inj.mp hdeclared
      have hwidth : image.width = pixels.width := congrArg Prod.fst hsize
      have hheight : image.height = pixels.height := congrArg Prod.snd hsize
      rw [DecodeJob.length_run hdec hresult]
      unfold Image.bytes
      rw [hwidth, hheight]
    · exact valid_modifyScreen h target.screen (f := (·.removeImage target.key)) fun hsound =>
        hsound.removeImage _
  · exact h
  · rename_i failure target _ _
    exact valid_modifyScreen h target.screen (f := (·.removeImage target.key)) fun hsound =>
      hsound.removeImage _
  · exact h

theorem valid_fresh : ({} : KittyGraphics F).Valid := by
  refine ⟨fun screen => ?_, planned_of_none rfl⟩
  cases screen <;> exact ImageStore.sound_empty

theorem screen_finishJob (g : KittyGraphics F) (job : QueuedJob) {screen : Bool}
    (hscreen : ∀ target, job.target = some target → target.screen ≠ screen) :
    (g.finishJob (job.run decoders)).screen screen = g.screen screen := by
  suffices hinstalled : (g.install (job.run decoders)).1.screen screen = g.screen screen from
    hinstalled
  have hother : ∀ {target : JobTarget} (f : ImageStore F → ImageStore F),
      (job.run decoders).target.filter g.isLive = some target →
      (g.modifyScreen target.screen f).screen screen = g.screen screen := by
    intro target f htarget
    rw [screen_modifyScreen, if_neg]
    exact fun heq => hscreen target (Option.eq_some_of_filter_eq_some htarget) heq.symm
  unfold install
  split
  · dsimp only
    split
    · exact hother _ ‹_›
    · exact hother _ ‹_›
  · rfl
  · exact hother _ ‹_›
  · rfl

variable [F32 F]

theorem change_put (g : KittyGraphics F) (key : ℕ) (command : Command) (cursor : Cursor)
    (hput : holds g.store → holds (g.store.put key command cursor.row cursor.col g.cell).1) :
    Change holds g (g.put key command cursor).1 := by
  change Change holds g
    (g.modifyStore fun _ => (g.store.put key command cursor.row cursor.col g.cell).1)
  exact change_modifyStore hput

/-- A new image is put and the others evicted until the store is within its limits. -/
theorem change_storeImage (g : KittyGraphics F) (start : Command) (cursor : Cursor)
    (hsize : Fits size.1 size.2)
    (hpixels : ∀ image, pixels = some image → image.rgba.length = size.1 * size.2 * 4)
    (job : Option DecodeJob) :
    Change ImageStore.Sound g (g.storeImage start cursor size pixels job).1 := by
  unfold storeImage
  dsimp only
  have hinsert := change_insertImage g start hsize hpixels
  generalize g.insertImage start size pixels = inserted at hinsert
  have hanswer := hinsert.trans (change_answer inserted.1 start inserted.2 g.nextUid job)
  generalize inserted.1.answer start inserted.2 g.nextUid job = answered at hanswer
  refine Change.enforceQuota (hanswer.trans ?_) _
  split
  · exact change_put _ _ _ _ fun h => ImageStore.Consistent.put h _ _ _ _ _
  · exact Change.refl _

theorem change_loadComplete (hdec : decoders.Limited) (g : KittyGraphics F) (hload : load.Planned)
    (cursor : Cursor) : Change ImageStore.Sound g (g.loadComplete decoders load cursor).1 := by
  unfold loadComplete
  dsimp only
  split
  · exact Change.refl g
  split
  · exact change_reply _ _ _
  rename_i size pixels job hreceived
  obtain ⟨_, hfinish, hreceive⟩ := ok_of_bind hreceived
  obtain ⟨hfits, hpixels⟩ := receive_spec hdec hload hfinish hreceive
  split
  · split
    · exact change_queue _ _ _ _
    · exact change_reply _ _ _
  · exact change_storeImage g _ cursor hfits hpixels job

theorem change_chunkComplete (hdec : decoders.Limited) (g : KittyGraphics F) (hplanned : g.Planned)
    (command : Command) (cursor : Cursor) :
    Change ImageStore.Sound g (g.chunkComplete decoders command cursor).1 := by
  unfold chunkComplete
  split
  · exact Change.refl g
  rename_i load hload
  dsimp only
  split
  · exact Change.of_eq rfl rfl rfl
  · refine Change.trans ?_ (change_loadComplete hdec _ ((hplanned load hload).closeChunk _) cursor)
    exact Change.of_eq rfl rfl rfl

theorem change_place (g : KittyGraphics F) (command : Command) (cursor : Cursor)
    (hput : ∀ s key, holds s → holds (s.put key command cursor.row cursor.col g.cell).1) :
    Change holds g (g.place command cursor).1 := by
  unfold place
  split
  · exact Change.refl g
  split
  · exact change_reply _ _ _
  split
  · exact change_reply _ _ _
  · dsimp only
    split
    · exact change_reply _ _ _
    · exact (change_put g _ command cursor (hput _ _)).trans (change_reply _ _ _)

theorem change_execute (hholds : Stable holds) (g : KittyGraphics F) {feeding : Bool}
    (command : Command) (cursor : Cursor)
    (hput : ∀ s key, holds s → holds (s.put key command cursor.row cursor.col g.cell).1)
    (hchunk : Change holds g (g.chunkComplete decoders command cursor).1) :
    Change holds g (g.execute decoders feeding command cursor).1 := by
  unfold execute
  split
  · exact hchunk
  split
  · exact change_place g command cursor hput
  split
  · have habandon : Change holds g { g with loader := none } := Change.of_eq rfl rfl rfl
    exact habandon.trans (change_modifyStore
      (f := (·.delete command cursor.row cursor.col)) (hholds.delete _ _ _ _))
  · split
    · exact change_reply _ _ _
    · exact Change.refl g

theorem sound_execute (hdec : decoders.Limited) (g : KittyGraphics F) (hplanned : g.Planned)
    (feeding : Bool) (command : Command) (cursor : Cursor) :
    Change ImageStore.Sound g (g.execute decoders feeding command cursor).1 :=
  change_execute stable_sound g command cursor (fun _ _ h => h.put _ _ _ _ _)
    (change_chunkComplete hdec g hplanned command cursor)

/-! ### Every operation -/

@[simp] theorem loader_put (g : KittyGraphics F) (key : ℕ) (command : Command) (cursor : Cursor) :
    (g.put key command cursor).1.loader = g.loader := loader_modifyScreen _ _ _

theorem loader_storeImage (g : KittyGraphics F) (start : Command) (cursor : Cursor) (size : ℕ × ℕ)
    (pixels : Option Pixels) (job : Option DecodeJob) :
    (g.storeImage start cursor size pixels job).1.loader = g.loader := by
  unfold storeImage
  dsimp only
  refine (loader_modifyScreen _ _ _).trans ?_
  split <;> simp

theorem loader_loadComplete (g : KittyGraphics F) (load : Load) (cursor : Cursor) :
    (g.loadComplete decoders load cursor).1.loader = g.loader := by
  unfold loadComplete
  dsimp only
  split
  · rfl
  split
  · exact loader_reply _ _ _
  · split
    · split
      · rfl
      · exact loader_reply _ _ _
    · exact loader_storeImage _ _ _ _ _ _

theorem loader_place (g : KittyGraphics F) (command : Command) (cursor : Cursor) :
    (g.place command cursor).1.loader = g.loader := by
  unfold place
  split
  · rfl
  split
  · exact loader_reply _ _ _
  split
  · exact loader_reply _ _ _
  · dsimp only
    split
    · exact loader_reply _ _ _
    · exact (loader_reply _ _ _).trans (loader_put _ _ _ _)

theorem planned_chunkComplete (h : g.Planned) (command : Command) (cursor : Cursor) :
    (g.chunkComplete decoders command cursor).1.Planned := by
  unfold chunkComplete
  split
  · exact h
  · rename_i load hload
    dsimp only
    split
    · exact planned_of_some ((h load hload).closeChunk command) rfl
    · exact planned_of_none (loader_loadComplete _ _ _)

theorem planned_execute (h : g.Planned) (feeding : Bool) (command : Command) (cursor : Cursor) :
    (g.execute decoders feeding command cursor).1.Planned := by
  unfold execute
  split
  · exact planned_chunkComplete h command cursor
  split
  · exact planned_of_eq h (loader_place g command cursor)
  · split
    · exact planned_of_none (loader_modifyScreen _ _ _)
    · split
      · exact planned_of_eq h (loader_reply _ _ _)
      · exact h

theorem valid_apcEnd (hdec : decoders.Limited) (h : g.Valid) (cancelled : Bool) (cursor : Cursor) :
    (g.apcEnd decoders cancelled cursor).1.Valid := by
  have hsound := ((reads_apcClose decoders g cancelled).change stable_sound).sound h.sound
  have hplanned := (reads_apcClose decoders g cancelled).planned h.planned
  unfold apcEnd
  generalize g.apcClose cancelled = closed at hsound hplanned
  obtain ⟨closed, _, _⟩ := closed
  dsimp only at hsound hplanned ⊢
  split
  · split
    · dsimp only
      split
      · exact ⟨hsound, planned_of_none rfl⟩
      · exact ⟨hsound, hplanned⟩
    · split
      · exact ⟨hsound, hplanned⟩
      · exact ⟨(sound_execute hdec closed hplanned _ _ _).sound hsound,
          planned_execute hplanned _ _ _⟩
  · exact ⟨hsound, hplanned⟩

theorem valid_apply (hdec : decoders.Limited) (h : g.Valid) (op : Op) :
    (g.apply decoders op).Valid := by
  cases op with
  | apcPut bytes =>
    exact ⟨((reads_apcPut decoders g bytes).change stable_sound).sound h.sound,
      (reads_apcPut decoders g bytes).planned h.planned⟩
  | apcEnd cancelled cursor => exact valid_apcEnd hdec h cancelled cursor
  | finishJobs jobs =>
    unfold apply finishJobs
    dsimp only
    induction jobs generalizing g with
    | nil => exact h
    | cons job _ ih => exact ih (valid_finishJob hdec h job)
  | popReply =>
    unfold apply popReply
    dsimp only
    split
    · exact ⟨h.sound, h.planned⟩
    · exact h
  | setCell cell =>
    unfold apply setCell
    dsimp only
    split
    · exact h
    · refine ⟨fun screen => ?_, planned_of_eq h.planned rfl⟩
      cases screen
      · exact (h.sound false).rescale cell
      · exact (h.sound true).rescale cell
  | scroll scroll =>
    exact valid_modifyScreen h g.active (f := (·.scroll scroll g.cell)) fun hsound =>
      hsound.scroll scroll g.cell
  | clearScreen history =>
    exact valid_modifyScreen h g.active (f := (·.clear history)) fun hsound => hsound.clear history
  | clearHistory =>
    exact valid_modifyScreen h g.active (f := (·.clearHistory)) fun hsound => hsound.clearHistory
  | setAlternate =>
    unfold apply setAlternate
    dsimp only
    split
    · exact h
    · refine ⟨fun screen => ?_, planned_of_none rfl⟩
      cases screen
      · exact h.sound false
      · exact (h.sound true).clear true
  | reset =>
    refine ⟨fun screen => ?_, planned_of_none rfl⟩
    cases screen <;> exact ImageStore.sound_empty
  | applyAnchors =>
    refine ⟨fun screen => ?_, planned_of_eq h.planned rfl⟩
    cases screen
    · exact (h.sound false).applyAnchors _
    · exact (h.sound true).applyAnchors _
  | _ => exact ⟨h.sound, h.planned⟩

theorem valid_applyAll (hdec : decoders.Limited) (h : g.Valid) (ops : List Op) :
    (g.applyAll decoders ops).Valid := by
  unfold applyAll
  induction ops generalizing g with
  | nil => exact h
  | cons op _ ih => exact ih (valid_apply hdec h op)

/-! ### One screen at a time -/

/-- The screens whose store an operation acts on. -/
def actsOn (g : KittyGraphics F) (screen : Bool) : Op → Prop
  | .apcStart | .takeJobs | .popReply | .takeQuietBytes | .setDeferredDecode _ => False
  | .apcPut _ | .apcEnd _ _ | .scroll _ | .clearScreen _ | .clearHistory => screen = g.active
  | .finishJobs jobs => ∃ job ∈ jobs, ∃ target, job.target = some target ∧ target.screen = screen
  | .setAlternate _ => screen = true
  | .setCell _ | .reset | .applyAnchors _ => True

theorem screen_apcEnd (hdec : decoders.Limited) (h : g.Valid) (cancelled : Bool) (cursor : Cursor)
    {screen : Bool} (hscreen : screen ≠ g.active) :
    (g.apcEnd decoders cancelled cursor).1.screen screen = g.screen screen := by
  have hclose := (reads_apcClose decoders g cancelled).change stable_sound
  have hplanned := (reads_apcClose decoders g cancelled).planned h.planned
  have hclosed := hclose.other screen hscreen
  have hactive := hclose.active
  unfold apcEnd
  generalize g.apcClose cancelled = closed at hclosed hactive hplanned
  obtain ⟨closed, _, _⟩ := closed
  dsimp only at hclosed hactive hplanned ⊢
  split
  · split
    · dsimp only
      split <;> exact hclosed
    · split
      · exact hclosed
      · have hexecute := sound_execute hdec closed hplanned
        exact ((hexecute _ _ _).other screen (hactive ▸ hscreen)).trans hclosed
  · exact hclosed

/-- An operation leaves the screens alone that it does not act on. -/
theorem screen_apply (hdec : decoders.Limited) (h : g.Valid) {op : Op} {screen : Bool}
    (hop : ¬g.actsOn screen op) : (g.apply decoders op).screen screen = g.screen screen := by
  cases op with
  | apcPut bytes => exact ((reads_apcPut decoders g bytes).change stable_sound).other screen hop
  | apcEnd cancelled cursor => exact screen_apcEnd hdec h cancelled cursor hop
  | finishJobs jobs =>
    unfold apply finishJobs
    dsimp only
    clear h
    induction jobs generalizing g with
    | nil => rfl
    | cons job jobs ih =>
      have hjob : ∀ target, job.target = some target → target.screen ≠ screen :=
        fun target htarget heq => hop ⟨job, List.mem_cons_self .., target, htarget, heq⟩
      have hjobs : ¬(g.finishJob (job.run decoders)).actsOn screen (.finishJobs jobs) :=
        fun ⟨other, hmem, hother⟩ => hop ⟨other, List.mem_cons_of_mem _ hmem, hother⟩
      exact (ih hjobs).trans (screen_finishJob g job hjob)
  | popReply =>
    unfold apply popReply
    dsimp only
    split <;> rfl
  | setCell | reset | applyAnchors => exact (hop trivial).elim
  | scroll | clearScreen | clearHistory =>
    exact (screen_modifyScreen g g.active screen _).trans (if_neg hop)
  | setAlternate =>
    unfold apply setAlternate
    dsimp only
    split
    · rfl
    · cases screen
      · rfl
      · exact (hop rfl).elim
  | _ => rfl

/-- Whatever happens, both stores are sound, and an operation on one leaves the other alone. -/
theorem stores_sound (hdec : decoders.Limited) (ops : List Op) (op : Op) (screen : Bool) :
    ((({} : KittyGraphics F).applyAll decoders ops).screen screen).Sound ∧
      (¬(({} : KittyGraphics F).applyAll decoders ops).actsOn screen op →
        ((({} : KittyGraphics F).applyAll decoders ops).apply decoders op).screen screen =
          (({} : KittyGraphics F).applyAll decoders ops).screen screen) := by
  have hvalid := valid_applyAll hdec (valid_fresh (F := F)) ops
  exact ⟨hvalid.sound screen, screen_apply hdec hvalid⟩

theorem limited_uncompressed : Decoders.uncompressed.Limited :=
  ⟨fun data width height rgba hpng => by cases hpng⟩

theorem stores_sound_shown : ((({} : KittyGraphics Rat).applyAll Decoders.uncompressed
      (whole "Ga=T,f=24,s=1,v=1,i=1;AAAA")).screen false).Sound ∧
    ((({} : KittyGraphics Rat).applyAll Decoders.uncompressed
      (whole "Ga=T,f=24,s=1,v=1,i=1;AAAA")).screen false).placements.length = 1 :=
  ⟨(stores_sound limited_uncompressed (whole "Ga=T,f=24,s=1,v=1,i=1;AAAA") .popReply false).1,
    by decide⟩

end KittyGraphics

end Vivido.Graphics
