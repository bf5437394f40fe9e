import Vivido.Graphics.Awaiting
import Vivido.Graphics.Ledger
import Vivido.Graphics.Sound

/-!
A terminal that defers decodes beside one that decodes in place. Whatever happens
is done to both; decodes are taken and finish on the one side only. The other side
is the first in hindsight, with the pixels its images still wait for, unless an
image was put while nobody knew yet that it hides what is behind it.
-/

namespace Vivido.Graphics

open List Option

variable {F : Type}

/-- Whether a decode succeeds and comes to the size announced. -/
def DecodeJob.delivers (decoders : Decoders) (job : DecodeJob) : Bool :=
  match job.run decoders, job.dimensions decoders with
  | .ok pixels, .ok size => size = (pixels.width, pixels.height)
  | _, _ => false

namespace KittyGraphics

variable [F32 F] (decoders : Decoders)

/-- The put that a transmission comes to: the store it finds, the key of the image and the
command that asks for it. -/
def loadPut (g : KittyGraphics F) (load : Load) : Option (ImageStore F × ℕ × Command) :=
  if load.start.action ≠ ascii 'T' then none
  else
    match load.finish.bind (g.receive decoders) with
    | .error _ => none
    | .ok (size, pixels, _) =>
        let inserted := g.insertImage load.start size pixels
        some (inserted.1.store, inserted.2, load.start)

/-- The put that a command comes to. -/
def puts (g : KittyGraphics F) (feeding : Bool) (command : Command) :
    Option (ImageStore F × ℕ × Command) :=
  if feeding then
    if command.more ≠ 0 then none
    else g.loader.bind fun load => g.loadPut decoders (load.closeChunk decoders command)
  else if command.action ≠ ascii 'p' ∨ (command.id = 0 ↔ command.number = 0) ∨
      command.parent ≠ 0 then none
  else (if command.id ≠ 0 then g.store.keyById command.id
    else g.store.keyByNumber command.number).map (g.store, ·, command)

/-- Whether a put comes too early: its image waits for its pixels, turns out to be opaque as it
is beside, and would take something else away. -/
def hidesUnseen (cell : CellPixels) (cursor : Cursor) :
    Option (ImageStore F × ℕ × Command) → Option (ImageStore F × ℕ × Command) → Bool
  | some (s, key, command), some (beside, _, _) =>
      (s.images.lookup key).any (·.pixels = none) && (beside.images.lookup key).any (·.isOpaque) &&
        s.sweeps key command cursor.row cursor.col cell
  | _, _ => false

end KittyGraphics

/-- Two terminals to which the same happens, of which only the first defers decodes, and the
decodes it has handed out that have not finished. -/
structure Pair (F : Type) where
  deferred : KittyGraphics F := { deferDecode := true }
  direct : KittyGraphics F := {}
  handed : List QueuedJob := []

namespace Pair

variable [F32 F] (decoders : Decoders)

/-- A decode finishes. -/
def finish (p : Pair F) (job : QueuedJob) : Pair F :=
  { p with
    deferred := p.deferred.finishJob (job.run decoders)
    handed := p.handed.filter (· ≠ job) }

/-- Something happens. -/
def step (p : Pair F) (op : Op) : Pair F :=
  match op with
  | .takeJobs =>
      { p with deferred := p.deferred.takeJobs.1, handed := p.handed ++ p.deferred.takeJobs.2 }
  | .finishJobs jobs => jobs.foldl (finish decoders) p
  | .setDeferredDecode defer => { p with deferred := p.deferred.setDeferredDecode defer }
  | op => { p with deferred := p.deferred.apply decoders op, direct := p.direct.apply decoders op }

def run (p : Pair F) (ops : List Op) : Pair F := ops.foldl (step decoders) p

/-- Whether the decodes that finish were handed out, and those that are queued for an image
deliver it. -/
def permits (p : Pair F) (op : Op) : Bool :=
  ((p.step decoders op).deferred.jobs.all fun job => job.target.isNone || job.job.delivers decoders)
    && match op with
    | .finishJobs jobs => decide jobs.Nodup && jobs.all (· ∈ p.handed)
    | _ => true

/-- Whether an operation puts an image too early. -/
def hides (p : Pair F) : Op → Bool
  | .apcEnd false cursor =>
      let deferred := p.deferred.apcClose false
      let direct := p.direct.apcClose false
      match deferred.2 with
      | (.payload feeding, some command) =>
          KittyGraphics.hidesUnseen deferred.1.cell cursor
            (deferred.1.puts decoders feeding command) (direct.1.puts decoders feeding command)
      | _ => false
  | _ => false

/-- Whether everything that happens is permitted when it does. -/
def permitsAll (p : Pair F) : List Op → Bool
  | [] => true
  | op :: ops => p.permits decoders op && (p.step decoders op).permitsAll ops

/-- Whether no image is put too early. -/
def calm (p : Pair F) : List Op → Bool
  | [] => true
  | op :: ops => !p.hides decoders op && (p.step decoders op).calm ops

end Pair

/-! ### In hindsight -/

namespace KittyGraphics

/-- One state is the other in hindsight, but for replies and decodes. -/
structure Mirrors (paint : Paint) (g d : KittyGraphics F) : Prop where
  screens : ∀ screen, d.screen screen = (g.screen screen).fill paint
  active : d.active = g.active
  sink : d.sink = g.sink
  control : d.control = g.control
  command : d.command = g.command
  loader : d.loader = g.loader
  cell : d.cell = g.cell
  nextUid : d.nextUid = g.nextUid
  direct : d.deferDecode = false

namespace Mirrors

variable {paint : Paint} {decoders : Decoders} {g d : KittyGraphics F}

section

variable (h : Mirrors paint g d)
include h

theorem store : d.store = g.store.fill paint := by
  unfold KittyGraphics.store
  rw [h.active]
  exact h.screens g.active

theorem modifyScreen (alternate : Bool) {f k : ImageStore F → ImageStore F}
    (hf : (f (g.screen alternate)).fill paint = k ((g.screen alternate).fill paint)) :
    Mirrors paint (g.modifyScreen alternate f) (d.modifyScreen alternate k) := by
  have hscreens : ∀ screen, (d.modifyScreen alternate k).screen screen =
      ((g.modifyScreen alternate f).screen screen).fill paint := by
    intro _
    rw [screen_modifyScreen, screen_modifyScreen, h.screens]
    split
    · rename_i heq
      rw [heq, hf]
    · rfl
  cases alternate <;> exact { h with screens := hscreens }

theorem modifyStore {f k : ImageStore F → ImageStore F}
    (hf : (f g.store).fill paint = k (g.store.fill paint)) :
    Mirrors paint (g.modifyStore f) (d.modifyStore k) := by
  unfold KittyGraphics.modifyStore
  rw [h.active]
  exact h.modifyScreen g.active hf

/-- Replies and decodes are not compared. -/
theorem reply_left (command : Command) (result : Except Failure Unit) :
    Mirrors paint (g.reply command result) d := by
  unfold reply
  split
  · exact h
  · split
    · exact { h with screens := h.screens }
    · exact h

theorem reply_right (command : Command) (result : Except Failure Unit) :
    Mirrors paint g (d.reply command result) := by
  unfold reply
  split
  · exact h
  · split
    · exact { h with screens := h.screens }
    · exact h

theorem queue (job : DecodeJob) (target : Option JobTarget)
    (command : Command) : Mirrors paint (g.queue job target command) d :=
  { h with screens := h.screens }

theorem beginLoad (start : Command) : Mirrors paint (g.beginLoad start) (d.beginLoad start) := by
  have hfree : d.store.freeId = g.store.freeId := by
    rw [h.store]
    rfl
  have hremoved := h.modifyStore (f := (·.removeById start.id)) (k := (·.removeById start.id))
    (ImageStore.fill_removeById start.id)
  unfold KittyGraphics.beginLoad
  rw [hfree]
  dsimp only
  split
  · exact { hremoved with screens := hremoved.screens, loader := rfl }
  · exact { h with screens := h.screens, loader := rfl }

theorem continues (command : Command) : d.continues command = g.continues command := by
  unfold KittyGraphics.continues
  rw [h.loader]

theorem controlComplete : Mirrors paint g.controlComplete.1 d.controlComplete.1 ∧
      d.controlComplete.2 = g.controlComplete.2 := by
  have hparse : Command.parse d.control = Command.parse g.control := by rw [h.control]
  unfold KittyGraphics.controlComplete
  rw [hparse]
  cases Command.parse g.control with
  | none => exact ⟨h, rfl⟩
  | some command =>
    have hcommand : Mirrors paint { g with command := some command }
        { d with command := some command } := { h with screens := h.screens, command := rfl }
    dsimp only
    rw [hcommand.continues]
    split
    · exact ⟨hcommand, rfl⟩
    · split
      · exact ⟨hcommand.beginLoad command, rfl⟩
      · split
        · exact ⟨{ hcommand with screens := h.screens, loader := rfl }, rfl⟩
        · exact ⟨hcommand, rfl⟩

theorem putPayload (bytes : List UInt8) :
    Mirrors paint (g.putPayload decoders bytes) (d.putPayload decoders bytes) := by
  have hloader : d.loader.map (·.push decoders bytes) = g.loader.map (·.push decoders bytes) := by
    rw [h.loader]
  exact { h with screens := h.screens, loader := hloader }

theorem putControl (bytes : List UInt8) :
    Mirrors paint (g.putControl decoders bytes) (d.putControl decoders bytes) := by
  have hlength : d.control.length = g.control.length := by rw [h.control]
  have happend : ∀ more, d.control ++ more = g.control ++ more := by
    rw [h.control]
    exact fun more => rfl
  unfold KittyGraphics.putControl
  dsimp only
  rw [hlength, happend]
  split
  · exact { h with screens := h.screens, sink := rfl }
  generalize g.control ++ bytes.takeWhile (· ≠ ascii ';') = control
  have hcontrol : Mirrors paint { g with control := control } { d with control := control } :=
    { h with screens := h.screens, control := rfl }
  cases bytes.dropWhile (· ≠ ascii ';') with
  | nil => exact hcontrol
  | cons _ payload =>
    obtain ⟨hcompleted, hsink⟩ := hcontrol.controlComplete
    dsimp only
    rw [hsink]
    have hpayload : Mirrors paint
        { ({ g with control := control } : KittyGraphics F).controlComplete.1 with
          sink := ({ g with control := control } : KittyGraphics F).controlComplete.2 }
        { ({ d with control := control } : KittyGraphics F).controlComplete.1 with
          sink := ({ g with control := control } : KittyGraphics F).controlComplete.2 } :=
      { hcompleted with screens := hcompleted.screens, sink := rfl }
    split
    · exact hpayload.putPayload payload
    · exact hpayload

theorem apcPut (bytes : List UInt8) :
    Mirrors paint (g.apcPut decoders bytes) (d.apcPut decoders bytes) := by
  have hquiet : Mirrors paint { g with quietBytes := g.quietBytes + bytes.length }
      { d with quietBytes := d.quietBytes + bytes.length } := { h with screens := h.screens }
  unfold KittyGraphics.apcPut
  generalize ({ g with quietBytes := g.quietBytes + bytes.length } : KittyGraphics F) = g at hquiet ⊢
  generalize ({ d with quietBytes := d.quietBytes + bytes.length } : KittyGraphics F) = d at hquiet ⊢
  dsimp only
  rw [hquiet.sink]
  cases g.sink with
  | start =>
    cases bytes with
    | nil => exact hquiet
    | cons _ rest =>
      dsimp only
      split
      · have hcontrol : Mirrors paint { g with sink := .control } { d with sink := .control } :=
          { hquiet with screens := hquiet.screens, sink := rfl }
        exact hcontrol.putControl rest
      · exact { hquiet with screens := hquiet.screens, sink := rfl }
  | control => exact hquiet.putControl bytes
  | payload feeding =>
    cases feeding with
    | true => exact hquiet.putPayload bytes
    | false => exact hquiet
  | idle | ignore => exact hquiet

theorem apcClose (cancelled : Bool) :
    Mirrors paint (g.apcClose cancelled).1 (d.apcClose cancelled).1 ∧
      (d.apcClose cancelled).2 = (g.apcClose cancelled).2 := by
  unfold KittyGraphics.apcClose
  dsimp only
  generalize (if cancelled then g.quietBytes else g.quietBytes + 2) = quietBytes
  generalize (if cancelled then d.quietBytes else d.quietBytes + 2) = quietBytes'
  have hidle : Mirrors paint { g with quietBytes := quietBytes, sink := .idle }
      { d with quietBytes := quietBytes', sink := .idle } :=
    { h with screens := h.screens, sink := rfl }
  rw [h.sink]
  split
  · obtain ⟨hcompleted, hsink⟩ := hidle.controlComplete
    refine ⟨{ hcompleted with screens := hcompleted.screens, command := rfl }, ?_⟩
    exact Prod.ext hsink hcompleted.command
  · exact ⟨{ hidle with screens := h.screens, command := rfl }, Prod.ext rfl h.command⟩

end

end Mirrors

theorem store_answer (g : KittyGraphics F) (start : Command) (key uid : ℕ)
    (job : Option DecodeJob) :
    (g.answer start key uid job).store = g.store ∧ (g.answer start key uid job).cell = g.cell := by
  cases job with
  | none => exact store_reply g start (.ok ())
  | some => exact ⟨rfl, rfl⟩

/-! ### Decodes under way -/

/-- A decode that will bring the pixels of an image. -/
def Awaited (jobs : List QueuedJob) (screen : Bool) (key uid : ℕ) : Prop :=
  ∃ job ∈ jobs, job.target = some ⟨screen, key, uid⟩

theorem Awaited.mono {jobs jobs' : List QueuedJob} {screen : Bool} {key uid : ℕ}
    (h : Awaited jobs screen key uid) (hjobs : ∀ job ∈ jobs, job ∈ jobs') :
    Awaited jobs' screen key uid := by
  obtain ⟨job, hjob, htarget⟩ := h
  exact ⟨job, hjobs job hjob, htarget⟩

/-- One terminal is the other in hindsight, and every image that waits has a decode under way. -/
structure Tracked (decoders : Decoders) (paint : Paint) (handed : List QueuedJob)
    (g d : KittyGraphics F) : Prop where
  mirrors : Mirrors paint g d
  ready : ∀ screen, (g.screen screen).Ready paint g.nextUid (Awaited (handed ++ g.jobs) screen)
  jobs : ∀ job ∈ handed ++ g.jobs, ∀ target, job.target = some target →
    target.uid < g.nextUid ∧ job.job.run decoders = .ok (paint target.uid)

variable {decoders : Decoders} {paint : Paint} {handed : List QueuedJob} {g g' d d' : KittyGraphics F}

namespace Tracked

/-- An operation that neither creates an image nor finishes one. -/
theorem of_ready (h : Tracked decoders paint handed g d) (hmirrors : Mirrors paint g' d')
    (hready : ∀ screen, (g.screen screen).Ready paint g.nextUid (Awaited (handed ++ g.jobs) screen) →
      (g'.screen screen).Ready paint g.nextUid (Awaited (handed ++ g.jobs) screen))
    (hjobs : g'.jobs = g.jobs) (huid : g'.nextUid = g.nextUid) :
    Tracked decoders paint handed g' d' where
  mirrors := hmirrors
  ready := by
    rw [hjobs, huid]
    exact fun screen => hready screen (h.ready screen)
  jobs := by
    rw [hjobs, huid]
    exact h.jobs

/-- An operation on the screen displayed. -/
theorem change (h : Tracked decoders paint handed g d) (hmirrors : Mirrors paint g' d')
    (hchange : Change (·.Ready paint g.nextUid (Awaited (handed ++ g.jobs) g.active)) g g')
    (hjobs : g'.jobs = g.jobs) (huid : g'.nextUid = g.nextUid) :
    Tracked decoders paint handed g' d' := by
  refine h.of_ready hmirrors (fun screen hready => ?_) hjobs huid
  by_cases hactive : screen = g.active
  · subst hactive
    have hstore := hchange.keeps hready
    unfold KittyGraphics.store at hstore
    rw [hchange.active] at hstore
    exact hstore
  · rw [hchange.other screen hactive]
    exact hready

theorem modifyStore (h : Tracked decoders paint handed g d)
    {f k : ImageStore F → ImageStore F} (hf : (f g.store).fill paint = k (g.store.fill paint))
    (hready : g.store.Ready paint g.nextUid (Awaited (handed ++ g.jobs) g.active) →
      (f g.store).Ready paint g.nextUid (Awaited (handed ++ g.jobs) g.active)) :
    Tracked decoders paint handed (g.modifyStore f) (d.modifyStore k) :=
  h.change (h.mirrors.modifyStore hf) (change_modifyStore hready)
    (quiet_modifyScreen g g.active f).jobs (quiet_modifyScreen g g.active f).nextUid

theorem stable_ready {nextUid : ℕ} {awaited : ℕ → ℕ → Prop} :
    Stable (fun s : ImageStore F => s.Ready paint nextUid awaited) where
  removeById := fun _ id h => h.removeById id
  delete := fun _ command row col h => h.delete command row col

section

variable (h : Tracked decoders paint handed g d)
include h

theorem reply_left (command : Command)
    (result : Except Failure Unit) : Tracked decoders paint handed (g.reply command result) d := by
  have hmirrors := h.mirrors.reply_left command result
  refine h.change hmirrors (change_reply g command result) ?_ ?_
  all_goals
    unfold KittyGraphics.reply
    split
    · rfl
    · split <;> rfl

theorem reply (command : Command) (result : Except Failure Unit) :
    Tracked decoders paint handed (g.reply command result) (d.reply command result) := by
  obtain ⟨hmirrors, hready, hjobs⟩ := h.reply_left command result
  exact ⟨hmirrors.reply_right command result, hready, hjobs⟩

theorem query (job : DecodeJob) (command : Command) :
    Tracked decoders paint handed (g.queue job none command) d where
  mirrors := h.mirrors.queue job none command
  ready := fun screen => (h.ready screen).mono (fun _ _ => rfl) le_rfl fun key uid hwaits =>
    hwaits.mono fun old hold => by
      rcases List.mem_append.mp hold with hhanded | hjob
      · exact mem_append_left _ hhanded
      · exact mem_append_right _ (mem_append_left _ hjob)
  jobs := by
    intro old hold target htarget
    rcases List.mem_append.mp hold with hhanded | hjob
    · exact h.jobs old (mem_append_left _ hhanded) target htarget
    · rcases List.mem_append.mp hjob with hjob | hnew
      · exact h.jobs old (mem_append_right _ hjob) target htarget
      · rw [List.mem_singleton.mp hnew] at htarget
        cases htarget

theorem apcClose (cancelled : Bool) :
    Tracked decoders paint handed (g.apcClose cancelled).1 (d.apcClose cancelled).1 :=
  h.change (h.mirrors.apcClose cancelled).1 ((reads_apcClose decoders g cancelled).change stable_ready)
    (reads_apcClose decoders g cancelled).quiet.jobs
    (reads_apcClose decoders g cancelled).quiet.nextUid

end

/-- The pixels a new image has where its decode may be under way. -/
def arrived (drawing : Pixels) : Option DecodeJob → Option Pixels
  | some _ => none
  | none => some drawing

section

variable (h : Tracked decoders paint handed g d) (start : Command)
include h start

theorem mirrors_insertImage
    (drawing : Pixels) (job : Option DecodeJob) : Mirrors (Function.update paint g.nextUid drawing)
        (g.insertImage start (drawing.width, drawing.height) (arrived drawing job)).1
        (d.insertImage start (drawing.width, drawing.height) (some drawing)).1 ∧
      (d.insertImage start (drawing.width, drawing.height) (some drawing)).2 =
        (g.insertImage start (drawing.width, drawing.height) (arrived drawing job)).2 := by
  have hsame : ∀ uid < g.nextUid, Function.update paint g.nextUid drawing uid = paint uid :=
    fun uid huid => Function.update_of_ne huid.ne drawing paint
  have hself := Function.update_self g.nextUid drawing paint
  generalize Function.update paint g.nextUid drawing = paint' at hsame hself ⊢
  have hscreens : ∀ screen, d.screen screen = (g.screen screen).fill paint' := by
    intro screen
    rw [h.mirrors.screens, (h.ready screen).fill_congr hsame]
  have hmirrors : Mirrors paint' g d := { h.mirrors with screens := hscreens }
  have hon : Paint.on paint' g.nextUid ((arrived drawing job).map Pixels.rgba)
      ((arrived drawing job).any Pixels.isOpaque) = (some drawing.rgba, drawing.isOpaque) := by
    cases job with
    | none => rfl
    | some =>
      change (some (paint' g.nextUid).rgba, (paint' g.nextUid).isOpaque) = _
      rw [hself]
  have hfill := @ImageStore.fill_insert _ paint' g.store g.nextUid start.id
    start.number (drawing.width, drawing.height) ((arrived drawing job).map Pixels.rgba)
    ((arrived drawing job).any Pixels.isOpaque)
  rw [hon] at hfill
  have hmodified := hmirrors.modifyStore
    (f := fun _ => (g.store.insert g.nextUid start.id start.number (drawing.width, drawing.height)
      ((arrived drawing job).map Pixels.rgba) ((arrived drawing job).any Pixels.isOpaque)).1)
    (k := fun _ => ((g.store.fill paint').insert g.nextUid start.id start.number
      (drawing.width, drawing.height) (some drawing.rgba) drawing.isOpaque).1)
    (congrArg Prod.fst hfill)
  unfold KittyGraphics.insertImage
  dsimp only
  rw [h.mirrors.nextUid, hmirrors.store]
  exact ⟨{ hmodified with screens := hmodified.screens, nextUid := rfl },
    (congrArg Prod.snd hfill).symm⟩

section

variable {drawing : Pixels} (hfits : Fits drawing.width drawing.height)
  (hlength : drawing.rgba.length = drawing.width * drawing.height * 4)
include drawing hfits hlength

theorem ready_insertImage {job : Option DecodeJob}
    {jobs : List QueuedJob} (hjobs : ∀ old ∈ handed ++ g.jobs, old ∈ jobs)
    (hjob : job ≠ none → Awaited jobs g.active
      (g.insertImage start (drawing.width, drawing.height) (arrived drawing job)).2 g.nextUid)
    (screen : Bool) :
    ((g.insertImage start (drawing.width, drawing.height) (arrived drawing job)).1.screen
      screen).Ready (Function.update paint g.nextUid drawing) (g.nextUid + 1)
        (Awaited jobs screen) := by
  have hready := @ImageStore.Ready.mono _ paint _ _ _ _ _ (Awaited jobs screen)
    (h.ready screen) (fun _ _ => rfl) le_rfl
    fun key uid hwaits => hwaits.mono hjobs
  have hscreen : (g.insertImage start (drawing.width, drawing.height)
      (arrived drawing job)).1.screen screen = if screen = g.active then
        (g.store.insert g.nextUid start.id start.number (drawing.width, drawing.height)
          ((arrived drawing job).map Pixels.rgba) ((arrived drawing job).any Pixels.isOpaque)).1
      else g.screen screen := screen_modifyScreen g g.active screen _
  rw [hscreen]
  split
  · rename_i hactive
    subst hactive
    have hinsert := hready.insert start.id start.number drawing hfits hlength job.isNone
      fun hsome => hjob (Option.isSome_iff_ne_none.mp (Option.isNone_eq_false_iff.mp hsome))
    cases job with
    | none | some => exact hinsert
  · exact hready.mono (fun uid huid => Function.update_of_ne huid.ne drawing paint) (Nat.le_succ _)
      fun key uid hwaits => hwaits

/-- A new image, decoded on one side and perhaps not yet on the other. -/
theorem insertImage (job : Option DecodeJob)
    (hjob : ∀ pending, job = some pending → pending.run decoders = .ok drawing) :
    Tracked decoders (Function.update paint g.nextUid drawing) handed
      ((g.insertImage start (drawing.width, drawing.height) (arrived drawing job)).1.answer start
          (g.insertImage start (drawing.width, drawing.height) (arrived drawing job)).2 g.nextUid job)
      ((d.insertImage start (drawing.width, drawing.height) (some drawing)).1.answer start
        (d.insertImage start (drawing.width, drawing.height) (some drawing)).2 d.nextUid none) := by
  obtain ⟨hmirrors, -⟩ := h.mirrors_insertImage start drawing job
  have hquiet := quiet_insertImage g start (drawing.width, drawing.height) (arrived drawing job)
  have hold : ∀ old ∈ handed ++ g.jobs, ∀ target, old.target = some target →
      target.uid < g.nextUid + 1 ∧ old.job.run decoders =
        .ok (Function.update paint g.nextUid drawing target.uid) := by
    intro old hmem target htarget
    obtain ⟨huid, hrun⟩ := h.jobs old hmem target htarget
    rw [Function.update_of_ne huid.ne]
    exact ⟨huid.trans (Nat.lt_succ_self _), hrun⟩
  cases job with
  | none =>
    have hready := h.ready_insertImage start hfits hlength (fun old hmem => hmem)
      fun hsome => (hsome rfl).elim
    have htracked : Tracked decoders (Function.update paint g.nextUid drawing) handed
        (g.insertImage start (drawing.width, drawing.height) (arrived drawing none)).1
        (d.insertImage start (drawing.width, drawing.height) (some drawing)).1 := by
      refine ⟨hmirrors, ?_, ?_⟩
      · rw [hquiet.jobs, hquiet.nextUid]
        exact hready
      · rw [hquiet.jobs, hquiet.nextUid]
        exact hold
    exact htracked.reply start (.ok ())
  | some pending =>
    generalize hinserted : g.insertImage start (drawing.width, drawing.height)
      (arrived drawing (some pending)) = inserted at hmirrors hquiet ⊢
    have hactive : inserted.1.active = g.active := by
      rw [← hinserted]
      exact active_modifyScreen g g.active _
    obtain ⟨new, hnew⟩ : ∃ new : QueuedJob, new = ⟨inserted.1.lastJob + 1, pending,
      some ⟨inserted.1.active, inserted.2, g.nextUid⟩, start⟩ := ⟨_, rfl⟩
    have hqueued : (inserted.1.answer start inserted.2 g.nextUid (some pending)).jobs =
        g.jobs ++ [new] := by
      rw [hnew]
      exact congrArg (· ++ _) hquiet.jobs
    have huid : (inserted.1.answer start inserted.2 g.nextUid (some pending)).nextUid =
        g.nextUid + 1 := hquiet.nextUid
    refine ⟨?_, fun screen => ?_, ?_⟩
    · exact (hmirrors.queue pending _ start).reply_right start (.ok ())
    · rw [hqueued, huid]
      have hready := @ready_insertImage _ _ _ _ _ _ h start drawing hfits hlength (some pending)
        (handed ++ (g.jobs ++ [new])) (fun old hmem => ?_) (fun _ => ⟨new, ?_, ?_⟩) screen
      · rw [hinserted] at hready
        exact hready
      · rw [← append_assoc]
        exact mem_append_left _ hmem
      · exact mem_append_right _ (mem_append_right _ (List.mem_singleton.mpr rfl))
      · rw [hinserted, hnew, hactive]
    · rw [hqueued, huid]
      intro old hmem target htarget
      rw [← append_assoc] at hmem
      rcases List.mem_append.mp hmem with hmem | hmem
      · exact hold old hmem target htarget
      · rw [List.mem_singleton.mp hmem, hnew] at htarget ⊢
        cases htarget
        rw [Function.update_self]
        exact ⟨Nat.lt_succ_self _, hjob pending rfl⟩

end

end

variable [F32 F]

/-- A put that does not come too early. -/
theorem put (h : Tracked decoders paint handed g d) (key : ℕ) (command : Command) (cursor : Cursor)
    (hcalm : hidesUnseen g.cell cursor (some (g.store, key, command))
      (some (d.store, key, command)) = false) :
    Tracked decoders paint handed (g.put key command cursor).1 (d.put key command cursor).1 := by
  have hready : g.store.Ready paint g.nextUid (Awaited (handed ++ g.jobs) g.active) :=
    h.ready g.active
  have hknown : ∀ image, g.store.images.lookup key = some image →
      (image.fill paint).isOpaque = image.isOpaque ∨
        g.store.sweeps key command cursor.row cursor.col g.cell = false := by
    intro image himage
    rcases (hready.kept key image himage).drawn with ⟨hpixels, hshade, -⟩ | ⟨hpixels, -⟩
    · unfold hidesUnseen at hcalm
      dsimp only at hcalm
      rw [h.mirrors.store, ImageStore.lookup_fill, himage, map_some, any_some,
        any_some, hpixels, decide_eq_true rfl, Bool.true_and, Bool.and_eq_false_iff] at hcalm
      rw [hshade]
      exact hcalm
    · left
      rw [Image.fill_of_pixels]
      rw [hpixels]
      exact some_ne_none _
  have hfill := ImageStore.fill_put hready.consistent hready.unmarked key command cursor.row
    cursor.col g.cell hknown
  change Tracked decoders paint handed
    (g.modifyStore fun _ => (g.store.put key command cursor.row cursor.col g.cell).1)
    (d.modifyStore fun _ => (d.store.put key command cursor.row cursor.col d.cell).1)
  rw [h.mirrors.store, h.mirrors.cell]
  exact h.modifyStore (congrArg Prod.fst hfill) fun hready => hready.put _ _ _ _ _

theorem place (h : Tracked decoders paint handed g d) (command : Command) (cursor : Cursor)
    (haction : command.action = ascii 'p')
    (hcalm : hidesUnseen g.cell cursor (g.puts decoders false command)
      (d.puts decoders false command) = false) :
    Tracked decoders paint handed (g.place command cursor).1 (d.place command cursor).1 := by
  have hkey : (if command.id ≠ 0 then d.store.keyById command.id
      else d.store.keyByNumber command.number) = if command.id ≠ 0 then g.store.keyById command.id
        else g.store.keyByNumber command.number := by
    rw [h.mirrors.store, ImageStore.keyByNumber_fill]
    rfl
  have hid : ∀ key, ((d.store.images.lookup key).map fun image => (key, image.id)) =
      (g.store.images.lookup key).map fun image => (key, image.id) := by
    intro key
    rw [h.mirrors.store, ImageStore.lookup_fill, Option.map_map]
    rfl
  unfold KittyGraphics.puts at hcalm
  rw [if_neg Bool.false_ne_true, if_neg Bool.false_ne_true, hkey] at hcalm
  unfold KittyGraphics.place
  dsimp only
  rw [hkey]
  split
  · exact h
  split
  · exact h.reply _ _
  split
  · exact h.reply _ _
  generalize (if command.id ≠ 0 then g.store.keyById command.id
    else g.store.keyByNumber command.number) = key at hcalm ⊢
  cases key with
  | none => exact h.reply _ _
  | some key =>
    rw [bind_some, bind_some, hid]
    cases g.store.images.lookup key with
    | none => exact h.reply _ _
    | some =>
      have hnamed : ¬(command.action ≠ ascii 'p' ∨ (command.id = 0 ↔ command.number = 0) ∨
          command.parent ≠ 0) := by tauto
      rw [if_neg hnamed, if_neg hnamed] at hcalm
      exact (h.put key command cursor hcalm).reply _ _

theorem storeImage (h : Tracked decoders paint handed g d) (start : Command) (cursor : Cursor)
    {drawing : Pixels} (hfits : Fits drawing.width drawing.height)
    (hlength : drawing.rgba.length = drawing.width * drawing.height * 4) (job : Option DecodeJob)
    (hjob : ∀ pending, job = some pending → pending.run decoders = .ok drawing)
    (hcalm : start.action = ascii 'T' → hidesUnseen g.cell cursor
      (some ((g.insertImage start (drawing.width, drawing.height) (arrived drawing job)).1.store,
        (g.insertImage start (drawing.width, drawing.height) (arrived drawing job)).2, start))
      (some ((d.insertImage start (drawing.width, drawing.height) (some drawing)).1.store,
        (d.insertImage start (drawing.width, drawing.height) (some drawing)).2, start)) = false) :
    Tracked decoders (Function.update paint g.nextUid drawing) handed
      (g.storeImage start cursor (drawing.width, drawing.height) (arrived drawing job) job).1
      (d.storeImage start cursor (drawing.width, drawing.height) (some drawing) none).1 := by
  have hanswered := h.insertImage start hfits hlength job hjob
  have hkey := (h.mirrors_insertImage start drawing job).2
  have hcell : (g.insertImage start (drawing.width, drawing.height) (arrived drawing job)).1.cell =
      g.cell := cell_modifyScreen g g.active _
  unfold KittyGraphics.storeImage
  rw [hkey] at hanswered hcalm
  dsimp only
  rw [hkey]
  generalize g.insertImage start (drawing.width, drawing.height) (arrived drawing job) = inserted
    at hanswered hcalm hcell ⊢
  generalize (d.insertImage start (drawing.width, drawing.height) (some drawing)).1 = beside
    at hanswered hcalm ⊢
  obtain ⟨hstore, hcells⟩ := store_answer inserted.1 start inserted.2 g.nextUid job
  obtain ⟨hbeside, -⟩ := store_answer beside start inserted.2 d.nextUid none
  rw [← hstore, ← hbeside, ← hcell, ← hcells] at hcalm
  generalize inserted.1.answer start inserted.2 g.nextUid job = answered at hanswered hcalm ⊢
  generalize beside.answer start inserted.2 d.nextUid none = answered' at hanswered hcalm ⊢
  split
  · rename_i haction
    exact (hanswered.put inserted.2 start cursor (hcalm haction)).modifyStore
      (ImageStore.fill_enforceQuota _) fun hready => hready.enforceQuota _
  · exact hanswered.modifyStore (ImageStore.fill_enforceQuota _) fun hready => hready.enforceQuota _

end Tracked

/-! ### Transmissions -/

/-- The transmission in progress does not matter once its end has been taken from it. -/
theorem loadPut_loader (g : KittyGraphics F) (loader : Option Load) (load : Load) :
    ({ g with loader := loader } : KittyGraphics F).loadPut decoders load =
      g.loadPut decoders load := by
  obtain ⟨_, _, active, _, _, _, _, _, _, _, _,
    _, _, _⟩ := g
  cases active <;> rfl

/-- The image that a transmission comes to. -/
def drawing (decoders : Decoders) : Received → Except Failure Pixels
  | .pixels pixels => .ok pixels
  | .job job => (job.dimensions decoders).bind fun _ => job.run decoders

/-- What a transmission comes to whose pixels are there. -/
def drawn (pixels : Pixels) : (ℕ × ℕ) × Option Pixels × Option DecodeJob :=
  ((pixels.width, pixels.height), some pixels, none)

theorem receive_direct (hdirect : d.deferDecode = false) (received : Received) :
    d.receive decoders received = (drawing decoders received).map drawn := by
  cases received with
  | pixels => rfl
  | job job =>
    unfold receive drawing
    dsimp only
    rw [hdirect]
    cases job.dimensions decoders with
    | error | ok => rfl

/-- A transmission is decoded in place or its decode queued. -/
theorem receive_cases (g : KittyGraphics F) (received : Received) :
    g.receive decoders received = (drawing decoders received).map drawn ∨
      ∃ job size, received = .job job ∧ job.dimensions decoders = .ok size ∧
        g.receive decoders received = .ok (size, none, some job) := by
  cases received with
  | pixels => exact Or.inl rfl
  | job job =>
    unfold receive drawing
    dsimp only
    cases hsize : job.dimensions decoders with
    | error => exact Or.inl rfl
    | ok size =>
      dsimp only
      split
      · exact Or.inr ⟨job, size, rfl, hsize, rfl⟩
      · exact Or.inl rfl

theorem delivers_spec {job : DecodeJob} (h : job.delivers decoders = true) {size : ℕ × ℕ}
    (hsize : job.dimensions decoders = .ok size) :
    ∃ pixels, job.run decoders = .ok pixels ∧ size = (pixels.width, pixels.height) := by
  unfold DecodeJob.delivers at h
  rw [hsize] at h
  cases hrun : job.run decoders with
  | error =>
    rw [hrun] at h
    cases h
  | ok pixels =>
    rw [hrun] at h
    exact ⟨pixels, rfl, of_decide_eq_true h⟩

theorem drawing_spec (hdec : decoders.Limited) {load : Load} (hload : load.Planned)
    {received : Received} (hfinish : load.finish = .ok received) {pixels : Pixels}
    (hdrawing : drawing decoders received = .ok pixels) :
    Fits pixels.width pixels.height ∧ pixels.rgba.length = pixels.width * pixels.height * 4 := by
  have hdirect := @receive_direct _ decoders ({} : KittyGraphics Rat) rfl received
  rw [hdrawing] at hdirect
  obtain ⟨hfits, hlength⟩ := receive_spec hdec hload hfinish hdirect
  exact ⟨hfits, hlength pixels rfl⟩

namespace Tracked

variable [F32 F]

/-- Every decode queued for an image delivers it. -/
def Delivering (decoders : Decoders) (jobs : List QueuedJob) : Prop :=
  ∀ job ∈ jobs, job.target = none ∨ job.job.delivers decoders = true

theorem jobs_storeImage (g : KittyGraphics F) (start : Command) (cursor : Cursor) (size : ℕ × ℕ)
    (pixels : Option Pixels) (job : DecodeJob) :
    ∃ target, (g.storeImage start cursor size pixels (some job)).1.jobs =
      g.jobs ++ [⟨g.lastJob + 1, job, some target, start⟩] := by
  have hinsert := quiet_insertImage g start size pixels
  unfold KittyGraphics.storeImage
  generalize g.insertImage start size pixels = inserted at hinsert
  dsimp only
  refine ⟨⟨inserted.1.active, inserted.2, g.nextUid⟩, ?_⟩
  have hanswered : (inserted.1.answer start inserted.2 g.nextUid (some job)).jobs = g.jobs ++
      [⟨g.lastJob + 1, job, some ⟨inserted.1.active, inserted.2, g.nextUid⟩, start⟩] := by
    change inserted.1.jobs ++ [_] = _
    rw [hinsert.jobs, hinsert.lastJob]
  split
  · exact ((quiet_modifyScreen _ _ _).jobs.trans (quiet_put _ _ _ _).jobs).trans hanswered
  · exact (quiet_modifyScreen _ _ _).jobs.trans hanswered

section

variable (h : Tracked decoders paint handed g d) (hdec : decoders.Limited)
include h hdec

theorem loadComplete {load : Load} (hload : load.Planned) (cursor : Cursor)
    (hdelivers : Delivering decoders (g.loadComplete decoders load cursor).1.jobs)
    (hcalm : hidesUnseen g.cell cursor (g.loadPut decoders load) (d.loadPut decoders load) = false) :
    ∃ paint, Tracked decoders paint handed (g.loadComplete decoders load cursor).1
      (d.loadComplete decoders load cursor).1 := by
  unfold KittyGraphics.loadComplete at hdelivers ⊢
  unfold loadPut at hcalm
  dsimp only at hdelivers ⊢
  split
  · exact ⟨paint, h⟩
  rename_i hquery
  rw [if_neg hquery] at hdelivers
  cases hfinish : load.finish with
  | error => exact ⟨paint, h.reply _ _⟩
  | ok received =>
    rw [hfinish] at hdelivers hcalm
    have hbeside := @receive_direct _ decoders d h.mirrors.direct received
    have hbind : ∀ g : KittyGraphics F, (Except.ok received).bind (g.receive decoders) =
        g.receive decoders received := fun g => rfl
    rw [hbind, hbind, hbeside]
    rw [hbind, hbind, hbeside] at hcalm
    rw [hbind] at hdelivers
    rcases @receive_cases _ decoders g received with
      hplace | ⟨job, size, rfl, hsize, hqueued⟩
    · -- Decoded in place on both sides.
      rw [hplace] at hcalm ⊢
      cases hdrawing : drawing decoders received with
      | error => exact ⟨paint, h.reply _ _⟩
      | ok pixels =>
        rw [hdrawing] at hcalm
        obtain ⟨hfits, hlength⟩ := drawing_spec hdec hload hfinish hdrawing
        change ∃ paint, Tracked decoders paint handed
          (if load.start.action = ascii 'q' then (g.reply load.start (.ok ()), ({} : Outcome))
            else g.storeImage load.start cursor (pixels.width, pixels.height) (some pixels) none).1
          (if load.start.action = ascii 'q' then (d.reply load.start (.ok ()), ({} : Outcome))
            else d.storeImage load.start cursor (pixels.width, pixels.height) (some pixels) none).1
        split
        · exact ⟨paint, h.reply _ _⟩
        · refine ⟨_, h.storeImage load.start cursor hfits hlength none (fun _ hnone => ?_) ?_⟩
          · cases hnone
          · intro haction
            rw [if_neg (not_not.mpr haction), if_neg (not_not.mpr haction)] at hcalm
            exact hcalm
    · -- The decode is queued on one side.
      rw [hqueued] at hcalm hdelivers ⊢
      dsimp only at hdelivers ⊢
      split
      · have hquery := h.query job load.start
        cases drawing decoders (.job job) with
        | error | ok =>
          exact ⟨paint, hquery.mirrors.reply_right _ _, hquery.ready, hquery.jobs⟩
      · rename_i haction
        rw [if_neg haction] at hdelivers
        obtain ⟨_, hjobs⟩ := jobs_storeImage g load.start cursor size none job
        rw [hjobs] at hdelivers
        have hdeliver := hdelivers _ (mem_append_right _ (List.mem_singleton.mpr rfl))
        obtain ⟨pixels, hrun, rfl⟩ :=
          delivers_spec (hdeliver.resolve_left (some_ne_none _)) hsize
        have hdrawing : drawing decoders (.job job) = .ok pixels := by
          change (job.dimensions decoders).bind (fun _ => job.run decoders) = _
          rw [hsize]
          exact hrun
        obtain ⟨hfits, hlength⟩ := drawing_spec hdec hload hfinish hdrawing
        rw [hdrawing] at hcalm ⊢
        refine ⟨_, h.storeImage load.start cursor hfits hlength (some job) (fun pending hsome => ?_)
          fun haction => ?_⟩
        · cases hsome
          exact hrun
        · rw [if_neg (not_not.mpr haction), if_neg (not_not.mpr haction)] at hcalm
          exact hcalm

theorem chunkComplete (hplanned : g.Planned) (command : Command) (cursor : Cursor)
    (hdelivers : Delivering decoders (g.chunkComplete decoders command cursor).1.jobs)
    (hcalm : hidesUnseen g.cell cursor (g.puts decoders true command)
      (d.puts decoders true command) = false) :
    ∃ paint, Tracked decoders paint handed (g.chunkComplete decoders command cursor).1
      (d.chunkComplete decoders command cursor).1 := by
  unfold KittyGraphics.chunkComplete at hdelivers ⊢
  unfold puts at hcalm
  rw [if_pos rfl, if_pos rfl, h.mirrors.loader] at hcalm
  rw [h.mirrors.loader]
  cases hloader : g.loader with
  | none => exact ⟨paint, h⟩
  | some load =>
    rw [hloader] at hdelivers hcalm
    dsimp only at hdelivers ⊢
    split
    · exact ⟨paint, { h.mirrors with screens := h.mirrors.screens, loader := rfl }, h.ready, h.jobs⟩
    rename_i hmore
    rw [if_neg hmore] at hdelivers
    rw [if_neg hmore, if_neg hmore] at hcalm
    have hended : Tracked decoders paint handed { g with loader := none } { d with loader := none } :=
      ⟨{ h.mirrors with screens := h.mirrors.screens, loader := rfl }, h.ready, h.jobs⟩
    refine hended.loadComplete hdec ((hplanned load hloader).closeChunk command) cursor hdelivers ?_
    rw [loadPut_loader g, loadPut_loader d]
    exact hcalm

theorem execute (hplanned : g.Planned) (feeding : Bool) (command : Command) (cursor : Cursor)
    (hdelivers : Delivering decoders (g.execute decoders feeding command cursor).1.jobs)
    (hcalm : hidesUnseen g.cell cursor (g.puts decoders feeding command)
      (d.puts decoders feeding command) = false) :
    ∃ paint, Tracked decoders paint handed (g.execute decoders feeding command cursor).1
      (d.execute decoders feeding command cursor).1 := by
  cases feeding with
  | true => exact h.chunkComplete hdec hplanned command cursor hdelivers hcalm
  | false =>
    unfold KittyGraphics.execute
    rw [if_neg Bool.false_ne_true, if_neg Bool.false_ne_true]
    split
    · rename_i haction
      exact ⟨paint, h.place command cursor haction hcalm⟩
    split
    · have habandon : Tracked decoders paint handed { g with loader := none }
          { d with loader := none } :=
        ⟨{ h.mirrors with screens := h.mirrors.screens, loader := rfl }, h.ready, h.jobs⟩
      exact ⟨paint, habandon.modifyStore (f := (·.delete command cursor.row cursor.col))
        (k := (·.delete command cursor.row cursor.col)) (ImageStore.fill_delete _ _ _)
        fun hready => hready.delete _ _ _⟩
    · split
      · exact ⟨paint, h.reply _ _⟩
      · exact ⟨paint, h⟩

theorem apcEnd (hplanned : g.Planned) (cancelled : Bool) (cursor : Cursor)
    (hdelivers : Delivering decoders (g.apcEnd decoders cancelled cursor).1.jobs)
    (hcalm : ∀ feeding command, cancelled = false →
      (g.apcClose cancelled).2 = (.payload feeding, some command) →
      hidesUnseen (g.apcClose cancelled).1.cell cursor
        ((g.apcClose cancelled).1.puts decoders feeding command)
        ((d.apcClose cancelled).1.puts decoders feeding command) = false) :
    ∃ paint, Tracked decoders paint handed (g.apcEnd decoders cancelled cursor).1
      (d.apcEnd decoders cancelled cursor).1 := by
  have hclosed := h.apcClose cancelled
  have hsame := (h.mirrors.apcClose cancelled).2
  have hplanned := (reads_apcClose decoders _ cancelled).planned hplanned
  unfold KittyGraphics.apcEnd at hdelivers ⊢
  dsimp only at hdelivers ⊢
  rw [hsame]
  generalize g.apcClose cancelled = closed at hclosed hplanned hdelivers hcalm ⊢
  generalize (d.apcClose cancelled).1 = beside at hclosed hcalm ⊢
  obtain ⟨closed, sink, command⟩ := closed
  dsimp only at hclosed hplanned hdelivers hcalm ⊢
  cases sink with
  | payload feeding =>
    cases cancelled with
    | true =>
      cases feeding with
      | true =>
        exact ⟨paint, { hclosed.mirrors with screens := hclosed.mirrors.screens, loader := rfl },
          hclosed.ready, hclosed.jobs⟩
      | false => exact ⟨paint, hclosed⟩
    | false =>
      cases command with
      | none => exact ⟨paint, hclosed⟩
      | some command =>
        exact hclosed.execute hdec hplanned feeding command cursor hdelivers
          (hcalm feeding command rfl rfl)
  | _ => exact ⟨paint, hclosed⟩

end

end Tracked

/-! ### Decodes that finish -/

/-- A decode is no longer under way; only its own image waited for it. -/
theorem Awaited.finish {jobs : List QueuedJob} {job : QueuedJob} {screen : Bool} {key uid : ℕ}
    (h : Awaited (handed ++ jobs) screen key uid) (hother : job.target ≠ some ⟨screen, key, uid⟩) :
    Awaited (handed.filter (· ≠ job) ++ jobs) screen key uid := by
  obtain ⟨other, hmem, htarget⟩ := h
  refine ⟨other, ?_, htarget⟩
  rcases List.mem_append.mp hmem with hhanded | hqueued
  · refine mem_append_left _ (List.mem_filter.mpr ⟨hhanded, decide_eq_true fun heq => ?_⟩)
    exact hother (heq ▸ htarget)
  · exact mem_append_right _ hqueued

section

variable (h : Tracked decoders paint handed g d)
include h

/-- A decode whose image is gone. -/
theorem Tracked.drop {job : QueuedJob}
    (hgone : ∀ target, job.target = some target → g.isLive target = false) :
    Tracked decoders paint (handed.filter (· ≠ job)) g d where
  mirrors := h.mirrors
  ready := by
    intro screen
    obtain ⟨hconsistent, hunmarked, hkept⟩ := h.ready screen
    refine ⟨hconsistent, hunmarked, fun key image himage => ?_⟩
    obtain ⟨hcreated, hwidth, hheight, hdrawn⟩ := hkept key image himage
    refine ⟨hcreated, hwidth, hheight, hdrawn.imp_left fun hwaits =>
      ⟨hwaits.1, hwaits.2.1, hwaits.2.2.finish fun htarget => ?_⟩⟩
    have hlive := hgone _ htarget
    unfold isLive at hlive
    dsimp only at hlive
    rw [himage, any_some, decide_eq_true rfl] at hlive
    cases hlive
  jobs := by
    intro other hmem
    refine h.jobs other ?_
    rcases List.mem_append.mp hmem with hhanded | hqueued
    · exact mem_append_left _ (mem_of_mem_filter hhanded)
    · exact mem_append_right _ hqueued

/-- A decode that brings the pixels of an image that is still there. -/
theorem Tracked.install (hdec : decoders.Limited)
    {job : QueuedJob} {target : JobTarget} (htarget : job.target = some target)
    (hrun : job.job.run decoders = .ok (paint target.uid)) (hlive : g.isLive target = true) :
    Tracked decoders paint (handed.filter (· ≠ job))
      (if ((g.screen target.screen).images.lookup target.key).map
          (fun image => (image.width, image.height)) =
            some ((paint target.uid).width, (paint target.uid).height) then
        (g.modifyScreen target.screen
          (·.setPixels target.key (paint target.uid).rgba (paint target.uid).isOpaque),
          (.ok () : Except Failure Unit))
      else (g.modifyScreen target.screen (·.removeImage target.key), .error .badPng)).1 d := by
  obtain ⟨image, himage, huid⟩ : ∃ image,
      (g.screen target.screen).images.lookup target.key = some image ∧ image.uid = target.uid := by
    unfold isLive at hlive
    cases himage : (g.screen target.screen).images.lookup target.key with
    | none =>
      rw [himage] at hlive
      cases hlive
    | some image =>
      rw [himage, any_some] at hlive
      exact ⟨image, rfl, of_decide_eq_true hlive⟩
  obtain ⟨-, hwidth, hheight, -⟩ := (h.ready target.screen).kept target.key image himage
  have hlength := DecodeJob.length_run hdec hrun
  rw [← huid] at hlength ⊢
  have hdeclared : ((g.screen target.screen).images.lookup target.key).map
      (fun image => (image.width, image.height)) =
        some ((paint image.uid).width, (paint image.uid).height) := by
    rw [himage, map_some, hwidth, hheight]
  rw [if_pos hdeclared]
  have hquiet := quiet_modifyScreen g target.screen
    (·.setPixels target.key (paint image.uid).rgba (paint image.uid).isOpaque)
  refine ⟨?_, fun screen => ?_, ?_⟩
  · have hmirrors := h.mirrors.modifyScreen target.screen
      (f := (·.setPixels target.key (paint image.uid).rgba (paint image.uid).isOpaque))
      (k := fun s => s) ((h.ready target.screen).fill_setPixels_self himage)
    have hsame : d.modifyScreen target.screen (fun s => s) = d := by
      cases target.screen <;> rfl
    rw [hsame] at hmirrors
    exact hmirrors
  · have hscreen := screen_modifyScreen g target.screen screen
      (·.setPixels target.key (paint image.uid).rgba (paint image.uid).isOpaque)
    rw [hscreen, hquiet.jobs, hquiet.nextUid]
    split
    · rename_i heq
      subst heq
      refine (h.ready target.screen).setPixels himage hlength fun other uid hother hwaits =>
        hwaits.finish fun hsome => hother ?_
      rw [htarget] at hsome
      have heq := Option.some_inj.mp hsome
      rw [huid, heq]
      exact ⟨rfl, rfl⟩
    · rename_i hne
      refine (h.ready screen).mono (fun _ _ => rfl) le_rfl fun key uid hwaits =>
        hwaits.finish fun hsome => hne ?_
      rw [htarget] at hsome
      cases hsome
      rfl
  · rw [hquiet.jobs, hquiet.nextUid]
    intro other hmem
    refine h.jobs other ?_
    rcases List.mem_append.mp hmem with hhanded | hqueued
    · exact mem_append_left _ (mem_of_mem_filter hhanded)
    · exact mem_append_right _ hqueued

theorem Tracked.finishJob (hdec : decoders.Limited) {job : QueuedJob} (hjob : job ∈ handed) :
    Tracked decoders paint (handed.filter (· ≠ job)) (g.finishJob (job.run decoders)) d := by
  suffices hinstalled : Tracked decoders paint (handed.filter (· ≠ job))
      (g.install (job.run decoders)).1 d from
    ⟨{ hinstalled.mirrors with screens := hinstalled.mirrors.screens }, hinstalled.ready,
      hinstalled.jobs⟩
  unfold KittyGraphics.install
  cases htarget : job.target with
  | none =>
    have hdropped : Tracked decoders paint (handed.filter (· ≠ job)) g d :=
      h.drop fun target hsome => by
        rw [htarget] at hsome
        cases hsome
    have hfilter : (job.run decoders).target.filter g.isLive = none := by
      change job.target.filter g.isLive = none
      rw [htarget]
      rfl
    rw [hfilter]
    cases (job.run decoders).result <;> exact hdropped
  | some target =>
    obtain ⟨_, hrun⟩ := h.jobs job (mem_append_left _ hjob) target htarget
    have hresult : (job.run decoders).result = .ok (paint target.uid) := hrun
    rw [hresult]
    cases hlive : g.isLive target with
    | false =>
      have hfilter : (job.run decoders).target.filter g.isLive = none := by
        change job.target.filter g.isLive = none
        rw [htarget, filter_some_neg]
        exact hlive
      rw [hfilter]
      refine h.drop fun other hother => ?_
      rw [htarget] at hother
      cases hother
      exact hlive
    | true =>
      have hfilter : (job.run decoders).target.filter g.isLive = some target := by
        change job.target.filter g.isLive = some target
        rw [htarget, filter_some_pos hlive]
      rw [hfilter]
      exact h.install hdec htarget hrun hlive

/-! ### Every other operation -/

theorem Tracked.popReply : Tracked decoders paint handed g.popReply.1 d.popReply.1 := by
  have hmirrors : Mirrors paint g d.popReply.1 := by
    unfold KittyGraphics.popReply
    split
    · exact { h.mirrors with screens := h.mirrors.screens }
    · exact h.mirrors
  unfold KittyGraphics.popReply at hmirrors ⊢
  split
  · exact ⟨{ hmirrors with screens := hmirrors.screens }, h.ready, h.jobs⟩
  · exact ⟨hmirrors, h.ready, h.jobs⟩

theorem Tracked.setAlternate (alternate : Bool) :
    Tracked decoders paint handed (g.setAlternate alternate) (d.setAlternate alternate) := by
  unfold KittyGraphics.setAlternate
  rw [h.mirrors.active]
  split
  · exact h
  refine h.of_ready { h.mirrors with
    screens := fun screen => ?_, active := rfl, loader := rfl } (fun screen hready => ?_) rfl rfl
  · have hscreen := h.mirrors.screens screen
    cases screen
    · exact hscreen
    · exact (congrArg (·.clear true) hscreen).trans (ImageStore.fill_clear true).symm
  · cases screen
    · exact hready
    · exact hready.removeWhere (hready.consistent.clear true)

theorem Tracked.reset : Tracked decoders paint handed g.reset d.reset where
  mirrors := { h.mirrors with
    screens := fun screen => by cases screen <;> rfl
    active := rfl
    sink := rfl
    command := rfl
    loader := rfl }
  ready := fun screen => by cases screen <;> exact ImageStore.Ready.empty
  jobs := by
    intro job hmem
    rcases List.mem_append.mp hmem with hhanded | hnone
    · exact h.jobs job (mem_append_left _ hhanded)
    · cases hnone

theorem Tracked.applyAnchors (moved : Bool → ℕ → Option (ℤ × ℤ)) :
    Tracked decoders paint handed (g.applyAnchors moved) (d.applyAnchors moved) := by
  refine h.of_ready { h.mirrors with screens := fun screen => ?_ } (fun screen hready => ?_) rfl rfl
  · have hscreen := h.mirrors.screens screen
    cases screen
    · exact (congrArg (·.applyAnchors (moved false)) hscreen).trans
        (ImageStore.fill_applyAnchors (moved false)).symm
    · exact (congrArg (·.applyAnchors (moved true)) hscreen).trans
        (ImageStore.fill_applyAnchors (moved true)).symm
  · cases screen
    · exact hready.removeWhere (hready.consistent.applyAnchors (moved false))
    · exact hready.removeWhere (hready.consistent.applyAnchors (moved true))

theorem Tracked.setCell [F32 F] (cell : CellPixels) :
    Tracked decoders paint handed (g.setCell cell) (d.setCell cell) := by
  unfold KittyGraphics.setCell
  rw [h.mirrors.cell]
  split
  · exact h
  refine h.of_ready { h.mirrors with screens := fun screen => ?_, cell := rfl }
    (fun screen hready => ?_) rfl rfl
  · have hscreen := h.mirrors.screens screen
    cases screen
    · exact congrArg (·.rescale cell) hscreen
    · exact congrArg (·.rescale cell) hscreen
  · cases screen
    · exact hready.rescale cell
    · exact hready.rescale cell

end

end KittyGraphics

/-! ### Runs -/

namespace Pair

variable {decoders : Decoders} {p : Pair F}

/-- What holds of the two terminals at any time. -/
structure Related (decoders : Decoders) (p : Pair F) : Prop where
  valid : p.deferred.Valid
  tracked : ∃ paint, KittyGraphics.Tracked decoders paint p.handed p.deferred p.direct

theorem related_fresh : ({} : Pair F).Related decoders := by
  refine ⟨⟨KittyGraphics.valid_fresh.sound, KittyGraphics.planned_of_none rfl⟩,
    fun _ => ⟨0, 0, [], false⟩, ⟨fun screen => ?_, rfl, rfl, rfl, rfl, rfl, rfl, rfl, rfl⟩,
    fun screen => ?_, fun job hjob => by cases hjob⟩
  · cases screen <;> rfl
  · cases screen <;> exact ImageStore.Ready.empty

theorem tracked_finishAll (hdec : decoders.Limited) {paint : Paint} {jobs : List QueuedJob}
    (hnodup : jobs.Nodup) (hjobs : ∀ job ∈ jobs, job ∈ p.handed)
    (h : KittyGraphics.Tracked decoders paint p.handed p.deferred p.direct) :
    KittyGraphics.Tracked decoders paint (jobs.foldl (finish decoders) p).handed
      (jobs.foldl (finish decoders) p).deferred (jobs.foldl (finish decoders) p).direct := by
  induction jobs generalizing p with
  | nil => exact h
  | cons job _ ih =>
    obtain ⟨hfresh, hnodup⟩ := List.nodup_cons.mp hnodup
    refine ih (p := p.finish decoders job) hnodup (fun other hother => ?_)
      (h.finishJob hdec (hjobs job (mem_cons_self ..)))
    refine List.mem_filter.mpr ⟨hjobs other (mem_cons_of_mem _ hother), ?_⟩
    exact decide_eq_true fun heq => hfresh (heq ▸ hother)

variable [F32 F]

/-- What happens to the first terminal. -/
theorem deferred_step (p : Pair F) (op : Op) :
    (p.step decoders op).deferred = p.deferred.apply decoders op := by
  cases op with
  | finishJobs jobs =>
    unfold step KittyGraphics.apply KittyGraphics.finishJobs
    dsimp only
    induction jobs generalizing p with
    | nil => rfl
    | cons job _ ih => exact ih (p.finish decoders job)
  | _ => rfl

theorem Related.step (h : p.Related decoders) (hdec : decoders.Limited) {op : Op}
    (hop : p.permits decoders op = true) (hcalm : p.hides decoders op = false) :
    (p.step decoders op).Related decoders := by
  have hvalid : (p.step decoders op).deferred.Valid := by
    rw [deferred_step]
    exact KittyGraphics.valid_apply hdec h.valid op
  obtain ⟨paint, htracked⟩ := h.tracked
  unfold permits at hop
  rw [Bool.and_eq_true] at hop
  obtain ⟨hdelivers, hop⟩ := hop
  have hdelivers : KittyGraphics.Tracked.Delivering decoders (p.step decoders op).deferred.jobs := by
    intro job hjob
    have hdeliver := List.all_eq_true.mp hdelivers job hjob
    rw [Bool.or_eq_true, isNone_iff_eq_none] at hdeliver
    exact hdeliver
  refine ⟨hvalid, ?_⟩
  cases op with
  | apcStart =>
    exact ⟨paint, { htracked.mirrors with
      screens := htracked.mirrors.screens, sink := rfl, control := rfl, command := rfl },
      htracked.ready, htracked.jobs⟩
  | apcPut bytes =>
    have hquiet := (KittyGraphics.reads_apcPut decoders p.deferred bytes).quiet
    exact ⟨paint, htracked.change (htracked.mirrors.apcPut bytes)
      ((KittyGraphics.reads_apcPut decoders p.deferred bytes).change KittyGraphics.Tracked.stable_ready)
      hquiet.jobs hquiet.nextUid⟩
  | apcEnd cancelled cursor =>
    refine htracked.apcEnd hdec h.valid.planned cancelled cursor hdelivers
      fun feeding command hfinished hclosed => ?_
    subst hfinished
    unfold hides at hcalm
    dsimp only at hcalm
    rw [hclosed] at hcalm
    exact hcalm
  | takeJobs =>
    refine ⟨paint, { htracked.mirrors with screens := htracked.mirrors.screens }, ?_, ?_⟩
    · change ∀ screen, (p.deferred.screen screen).Ready paint p.deferred.nextUid
        (KittyGraphics.Awaited ((p.handed ++ p.deferred.jobs) ++ []) screen)
      rw [append_nil]
      exact htracked.ready
    · change ∀ job ∈ (p.handed ++ p.deferred.jobs) ++ [], _
      rw [append_nil]
      exact htracked.jobs
  | finishJobs =>
    rw [Bool.and_eq_true, decide_eq_true_eq] at hop
    obtain ⟨hnodup, hjobs⟩ := hop
    exact ⟨paint, tracked_finishAll hdec hnodup
      (fun job hjob => of_decide_eq_true (List.all_eq_true.mp hjobs job hjob)) htracked⟩
  | popReply => exact ⟨paint, htracked.popReply⟩
  | takeQuietBytes | setDeferredDecode =>
    exact ⟨paint, { htracked.mirrors with screens := htracked.mirrors.screens }, htracked.ready,
      htracked.jobs⟩
  | setCell cell => exact ⟨paint, htracked.setCell cell⟩
  | scroll scroll =>
    refine ⟨paint, ?_⟩
    change KittyGraphics.Tracked decoders paint p.handed (p.deferred.scroll scroll)
      (p.direct.scroll scroll)
    unfold KittyGraphics.scroll
    rw [htracked.mirrors.cell]
    exact htracked.modifyStore (ImageStore.fill_scroll scroll _) fun hready => hready.scroll scroll _
  | clearScreen history =>
    exact ⟨paint, htracked.modifyStore (f := (·.clear history)) (k := (·.clear history))
      (ImageStore.fill_clear history) fun hready =>
        hready.removeWhere (hready.consistent.clear history)⟩
  | clearHistory =>
    exact ⟨paint, htracked.modifyStore (f := (·.clearHistory)) (k := (·.clearHistory))
      ImageStore.fill_clearHistory fun hready => hready.removeWhere hready.consistent.clearHistory⟩
  | setAlternate alternate => exact ⟨paint, htracked.setAlternate alternate⟩
  | reset => exact ⟨paint, htracked.reset⟩
  | applyAnchors moved => exact ⟨paint, htracked.applyAnchors moved⟩

theorem Related.run (h : p.Related decoders) (hdec : decoders.Limited) {ops : List Op}
    (hops : p.permitsAll decoders ops = true) (hcalm : p.calm decoders ops = true) :
    (p.run decoders ops).Related decoders := by
  unfold Pair.run
  induction ops generalizing p with
  | nil => exact h
  | cons _ _ ih =>
    unfold permitsAll at hops
    unfold calm at hcalm
    rw [Bool.and_eq_true] at hops hcalm
    rw [Bool.not_eq_true'] at hcalm
    exact ih (h.step hdec hops.1 hcalm.1) hops.2 hcalm.2

/-- Once every decode has finished, it does not show that decodes were deferred, in any run in
which no image was put too early. -/
theorem decodes_settle (hdec : decoders.Limited) (ops : List Op) (screen : Bool)
    (hops : ({} : Pair F).permitsAll decoders ops = true)
    (hcalm : ({} : Pair F).calm decoders ops = true)
    (hhanded : (({} : Pair F).run decoders ops).handed = [])
    (hjobs : (({} : Pair F).run decoders ops).deferred.jobs = []) :
    (({} : Pair F).run decoders ops).deferred.screen screen =
      (({} : Pair F).run decoders ops).direct.screen screen := by
  obtain ⟨-, _, htracked⟩ := (@related_fresh _ decoders).run hdec hops hcalm
  have hready := htracked.ready screen
  rw [hhanded, hjobs] at hready
  rw [htracked.mirrors.screens screen, hready.fill_eq_self]
  rintro _ _ ⟨_, hjob, -⟩
  cases hjob

/-- An image of one black pixel, sent compressed, and shown. -/
def shown : List Op := whole "Ga=T,f=24,o=z,s=1,v=1;eAEBAwD8/wAAAAADAAE="

/-- Something happens, and then every decode finishes. -/
def settled (ops : List Op) : List Op :=
  ops ++ [.takeJobs, .finishJobs (({} : Pair Rat).run Decoders.stored ops).deferred.jobs]

theorem limited_stored : Decoders.stored.Limited :=
  ⟨fun data width height rgba hpng => by cases hpng⟩

theorem decodes_settle_shown :
    (({} : Pair Rat).run Decoders.stored (settled shown)).deferred.screen false =
      (({} : Pair Rat).run Decoders.stored (settled shown)).direct.screen false ∧
    (({} : Pair Rat).run Decoders.stored (settled shown)).deferred.primary.placements.length = 1 :=
  ⟨decodes_settle limited_stored (settled shown) false (by decide +kernel) (by decide +kernel)
    (by decide +kernel) (by decide +kernel), by decide +kernel⟩

/-- The same image sent twice to the same place, before its first decode has finished, stays there
twice. -/
theorem shown_twice_stays :
    ({} : Pair Rat).permitsAll Decoders.stored (settled (shown ++ shown)) = true ∧
    (({} : Pair Rat).run Decoders.stored (settled (shown ++ shown))).handed = [] ∧
    (({} : Pair Rat).run Decoders.stored (settled (shown ++ shown))).deferred.jobs = [] ∧
    (({} : Pair Rat).run Decoders.stored
      (settled (shown ++ shown))).deferred.primary.placements.length = 2 ∧
    (({} : Pair Rat).run Decoders.stored
      (settled (shown ++ shown))).direct.primary.placements.length = 1 := by
  decide +kernel

end Pair

end Vivido.Graphics
