import Vivido.Graphics.Load

/-!
The Kitty graphics state of one terminal: the stores of its two screens, the
command and the transmission being received, the decodes handed out and the
replies owed. A decode may finish at any time, in any order, or never.
-/

namespace Vivido.Graphics

/-- `MAX_REPLIES`. -/
def maxReplies : ℕ := 256

/-- `MAX_JOBS`. -/
def maxJobs : ℕ := 16

/-- Where the cursor is when a command runs. -/
structure Cursor where
  row : ℤ
  col : ℤ
  deriving DecidableEq, Repr

/-- What the terminal has to do after a command ran. -/
structure Outcome where
  advance : Option (ℕ × ℕ) := none
  deriving DecidableEq, Repr

/-- Where the bytes of the current application program command go. -/
inductive Sink where
  | idle
  | start
  | control
  | payload (feeding : Bool)
  | ignore
  deriving DecidableEq, Repr

/-- A reply the application is owed. -/
inductive Reply where
  | ready (text : String)
  | pending (seq : ℕ)
  deriving DecidableEq, Repr

/-- The image a decode is for. -/
structure JobTarget where
  /-- Whether it is on the alternate screen. -/
  screen : Bool
  key : ℕ
  uid : ℕ
  deriving DecidableEq, Repr

/-- A decode queued for the PTY reader; without a target for a query. -/
structure QueuedJob where
  seq : ℕ
  job : DecodeJob
  target : Option JobTarget
  command : Command
  deriving DecidableEq, Repr

structure FinishedJob where
  seq : ℕ
  target : Option JobTarget
  command : Command
  result : Except Failure Pixels

/-- `QueuedJob::run`. -/
def QueuedJob.run (decoders : Decoders) (job : QueuedJob) : FinishedJob :=
  ⟨job.seq, job.target, job.command, job.job.run decoders⟩

/-- Whether the protocol allows any reply to a command at all. -/
def replyWanted (command : Command) : Bool :=
  command.quiet < 2 && (command.id ≠ 0 || command.number ≠ 0)

/-- The reply to a command; nothing when it asked for silence or named no image. -/
def replyText (command : Command) (result : Except Failure Unit) : Option String :=
  let named := [("i", command.id), ("I", command.number), ("p", command.placement)].filter
    (·.2 ≠ 0)
  let head := "\x1b_G" ++ ",".intercalate (named.map fun (name, value) =>
    name ++ "=" ++ toString value)
  if !replyWanted command then none
  else
    match result with
    | .ok _ => if command.quiet = 1 then none else some (head ++ ";OK" ++ "\x1b\\")
    | .error failure => some (head ++ ";" ++ failure.code ++ ":" ++ failure.message ++ "\x1b\\")

/-- `KittyGraphics`. The source numbers images by a counter of the whole process, of which
`nextUid` is the next value. -/
structure KittyGraphics (F : Type) where
  primary : ImageStore F := {}
  alternate : ImageStore F := {}
  /-- Whether the alternate screen is the one displayed. -/
  active : Bool := false
  sink : Sink := .idle
  control : List UInt8 := []
  command : Option Command := none
  loader : Option Load := none
  cell : CellPixels := .fallback
  quietBytes : ℕ := 0
  deferDecode : Bool := false
  jobs : List QueuedJob := []
  lastJob : ℕ := 0
  replies : List Reply := []
  nextUid : ℕ := 1
  deriving DecidableEq

variable {F : Type} [F32 F]

namespace KittyGraphics

/-- The store of a screen. -/
def screen (g : KittyGraphics F) (alternate : Bool) : ImageStore F :=
  if alternate then g.alternate else g.primary

def modifyScreen (g : KittyGraphics F) (alternate : Bool) (f : ImageStore F → ImageStore F) :
    KittyGraphics F :=
  if alternate then { g with alternate := f g.alternate } else { g with primary := f g.primary }

/-- The store of the screen being displayed. -/
def store (g : KittyGraphics F) : ImageStore F := g.screen g.active

def modifyStore (g : KittyGraphics F) (f : ImageStore F → ImageStore F) : KittyGraphics F :=
  g.modifyScreen g.active f

def setDeferredDecode (g : KittyGraphics F) (defer : Bool) : KittyGraphics F :=
  { g with deferDecode := defer }

def takeQuietBytes (g : KittyGraphics F) : KittyGraphics F × ℕ :=
  ({ g with quietBytes := 0 }, g.quietBytes)

/-- `set_cell`. -/
def setCell (g : KittyGraphics F) (cell : CellPixels) : KittyGraphics F :=
  if cell = g.cell then g
  else { g with
    cell := cell
    primary := g.primary.rescale cell
    alternate := g.alternate.rescale cell }

/-- Queue the reply to a command, if the protocol calls for one. -/
def reply (g : KittyGraphics F) (command : Command) (result : Except Failure Unit) :
    KittyGraphics F :=
  match replyText command result with
  | none => g
  | some text =>
      if g.replies.length < maxReplies then { g with replies := g.replies ++ [.ready text] } else g

/-- Queue a decode, reserving the place of its reply. -/
def queue (g : KittyGraphics F) (job : DecodeJob) (target : Option JobTarget) (command : Command) :
    KittyGraphics F :=
  let seq := g.lastJob + 1
  { g with
    lastJob := seq
    replies := if replyWanted command ∧ g.replies.length < maxReplies then
        g.replies ++ [.pending seq]
      else g.replies
    jobs := g.jobs ++ [⟨seq, job, target, command⟩] }

/-- Put a placement at the cursor. -/
def put (g : KittyGraphics F) (key : ℕ) (command : Command) (cursor : Cursor) :
    KittyGraphics F × Outcome :=
  let placed := g.store.put key command cursor.row cursor.col g.cell
  (g.modifyStore fun _ => placed.1,
    ⟨placed.2.filter fun _ => command.cursor ≠ 1 && command.unicode ≠ 1⟩)

/-- `begin_load`: start a transmission from the control data of its first command. -/
def beginLoad (g : KittyGraphics F) (start : Command) : KittyGraphics F :=
  let both := start.id ≠ 0 ∧ start.number ≠ 0
  let names := ¬both ∧ start.action ≠ ascii 'q'
  -- Retransmitting an id replaces the image at once.
  let stored := if names ∧ start.id ≠ 0 then g.modifyStore (·.removeById start.id) else g
  let start := if names ∧ start.id = 0 ∧ start.number ≠ 0 then
      { start with id := g.store.freeId }
    else start
  let load := Load.begin start
  let load := if both then
      load.reject ⟨"EINVAL", "Must not specify both image id and image number"⟩
    else load
  { stored with loader := some load }

/-- Whether a command continues the transmission in progress. -/
def continues (g : KittyGraphics F) (command : Command) : Bool :=
  match g.loader with
  | none => false
  | some load =>
      if load.start.action = ascii 'f' then command.action = 0 || command.action = ascii 'f'
      else command.action = 0 || command.action = ascii 't' || command.action = ascii 'T' ||
        command.action = ascii 'q'

/-- `control_complete`: parse the control data and decide what the payload is for. -/
def controlComplete (g : KittyGraphics F) : KittyGraphics F × Sink :=
  match Command.parse g.control with
  | none => (g, .ignore)
  | some command =>
      let g := { g with command := some command }
      if g.continues command then (g, .payload true)
      else if command.action = 0 ∨ command.action = ascii 't' ∨ command.action = ascii 'T' ∨
          command.action = ascii 'q' then (g.beginLoad command, .payload true)
      else if command.action = ascii 'f' then
        -- Animation frames are refused, but their chunks still have to be consumed.
        let load := (Load.begin command).reject ⟨"EINVAL", "Animation is not supported"⟩
        ({ g with loader := some load }, .payload true)
      else (g, .payload false)

/-- `apc_start`. -/
def apcStart (g : KittyGraphics F) : KittyGraphics F :=
  { g with sink := .start, control := [], command := none, quietBytes := g.quietBytes + 2 }

section

variable (decoders : Decoders)

def putPayload (g : KittyGraphics F) (bytes : List UInt8) : KittyGraphics F :=
  { g with loader := g.loader.map (·.push decoders bytes) }

/-- Bytes of the control data, and of the payload after it. -/
def putControl (g : KittyGraphics F) (bytes : List UInt8) : KittyGraphics F :=
  let control := bytes.takeWhile (· ≠ ascii ';')
  if maxControlBytes < g.control.length + control.length then { g with sink := .ignore }
  else
    let g := { g with control := g.control ++ control }
    match bytes.dropWhile (· ≠ ascii ';') with
    | [] => g
    | _ :: payload =>
        let completed := g.controlComplete
        let g : KittyGraphics F := { completed.1 with sink := completed.2 }
        if completed.2 = .payload true then g.putPayload decoders payload else g

/-- `apc_put`: the next run of bytes of the current command. -/
def apcPut (g : KittyGraphics F) (bytes : List UInt8) : KittyGraphics F :=
  let g := { g with quietBytes := g.quietBytes + bytes.length }
  match g.sink with
  | .start =>
      match bytes with
      | [] => g
      | first :: rest =>
          if first = ascii 'G' then ({ g with sink := .control } : KittyGraphics F).putControl
            decoders rest
          else { g with sink := .ignore }
  | .control => g.putControl decoders bytes
  | .payload true => g.putPayload decoders bytes
  | _ => g

/-- What a transmission received comes to: a size, pixels if they are there, and a decode to
queue if not. -/
def receive (g : KittyGraphics F) : Received →
    Except Failure ((ℕ × ℕ) × Option Pixels × Option DecodeJob)
  | .pixels pixels => .ok ((pixels.width, pixels.height), some pixels, none)
  | .job job =>
      match job.dimensions decoders with
      | .error failure => .error failure
      | .ok size =>
          if g.deferDecode ∧ g.jobs.length < maxJobs then .ok (size, none, some job)
          else (job.run decoders).map fun pixels =>
            ((pixels.width, pixels.height), some pixels, none)

/-- Insert a new image into the displayed store; the key it got. -/
def insertImage (g : KittyGraphics F) (start : Command) (size : ℕ × ℕ) (pixels : Option Pixels) :
    KittyGraphics F × ℕ :=
  let inserted := g.store.insert g.nextUid start.id start.number size (pixels.map Pixels.rgba)
    (pixels.any Pixels.isOpaque)
  ({ g.modifyStore fun _ => inserted.1 with nextUid := g.nextUid + 1 }, inserted.2)

/-- Answer the command that stored an image, or queue the decode that will. -/
def answer (g : KittyGraphics F) (start : Command) (key uid : ℕ) (job : Option DecodeJob) :
    KittyGraphics F :=
  match job with
  | some job => g.queue job (some ⟨g.active, key, uid⟩) start
  | none => g.reply start (.ok ())

/-- Store a new image, queue its decode, and place it if asked. -/
def storeImage (g : KittyGraphics F) (start : Command) (cursor : Cursor) (size : ℕ × ℕ)
    (pixels : Option Pixels) (job : Option DecodeJob) : KittyGraphics F × Outcome :=
  let inserted := g.insertImage start size pixels
  let answered := inserted.1.answer start inserted.2 g.nextUid job
  let placed := if start.action = ascii 'T' then answered.put inserted.2 start cursor
    else (answered, {})
  (placed.1.modifyStore (·.enforceQuota (some inserted.2)), placed.2)

/-- `load_complete`: a transmission has ended. -/
def loadComplete (g : KittyGraphics F) (load : Load) (cursor : Cursor) :
    KittyGraphics F × Outcome :=
  let start := load.start
  -- A query has to name an image to be answered.
  if start.action = ascii 'q' ∧ start.id = 0 then (g, {})
  else
    match load.finish.bind (g.receive decoders) with
    | .error failure => (g.reply start (.error failure), {})
    | .ok (size, pixels, job) =>
        if start.action = ascii 'q' then
          match job with
          | some job => (g.queue job none start, {})
          | none => (g.reply start (.ok ()), {})
        else g.storeImage start cursor size pixels job

/-- `chunk_complete`: one chunk of a transmission has ended. -/
def chunkComplete (g : KittyGraphics F) (command : Command) (cursor : Cursor) :
    KittyGraphics F × Outcome :=
  match g.loader with
  | none => (g, {})
  | some load =>
      let load := load.closeChunk decoders command
      if command.more ≠ 0 then ({ g with loader := some load }, {})
      else ({ g with loader := none } : KittyGraphics F).loadComplete decoders load cursor

/-- `place`: carry out a put command. -/
def place (g : KittyGraphics F) (command : Command) (cursor : Cursor) :
    KittyGraphics F × Outcome :=
  if command.id = 0 ∧ command.number = 0 then (g, {})
  else if command.id ≠ 0 ∧ command.number ≠ 0 then
    (g.reply command
      (.error ⟨"EINVAL", "Must not specify both image id and image number"⟩), {})
  else if command.parent ≠ 0 then
    (g.reply command (.error ⟨"EINVAL", "Relative placements are not supported"⟩), {})
  else
    let key := if command.id ≠ 0 then g.store.keyById command.id
      else g.store.keyByNumber command.number
    match key.bind fun key => (g.store.images.lookup key).map fun image => (key, image.id) with
    | none =>
        (g.reply command (.error ⟨"ENOENT", "Put command refers to non-existent image"⟩), {})
    | some (key, id) =>
        let placed := g.put key command cursor
        -- The reply names the image by id even when the command used its number.
        (placed.1.reply { command with id := id } (.ok ()), placed.2)

/-- Run a command whose bytes have all arrived. -/
def execute (g : KittyGraphics F) (feeding : Bool) (command : Command) (cursor : Cursor) :
    KittyGraphics F × Outcome :=
  if feeding then g.chunkComplete decoders command cursor
  else if command.action = ascii 'p' then g.place command cursor
  else if command.action = ascii 'd' then
    -- Kitty abandons a transmission that a delete interrupts.
    (({ g with loader := none } : KittyGraphics F).modifyStore
      (·.delete command cursor.row cursor.col), {})
  else if command.action = ascii 'a' ∨ command.action = ascii 'c' then
    (g.reply command (.error ⟨"EINVAL", "Animation is not supported"⟩), {})
  else (g, {})

end

/-- The bytes of a command end: what they were for, and the command if it is a graphics command. -/
def apcClose (g : KittyGraphics F) (cancelled : Bool) : KittyGraphics F × Sink × Option Command :=
  let quietBytes := if cancelled then g.quietBytes else g.quietBytes + 2
  let idle : KittyGraphics F := { g with quietBytes := quietBytes, sink := .idle }
  -- No `;` arrived, so the control data ends with the command.
  let completed := if g.sink = .control then idle.controlComplete else (idle, g.sink)
  ({ completed.1 with command := none }, completed.2, completed.1.command)

/-- `apc_end`: the current command has ended; run it if it was a graphics command. -/
def apcEnd (decoders : Decoders) (g : KittyGraphics F) (cancelled : Bool) (cursor : Cursor) :
    KittyGraphics F × Outcome :=
  let closed := g.apcClose cancelled
  match closed.2 with
  | (.payload feeding, command) =>
      -- What a command that was cut short belonged to cannot be trusted.
      if cancelled then (if feeding then { closed.1 with loader := none } else closed.1, {})
      else
        match command with
        | none => (closed.1, {})
        | some command => closed.1.execute decoders feeding command cursor
  | _ => (closed.1, {})

/-- `take_jobs`. -/
def takeJobs (g : KittyGraphics F) : KittyGraphics F × List QueuedJob :=
  ({ g with jobs := [] }, g.jobs)

/-- Whether the image a decode is for is still there. -/
def isLive (g : KittyGraphics F) (target : JobTarget) : Bool :=
  ((g.screen target.screen).images.lookup target.key).any fun image => image.uid = target.uid

/-- Install the pixels of a decode, or remove the image it fails: the outcome to reply. -/
def install (g : KittyGraphics F) (job : FinishedJob) : KittyGraphics F × Except Failure Unit :=
  match job.result, job.target.filter g.isLive with
  | .ok pixels, some target =>
      let declared := ((g.screen target.screen).images.lookup target.key).map fun image =>
        (image.width, image.height)
      if declared = some (pixels.width, pixels.height) then
        (g.modifyScreen target.screen (·.setPixels target.key pixels.rgba pixels.isOpaque),
          .ok ())
      else
        -- The header promised a size the data did not deliver.
        (g.modifyScreen target.screen (·.removeImage target.key), .error .badPng)
  | .ok _, none => (g, .ok ())
  | .error failure, some target =>
      (g.modifyScreen target.screen (·.removeImage target.key), .error failure)
  | .error failure, none => (g, .error failure)

/-- Fill the slot of a decode's reply, or remove it. -/
def settle (replies : List Reply) (seq : ℕ) (text : Option String) : List Reply :=
  match replies.findIdx? (· = .pending seq), text with
  | some slot, some text => replies.set slot (.ready text)
  | some slot, none => replies.eraseIdx slot
  | none, _ => replies

def finishJob (g : KittyGraphics F) (job : FinishedJob) : KittyGraphics F :=
  let installed := g.install job
  { installed.1 with
    replies := settle installed.1.replies job.seq (replyText job.command installed.2) }

/-- `finish_jobs`. -/
def finishJobs (g : KittyGraphics F) (finished : List FinishedJob) : KittyGraphics F :=
  finished.foldl finishJob g

/-- `pop_reply`: the next reply to write, if one is ready. -/
def popReply (g : KittyGraphics F) : KittyGraphics F × Option String :=
  match g.replies with
  | .ready text :: replies => ({ g with replies := replies }, some text)
  | _ => (g, none)

/-- `scroll`: follow a scroll of the displayed screen's grid. -/
def scroll (g : KittyGraphics F) (scroll : Scroll) : KittyGraphics F :=
  g.modifyStore (·.scroll scroll g.cell)

/-- `clear_screen`. -/
def clearScreen (g : KittyGraphics F) (history : Bool) : KittyGraphics F :=
  g.modifyStore (·.clear history)

/-- `clear_history`. -/
def clearHistory (g : KittyGraphics F) : KittyGraphics F := g.modifyStore (·.clearHistory)

/-- `set_alternate`: the terminal switched to or from the alternate screen. -/
def setAlternate (g : KittyGraphics F) (alternate : Bool) : KittyGraphics F :=
  if alternate = g.active then g
  else { g with
    -- A transmission belongs to the screen it started on.
    loader := none
    alternate := g.alternate.clear true
    active := alternate }

/-- `reset`: forget everything, as a terminal reset does. -/
def reset (g : KittyGraphics F) : KittyGraphics F :=
  { g with
    primary := {}
    alternate := {}
    active := false
    sink := .idle
    command := none
    loader := none
    jobs := []
    replies := [] }

/-- `anchors`: the first cell of every placement, with the screen it is on. -/
def anchors (g : KittyGraphics F) : List (Bool × ℕ × ℤ × ℤ) :=
  g.primary.anchors.map (false, ·) ++ g.alternate.anchors.map (true, ·)

/-- `apply_anchors`: move every placement to where a grid resize put its first cell. -/
def applyAnchors (g : KittyGraphics F) (moved : Bool → ℕ → Option (ℤ × ℤ)) : KittyGraphics F :=
  { g with
    primary := g.primary.applyAnchors (moved false)
    alternate := g.alternate.applyAnchors (moved true) }

/-! ### Reading a command -/

/-- What reading a command does: it notes what it reads, and begins a transmission or goes on
with one. -/
inductive Reads (decoders : Decoders) : KittyGraphics F → KittyGraphics F → Prop where
  | noted {g : KittyGraphics F} {sink : Sink} {control : List UInt8} {command : Option Command}
      {quietBytes : ℕ} : Reads decoders g { g with sink, control, command, quietBytes }
  | begun {g : KittyGraphics F} (start : Command) : Reads decoders g (g.beginLoad start)
  | refused {g : KittyGraphics F} (start : Command) (failure : Failure) :
      Reads decoders g { g with loader := some ((Load.begin start).reject failure) }
  | fed {g : KittyGraphics F} (bytes : List UInt8) : Reads decoders g (g.putPayload decoders bytes)
  | trans {g g' g'' : KittyGraphics F} (h : Reads decoders g g') (h' : Reads decoders g' g'') :
      Reads decoders g g''

variable (decoders : Decoders)

omit [F32 F] in
theorem reads_controlComplete (g : KittyGraphics F) : Reads decoders g g.controlComplete.1 := by
  unfold controlComplete
  split
  · exact .noted
  rename_i command _
  have hcommand : Reads decoders g { g with command := some command } := .noted
  dsimp only
  split
  · exact hcommand
  · split
    · exact hcommand.trans (.begun _)
    · split
      · exact hcommand.trans (.refused _ _)
      · exact hcommand

omit [F32 F] in
theorem reads_apcClose (g : KittyGraphics F) (cancelled : Bool) :
    Reads decoders g (g.apcClose cancelled).1 := by
  unfold apcClose
  dsimp only
  refine Reads.trans ?_ .noted
  split
  · exact Reads.trans .noted (reads_controlComplete decoders _)
  · exact .noted

omit [F32 F] in
theorem reads_putControl (g : KittyGraphics F) (bytes : List UInt8) :
    Reads decoders g (g.putControl decoders bytes) := by
  unfold putControl
  dsimp only
  split
  · exact .noted
  split
  · exact .noted
  have hcontrol : Reads decoders g
      { g with control := g.control ++ bytes.takeWhile (· ≠ ascii ';') } := .noted
  have hcompleted := hcontrol.trans (reads_controlComplete decoders _)
  split
  · exact (hcompleted.trans .noted).trans (.fed _)
  · exact hcompleted.trans .noted

omit [F32 F] in
theorem reads_apcPut (g : KittyGraphics F) (bytes : List UInt8) :
    Reads decoders g (g.apcPut decoders bytes) := by
  unfold apcPut
  have hquiet : Reads decoders g { g with quietBytes := g.quietBytes + bytes.length } := .noted
  refine hquiet.trans ?_
  dsimp only
  split
  · split
    · exact .noted
    · split
      · exact Reads.trans .noted (reads_putControl decoders _ _)
      · exact .noted
  · exact reads_putControl decoders _ _
  · exact .fed _
  · exact .noted

end KittyGraphics

end Vivido.Graphics
