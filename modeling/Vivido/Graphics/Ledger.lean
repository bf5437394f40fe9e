import Vivido.Graphics.Base64
import Vivido.Graphics.Run

/-!
The replies an application is owed. Commands are entered in a ledger as they
finish, with what is known of their outcome; a decode that finishes settles the
entry that waited for it, and a reset starts a new ledger. The replies written and
those still queued are, in order, the ones the ledger calls for.
-/

namespace Vivido.Graphics

open List Option

variable {F : Type}

/-- What is known of the outcome of a command. -/
inductive Status where
  | settled (result : Except Failure Unit)
  | decoding (seq : ℕ)

/-- A command that has finished. -/
structure Entry where
  command : Command
  status : Status

namespace Entry

/-- The replies an entry calls for, which is one at most. -/
def replies (entry : Entry) : List Reply :=
  match entry.status with
  | .settled result => ((replyText entry.command result).map Reply.ready).toList
  | .decoding seq => if replyWanted entry.command then [.pending seq] else []

/-- A decode has finished with an outcome. -/
def settle (seq : ℕ) (result : Except Failure Unit) (entry : Entry) : Entry :=
  match entry.status with
  | .settled _ => entry
  | .decoding other => if other = seq then { entry with status := .settled result } else entry

end Entry

namespace KittyGraphics

variable (decoders : Decoders)

/-- What is known of a transmission that was received, whose decode may have been queued. -/
def statusOf (g : KittyGraphics F) : Option DecodeJob → Status
  | some _ => .decoding (g.lastJob + 1)
  | none => .settled (.ok ())

/-- The entry of a transmission that has ended, unless it is a query that names no image. -/
def loadEntry (g : KittyGraphics F) (load : Load) : Option Entry :=
  if load.start.action = ascii 'q' ∧ load.start.id = 0 then none
  else
    match load.finish.bind (g.receive decoders) with
    | .error failure => some ⟨load.start, .settled (.error failure)⟩
    | .ok (_, _, job) => some ⟨load.start, g.statusOf job⟩

/-- The entry of a put command that names an image. -/
def placeEntry (g : KittyGraphics F) (command : Command) : Option Entry :=
  if command.id = 0 ∧ command.number = 0 then none
  else if command.id ≠ 0 ∧ command.number ≠ 0 then
    some ⟨command, .settled
      (.error ⟨"EINVAL", "Must not specify both image id and image number"⟩)⟩
  else if command.parent ≠ 0 then
    some ⟨command, .settled (.error ⟨"EINVAL", "Relative placements are not supported"⟩)⟩
  else
    let key := if command.id ≠ 0 then g.store.keyById command.id
      else g.store.keyByNumber command.number
    match key.bind fun key => (g.store.images.lookup key).map Image.id with
    | none =>
        some ⟨command, .settled (.error ⟨"ENOENT", "Put command refers to non-existent image"⟩)⟩
    | some id => some ⟨{ command with id := id }, .settled (.ok ())⟩

/-- The entry of a command received whole; deletes have none, nor does a chunk that others
follow. -/
def entry (g : KittyGraphics F) (feeding : Bool) (command : Command) : Option Entry :=
  if feeding then
    g.loader.bind fun load =>
      if command.more ≠ 0 then none
      else g.loadEntry decoders (load.closeChunk decoders command)
  else if command.action = ascii 'p' then g.placeEntry command
  else if command.action = ascii 'd' then none
  else if command.action = ascii 'a' ∨ command.action = ascii 'c' then
    some ⟨command, .settled (.error ⟨"EINVAL", "Animation is not supported"⟩)⟩
  else none

/-- The entry of the command that ends here, if one does. -/
def concluded (g : KittyGraphics F) (cancelled : Bool) : Option Entry :=
  let closed := g.apcClose cancelled
  match closed.2 with
  | (.payload feeding, some command) =>
      if cancelled then none else closed.1.entry decoders feeding command
  | _ => none

end KittyGraphics

/-- A terminal, the decodes it has handed out, and the replies it has written since the last
reset. -/
structure Session (F : Type) where
  graphics : KittyGraphics F := {}
  handed : List QueuedJob := []
  ledger : List Entry := []
  written : List String := []

namespace Session

section

variable [F32 F] (decoders : Decoders)

/-- A decode finishes. -/
def finish (s : Session F) (job : QueuedJob) : Session F :=
  { s with
    graphics := s.graphics.finishJob (job.run decoders)
    ledger := s.ledger.map (Entry.settle job.seq (s.graphics.install (job.run decoders)).2) }

/-- Something happens. -/
def step (s : Session F) (op : Op) : Session F :=
  match op with
  | .apcEnd cancelled cursor =>
      { s with
        graphics := (s.graphics.apcEnd decoders cancelled cursor).1
        ledger := s.ledger ++ (s.graphics.concluded decoders cancelled).toList }
  | .takeJobs =>
      { s with graphics := s.graphics.takeJobs.1, handed := s.handed ++ s.graphics.takeJobs.2 }
  | .finishJobs jobs => jobs.foldl (finish decoders) s
  | .popReply =>
      { s with
        graphics := s.graphics.popReply.1
        written := s.written ++ s.graphics.popReply.2.toList }
  | .reset => { s with graphics := s.graphics.reset, ledger := [], written := [] }
  | op => { s with graphics := s.graphics.apply decoders op }

def run (s : Session F) (ops : List Op) : Session F := ops.foldl (step decoders) s

/-- Whether the decodes that finish were handed out, and there is room for one more reply. -/
def permits (s : Session F) (op : Op) : Bool :=
  s.graphics.replies.length < maxReplies &&
    match op with
    | .finishJobs jobs => jobs.all (· ∈ s.handed)
    | _ => true

/-- Whether everything that happens is permitted when it does. -/
def permitsAll (s : Session F) : List Op → Bool
  | [] => true
  | op :: ops => s.permits op && (s.step decoders op).permitsAll ops

/-- A session's graphics state is the one that its operations lead to. -/
theorem graphics_step (s : Session F) (op : Op) :
    (s.step decoders op).graphics = s.graphics.apply decoders op := by
  cases op with
  | finishJobs jobs =>
    unfold step KittyGraphics.apply KittyGraphics.finishJobs
    dsimp only
    induction jobs generalizing s with
    | nil => rfl
    | cons job _ ih => exact ih (s.finish decoders job)
  | _ => rfl

end

end Session

/-! ### What a command adds -/

namespace KittyGraphics

variable {decoders : Decoders} {g g' g'' : KittyGraphics F}

/-- Neither replies nor decodes change, and no image is created. -/
structure Quiet (g g' : KittyGraphics F) : Prop where
  replies : g'.replies = g.replies
  jobs : g'.jobs = g.jobs
  lastJob : g'.lastJob = g.lastJob
  nextUid : g'.nextUid = g.nextUid

theorem Quiet.refl (g : KittyGraphics F) : Quiet g g := ⟨rfl, rfl, rfl, rfl⟩

theorem Quiet.trans (h : Quiet g g') (h' : Quiet g' g'') : Quiet g g'' where
  replies := h'.replies.trans h.replies
  jobs := h'.jobs.trans h.jobs
  lastJob := h'.lastJob.trans h.lastJob
  nextUid := h'.nextUid.trans h.nextUid

/-- A finished command queues what its entry calls for. -/
structure Answered (g g' : KittyGraphics F) (entry : Option Entry) : Prop where
  replies : g'.replies = g.replies ++ entry.toList.flatMap Entry.replies
  lastJob : g.lastJob ≤ g'.lastJob
  jobs : ∀ job ∈ g'.jobs, job ∈ g.jobs ∨
    job.seq = g.lastJob + 1 ∧ job.seq ≤ g'.lastJob ∧ entry = some ⟨job.command, .decoding job.seq⟩
  decoding : ∀ command seq, entry = some ⟨command, .decoding seq⟩ →
    seq = g.lastJob + 1 ∧ seq ≤ g'.lastJob

theorem Quiet.answered (h : Quiet g g') : Answered g g' none where
  replies := by
    rw [h.replies]
    exact (append_nil _).symm
  lastJob := h.lastJob.ge
  jobs := fun job hjob => Or.inl (h.jobs ▸ hjob)
  decoding := fun command seq h => by cases h

theorem Quiet.before {entry : Option Entry} (h : Quiet g g') (h' : Answered g' g'' entry) :
    Answered g g'' entry where
  replies := by rw [h'.replies, h.replies]
  lastJob := h.lastJob.ge.trans h'.lastJob
  jobs := fun job hjob => by
    rw [← h.jobs, ← h.lastJob]
    exact h'.jobs job hjob
  decoding := fun command seq hentry => by
    rw [← h.lastJob]
    exact h'.decoding command seq hentry

theorem Answered.quiet {entry : Option Entry} (h : Answered g g' entry) (h' : Quiet g' g'') :
    Answered g g'' entry where
  replies := by rw [h'.replies, h.replies]
  lastJob := h.lastJob.trans h'.lastJob.ge
  jobs := fun job hjob => by
    rw [h'.lastJob]
    exact h.jobs job (h'.jobs ▸ hjob)
  decoding := fun command seq hentry => by
    rw [h'.lastJob]
    exact h.decoding command seq hentry

theorem quiet_modifyScreen (g : KittyGraphics F) (alternate : Bool)
    (f : ImageStore F → ImageStore F) : Quiet g (g.modifyScreen alternate f) := by
  cases alternate <;> exact ⟨rfl, rfl, rfl, rfl⟩

theorem quiet_insertImage (g : KittyGraphics F) (start : Command) (size : ℕ × ℕ)
    (pixels : Option Pixels) :
    Quiet { g with nextUid := g.nextUid + 1 } (g.insertImage start size pixels).1 := by
  have hmodified := quiet_modifyScreen g g.active fun _ =>
    (g.store.insert g.nextUid start.id start.number size (pixels.map Pixels.rgba)
      (pixels.any Pixels.isOpaque)).1
  exact ⟨hmodified.replies, hmodified.jobs, hmodified.lastJob, rfl⟩

theorem quiet_beginLoad (g : KittyGraphics F) (start : Command) : Quiet g (g.beginLoad start) := by
  have hremoved := quiet_modifyScreen g g.active (·.removeById start.id)
  unfold beginLoad
  dsimp only
  split
  · exact ⟨hremoved.replies, hremoved.jobs, hremoved.lastJob, hremoved.nextUid⟩
  · exact ⟨rfl, rfl, rfl, rfl⟩

theorem Reads.quiet (h : Reads decoders g g') : Quiet g g' := by
  induction h with
  | begun start => exact quiet_beginLoad _ start
  | trans _ _ ih ih' => exact ih.trans ih'
  | _ => exact ⟨rfl, rfl, rfl, rfl⟩

theorem answered_reply (hroom : g.replies.length < maxReplies) (command : Command)
    (result : Except Failure Unit) :
    Answered g (g.reply command result) (some ⟨command, .settled result⟩) := by
  have hreplies : (some (⟨command, .settled result⟩ : Entry)).toList.flatMap Entry.replies =
      ((replyText command result).map Reply.ready).toList := flatMap_singleton _ _
  have hdecoding : ∀ command' seq, some (⟨command, .settled result⟩ : Entry) ≠
      some ⟨command', .decoding seq⟩ := fun command' seq h => by cases h
  unfold reply
  split
  · rename_i hnone
    refine ⟨?_, le_rfl, fun job hjob => Or.inl hjob, fun _ _ h => (hdecoding _ _ h).elim⟩
    rw [hreplies, hnone]
    exact (append_nil _).symm
  · rename_i text hsome
    rw [if_pos hroom]
    refine ⟨?_, le_rfl, fun job hjob => Or.inl hjob, fun _ _ h => (hdecoding _ _ h).elim⟩
    rw [hreplies, hsome]
    rfl

theorem answered_queue (hroom : g.replies.length < maxReplies) (job : DecodeJob)
    (target : Option JobTarget) (command : Command) :
    Answered g (g.queue job target command) (some ⟨command, .decoding (g.lastJob + 1)⟩) where
  replies := by
    have hreplies : (some (⟨command, .decoding (g.lastJob + 1)⟩ : Entry)).toList.flatMap
        Entry.replies = if replyWanted command then [.pending (g.lastJob + 1)] else [] :=
      flatMap_singleton _ _
    rw [hreplies]
    unfold queue
    dsimp only
    by_cases hwanted : replyWanted command
    · rw [if_pos ⟨hwanted, hroom⟩, if_pos hwanted]
    · rw [if_neg fun h => hwanted h.1, if_neg hwanted, append_nil]
  lastJob := Nat.le_succ _
  jobs := by
    intro _ hqueued
    rcases List.mem_append.mp hqueued with hold | hnew
    · exact Or.inl hold
    · rw [List.mem_singleton.mp hnew]
      exact Or.inr ⟨rfl, le_rfl, rfl⟩
  decoding := by
    intro _ _ h
    cases h
    exact ⟨rfl, le_rfl⟩

theorem answered_answer (hroom : g.replies.length < maxReplies) (start : Command) (key uid : ℕ)
    (job : Option DecodeJob) :
    Answered g (g.answer start key uid job) (some ⟨start, g.statusOf job⟩) := by
  cases job with
  | some => exact answered_queue hroom _ _ _
  | none => exact answered_reply hroom _ _

variable [F32 F]

theorem quiet_put (g : KittyGraphics F) (key : ℕ) (command : Command) (cursor : Cursor) :
    Quiet g (g.put key command cursor).1 := by
  change Quiet g (g.modifyScreen g.active fun _ => _)
  exact quiet_modifyScreen _ _ _

section

variable (hroom : g.replies.length < maxReplies)
include hroom

theorem answered_storeImage (start : Command)
    (cursor : Cursor) (size : ℕ × ℕ) (pixels : Option Pixels) (job : Option DecodeJob) :
    Answered g (g.storeImage start cursor size pixels job).1 (some ⟨start, g.statusOf job⟩) := by
  have hinsert := quiet_insertImage g start size pixels
  unfold storeImage
  generalize g.insertImage start size pixels = inserted at hinsert
  have hanswer := answered_answer (hinsert.replies ▸ hroom) start inserted.2 g.nextUid job
  have hstatus : inserted.1.statusOf job = g.statusOf job := by
    unfold statusOf
    rw [hinsert.lastJob]
  rw [hstatus] at hanswer
  dsimp only
  generalize inserted.1.answer start inserted.2 g.nextUid job = answered at hanswer
  have hstored := hinsert.before hanswer
  have hcounted : Answered g answered (some ⟨start, g.statusOf job⟩) :=
    ⟨hstored.replies, hstored.lastJob, hstored.jobs, hstored.decoding⟩
  refine hcounted.quiet (Quiet.trans ?_ (quiet_modifyScreen _ _ _))
  split
  · exact quiet_put _ _ _ _
  · exact Quiet.refl _

theorem answered_loadComplete (load : Load) (cursor : Cursor) :
    Answered g (g.loadComplete decoders load cursor).1 (g.loadEntry decoders load) := by
  unfold loadComplete loadEntry
  dsimp only
  split
  · exact (Quiet.refl g).answered
  cases load.finish.bind (g.receive decoders) with
  | error => exact answered_reply hroom _ _
  | ok received =>
    obtain ⟨size, pixels, job⟩ := received
    dsimp only
    split
    · cases job with
      | some => exact answered_queue hroom _ _ _
      | none => exact answered_reply hroom _ _
    · exact answered_storeImage hroom load.start cursor size pixels job

theorem answered_place (command : Command)
    (cursor : Cursor) : Answered g (g.place command cursor).1 (g.placeEntry command) := by
  unfold place placeEntry
  split
  · exact (Quiet.refl g).answered
  split
  · exact answered_reply hroom _ _
  split
  · exact answered_reply hroom _ _
  dsimp only
  generalize (if command.id ≠ 0 then g.store.keyById command.id
    else g.store.keyByNumber command.number) = key
  cases key with
  | none => exact answered_reply hroom _ _
  | some key =>
    cases himage : g.store.images.lookup key with
    | none =>
      simp only [bind_some, himage, map_none]
      exact answered_reply hroom _ _
    | some =>
      simp only [bind_some, himage, map_some]
      have hput := quiet_put g key command cursor
      exact hput.before (answered_reply (hput.replies ▸ hroom) _ _)

theorem answered_chunkComplete (command : Command)
    (cursor : Cursor) : Answered g (g.chunkComplete decoders command cursor).1
      (g.loader.bind fun load => if command.more ≠ 0 then none
        else g.loadEntry decoders (load.closeChunk decoders command)) := by
  unfold chunkComplete
  cases g.loader with
  | none => exact (Quiet.refl g).answered
  | some load =>
    dsimp only [bind_some]
    split
    · exact Quiet.answered ⟨rfl, rfl, rfl, rfl⟩
    · have hempty : Quiet g { g with loader := none } := ⟨rfl, rfl, rfl, rfl⟩
      have hcomplete := @answered_loadComplete _ decoders { g with loader := none } _ hroom
        (load.closeChunk decoders command) cursor
      exact hempty.before hcomplete

theorem answered_execute (feeding : Bool) (command : Command) (cursor : Cursor) :
    Answered g (g.execute decoders feeding command cursor).1 (g.entry decoders feeding command) := by
  unfold execute entry
  split
  · exact answered_chunkComplete hroom command cursor
  split
  · exact answered_place hroom command cursor
  split
  · have habandon : Quiet g { g with loader := none } := ⟨rfl, rfl, rfl, rfl⟩
    refine (habandon.trans ?_).answered
    exact quiet_modifyScreen _ g.active (·.delete command cursor.row cursor.col)
  · split
    · exact answered_reply hroom _ _
    · exact (Quiet.refl g).answered

theorem answered_apcEnd (cancelled : Bool) (cursor : Cursor) :
    Answered g (g.apcEnd decoders cancelled cursor).1 (g.concluded decoders cancelled) := by
  have hclose := (reads_apcClose decoders g cancelled).quiet
  unfold apcEnd concluded
  generalize g.apcClose cancelled = closed at hclose
  obtain ⟨closed, sink, command⟩ := closed
  dsimp only at hclose ⊢
  have hroom' : closed.replies.length < maxReplies := hclose.replies ▸ hroom
  cases sink with
  | payload =>
    cases command with
    | none =>
      refine Quiet.answered ?_
      dsimp only
      split
      · split
        · exact hclose.trans ⟨rfl, rfl, rfl, rfl⟩
        · exact hclose
      · exact hclose
    | some =>
      dsimp only
      split
      · refine Quiet.answered ?_
        dsimp only
        split
        · exact hclose.trans ⟨rfl, rfl, rfl, rfl⟩
        · exact hclose
      · exact hclose.before (answered_execute hroom' _ _ _)
  | _ => exact hclose.answered

end

end KittyGraphics

/-! ### What a decode changes -/

namespace KittyGraphics

/-- What becomes of a reply when a decode finishes. -/
def substitute (seq : ℕ) (text : Option String) : Reply → List Reply
  | .pending other => if other = seq then (text.map Reply.ready).toList else [.pending other]
  | .ready other => [.ready other]

variable {seq : ℕ} {text : Option String} {command : Command}

theorem substitute_self {reply : Reply} (h : reply ≠ .pending seq) :
    substitute seq text reply = [reply] := by
  cases reply with
  | ready => rfl
  | pending => exact if_neg fun heq => h (congrArg Reply.pending heq)

theorem flatMap_substitute_self {replies : List Reply} (h : Reply.pending seq ∉ replies) :
    replies.flatMap (substitute seq text) = replies := by
  induction replies with
  | nil => rfl
  | cons _ _ ih =>
    rw [flatMap_cons, ih fun hmem => h (mem_cons_of_mem _ hmem),
      substitute_self fun heq => h (heq ▸ mem_cons_self ..)]
    rfl

/-- Only the reply that waited is touched. -/
theorem settle_eq {replies : List Reply} (h : replies.count (.pending seq) ≤ 1) :
    settle replies seq text = replies.flatMap (substitute seq text) := by
  induction replies with
  | nil => rfl
  | cons reply replies ih =>
    by_cases hreply : reply = .pending seq
    · have hrest : Reply.pending seq ∉ replies := by
        intro hmem
        rw [hreply, count_cons_self] at h
        have := List.count_pos_iff.mpr hmem
        omega
      have hslot : substitute seq text (.pending seq) = (text.map Reply.ready).toList := if_pos rfl
      rw [flatMap_cons, flatMap_substitute_self hrest, hreply, hslot]
      unfold settle
      rw [findIdx?_cons, decide_eq_true rfl, if_pos rfl]
      cases text <;> rfl
    · rw [count_cons_of_ne hreply] at h
      rw [flatMap_cons, ← ih h, substitute_self hreply]
      unfold settle
      rw [findIdx?_cons, decide_eq_false hreply]
      cases replies.findIdx? (· = .pending seq) <;> cases text <;> rfl

theorem count_substitute_le (seq other : ℕ) (text : Option String) (reply : Reply) :
    (substitute seq text reply).count (.pending other) ≤ [reply].count (.pending other) := by
  by_cases hreply : reply = .pending seq
  · have hslot : substitute seq text (.pending seq) = (text.map Reply.ready).toList := if_pos rfl
    rw [hreply, hslot]
    cases text <;> exact Nat.zero_le _
  · rw [substitute_self hreply]

theorem count_flatMap_substitute_le (seq other : ℕ) (text : Option String)
    (replies : List Reply) : (replies.flatMap (substitute seq text)).count (.pending other) ≤
      replies.count (.pending other) := by
  induction replies with
  | nil => exact le_rfl
  | cons reply _ ih =>
    rw [flatMap_cons, count_append, ← singleton_append, count_append]
    exact Nat.add_le_add (count_substitute_le seq other text reply) ih

theorem replyText_of_unwanted (h : replyWanted command = false) (result : Except Failure Unit) :
    replyText command result = none := by
  unfold replyText
  simp [h]

theorem replies_settle (entry : Entry) (result : Except Failure Unit)
    (hcommand : entry.status = .decoding seq → entry.command = command) :
    (entry.settle seq result).replies =
      entry.replies.flatMap (substitute seq (replyText command result)) := by
  obtain ⟨own, status⟩ := entry
  cases status with
  | settled other =>
    change ((replyText own other).map Reply.ready).toList =
      ((replyText own other).map Reply.ready).toList.flatMap _
    cases replyText own other <;> rfl
  | decoding other =>
    have hsettle : Entry.settle seq result ⟨own, .decoding other⟩ =
        if other = seq then ⟨own, .settled result⟩ else ⟨own, .decoding other⟩ := rfl
    by_cases heq : other = seq
    · rw [hsettle, if_pos heq]
      have hown : own = command := hcommand (congrArg Status.decoding heq)
      unfold Entry.replies
      dsimp only
      rw [hown]
      by_cases hwanted : replyWanted command
      · rw [if_pos hwanted, flatMap_singleton]
        exact (if_pos heq).symm
      · rw [if_neg hwanted, replyText_of_unwanted (eq_false_of_ne_true hwanted)]
        rfl
    · rw [hsettle, if_neg heq]
      unfold Entry.replies
      dsimp only
      split
      · rw [flatMap_singleton]
        exact (if_neg heq).symm
      · rfl

theorem eq_of_settle {entry : Entry} {other : ℕ} {result : Except Failure Unit}
    (h : entry.settle seq result = ⟨command, .decoding other⟩) :
    entry = ⟨command, .decoding other⟩ := by
  unfold Entry.settle at h
  split at h
  · exact h
  · split at h
    · cases h
    · exact h

theorem quiet_install (g : KittyGraphics F) (job : FinishedJob) : Quiet g (g.install job).1 := by
  unfold install
  split
  · dsimp only
    split
    · dsimp only
      exact quiet_modifyScreen _ _ _
    · dsimp only
      exact quiet_modifyScreen _ _ _
  · exact Quiet.refl g
  · dsimp only
    exact quiet_modifyScreen _ _ _
  · exact Quiet.refl g

end KittyGraphics

/-! ### The invariant -/

namespace Session

/-- The replies written and queued are those of the ledger. -/
structure Balanced (s : Session F) : Prop where
  replies : s.written.map Reply.ready ++ s.graphics.replies = s.ledger.flatMap Entry.replies
  issued : ∀ job ∈ s.handed ++ s.graphics.jobs, job.seq ≤ s.graphics.lastJob
  waiting : ∀ command seq, ⟨command, .decoding seq⟩ ∈ s.ledger → seq ≤ s.graphics.lastJob
  matched : ∀ job ∈ s.handed ++ s.graphics.jobs, ∀ command,
    ⟨command, .decoding job.seq⟩ ∈ s.ledger → command = job.command
  once : ∀ seq, s.graphics.replies.count (.pending seq) ≤ 1

variable {s : Session F}

theorem balanced_fresh : ({} : Session F).Balanced where
  replies := rfl
  issued := fun job hjob => by cases hjob
  waiting := fun command seq h => by cases h
  matched := fun job hjob => by cases hjob
  once := fun seq => Nat.zero_le 1

variable {g : KittyGraphics F}

section

variable (h : s.Balanced)
include h

theorem Balanced.quiet (hquiet : KittyGraphics.Quiet s.graphics g) :
    ({ s with graphics := g } : Session F).Balanced where
  replies := by
    rw [← h.replies, ← hquiet.replies]
  issued := by
    rw [hquiet.jobs, hquiet.lastJob]
    exact h.issued
  waiting := by
    rw [hquiet.lastJob]
    exact h.waiting
  matched := by
    rw [hquiet.jobs]
    exact h.matched
  once := by
    rw [hquiet.replies]
    exact h.once

/-- A queued reply waits for a decode that was queued. -/
theorem Balanced.seq_le {seq : ℕ} (hmem : Reply.pending seq ∈ s.graphics.replies) :
    seq ≤ s.graphics.lastJob := by
  have hview : Reply.pending seq ∈ s.ledger.flatMap Entry.replies := by
    rw [← h.replies]
    exact mem_append_right _ hmem
  obtain ⟨entry, hentry, hreply⟩ := List.mem_flatMap.mp hview
  obtain ⟨command, status⟩ := entry
  cases status with
  | settled result =>
    unfold Entry.replies at hreply
    dsimp only at hreply
    cases htext : replyText command result with
    | none =>
      rw [htext] at hreply
      cases hreply
    | some =>
      rw [htext] at hreply
      cases List.mem_singleton.mp hreply
  | decoding =>
    unfold Entry.replies at hreply
    dsimp only at hreply
    split at hreply
    · cases List.mem_singleton.mp hreply
      exact h.waiting command seq hentry
    · cases hreply

/-- A command finishes. -/
theorem Balanced.answered {entry : Option Entry}
    (hanswered : KittyGraphics.Answered s.graphics g entry) :
    ({ s with graphics := g, ledger := s.ledger ++ entry.toList } : Session F).Balanced where
  replies := by
    rw [flatMap_append, ← h.replies, hanswered.replies, append_assoc]
  issued := by
    intro job hjob
    rcases List.mem_append.mp hjob with hhanded | hjob
    · exact (h.issued job (mem_append_left _ hhanded)).trans hanswered.lastJob
    · rcases hanswered.jobs job hjob with hold | ⟨-, hle, -⟩
      · exact (h.issued job (mem_append_right _ hold)).trans hanswered.lastJob
      · exact hle
  waiting := by
    intro command seq hmem
    rcases List.mem_append.mp hmem with hold | hnew
    · exact (h.waiting command seq hold).trans hanswered.lastJob
    · exact (hanswered.decoding command seq (Option.mem_toList.mp hnew)).2
  matched := by
    intro job hjob command hmem
    have hold : job ∈ s.handed ++ s.graphics.jobs ∨ job.seq = s.graphics.lastJob + 1 ∧
        entry = some ⟨job.command, .decoding job.seq⟩ := by
      rcases List.mem_append.mp hjob with hhanded | hjob
      · exact Or.inl (mem_append_left _ hhanded)
      · rcases hanswered.jobs job hjob with hold | ⟨hseq, -, hentry⟩
        · exact Or.inl (mem_append_right _ hold)
        · exact Or.inr ⟨hseq, hentry⟩
    rcases List.mem_append.mp hmem with hledger | hnew
    · rcases hold with hjob | ⟨hseq, -⟩
      · exact h.matched job hjob command hledger
      · have hle := h.waiting command job.seq hledger
        omega
    · have hentry := Option.mem_toList.mp hnew
      rcases hold with hjob | ⟨-, hown⟩
      · have hseq := (hanswered.decoding command job.seq hentry).1
        have hle := h.issued job hjob
        omega
      · rw [hown] at hentry
        cases hentry
        rfl
  once := by
    intro seq
    rw [hanswered.replies, count_append]
    have hone := h.once seq
    cases entry with
    | none => exact hone
    | some entry =>
      obtain ⟨command, status⟩ := entry
      rw [toList_some, flatMap_singleton]
      unfold Entry.replies
      dsimp only
      cases status with
      | settled result =>
        dsimp only
        have hnone : (((replyText command result).map Reply.ready).toList).count (.pending seq) = 0 := by
          cases replyText command result <;> rfl
        rw [hnone]
        exact hone
      | decoding other =>
        dsimp only
        split
        · by_cases heq : other = seq
          · have hfresh : s.graphics.replies.count (.pending seq) = 0 := by
              refine List.count_eq_zero.mpr fun hmem => ?_
              have hle := h.seq_le hmem
              have hother := (hanswered.decoding command other rfl).1
              omega
            rw [hfresh, heq, count_singleton_self]
          · have hother : [Reply.pending other].count (.pending seq) = 0 := by
              refine List.count_eq_zero.mpr fun hmem => heq ?_
              cases List.mem_singleton.mp hmem
              rfl
            rw [hother]
            exact hone
        · exact hone

theorem Balanced.finish (decoders : Decoders) {job : QueuedJob}
    (hjob : job ∈ s.handed) : (s.finish decoders job).Balanced := by
  have hquiet := KittyGraphics.quiet_install s.graphics (job.run decoders)
  unfold Session.finish KittyGraphics.finishJob
  generalize s.graphics.install (job.run decoders) = installed at hquiet
  dsimp only
  have hsettle : KittyGraphics.settle installed.1.replies job.seq (replyText job.command installed.2) =
      s.graphics.replies.flatMap
        (KittyGraphics.substitute job.seq (replyText job.command installed.2)) := by
    rw [hquiet.replies]
    exact KittyGraphics.settle_eq (h.once job.seq)
  have hwaits : ∀ command seq, ⟨command, .decoding seq⟩ ∈
      s.ledger.map (Entry.settle job.seq installed.2) → ⟨command, .decoding seq⟩ ∈ s.ledger := by
    intro command seq hmem
    obtain ⟨entry, hentry, heq⟩ := List.mem_map.mp hmem
    exact KittyGraphics.eq_of_settle heq ▸ hentry
  constructor
  case replies =>
    have hwritten : (s.written.map Reply.ready).flatMap
        (KittyGraphics.substitute job.seq (replyText job.command installed.2)) =
          s.written.map Reply.ready := by
      refine KittyGraphics.flatMap_substitute_self fun hmem => ?_
      obtain ⟨_, -, heq⟩ := List.mem_map.mp hmem
      cases heq
    dsimp only [QueuedJob.run]
    rw [hsettle, ← hwritten, ← flatMap_append, h.replies, flatMap_assoc, flatMap_map]
    refine flatMap_congr fun entry hentry => ?_
    refine (KittyGraphics.replies_settle entry installed.2 fun hstatus => ?_).symm
    refine h.matched job (mem_append_left _ hjob) entry.command ?_
    rw [← hstatus]
    exact hentry
  case issued =>
    dsimp only
    rw [hquiet.jobs, hquiet.lastJob]
    exact h.issued
  case waiting =>
    dsimp only
    rw [hquiet.lastJob]
    exact fun command seq hmem => h.waiting command seq (hwaits command seq hmem)
  case matched =>
    dsimp only
    rw [hquiet.jobs]
    exact fun other hother command hmem => h.matched other hother command (hwaits command _ hmem)
  case once =>
    intro seq
    dsimp only [QueuedJob.run]
    rw [hsettle]
    exact (KittyGraphics.count_flatMap_substitute_le _ _ _ _).trans (h.once seq)

theorem Balanced.finishAll (decoders : Decoders) {jobs : List QueuedJob}
    (hjobs : ∀ job ∈ jobs, job ∈ s.handed) : (jobs.foldl (Session.finish decoders) s).Balanced := by
  induction jobs generalizing s with
  | nil => exact h
  | cons job _ ih =>
    refine ih (h.finish decoders (hjobs job (mem_cons_self ..))) fun other hother => ?_
    exact hjobs other (mem_cons_of_mem _ hother)

theorem Balanced.popReply : ({ s with
      graphics := s.graphics.popReply.1
      written := s.written ++ s.graphics.popReply.2.toList } : Session F).Balanced := by
  unfold KittyGraphics.popReply
  split
  · rename_i text replies hreplies
    constructor
    case replies =>
      dsimp only
      rw [← h.replies, hreplies, toList_some, map_append, append_assoc]
      rfl
    case issued => exact h.issued
    case waiting => exact h.waiting
    case matched => exact h.matched
    case once =>
      intro seq
      have hone := h.once seq
      rw [hreplies] at hone
      exact (List.Sublist.count_le _ (sublist_cons_self _ _)).trans hone
  · dsimp only
    rw [toList_none, append_nil]
    exact h

end

/-! ### After a reset -/

/-- Outside a command nothing finishes. -/
theorem concluded_idle (decoders : Decoders) (hsink : g.sink = .idle) (cancelled : Bool) :
    g.concluded decoders cancelled = none := by
  unfold KittyGraphics.concluded KittyGraphics.apcClose
  rw [hsink]
  rfl

theorem sink_modifyScreen (g : KittyGraphics F) (alternate : Bool)
    (f : ImageStore F → ImageStore F) : (g.modifyScreen alternate f).sink = g.sink := by
  cases alternate <;> rfl

theorem sink_finishJob (g : KittyGraphics F) (job : FinishedJob) :
    (g.finishJob job).sink = g.sink := by
  suffices hinstalled : (g.install job).1.sink = g.sink from hinstalled
  unfold KittyGraphics.install
  split
  · dsimp only
    split <;> exact sink_modifyScreen _ _ _
  · rfl
  · exact sink_modifyScreen _ _ _
  · rfl

/-- Nothing was asked since the last reset, and nothing is answered. -/
structure Idle (s : Session F) : Prop where
  sink : s.graphics.sink = .idle
  replies : s.graphics.replies = []
  ledger : s.ledger = []
  written : s.written = []

theorem Idle.finish (h : s.Idle) (decoders : Decoders) (job : QueuedJob) :
    (s.finish decoders job).Idle where
  sink := (sink_finishJob _ _).trans h.sink
  replies := by
    have hquiet := KittyGraphics.quiet_install s.graphics (job.run decoders)
    unfold Session.finish KittyGraphics.finishJob
    dsimp only
    rw [hquiet.replies, h.replies]
    rfl
  ledger := by
    unfold Session.finish
    dsimp only
    rw [h.ledger]
    rfl
  written := h.written

/-! ### Runs -/

variable [F32 F]

theorem Balanced.step (h : s.Balanced) (decoders : Decoders) {op : Op} (hop : s.permits op = true) :
    (s.step decoders op).Balanced := by
  unfold permits at hop
  rw [Bool.and_eq_true, decide_eq_true_eq] at hop
  obtain ⟨hroom, hop⟩ := hop
  cases op with
  | apcStart => exact h.quiet ⟨rfl, rfl, rfl, rfl⟩
  | apcPut bytes => exact h.quiet (KittyGraphics.reads_apcPut decoders s.graphics bytes).quiet
  | apcEnd cancelled cursor =>
    exact h.answered (KittyGraphics.answered_apcEnd hroom cancelled cursor)
  | takeJobs =>
    have hjobs : ∀ job ∈ (s.handed ++ s.graphics.jobs) ++ [], job ∈ s.handed ++ s.graphics.jobs := by
      rw [append_nil]
      exact fun job hjob => hjob
    exact ⟨h.replies, fun job hjob => h.issued job (hjobs job hjob), h.waiting,
      fun job hjob => h.matched job (hjobs job hjob), h.once⟩
  | finishJobs =>
    refine h.finishAll decoders fun job hjob => ?_
    exact of_decide_eq_true (List.all_eq_true.mp hop job hjob)
  | popReply => exact h.popReply
  | takeQuietBytes | setDeferredDecode => exact h.quiet ⟨rfl, rfl, rfl, rfl⟩
  | setCell =>
    refine h.quiet ?_
    unfold KittyGraphics.apply KittyGraphics.setCell
    dsimp only
    split <;> exact ⟨rfl, rfl, rfl, rfl⟩
  | scroll scroll =>
    exact h.quiet (KittyGraphics.quiet_modifyScreen s.graphics s.graphics.active
      (·.scroll scroll s.graphics.cell))
  | clearScreen history =>
    exact h.quiet (KittyGraphics.quiet_modifyScreen s.graphics s.graphics.active (·.clear history))
  | clearHistory =>
    exact h.quiet (KittyGraphics.quiet_modifyScreen s.graphics s.graphics.active (·.clearHistory))
  | setAlternate =>
    refine h.quiet ?_
    unfold KittyGraphics.apply KittyGraphics.setAlternate
    dsimp only
    split <;> exact ⟨rfl, rfl, rfl, rfl⟩
  | reset =>
    refine ⟨rfl, fun job hjob => ?_, fun command seq hmem => (not_mem_nil hmem).elim,
      fun job hjob command hmem => (not_mem_nil hmem).elim, fun seq => Nat.zero_le 1⟩
    rcases List.mem_append.mp hjob with hhanded | hnone
    · exact h.issued job (mem_append_left _ hhanded)
    · cases hnone
  | applyAnchors => exact h.quiet ⟨rfl, rfl, rfl, rfl⟩

theorem Balanced.run (h : s.Balanced) (decoders : Decoders) {ops : List Op}
    (hops : s.permitsAll decoders ops = true) : (s.run decoders ops).Balanced := by
  unfold Session.run
  induction ops generalizing s with
  | nil => exact h
  | cons _ _ ih =>
    unfold permitsAll at hops
    rw [Bool.and_eq_true] at hops
    exact ih (h.step decoders hops.1) hops.2

theorem Idle.step (h : s.Idle) (decoders : Decoders) {op : Op} (hop : op ≠ .apcStart) :
    (s.step decoders op).Idle := by
  obtain ⟨hsink, hreplies, hledger, hwritten⟩ := h
  cases op with
  | apcStart => exact (hop rfl).elim
  | apcPut bytes =>
    refine ⟨?_, ?_, hledger, hwritten⟩
    · unfold Session.step KittyGraphics.apply KittyGraphics.apcPut
      dsimp only
      rw [hsink]
    · exact (KittyGraphics.reads_apcPut decoders s.graphics bytes).quiet.replies.trans hreplies
  | apcEnd cancelled cursor =>
    have hend : (s.graphics.apcEnd decoders cancelled cursor).1 =
        (s.graphics.apcClose cancelled).1 := by
      unfold KittyGraphics.apcEnd KittyGraphics.apcClose
      rw [hsink]
      rfl
    refine ⟨?_, ?_, ?_, hwritten⟩
    · change (s.graphics.apcEnd decoders cancelled cursor).1.sink = _
      rw [hend]
      unfold KittyGraphics.apcClose
      rw [hsink]
      rfl
    · change (s.graphics.apcEnd decoders cancelled cursor).1.replies = _
      rw [hend]
      exact (KittyGraphics.reads_apcClose decoders s.graphics cancelled).quiet.replies.trans hreplies
    · change s.ledger ++ (s.graphics.concluded decoders cancelled).toList = []
      rw [concluded_idle decoders hsink, hledger]
      rfl
  | takeJobs => exact ⟨hsink, hreplies, hledger, hwritten⟩
  | finishJobs jobs =>
    unfold Session.step
    dsimp only
    have hidle : s.Idle := ⟨hsink, hreplies, hledger, hwritten⟩
    clear hsink hreplies hledger hwritten hop
    induction jobs generalizing s with
    | nil => exact hidle
    | cons job _ ih => exact ih (hidle.finish decoders job)
  | popReply =>
    unfold Session.step KittyGraphics.popReply
    dsimp only
    rw [hreplies]
    refine ⟨hsink, hreplies, hledger, ?_⟩
    dsimp only
    rw [hwritten]
    rfl
  | takeQuietBytes | setDeferredDecode => exact ⟨hsink, hreplies, hledger, hwritten⟩
  | setCell =>
    unfold Session.step KittyGraphics.apply KittyGraphics.setCell
    dsimp only
    split <;> exact ⟨hsink, hreplies, hledger, hwritten⟩
  | scroll scroll =>
    have hquiet := KittyGraphics.quiet_modifyScreen s.graphics s.graphics.active
      (·.scroll scroll s.graphics.cell)
    exact ⟨(sink_modifyScreen _ _ _).trans hsink, hquiet.replies.trans hreplies, hledger, hwritten⟩
  | clearScreen history =>
    have hquiet := KittyGraphics.quiet_modifyScreen s.graphics s.graphics.active (·.clear history)
    exact ⟨(sink_modifyScreen _ _ _).trans hsink, hquiet.replies.trans hreplies, hledger, hwritten⟩
  | clearHistory =>
    have hquiet := KittyGraphics.quiet_modifyScreen s.graphics s.graphics.active (·.clearHistory)
    exact ⟨(sink_modifyScreen _ _ _).trans hsink, hquiet.replies.trans hreplies, hledger, hwritten⟩
  | setAlternate =>
    unfold Session.step KittyGraphics.apply KittyGraphics.setAlternate
    dsimp only
    split <;> exact ⟨hsink, hreplies, hledger, hwritten⟩
  | reset => exact ⟨rfl, rfl, rfl, rfl⟩
  | applyAnchors => exact ⟨hsink, hreplies, hledger, hwritten⟩

theorem idle_run (h : s.Idle) (decoders : Decoders) {ops : List Op} (hops : Op.apcStart ∉ ops) :
    (s.run decoders ops).Idle := by
  unfold Session.run
  induction ops generalizing s with
  | nil => exact h
  | cons _ _ ih =>
    refine ih (h.step decoders fun heq => hops (heq ▸ mem_cons_self ..)) fun hmem => ?_
    exact hops (mem_cons_of_mem _ hmem)

/-- The replies are those that the commands finished since the last reset call for, in their
order; and after a reset nothing is answered that was asked before it. -/
theorem replies_follow (decoders : Decoders) (ops later : List Op)
    (hops : ({} : Session F).permitsAll decoders ops = true) :
    ((({} : Session F).run decoders ops).written.map Reply.ready ++
        (({} : Session F).run decoders ops).graphics.replies =
      (({} : Session F).run decoders ops).ledger.flatMap Entry.replies) ∧ (Op.apcStart ∉ later →
      (((({} : Session F).run decoders ops).step decoders .reset).run decoders later).ledger = [] ∧
      (((({} : Session F).run decoders ops).step decoders .reset).run decoders later).written = []) := by
  refine ⟨(balanced_fresh.run decoders hops).replies, fun hlater => ?_⟩
  have hreset : ((({} : Session F).run decoders ops).step decoders .reset).Idle :=
    ⟨rfl, rfl, rfl, rfl⟩
  have hidle := idle_run hreset decoders hlater
  exact ⟨hidle.ledger, hidle.written⟩

/-- A query, and the time for its reply. -/
def queried : List Op := whole "Ga=q,i=7,f=24,s=1,v=1;AAAA" ++ [.popReply]

theorem replies_follow_queried :
    (({} : Session Rat).run Decoders.uncompressed queried).written = ["\x1b_Gi=7;OK\x1b\\"] ∧
    ((({} : Session Rat).run Decoders.uncompressed queried).written.map Reply.ready ++
        (({} : Session Rat).run Decoders.uncompressed queried).graphics.replies =
      (({} : Session Rat).run Decoders.uncompressed queried).ledger.flatMap Entry.replies) :=
  ⟨by decide +kernel, (replies_follow Decoders.uncompressed queried [] (by decide +kernel)).1⟩

/-- A query that gives a number and no id is not answered. -/
theorem numbered_query_unanswered : (({} : Session Rat).permitsAll Decoders.uncompressed
      (whole "Ga=q,I=7,f=24,s=1,v=1;AAAA")) = true ∧
    ((Command.parse ("a=q,I=7,f=24,s=1,v=1".toList.map ascii)).bind
      fun command => replyText command (.ok ())) = some "\x1b_GI=7;OK\x1b\\" ∧
    (({} : Session Rat).run Decoders.uncompressed
      (whole "Ga=q,I=7,f=24,s=1,v=1;AAAA")).graphics.replies = [] := by
  decide +kernel

end Session

end Vivido.Graphics
