import Mathlib.Data.Nat.Basic
import Vivido.Playout.Pipeline
import Vivido.Support.Since

/-!
A flush is a barrier. Once it is answered nothing from a record of a lower epoch
may be published, queued or shown, or reach a milestone of the new epoch. The
epoch of a record is checked where it is admitted and not looked at again, so
this holds in runs in which no flush finds older media on the way.
-/

namespace Vivido.Playout

open Scene List

variable {Sample : Type} {P : Protocol} {V : DecoderProtocol Frame} {A : DecoderProtocol Sample}
  {s t : State P V A}

/-- What may come after a flush, given that the first event comes before the second. -/
def Event.Bars : Event → Event → Prop
  | .flushed floor, .marked _ epoch => floor ≤ epoch
  | .answered floor, .published epoch => floor ≤ epoch
  | .answered floor, .queued epoch => floor ≤ epoch
  | _, _ => True

instance : DecidableRel Event.Bars := fun earlier later =>
  match earlier, later with
  | .flushed _, .marked _ _ => inferInstanceAs (Decidable (_ ≤ _))
  | .answered _, .published _ => inferInstanceAs (Decidable (_ ≤ _))
  | .answered _, .queued _ => inferInstanceAs (Decidable (_ ≤ _))
  | .flushed _, .flushed _ | .flushed _, .answered _ | .flushed _, .published _
  | .flushed _, .queued _ | .answered _, .flushed _ | .answered _, .answered _
  | .answered _, .marked _ _ | .published _, _ | .queued _, _ | .marked _ _, _ =>
    inferInstanceAs (Decidable True)

/-- The epoch of the track's current picture. -/
def State.presented (s : State P V A) : Option ℕ := if s.track.frame.isSome then s.shown else none

/-- No answered flush was passed by older media. -/
structure State.Barred (s : State P V A) : Prop where
  ordered : s.log.Pairwise Event.Bars
  presented : ∀ flushed, .answered flushed ∈ s.log → ∀ epoch ∈ s.presented, flushed ≤ epoch
  waiting : ∀ flushed, .answered flushed ∈ s.log →
    ∀ sample ∈ s.output.waiting, flushed ≤ sample.1

/-! ### Media on the way -/

/-- The epochs of what the thread has in its hand after it was admitted. -/
def Hand.epochs : Hand V A → List ℕ
  | .reading => []
  | .admitting _ _ => []
  | .decoding record _ => [record.epoch]
  | .showing _ eos pictures => pictures.map (·.1) ++ eos.toList
  | .pushing _ epoch samples => epoch :: samples.map (·.1)
  | .readying epoch => [epoch]
  | .ending epoch => [epoch]
  | .finishing epoch => [epoch]
  | .signalling epoch => [epoch]
  | .ended => []

def Decoder.held : Decoder V A → List ℕ
  | .video state => V.held state
  | .audio state => A.held state

/-- The epochs of what was admitted and is neither delivered nor dropped. -/
def State.undelivered (s : State P V A) : List ℕ := s.hand.epochs ++ s.decoder.held

/-- A flush that is accepted finds nothing on the way that is older than its epoch. -/
def Clean (s : State P V A) : Act V A → Prop
  | .flush epoch => s.answering.isNone → (s.track.flushPlayback epoch).2.isOk →
      ∀ older ∈ s.undelivered, epoch ≤ older
  | _ => True

instance : DecidableRel (Clean (P := P) (V := V) (A := A)) := fun _ act =>
  match act with
  | .flush _ => inferInstanceAs (Decidable (_ → _ → _))
  | .take _ | .go _ | .answer | .play _ | .drain _ | .clock _ => inferInstanceAs (Decidable True)

variable (P) in
/-- Media of an epoch below the track's is not admitted, and its epoch never falls. -/
structure EpochsInOrder : Prop where
  le_of_admitted : ∀ state media, (P.admitMedia state media).2 = true →
    state.mediaEpoch ≤ media.epoch
  mediaEpoch_le : ∀ state media, state.mediaEpoch ≤ (P.admitMedia state media).1.mediaEpoch

theorem epochsInOrder_plain : EpochsInOrder .plain where
  le_of_admitted _ _ h := of_decide_eq_true h
  mediaEpoch_le _ _ := Nat.le_refl _

/-! ### Track methods -/

/-- The track has the same epoch and picture. -/
structure Keeps (before after : Track P) : Prop where
  epoch : after.state.mediaEpoch = before.state.mediaEpoch
  frame : after.frame = before.frame

section

variable (track : Track P)
include track

theorem Keeps.refl : Keeps track track := ⟨rfl, rfl⟩

theorem keeps_advanceRevision : Keeps track track.advanceRevision.1 := by
  unfold Track.advanceRevision
  split <;> exact ⟨rfl, rfl⟩

theorem keeps_markOutputReady (generation : ℕ) :
    Keeps track (track.markOutputReady generation).1 := by
  unfold Track.markOutputReady
  split
  · exact Keeps.refl track
  · split
    · exact Keeps.refl track
    · obtain ⟨hepoch, hframe⟩ := keeps_advanceRevision (track.reach .outputReady)
      exact ⟨hepoch, hframe⟩

theorem keeps_markBufferedEnded (generation : ℕ) :
    Keeps track (track.markBufferedEnded generation).1 := by
  unfold Track.markBufferedEnded
  split
  · exact Keeps.refl track
  · obtain ⟨hepoch, hframe⟩ :=
      keeps_advanceRevision ((track.reach .eosAccepted).reach .bufferedEnded)
    exact ⟨hepoch, hframe⟩

/-- The end of a stream is accepted in its own epoch only, or changes nothing. -/
theorem markEos_cases (generation epoch last : ℕ) :
    (∃ reason, track.markEos generation epoch last = (track, .error reason)) ∨
      track.state.mediaEpoch = epoch ∧ Keeps track (track.markEos generation epoch last).1 := by
  unfold Track.markEos
  split
  · exact Or.inl ⟨_, rfl⟩
  rename_i hcurrent
  rw [not_or, not_or, not_not, not_not] at hcurrent
  obtain ⟨hepoch, hframe⟩ := keeps_advanceRevision
    (({ track with playback := track.playback.map ({ · with eos := true }) } :
      Track P).reach .eosAccepted)
  exact Or.inr ⟨hcurrent.2.1, hepoch, hframe⟩

theorem mediaEpoch_publishDecodedFrame (generation : ℕ) (frame : Frame) :
    (track.publishDecodedFrame generation frame).1.state.mediaEpoch = track.state.mediaEpoch := by
  unfold Track.publishDecodedFrame
  split
  · rfl
  · exact (keeps_advanceRevision (track.decoded frame)).epoch

end

theorem admitMedia_cases (hP : EpochsInOrder P) (track : Track P) (media : ReceivedMedia)
    (sequence : ℕ) : track.state.mediaEpoch ≤ (track.admitMedia media sequence).1.state.mediaEpoch ∧
      (track.admitMedia media sequence).1.frame = track.frame ∧
      ((track.admitMedia media sequence).2.isOk → track.state.mediaEpoch ≤ media.epoch) := by
  unfold Track.admitMedia
  split
  · exact ⟨Nat.le_refl _, rfl, nofun⟩
  have hle := hP.mediaEpoch_le track.state media
  have hadmitted := hP.le_of_admitted track.state media
  generalize P.admitMedia track.state media = result at hle hadmitted
  obtain ⟨_, admitted⟩ := result
  cases admitted with
  | false => exact ⟨hle, rfl, nofun⟩
  | true => exact ⟨hle, rfl, fun _ => hadmitted rfl⟩

/-- A flush that is accepted raises the epoch and takes the picture. -/
theorem flushPlayback_cases (track : Track P) (epoch : ℕ) :
    track.state.mediaEpoch ≤ (track.flushPlayback epoch).1.state.mediaEpoch ∧
      ((track.flushPlayback epoch).1.frame = track.frame ∨
        (track.flushPlayback epoch).1.frame = none) ∧
      ((track.flushPlayback epoch).2.isOk → track.state.mediaEpoch < epoch ∧
        (track.flushPlayback epoch).1.state.mediaEpoch = epoch) := by
  unfold Track.flushPlayback
  split
  · exact ⟨Nat.le_refl _, Or.inl rfl, nofun⟩
  rename_i haccepted
  rw [not_or, Nat.not_le] at haccepted
  have hkeeps := keeps_advanceRevision ({ track with
    playback := none
    frame := none
    state := { track.state with
      mediaEpoch := epoch
      milestones := track.state.milestones ∩ {.channelAccepted} } } : Track P)
  refine ⟨?_, Or.inr hkeeps.frame, fun _ => ⟨haccepted.2, hkeeps.epoch⟩⟩
  rw [hkeeps.epoch]
  exact Nat.le_of_lt haccepted.2

/-! ### What the thread delivers -/

/-- The epoch is not below that of any flush. -/
def Past (log : List Event) (epoch : ℕ) : Prop :=
  ∀ flushed, .flushed flushed ∈ log → flushed ≤ epoch

/-- The event is not about a flush, and its epoch is as told. -/
def Event.Delivers (holds : ℕ → Prop) : Event → Prop
  | .flushed _ => False
  | .answered _ => False
  | .published epoch => holds epoch
  | .queued epoch => holds epoch
  | .marked _ epoch => holds epoch

/-- The epochs that an output still tells of. -/
def Output.epochs (output : Output Sample) : List ℕ :=
  output.waiting.map (·.1) ++ output.decodeDone.toList ++ output.eosObserved.toList

theorem mem_epochs {output : Output Sample} {epoch : ℕ} : epoch ∈ output.epochs ↔
    epoch ∈ output.waiting.map (·.1) ∨ output.decodeDone = some epoch ∨
      output.eosObserved = some epoch := by
  simp only [Output.epochs, mem_append, Option.mem_toList, or_assoc]

/-- What holds between the acts of a clean run. -/
structure State.Sound (s : State P V A) : Prop where
  epoch : Past s.log s.track.state.mediaEpoch
  answered : ∀ flushed, .answered flushed ∈ s.log → .flushed flushed ∈ s.log
  answering : ∀ flushed, s.answering = some flushed → .flushed flushed ∈ s.log
  settled : ∀ flushed, .flushed flushed ∈ s.log →
    .answered flushed ∈ s.log ∨ s.answering = some flushed
  undelivered : ∀ epoch ∈ s.undelivered, Past s.log epoch
  presented : ∀ epoch ∈ s.presented, Past s.log epoch
  output : ∀ flushed, .answered flushed ∈ s.log → ∀ epoch ∈ s.output.epochs, flushed ≤ epoch
  ordered : s.log.Pairwise Event.Bars

/-- No flush, and whatever moves on is past all of them. -/
structure Moves (s t : State P V A) : Prop where
  answering : t.answering = s.answering
  log : ∃ events, t.log = s.log ++ events ∧ ∀ event ∈ events, event.Delivers (Past s.log)
  epoch : s.track.state.mediaEpoch ≤ t.track.state.mediaEpoch
  undelivered : ∀ epoch ∈ t.undelivered, Past s.log epoch
  presented : ∀ epoch ∈ t.presented, Past s.log epoch
  output : ∀ epoch ∈ t.output.epochs, epoch ∈ s.output.epochs ∨ Past s.log epoch

theorem not_flushed_of_delivers {events : List Event} {holds : ℕ → Prop}
    (h : ∀ event ∈ events, event.Delivers holds) (flushed : ℕ) :
    .flushed flushed ∉ events ∧ .answered flushed ∉ events :=
  ⟨fun hmem => h _ hmem, fun hmem => h _ hmem⟩

theorem bars_of_delivers {holds : ℕ → Prop} {earlier : Event} (later : Event)
    (h : earlier.Delivers holds) : earlier.Bars later := by
  cases earlier with
  | flushed | answered => exact h.elim
  | _ => trivial

namespace State.Sound

theorem past_answered (h : s.Sound) {flushed epoch : ℕ} (hpast : Past s.log epoch)
    (hanswered : .answered flushed ∈ s.log) : flushed ≤ epoch :=
  hpast flushed (h.answered flushed hanswered)

theorem bars (h : s.Sound) {earlier later : Event} (hearlier : earlier ∈ s.log)
    (hlater : later.Delivers (Past s.log)) : earlier.Bars later := by
  cases earlier with
  | flushed flushed =>
    cases later with
    | marked => exact hlater flushed hearlier
    | _ => trivial
  | answered =>
    cases later with
    | published | queued => exact h.past_answered hlater hearlier
    | _ => trivial
  | _ => trivial

theorem moves (h : s.Sound) (hmoves : Moves s t) : t.Sound := by
  obtain ⟨_, hlog, hdelivers⟩ := hmoves.log
  have hflushed : ∀ flushed, .flushed flushed ∈ t.log ↔ .flushed flushed ∈ s.log := by
    intro flushed
    rw [hlog, mem_append, or_iff_left (not_flushed_of_delivers hdelivers flushed).1]
  have hanswered : ∀ flushed, .answered flushed ∈ t.log ↔ .answered flushed ∈ s.log := by
    intro flushed
    rw [hlog, mem_append, or_iff_left (not_flushed_of_delivers hdelivers flushed).2]
  have hpast : ∀ epoch, Past t.log epoch ↔ Past s.log epoch := by
    intro epoch
    simp only [Past, hflushed]
  constructor
  · intro flushed hmem
    exact Nat.le_trans (h.epoch flushed ((hflushed flushed).mp hmem)) hmoves.epoch
  · simpa only [hflushed, hanswered] using h.answered
  · simpa only [hflushed, hmoves.answering] using h.answering
  · simpa only [hflushed, hanswered, hmoves.answering] using h.settled
  · simpa only [hpast] using hmoves.undelivered
  · simpa only [hpast] using hmoves.presented
  · intro flushed hmem epoch hepoch
    rw [hanswered] at hmem
    rcases hmoves.output epoch hepoch with hold | hnew
    · exact h.output flushed hmem epoch hold
    · exact h.past_answered hnew hmem
  · rw [hlog, pairwise_append]
    refine ⟨h.ordered, ?_, fun earlier hearlier later hlater =>
      h.bars hearlier (hdelivers later hlater)⟩
    exact pairwise_of_forall_mem_list fun earlier hearlier later _ =>
      bars_of_delivers later (hdelivers earlier hearlier)

theorem barred (h : s.Sound) : s.Barred where
  ordered := h.ordered
  presented _ hanswered epoch hepoch := h.past_answered (h.presented epoch hepoch) hanswered
  waiting flushed hanswered sample hsample := by
    refine h.output flushed hanswered sample.1 ?_
    exact mem_append_left _ (mem_append_left _ (mem_map_of_mem hsample))

end State.Sound

/-! ### The steps of the thread -/

theorem DecoderProtocol.push_holds {Output : Type} (D : DecoderProtocol Output)
    {holds : ℕ → Prop} {state : D.State} (epoch : ℕ) (data : D.Data) (bound : Option ℤ)
    (hheld : ∀ older ∈ D.held state, holds older) (hepoch : holds epoch) :
    (∀ older ∈ D.held (D.push state epoch data bound).1, holds older) ∧
      ∀ outputs, (D.push state epoch data bound).2 = some outputs →
        ∀ older ∈ outputs.map (·.1), holds older := by
  constructor
  · intro older holder
    rcases D.held_push holder with hbefore | rfl
    · exact hheld older hbefore
    · exact hepoch
  · intro _ houtputs _ holder
    obtain ⟨output, houtput, rfl⟩ := List.mem_map.mp holder
    rcases D.output_push houtputs houtput with hbefore | heq
    · exact hheld output.1 hbefore
    · rw [heq]
      exact hepoch

theorem DecoderProtocol.finish_holds {Output : Type} {D : DecoderProtocol Output}
    {holds : ℕ → Prop} {state : D.State} (hheld : ∀ older ∈ D.held state, holds older) :
    (∀ older ∈ D.held (D.finish state).1, holds older) ∧
      ∀ outputs, (D.finish state).2 = some outputs → ∀ older ∈ outputs.map (·.1), holds older := by
  refine ⟨fun older holder => hheld older (D.held_finish holder), ?_⟩
  intro _ houtputs _ holder
  obtain ⟨output, houtput, rfl⟩ := List.mem_map.mp holder
  exact hheld output.1 (D.output_finish houtputs houtput)

theorem mem_gained {before after : Track P} {epoch : ℕ} {event : Event}
    (h : event ∈ gained before after epoch) : ∃ milestone, event = .marked milestone epoch := by
  obtain ⟨milestone, -, rfl⟩ := List.mem_map.mp h
  exact ⟨milestone, rfl⟩

/-- A step that failed leaves the thread with nothing. -/
theorem past_follow {log : List Event} {hand : Hand V A} (done : Prop) [Decidable done]
    (h : done → ∀ epoch ∈ hand.epochs, Past log epoch) :
    ∀ epoch ∈ (if done then hand else .ended).epochs, Past log epoch := by
  by_cases hdone : done
  · rw [if_pos hdone]
    exact h hdone
  · rw [if_neg hdone]
    intro _ hepoch
    cases hepoch

namespace State.Sound

section

variable (h : s.Sound)
include h

theorem past_hand : ∀ epoch ∈ s.hand.epochs, Past s.log epoch :=
  fun epoch hepoch => h.undelivered epoch (mem_append_left _ hepoch)

theorem past_held : ∀ epoch ∈ s.decoder.held, Past s.log epoch :=
  fun epoch hepoch => h.undelivered epoch (mem_append_right _ hepoch)

/-- The thread goes on to other media. -/
theorem proceeds (decoder : Decoder V A) {hand : Hand V A} {output : Output Sample}
    (hheld : ∀ epoch ∈ decoder.held, Past s.log epoch)
    (hhand : ∀ epoch ∈ hand.epochs, Past s.log epoch)
    (houtput : ∀ epoch ∈ output.epochs, epoch ∈ s.output.epochs ∨ Past s.log epoch) :
    Moves s { s with decoder, hand, output } where
  answering := rfl
  log := ⟨[], (append_nil _).symm, nofun⟩
  epoch := Nat.le_refl _
  undelivered epoch hepoch := by
    rcases List.mem_append.mp hepoch with hepoch | hepoch
    · exact hhand epoch hepoch
    · exact hheld epoch hepoch
  presented := h.presented
  output := houtput

theorem handed {hand : Hand V A}
    (hhand : ∀ epoch ∈ hand.epochs, Past s.log epoch) : Moves s { s with hand } :=
  h.proceeds s.decoder h.past_held hhand fun _ hepoch => Or.inl hepoch

theorem unmoved : Moves s s :=
  h.proceeds s.decoder h.past_held h.past_hand fun _ hepoch => Or.inl hepoch

/-- A track method reaches milestones with media of an epoch. -/
theorem settles {track : Track P} (hkeeps : Keeps s.track track) {epoch : ℕ}
    (hpast : Past s.log epoch) (hand : Hand V A)
    (hhand : ∀ epoch ∈ hand.epochs, Past s.log epoch) :
    Moves s { s.settle epoch track with hand } where
  answering := rfl
  log := by
    refine ⟨gained s.track track epoch, rfl, fun event hevent => ?_⟩
    obtain ⟨_, rfl⟩ := mem_gained hevent
    exact hpast
  epoch := Nat.le_of_eq hkeeps.epoch.symm
  undelivered other hother := by
    rcases List.mem_append.mp hother with hother | hother
    · exact hhand other hother
    · exact h.past_held other hother
  presented other hother := by
    refine h.presented other ?_
    change other ∈ (if track.frame.isSome then s.shown else none) at hother
    rwa [hkeeps.frame] at hother
  output _ hother := Or.inl hother

theorem receive (hP : EpochsInOrder P) (record : Record V A) (priming : Bool) :
    Moves s (s.receive record priming) := by
  have hmedia : ∀ (media : ReceivedMedia) (sequence : ℕ) (hand : Hand V A),
      hand.epochs = [media.epoch] →
        Moves s (({ s with track := (s.track.admitMedia media sequence).1 } : State P V A).follow
          (s.track.admitMedia media sequence).2 hand) := by
    intro media sequence _ hhand
    obtain ⟨hle, hframe, hadmitted⟩ := admitMedia_cases hP s.track media sequence
    refine ⟨rfl, ⟨[], (append_nil _).symm, nofun⟩, hle, ?_, ?_, fun _ hepoch => Or.inl hepoch⟩
    · intro epoch hepoch
      rcases List.mem_append.mp hepoch with hepoch | hepoch
      · refine past_follow _ (fun hok epoch hepoch => ?_) epoch hepoch
        rw [hhand, mem_singleton] at hepoch
        rw [hepoch]
        exact fun flushed hmem => Nat.le_trans (h.epoch flushed hmem) (hadmitted hok)
      · exact h.past_held epoch hepoch
    · intro epoch hepoch
      refine h.presented epoch ?_
      change epoch ∈ (if (s.track.admitMedia media sequence).1.frame.isSome then s.shown
        else none) at hepoch
      rwa [hframe] at hepoch
  cases record with
  | video packet | audio packet => exact hmedia (packet.media s.generation) packet.sequence _ rfl
  | eos epoch last =>
    rcases markEos_cases s.track s.generation epoch last with ⟨_, hrefused⟩ | ⟨heq, hkeeps⟩
    · unfold State.receive
      dsimp only
      rw [hrefused]
      have hnone : gained s.track s.track epoch = [] := by
        simp [gained]
      have hsame : s.settle epoch s.track = s := by
        unfold State.settle
        rw [hnone, append_nil]
      dsimp only
      rw [hsame]
      exact h.handed nofun
    · have hpast : Past s.log epoch := heq ▸ h.epoch
      refine h.settles hkeeps hpast _ (past_follow _ fun _ other hother => ?_)
      rw [List.mem_singleton.mp hother]
      exact hpast

theorem decode {record : Record V A} (hrecord : Past s.log record.epoch)
    (priming : Bool) (turn : Turn) : Moves s (s.decode record priming turn) := by
  have hheld := h.past_held
  have hold : ∀ epoch ∈ s.output.epochs, epoch ∈ s.output.epochs ∨ Past s.log epoch :=
    fun _ hepoch => Or.inl hepoch
  unfold State.decode
  split
  · rename_i packet state hdecoder
    rw [hdecoder] at hheld
    obtain ⟨hkept, hgiven⟩ :=
      V.push_holds packet.epoch packet.data turn.discardBefore hheld hrecord
    generalize V.push state packet.epoch packet.data turn.discardBefore = result at hkept hgiven
    obtain ⟨next, outputs⟩ := result
    cases outputs with
    | none => exact h.proceeds (.video next) hkept nofun hold
    | some pictures =>
      refine h.proceeds (.video next) hkept (fun epoch hepoch => ?_) hold
      rw [Hand.epochs, Option.toList_none, append_nil] at hepoch
      exact hgiven pictures rfl epoch hepoch
  · rename_i packet state hdecoder
    rw [hdecoder] at hheld
    obtain ⟨hkept, hgiven⟩ := A.push_holds packet.epoch packet.data none hheld hrecord
    generalize A.push state packet.epoch packet.data none = result at hkept hgiven
    obtain ⟨next, outputs⟩ := result
    cases outputs with
    | none => exact h.proceeds (.audio next) hkept nofun hold
    | some samples =>
      refine h.proceeds (.audio next) hkept (fun epoch hepoch => ?_)
        fun epoch hepoch => ?_
      · rcases List.mem_cons.mp hepoch with rfl | hepoch
        · exact hrecord
        · rw [map_drop] at hepoch
          exact hgiven samples rfl epoch (mem_of_mem_drop hepoch)
      · split at hepoch
        · cases hepoch
        · exact Or.inl hepoch
  · rename_i epoch last state hdecoder
    rw [hdecoder] at hheld
    obtain ⟨hkept, hgiven⟩ := DecoderProtocol.finish_holds hheld
    generalize V.finish state = result at hkept hgiven
    obtain ⟨next, outputs⟩ := result
    cases outputs with
    | none => exact h.proceeds (.video next) hkept nofun hold
    | some pictures =>
      refine h.proceeds (.video next) hkept (fun other hother => ?_) hold
      rcases List.mem_append.mp hother with hother | hother
      · exact hgiven pictures rfl other hother
      · rw [Option.toList_some, mem_singleton] at hother
        rw [hother]
        exact hrecord
  · rename_i epoch last state hdecoder
    rw [hdecoder] at hheld
    obtain ⟨hkept, hgiven⟩ := DecoderProtocol.finish_holds hheld
    generalize A.finish state = result at hkept hgiven
    obtain ⟨next, outputs⟩ := result
    cases outputs with
    | none => exact h.proceeds (.audio next) hkept nofun hold
    | some samples =>
      refine h.proceeds (.audio next) hkept (fun other hother => ?_) hold
      rcases List.mem_cons.mp hother with rfl | hother
      · exact hrecord
      · exact hgiven samples rfl other hother
  · exact h.handed nofun

theorem publish {epoch : ℕ} (hepoch : Past s.log epoch) (picture : Frame)
    {next : Hand V A} (hnext : ∀ epoch ∈ next.epochs, Past s.log epoch) :
    Moves s (s.publish epoch picture next) := by
  unfold State.publish
  split
  · exact h.handed nofun
  refine ⟨rfl, ?_, ?_, ?_, ?_, fun _ hother => Or.inl hother⟩
  · refine ⟨gained s.track (s.track.publishDecodedFrame s.generation picture).1 epoch ++
      [Event.published epoch], append_assoc s.log _ [Event.published epoch],
      fun event hevent => ?_⟩
    rcases List.mem_append.mp hevent with hevent | hevent
    · obtain ⟨_, rfl⟩ := mem_gained hevent
      exact hepoch
    · rw [List.mem_singleton.mp hevent]
      exact hepoch
  · exact Nat.le_of_eq (mediaEpoch_publishDecodedFrame s.track s.generation picture).symm
  · intro other hother
    rcases List.mem_append.mp hother with hother | hother
    · exact past_follow _ (fun _ => hnext) other hother
    · exact h.past_held other hother
  · intro _ hother
    obtain ⟨-, heq⟩ := Option.ite_none_right_eq_some.mp hother
    cases heq
    exact hepoch

theorem showNext {priming : Bool} {eos : Option ℕ} {pictures : List (ℕ × Frame)}
    (hhand : s.hand = .showing priming eos pictures) (turn : Turn) :
    Moves s (s.showNext priming eos pictures turn) := by
  have hpast := h.past_hand
  rw [hhand] at hpast
  cases pictures with
  | nil =>
    refine h.handed fun epoch hepoch => hpast epoch ?_
    cases eos with
    | none => cases hepoch
    | some => exact hepoch
  | cons entry rest =>
    obtain ⟨epoch, picture⟩ := entry
    have hrest : ∀ other ∈ (Hand.showing priming eos rest : Hand V A).epochs, Past s.log other :=
      fun other hother => hpast other (mem_cons_of_mem _ hother)
    unfold State.showNext
    dsimp only
    split
    · exact h.handed hrest
    · split
      · exact h.publish (hpast epoch mem_cons_self) picture hrest
      · exact h.unmoved

theorem pushNext {eos : Bool} {epoch : ℕ} {samples : List (ℕ × Sample)}
    (hhand : s.hand = .pushing eos epoch samples) (turn : Turn) :
    Moves s (s.pushNext eos epoch samples turn) := by
  have hpast := h.past_hand
  rw [hhand] at hpast
  have hepoch := hpast epoch mem_cons_self
  have hsamples : ∀ sample ∈ samples, Past s.log sample.1 := fun sample hsample =>
    hpast sample.1 (mem_cons_of_mem _ (mem_map_of_mem hsample))
  unfold State.pushNext
  split
  · refine h.handed fun other hother => ?_
    cases eos with
    | true | false => exact List.mem_singleton.mp hother ▸ hepoch
  refine ⟨rfl, ⟨_, rfl, fun event hevent => ?_⟩, Nat.le_refl _, fun other hother => ?_,
    h.presented, fun other hother => ?_⟩
  · obtain ⟨sample, hsample, rfl⟩ := List.mem_map.mp hevent
    exact hsamples sample (mem_of_mem_take hsample)
  · rcases List.mem_append.mp hother with hother | hother
    · rcases List.mem_cons.mp hother with rfl | hother
      · exact hepoch
      · obtain ⟨sample, hsample, rfl⟩ := List.mem_map.mp hother
        exact hsamples sample (mem_of_mem_drop hsample)
    · exact h.past_held other hother
  · simp only [Output.epochs, map_append, append_assoc] at hother ⊢
    rcases List.mem_append.mp hother with hother | hother
    · exact Or.inl (mem_append_left _ hother)
    · rcases List.mem_append.mp hother with hother | hother
      · obtain ⟨sample, hsample, rfl⟩ := List.mem_map.mp hother
        exact Or.inr (hsamples sample (mem_of_mem_take hsample))
      · exact Or.inl (mem_append_right _ hother)

theorem go (hP : EpochsInOrder P) (turn : Turn) : Moves s (s.go turn) := by
  have hpast := h.past_hand
  have hsame : Moves s s := h.unmoved
  unfold State.go
  split
  · exact h.handed nofun
  split
  · exact hsame
  · exact h.receive hP _ _
  · rename_i record priming hhand
    rw [hhand] at hpast
    exact h.decode (hpast _ (mem_singleton_self _)) priming turn
  · rename_i hhand
    exact h.showNext hhand turn
  · rename_i hhand
    exact h.pushNext hhand turn
  · rename_i epoch hhand
    rw [hhand] at hpast
    exact h.settles (keeps_markOutputReady s.track s.generation)
      (hpast _ (mem_singleton_self _)) _ (past_follow _ fun _ => nofun)
  · rename_i epoch hhand
    rw [hhand] at hpast
    exact h.settles (keeps_markBufferedEnded s.track s.generation)
      (hpast _ (mem_singleton_self _)) .ended nofun
  · rename_i epoch hhand
    rw [hhand] at hpast
    refine h.proceeds s.decoder h.past_held hpast fun other hother => ?_
    rcases mem_epochs.mp hother with hother | hother | hother
    · exact Or.inl (mem_epochs.mpr (Or.inl hother))
    · cases hother
      exact Or.inr (hpast epoch (mem_singleton_self _))
    · exact Or.inl (mem_epochs.mpr (Or.inr (Or.inr hother)))
  · rename_i epoch hhand
    rw [hhand] at hpast
    refine h.proceeds s.decoder h.past_held nofun fun other hother => ?_
    rcases mem_epochs.mp hother with hother | hother | hother
    · exact Or.inl (mem_epochs.mpr (Or.inl hother))
    · exact Or.inl (mem_epochs.mpr (Or.inr (Or.inl hother)))
    · cases hother
      exact Or.inr (hpast epoch (mem_singleton_self _))
  · exact hsame

end

end State.Sound

/-! ### The control thread -/

theorem mem_drained {output : Output Sample} {epoch : ℕ} (h : output.drained = some epoch) :
    epoch ∈ output.epochs := by
  unfold Output.drained at h
  split at h
  · exact mem_epochs.mpr (Or.inr (Or.inr h))
  · cases h

namespace State.Sound

variable {epoch : ℕ}

/-- Where no flush is being answered, what the output tells of is past all of them. -/
theorem past_output (h : s.Sound) (hanswering : s.answering = none)
    (hepoch : epoch ∈ s.output.epochs) : Past s.log epoch :=
  fun floor hfloor => by
    rcases h.settled floor hfloor with hanswered | hpending
    · exact h.output floor hanswered epoch hepoch
    · rw [hanswering] at hpending
      cases hpending

theorem flush (h : s.Sound) (hanswering : s.answering = none) (hclean : Clean s (.flush epoch)) :
    (s.flush epoch).Sound := by
  obtain ⟨hle, hframe, haccepted⟩ := flushPlayback_cases s.track epoch
  have hclean' := hclean (by rw [hanswering]; rfl)
  unfold State.flush
  generalize s.track.flushPlayback epoch = result at hle hframe haccepted hclean'
  obtain ⟨track, result⟩ := result
  cases result with
  | error =>
    refine h.moves ⟨rfl, ⟨[], (append_nil _).symm, nofun⟩, hle, h.undelivered, ?_,
      fun _ hother => Or.inl hother⟩
    intro other hother
    refine h.presented other ?_
    change other ∈ (if track.frame.isSome then s.shown else none) at hother
    rcases hframe with hframe | hframe
    · dsimp only at hframe
      rwa [hframe] at hother
    · dsimp only at hframe
      rw [hframe] at hother
      cases hother
  | ok =>
    obtain ⟨hlt, hepoch⟩ := haccepted rfl
    dsimp only at hepoch hle
    have hpast : ∀ other, Past s.log other → epoch ≤ other →
        Past (s.log ++ [.flushed epoch]) other := by
      intro other hother hbound floor hfloor
      rcases List.mem_append.mp hfloor with hfloor | hfloor
      · exact hother floor hfloor
      · cases List.mem_singleton.mp hfloor
        exact hbound
    constructor
    · change Past (s.log ++ [.flushed epoch]) track.state.mediaEpoch
      rw [hepoch]
      exact hpast epoch (fun floor hfloor => Nat.le_trans (h.epoch floor hfloor)
        (Nat.le_of_lt hlt)) (Nat.le_refl _)
    · intro floor hfloor
      rcases List.mem_append.mp hfloor with hfloor | hfloor
      · exact mem_append_left _ (h.answered floor hfloor)
      · cases List.mem_singleton.mp hfloor
    · intro floor hfloor
      cases hfloor
      exact mem_append_right _ (mem_singleton_self _)
    · intro floor hfloor
      rcases List.mem_append.mp hfloor with hfloor | hfloor
      · rcases h.settled floor hfloor with hanswered | hpending
        · exact Or.inl (mem_append_left _ hanswered)
        · rw [hanswering] at hpending
          cases hpending
      · cases List.mem_singleton.mp hfloor
        exact Or.inr rfl
    · exact fun other hother => hpast other (h.undelivered other hother) (hclean' rfl other hother)
    · intro _ hother
      obtain ⟨-, heq⟩ := Option.ite_none_right_eq_some.mp hother
      cases heq
    · intro floor hfloor
      rcases List.mem_append.mp hfloor with hfloor | hfloor
      · exact h.output floor hfloor
      · cases List.mem_singleton.mp hfloor
    · rw [pairwise_append]
      refine ⟨h.ordered, pairwise_singleton _ _, fun earlier _ later hlater => ?_⟩
      cases List.mem_singleton.mp hlater
      cases earlier <;> trivial

theorem answer (h : s.Sound) (hanswering : s.answering = some epoch) : (s.answer epoch).Sound := by
  have hflushed : ∀ floor, Event.flushed floor ∈ s.log ++ [Event.answered epoch] ↔
      Event.flushed floor ∈ s.log := by
    simp
  have hpast : ∀ other, Past (s.log ++ [.answered epoch]) other ↔ Past s.log other := by
    intro other
    simp only [Past, hflushed]
  constructor
  · exact (hpast _).mpr h.epoch
  · intro floor hfloor
    rw [State.answer, hflushed]
    rcases List.mem_append.mp hfloor with hfloor | hfloor
    · exact h.answered floor hfloor
    · cases List.mem_singleton.mp hfloor
      exact h.answering epoch hanswering
  · exact nofun
  · intro floor hfloor
    rcases h.settled floor ((hflushed floor).mp hfloor) with hanswered | hpending
    · exact Or.inl (mem_append_left _ hanswered)
    · rw [hanswering] at hpending
      cases hpending
      exact Or.inl (mem_append_right _ (mem_singleton_self _))
  · exact fun other hother => (hpast other).mpr (h.undelivered other hother)
  · exact fun other hother => (hpast other).mpr (h.presented other hother)
  · exact nofun
  · change (s.log ++ [Event.answered epoch]).Pairwise Event.Bars
    rw [pairwise_append]
    refine ⟨h.ordered, pairwise_singleton _ _, fun earlier _ later hlater => ?_⟩
    cases List.mem_singleton.mp hlater
    cases earlier <;> trivial

theorem step (h : s.Sound) (hP : EpochsInOrder P) {act : Act V A} (hclean : Clean s act) :
    (s.step act).Sound := by
  have hsame : Moves s s := h.unmoved
  cases act with
  | take =>
    unfold State.step
    dsimp only
    split
    · exact h.moves (h.handed nofun)
    · exact h
  | go turn => exact h.moves (h.go hP turn)
  | flush epoch =>
    unfold State.step
    dsimp only
    split
    · exact h
    · rename_i hanswering
      rw [Option.not_isSome_iff_eq_none] at hanswering
      exact h.flush hanswering hclean
  | answer =>
    unfold State.step
    dsimp only
    split
    · exact h.answer ‹_›
    · exact h
  | play =>
    refine h.moves ⟨rfl, hsame.log, hsame.epoch, h.undelivered, h.presented,
      fun epoch hepoch => Or.inl ?_⟩
    rcases mem_epochs.mp hepoch with hepoch | hepoch
    · obtain ⟨_, hsample, rfl⟩ := List.mem_map.mp hepoch
      exact mem_epochs.mpr (Or.inl (mem_map_of_mem (mem_of_mem_drop hsample)))
    · exact mem_epochs.mpr (Or.inr hepoch)
  | drain generation =>
    unfold State.step
    dsimp only
    split
    · exact h
    rename_i hanswering
    rw [Option.not_isSome_iff_eq_none] at hanswering
    split
    · rename_i epoch hdrained
      exact h.moves (h.settles (keeps_markBufferedEnded s.track generation)
        (h.past_output hanswering (mem_drained hdrained)) s.hand h.past_hand)
    · exact h
  | clock =>
    exact h.moves ⟨rfl, hsame.log, hsame.epoch, h.undelivered, h.presented, hsame.output⟩

end State.Sound

/-! ### Runs -/

theorem sound_start (track : Track P) (generation : ℕ) {decoder : Decoder V A} :
    (start track generation decoder).Sound := by
  constructor
  · exact nofun
  · exact nofun
  · exact nofun
  · exact nofun
  · exact fun _ _ => nofun
  · exact fun _ _ => nofun
  · exact nofun
  · exact List.Pairwise.nil

/-- In a run in which no flush that is accepted finds older media on the way, each answered flush
is a barrier. -/
theorem run_barred (hP : EpochsInOrder P) (track : Track P) (generation : ℕ)
    (decoder : Decoder V A) (acts : List (Act V A))
    (hclean : Throughout (run track generation decoder) Clean acts) :
    (run track generation decoder acts).Barred := by
  refine State.Sound.barred (hclean.induct (fun acts => (run track generation decoder acts).Sound)
    (sound_start track generation) fun history act hsound hgood => ?_)
  rw [run_concat]
  exact hsound.step hP hgood

/-- A timed track of video on its first channel. -/
def timedTrack : Track .plain :=
  .fresh { contextId := 1, surfaceId := 1, trackId := 1, slot := 1, mode := .timed, kind := .video }

def pixel (frameId : ℕ) : Frame where
  frameId := frameId
  ptsUs := frameId
  width := 1
  height := 1
  sarNum := 1
  sarDen := 1
  rgba := [0, 0, 0, 0]

def onePicture (epoch packetId : ℕ) : Record (.plain Frame) (.plain ℤ) :=
  .video
    { epoch
      packetId
      randomAccess := true
      bodyLength := 1
      sequence := packetId
      data := [pixel packetId] }

/-- A record is read, admitted, decoded, shown and done with. -/
def picturePublished (epoch packetId : ℕ) : List (Act (.plain Frame) (.plain ℤ)) :=
  [.take (onePicture epoch packetId), .go {}, .go {}, .go {}, .go {}]

/-- The picture of a record waits for its time. -/
def pictureWaiting (epoch packetId : ℕ) : List (Act (.plain Frame) (.plain ℤ)) :=
  [.take (onePicture epoch packetId), .go {}, .go {}, .go {}]

def pictureDecoder : Decoder (.plain Frame) (.plain ℤ) := .video ()

def flushed (epoch : ℕ) : List (Act (.plain Frame) (.plain ℤ)) := [.flush epoch, .answer]

/-- A flush comes between two records. -/
def flushedBetween : List (Act (.plain Frame) (.plain ℤ)) :=
  picturePublished 0 1 ++ flushed 1 ++ picturePublished 1 2

theorem flushedBetween_barred : (run timedTrack 1 pictureDecoder flushedBetween).Barred ∧
      (run timedTrack 1 pictureDecoder flushedBetween).log =
        [.marked .outputReady 0, .published 0, .flushed 1, .answered 1,
          .marked .outputReady 1, .published 1] :=
  ⟨run_barred epochsInOrder_plain timedTrack 1 pictureDecoder flushedBetween (by decide +kernel),
    by decide +kernel⟩

/-- A flush comes while the second picture waits for PLAY. -/
def flushedWaiting : List (Act (.plain Frame) (.plain ℤ)) :=
  picturePublished 0 1 ++ pictureWaiting 0 2 ++ flushed 1 ++ [Act.go {}]

/-- The picture is then published as the new epoch's first. -/
theorem flush_passed : ¬ ∀ acts : List (Act (.plain Frame) (.plain ℤ)),
    (run timedTrack 1 pictureDecoder acts).Barred := by
  intro hall
  have hlog : ¬ (run timedTrack 1 pictureDecoder flushedWaiting).log.Pairwise Event.Bars := by
    decide +kernel
  exact hlog (hall flushedWaiting).ordered

end Vivido.Playout
