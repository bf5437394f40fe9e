import Vivido.Channel.Loop
import Vivido.Scene.Caching

/-!
Whether a channel gives back what its records are charged. The sender charges a
media record as it sends it, and the loop returns the capacity once the record
is handled; the records that it drops on the way are charged and not returned.
-/

namespace Vivido.Channel

open Scene List

variable {P : Protocol}

/-- Nothing in the tree drops the record. -/
def Handling.IsPlain : Handling P → Prop
  | .require _ rest | .attempt _ rest => rest.IsPlain
  | .applyDelta _ _ | .decode _ _ => False
  | _ => True

variable {L : LoopContext}

theorem isPlain_publishDecoded (record : Record) (frames : List DecodedFrame) {rest : Handling P}
    (h : rest.IsPlain) : (L.publishDecoded record frames rest).IsPlain := by
  induction frames with
  | nil => exact h
  | cons _ _ ih =>
    unfold LoopContext.publishDecoded
    split
    · trivial
    · exact ih

theorem isPlain_channelEos (record : Record) (decoded : Except String ChannelEos) :
    (L.channelEos (P := P) record decoded).IsPlain := by
  unfold LoopContext.channelEos
  split
  · trivial
  dsimp only
  split
  · split
    · trivial
    · apply isPlain_publishDecoded
      split <;> trivial
  · split <;> trivial

theorem isPlain_handle {record : Record} (h : record.content.isMedia = false) :
    (L.handle (P := P) record).IsPlain := by
  unfold LoopContext.handle
  split
  · trivial
  rw [h]
  dsimp only
  cases hcontent : record.content with
  | eos decoded => exact isPlain_channelEos record decoded
  | other =>
    dsimp only
    split
    · trivial
    · trivial
  | _ =>
    rw [hcontent] at h
    cases h

namespace ChannelLoop

variable {s : ChannelLoop P} {scene : State P} {history : List (Act P)}

def IsEnded (s : ChannelLoop P) : Prop := ∃ reason, s.phase = .ended reason

/-- What the record at hand is charged. -/
def charged (s : ChannelLoop P) : List ℕ :=
  match s.phase with
  | .handling record _ => if record.content.isMedia then [record.bodyLength] else []
  | _ => []

/-- The credit that the sender has left, in bytes and in records, of a window that it was granted
with the channel. -/
def outstanding (window : ℕ × ℕ) (s : ChannelLoop P) : ℤ × ℤ :=
  (window.1 + s.returned.sum - s.taken.sum, window.2 + s.returned.length - s.taken.length)

/-- Each record but the one at hand has been given back once, and in order; so what is outstanding
and what is charged make up the window. -/
structure Conserved (s : ChannelLoop P) : Prop where
  once : s.taken = s.returned ++ s.charged
  window : ∀ window : ℕ × ℕ, s.outstanding window + ((s.charged.sum : ℤ), (s.charged.length : ℤ)) =
    ((window.1 : ℤ), (window.2 : ℤ))

theorem conserved_iff : s.Conserved ↔ s.taken = s.returned ++ s.charged := by
  refine ⟨Conserved.once, fun h => ⟨h, fun window => ?_⟩⟩
  unfold outstanding
  rw [h, sum_append, length_append]
  ext
  · dsimp only [Prod.fst_add]
    omega
  · dsimp only [Prod.snd_add]
    omega

/-- The channel has ended, or gives back what is charged. -/
def Conserves (s : ChannelLoop P) : Prop := ¬ s.IsEnded → s.Conserved

/-- No delta comes to a track without a picture, and no packet fails in the decoder. -/
def Recoverable (L : LoopContext) (s : ChannelLoop P) : Act P → Prop
  | .go _ =>
    match s.phase with
    | .handling _ (.applyDelta _ _) => (s.latestFrame L.identity).isSome
    | .handling _ (.decode decoded _) => decoded.isOk
    | _ => True
  | _ => True

/-- A grant raises the maxima of the track by the bytes of the record and by one record. -/
def Raises (L : LoopContext) (s : ChannelLoop P) (act : Act P) : Prop :=
  (s.step L act).grants = s.grants ∨ ∃ record track, s.phase = .handling record .handled ∧
    s.scene.tracks.lookup L.identity = some track ∧
      (s.step L act).returned = s.returned ++ [record.bodyLength] ∧
        (s.step L act).grants = s.grants ++
          [(P.maximumBodyBytes track.state.ingress + record.bodyLength,
            P.maximumMediaRecords track.state.ingress + 1)]

/-- A record that can be dropped is a media record. -/
def Credits (s : ChannelLoop P) : Prop := ∀ record rest, s.phase = .handling record rest →
  record.content.isMedia = true ∨ rest.IsPlain

/-! ### One step -/

theorem conserves_of_ended (h : s.IsEnded) : s.Conserves := fun hstands => (hstands h).elim

variable {record : Record} {rest : Handling P}

section

variable (h : s.Conserves) (hphase : s.phase = .handling record rest)
include h hphase

theorem Conserves.conserved : s.taken = s.returned ++ s.charged := by
  refine conserved_iff.mp (h ?_)
  rintro ⟨_, hended⟩
  rw [hphase] at hended
  cases hended

/-- The loop goes on with the same record. -/
theorem Conserves.going {rest' : Handling P} (scene : State P) :
    ({ s with scene, phase := .handling record rest' } : ChannelLoop P).Conserves := by
  have hcharged : ({ s with scene, phase := .handling record rest' } : ChannelLoop P).charged =
      s.charged := by
    unfold charged
    rw [hphase]
  intro _
  refine conserved_iff.mpr ?_
  rw [hcharged]
  exact h.conserved hphase

theorem Conserves.settle
    (written : Except String Unit) : (s.settle L record written).Conserves := by
  have hbefore := h.conserved hphase
  unfold charged at hbefore
  rw [hphase] at hbefore
  unfold ChannelLoop.settle
  split
  · rename_i hother
    rw [Bool.not_eq_true'] at hother
    dsimp only at hbefore
    rw [hother] at hbefore
    exact fun _ => conserved_iff.mpr hbefore
  · rename_i hmedia
    rw [Bool.not_eq_true', Bool.not_eq_false] at hmedia
    dsimp only at hbefore
    rw [hmedia] at hbefore
    split
    · exact conserves_of_ended ⟨_, rfl⟩
    · dsimp only
      split
      · exact conserves_of_ended ⟨_, rfl⟩
      · refine fun _ => conserved_iff.mpr ?_
        exact hbefore.trans (append_nil _).symm

theorem Conserves.not_dropped (hmedia : record.content.isMedia = true) :
    ¬ ({ s with phase := .reading } : ChannelLoop P).Conserves := by
  intro hafter
  have hbefore := h.conserved hphase
  unfold charged at hbefore
  rw [hphase] at hbefore
  dsimp only at hbefore
  rw [hmedia] at hbefore
  have honce := conserved_iff.mp (hafter fun ⟨_, hended⟩ => by cases hended)
  dsimp only [charged] at honce
  rw [hbefore, if_pos rfl] at honce
  have hlength := congrArg List.length honce
  rw [length_append, length_append] at hlength
  exact Nat.succ_ne_self _ (Nat.add_left_cancel hlength)

end

theorem Conserves.go_iff (h : s.Conserves) (hcredits : s.Credits)
    (hphase : s.phase = .handling record rest) (written : Except String Unit) :
    (s.go L record written rest).Conserves ↔ s.Recoverable L (.go written) := by
  have hrecoverable : s.Recoverable L (.go written) = match s.phase with
      | .handling _ (.applyDelta _ _) => (s.latestFrame L.identity).isSome = true
      | .handling _ (.decode decoded _) => decoded.isOk = true
      | _ => True := rfl
  rw [hrecoverable, hphase]
  cases rest with
  | handled => exact iff_of_true (h.settle hphase written) trivial
  | closed | failed => exact iff_of_true (conserves_of_ended ⟨_, rfl⟩) trivial
  | require =>
    refine iff_of_true ?_ trivial
    dsimp only [ChannelLoop.go]
    split
    · exact h.going hphase _
    · exact conserves_of_ended ⟨_, rfl⟩
  | attempt => exact iff_of_true (h.going hphase _) trivial
  | applyDelta delta rest =>
    have hmedia := (hcredits record _ hphase).resolve_right id
    dsimp only [ChannelLoop.go]
    split
    · rename_i hnone
      rw [hnone]
      exact iff_of_false (h.not_dropped hphase hmedia) nofun
    · rename_i base hbase
      rw [hbase]
      refine iff_of_true ?_ rfl
      split
      · exact conserves_of_ended ⟨_, rfl⟩
      · exact h.going hphase s.scene
  | decode =>
    have hmedia := (hcredits record _ hphase).resolve_right id
    dsimp only [ChannelLoop.go]
    split
    · exact iff_of_false (h.not_dropped hphase hmedia) nofun
    · exact iff_of_true (h.going hphase s.scene) rfl

theorem Conserves.take (h : s.Conserves) (hphase : s.phase = .reading) (record : Record) :
    (s.take L record).Conserves := by
  have hbefore : s.taken = s.returned ++ s.charged := by
    refine conserved_iff.mp (h ?_)
    rintro ⟨_, hended⟩
    rw [hphase] at hended
    cases hended
  unfold charged at hbefore
  rw [hphase] at hbefore
  dsimp only at hbefore
  rw [append_nil] at hbefore
  refine fun _ => conserved_iff.mpr ?_
  dsimp only [ChannelLoop.take, charged]
  split
  · rw [hbefore]
  · rw [hbefore, append_nil]

theorem Conserves.step_iff (h : s.Conserves) (hcredits : s.Credits) (act : Act P) :
    (s.step L act).Conserves ↔ s.Recoverable L act := by
  cases act with
  | request =>
    exact iff_of_true (fun hstands => ⟨(h hstands).once, (h hstands).window⟩) trivial
  | take record =>
    refine iff_of_true ?_ trivial
    dsimp only [step]
    split
    · rename_i hphase
      exact h.take hphase record
    · exact h
  | lose =>
    refine iff_of_true ?_ trivial
    dsimp only [step]
    split
    · exact conserves_of_ended ⟨_, rfl⟩
    · exact h
  | go written =>
    cases hphase : s.phase with
    | handling =>
      dsimp only [step]
      rw [hphase]
      exact h.go_iff hcredits hphase written
    | reading | ended =>
      dsimp only [step, Recoverable]
      rw [hphase]
      exact iff_of_true h trivial

theorem Credits.go (h : s.Credits) (hphase : s.phase = .handling record rest)
    (written : Except String Unit) : (s.go L record written rest).Credits := by
  have hnone : ∀ {s' : ChannelLoop P}, (∀ record rest, s'.phase ≠ .handling record rest) →
      s'.Credits := fun hne record rest hphase => (hne record rest hphase).elim
  have hrest := h record rest hphase
  cases rest with
  | handled =>
    refine hnone ?_
    dsimp only [ChannelLoop.go]
    unfold settle
    intro record' rest' hhandling
    split at hhandling
    · cases hhandling
    · split at hhandling
      · cases hhandling
      · dsimp only at hhandling
        split at hhandling <;> cases hhandling
  | closed | failed => exact hnone nofun
  | require =>
    dsimp only [ChannelLoop.go]
    split
    · rintro record' rest' ⟨⟩
      exact hrest
    · exact hnone nofun
  | attempt =>
    rintro record' rest' ⟨⟩
    exact hrest
  | applyDelta =>
    have hmedia := hrest.resolve_right id
    dsimp only [ChannelLoop.go]
    split
    · exact hnone nofun
    · split
      · exact hnone nofun
      · rintro record' rest' ⟨⟩
        exact Or.inl hmedia
  | decode =>
    have hmedia := hrest.resolve_right id
    dsimp only [ChannelLoop.go]
    split
    · exact hnone nofun
    · rintro _ _ ⟨⟩
      exact Or.inl hmedia

theorem Credits.step (h : s.Credits) (act : Act P) : (s.step L act).Credits := by
  cases act with
  | request => exact h
  | take record =>
    dsimp only [ChannelLoop.step]
    split
    · rintro record' rest' ⟨⟩
      cases hmedia : record.content.isMedia with
      | true => exact Or.inl rfl
      | false => exact Or.inr (isPlain_handle hmedia)
    · exact h
  | lose =>
    dsimp only [ChannelLoop.step]
    split
    · rintro _ _ ⟨⟩
    · exact h
  | go written =>
    dsimp only [ChannelLoop.step]
    split
    · rename_i record rest hphase
      exact h.go hphase written
    · exact h

/-! ### Runs -/

theorem credits_run (scene : State P) (history : List (Act P)) : (run L scene history).Credits := by
  induction history using List.reverseRecOn with
  | nil =>
    rintro _ _ ⟨⟩
  | append_singleton _ act ih =>
    rw [run_concat]
    exact ih.step act

theorem raises_settle (hphase : s.phase = .handling record .handled)
    (written : Except String Unit) :
    (s.settle L record written).grants = s.grants ∨ ∃ record' track,
      s.phase = .handling record' .handled ∧ s.scene.tracks.lookup L.identity = some track ∧
        (s.settle L record written).returned = s.returned ++ [record'.bodyLength] ∧
          (s.settle L record written).grants = s.grants ++
            [(P.maximumBodyBytes track.state.ingress + record'.bodyLength,
              P.maximumMediaRecords track.state.ingress + 1)] := by
  unfold settle State.onTrack
  cases htrack : s.scene.tracks.lookup L.identity with
  | none =>
    left
    split <;> rfl
  | some track =>
    dsimp only
    split
    · exact Or.inl rfl
    unfold Track.returnChannelCapacity
    by_cases hcurrent : track.isCurrent L.generation
    · rw [if_neg (not_not.mpr hcurrent)]
      dsimp only
      split
      · rename_i hresult
        split at hresult
        · cases hresult
          exact Or.inl rfl
        · split at hresult <;> cases hresult
          exact Or.inl rfl
      · rename_i hresult
        split at hresult
        · cases hresult
        · split at hresult <;> cases hresult
          dsimp only
          split
          · exact Or.inl rfl
          · exact Or.inr ⟨record, track, hphase, rfl, rfl, rfl⟩
    · rw [if_pos hcurrent]
      exact Or.inl rfl

theorem raises (s : ChannelLoop P) (act : Act P) : s.Raises L act := by
  cases act with
  | request => exact Or.inl rfl
  | take | lose =>
    left
    dsimp only [step]
    split <;> rfl
  | go written =>
    unfold Raises
    dsimp only [step]
    split
    · rename_i record rest hphase
      cases rest with
      | handled => exact raises_settle hphase written
      | closed | failed | attempt => exact Or.inl rfl
      | require | decode =>
        left
        dsimp only [ChannelLoop.go]
        split <;> rfl
      | applyDelta =>
        left
        dsimp only [ChannelLoop.go]
        split
        · rfl
        · split <;> rfl
    · exact Or.inl rfl

/-- A channel gives back each record once, from its opening on, exactly if no delta comes to a track
without a picture and no packet fails in the decoder. What it gives back is what it grants. -/
theorem credit_iff (L : LoopContext) (scene : State P) (history : List (Act P)) :
    ((∀ n, (run L scene (history.take n)).Conserves) ↔
      Throughout (run L scene) (Recoverable L) history) ∧
      Throughout (run L scene) (Raises L) history := by
  refine ⟨throughout_iff_always (fun history => (run L scene history).Conserves) ?_ ?_,
    fun _ act _ _ => raises _ act⟩
  · exact fun _ => conserved_iff.mpr rfl
  · intro history act h
    rw [run_concat]
    exact h.step_iff (credits_run scene history) act

section Missing

open State

/-- A raster track on which deltas were negotiated. -/
def deltaContext : LoopContext where
  identity := viewerTrack
  generation := 1
  kind := .raster
  raster :=
    { width := 1
      height := 1
      alphaMode := 1
      zstdEnabled := false
      deltaEnabled := true }

def firstDelta : Record where
  objectId := 1
  sequence := 2
  bodyLength := 64
  content := .raster (.delta (.ok { epoch := 1, apply := fun base => .ok base }))
  admitted := .ok ()
  now := 0
  audioReady := true

/-- A track is opened, and the first record on its channel is a delta. -/
def missingBase : List (Act Protocol.plain) :=
  [.request (.registerSession viewer 1),
    .request (.createSurface viewerSurface { contextId := 1, surfaceId := 1 }),
    .request (.createTrack viewerTrack
      { contextId := 1, surfaceId := 1, trackId := 1, slot := 3, mode := .live, kind := .raster }),
    .request (.acceptChannel viewerTrack 1 1024 8), .take firstDelta, .go (.ok ())]

/-- The channel goes on, and the delta's credit is not given back. -/
theorem missing_base_leaks : ¬ ∀ history, (run deltaContext (.new .plain) history).Conserves := by
  intro h
  have hreading : (run deltaContext (.new .plain) missingBase).phase = .reading := rfl
  have hconserved : (run deltaContext (.new .plain) missingBase).Conserved := by
    refine h missingBase ?_
    rintro ⟨_, hended⟩
    rw [hreading] at hended
    cases hended
  have honce := hconserved.once
  have hlength := congrArg List.length honce
  revert hlength
  decide +kernel

end Missing

end ChannelLoop

end Vivido.Channel
