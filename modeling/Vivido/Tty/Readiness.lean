import Vivido.Tty.Conserving

/-!
The socket of the read-ahead has a byte for each batch that waits and one for
the end. A reset takes all of them out, also that of an end which it leaves.
-/

namespace Vivido.Tty

open List Option

variable {g g' : Gather}

namespace Gather

/-- The end of the file or an error waits to be read. -/
def Ended (g : Gather) : Prop := g.error.isSome = true ∨ g.eof = true ∧ Event.ended ∉ g.log

instance : Decidable g.Ended := inferInstanceAs (Decidable (_ ∨ _))

/-- A batch, the end or an error waits to be read. -/
def Waiting (g : Gather) : Prop := g.ready ≠ [] ∨ g.current ≠ none ∨ g.Ended

/-- The batches that wait. -/
def queued (g : Gather) : ℕ := g.ready.length + g.current.toList.length

/-- How many bytes the socket is to have. -/
def signals (g : Gather) : ℕ := g.queued + if g.Ended then 1 else 0

theorem signals_of_ended (h : g.Ended) : g.signals = g.queued + 1 := by rw [signals, if_pos h]

theorem signals_of_not_ended (h : ¬ g.Ended) : g.signals = g.queued := by rw [signals, if_neg h]; rfl

theorem signals_pos (h : g.Waiting) : 0 < g.signals := by
  by_cases hended : g.Ended
  · rw [signals_of_ended hended]
    omega
  rw [signals_of_not_ended hended, queued]
  rcases h with hready | hcurrent | hended'
  · have := List.length_pos_iff.mpr hready
    omega
  · cases hcurrent' : g.current with
    | none => exact absurd hcurrent' hcurrent
    | some =>
      simp only [toList_some, length_singleton]
      omega
  · exact absurd hended' hended

/-- What is true of the socket after every step, resets included. -/
structure Signalled (g : Gather) : Prop where
  atMost : g.tokens ≤ g.signals
  exclusive : g.error.isSome = true → g.eof = false

/-- The batches that wait are no more than the buffers. -/
theorem Conserved.queued_le (h : Conserved g) : g.queued ≤ slots := by
  have hlength := h.whole.length_eq
  simp only [Gather.buffers, length_append, length_map, length_range] at hlength
  unfold queued
  omega

theorem Signalled.tokens_le (h : Signalled g) (hconserved : Conserved g) :
    g.tokens ≤ slots + 1 := by
  have hqueued := hconserved.queued_le
  have hmost := h.atMost
  unfold signals at hmost
  split at hmost <;> omega

/-- A step keeps the bound on the socket's bytes, and their number where that is exact. -/
structure Signals (g g' : Gather) : Prop where
  signalled : Signalled g'
  exact : g.tokens = g.signals → g'.tokens = g'.signals

theorem Signals.refl (h : Signalled g) : Signals g g := ⟨h, id⟩

/-- Nothing waits any more, and nothing is in the socket. -/
theorem Signals.drained (htokens : g'.tokens = 0) (hqueued : g'.queued = 0) (hended : ¬ g'.Ended)
    (hexclusive : g'.error.isSome = true → g'.eof = false) : Signals g g' := by
  refine ⟨⟨?_, hexclusive⟩, fun _ => ?_⟩
  · rw [htokens]
    exact Nat.zero_le _
  · rw [htokens, signals_of_not_ended hended, hqueued]

theorem Signals.same (h : Signalled g) (htokens : g'.tokens = g.tokens)
    (hqueued : g'.queued = g.queued) (herror : g'.error = g.error) (heof : g'.eof = g.eof)
    (hlog : Event.ended ∈ g'.log ↔ Event.ended ∈ g.log) : Signals g g' := by
  have hended : g'.Ended ↔ g.Ended := by
    unfold Ended
    rw [herror, heof, hlog]
  have hsignals : g'.signals = g.signals := by
    by_cases hg : g.Ended
    · rw [signals_of_ended hg, signals_of_ended (hended.mpr hg), hqueued]
    · rw [signals_of_not_ended hg, signals_of_not_ended (fun hg' => hg (hended.mp hg')), hqueued]
  refine ⟨⟨?_, ?_⟩, fun hexact => ?_⟩
  · rw [htokens, hsignals]
    exact h.atMost
  · rw [herror, heof]
    exact h.exclusive
  · rw [htokens, hsignals]
    exact hexact

theorem ended_mem_concat {log : List Event} {event : Event} (h : event ≠ .ended) :
    Event.ended ∈ log ++ [event] ↔ Event.ended ∈ log := by
  rw [mem_append, mem_singleton]
  exact or_iff_left (Ne.symm h)

theorem Signals.readFile (h : Signalled g) (hold : Hold) (late : Bool) (result : ReadResult) :
    Signals g (g.readFile hold late result) := by
  cases result with
  | bytes =>
    dsimp only [Gather.readFile]
    split
    · exact .same h rfl rfl rfl rfl Iff.rfl
    · exact .same h rfl rfl rfl rfl (ended_mem_concat nofun)
  | interrupted | failed => exact .same h rfl rfl rfl rfl Iff.rfl
  | wouldBlock =>
    dsimp only [Gather.readFile]
    repeat' split
    all_goals exact .same h rfl rfl rfl rfl Iff.rfl

theorem publish_tokens (g : Gather) (hold : Hold) (ending : Option Ending) :
    (g.publish hold ending).tokens + g.queued =
        (g.publish hold ending).queued + g.tokens + ending.toList.length ∧
      (g.publish hold ending).log = g.log ∧
      (ending = none → (g.publish hold ending).error = g.error ∧
        (g.publish hold ending).eof = g.eof) ∧
      (ending ≠ none → ((g.publish hold ending).error.isSome = true ↔
        (g.publish hold ending).eof = false)) := by
  by_cases hfresh : hold.bytes ≠ [] ∧ hold.generation = g.generation
  · rcases ending with _ | _ | error <;> simp only [publish, if_pos hfresh, queued] <;>
      simp <;> omega
  · rcases ending with _ | _ | _ <;> simp only [publish, if_neg hfresh, queued] <;>
      simp <;> omega

theorem Signals.publish (h : Signalled g) (hunended : g.Unended) (hold : Hold)
    (ending : Option Ending) : Signals g (g.publish hold ending) := by
  have hended : ¬ g.Ended := by
    unfold Ended
    rw [hunended.eof, hunended.error]
    simp
  obtain ⟨htokens, hlog, hnone, hsome⟩ := publish_tokens g hold ending
  have hmost := h.atMost
  rw [signals_of_not_ended hended] at hmost
  cases ending with
  | none =>
    obtain ⟨herror, heof⟩ := hnone rfl
    have hended' : ¬ (g.publish hold none).Ended := by
      unfold Ended
      rw [herror, heof, hlog]
      exact hended
    simp only [toList_none, length_nil, Nat.add_zero] at htokens
    refine ⟨⟨?_, ?_⟩, fun hexact => ?_⟩
    · rw [signals_of_not_ended hended']
      omega
    · rw [herror, heof]
      exact h.exclusive
    · rw [signals_of_not_ended hended'] 
      rw [signals_of_not_ended hended] at hexact
      omega
  | some ending =>
    have hending := hsome nofun
    have hended' : (g.publish hold (some ending)).Ended := by
      by_cases heof : (g.publish hold (some ending)).eof = false
      · exact Or.inl (hending.mpr heof)
      · refine Or.inr ⟨by simpa using heof, ?_⟩
        rw [hlog]
        exact hunended.log
    simp only [toList_some, length_singleton] at htokens
    refine ⟨⟨?_, hending.mp⟩, fun hexact => ?_⟩
    · rw [signals_of_ended hended']
      omega
    · rw [signals_of_ended hended']
      rw [signals_of_not_ended hended] at hexact
      omega

theorem Signals.work (h : Signalled g) (hconserved : Conserved g) (result : ReadResult)
    (late : Bool) (poll : PollResult) (interrupted : Bool) :
    Signals g (g.work result late poll interrupted) := by
  unfold Gather.work
  split
  · unfold Gather.acquire
    split
    · exact .same h rfl rfl rfl rfl Iff.rfl
    split
    · exact .refl h
    · exact .same h rfl rfl rfl rfl Iff.rfl
  · unfold Gather.check
    split <;> exact .same h rfl rfl rfl rfl Iff.rfl
  · exact .readFile h _ late result
  · unfold Gather.bridge
    split <;> exact .same h rfl rfl rfl rfl Iff.rfl
  · unfold Gather.polled
    split <;> exact .same h rfl rfl rfl rfl Iff.rfl
  · rename_i hworker
    exact .publish h (hconserved.unended (by rw [hworker]; exact fun h => by cases h)) _ _
  · exact .refl h

/-- The owner takes a batch, whose byte stays, or learns of the end, whose byte goes. -/
theorem Signals.beginRead (h : Signalled g) (room : ℕ) : Signals g (g.beginRead room) := by
  unfold Gather.beginRead
  split
  · exact .refl h
  split
  · exact .same h rfl rfl rfl rfl Iff.rfl
  rename_i hcurrent
  have hcurrent : g.current = none := by simpa using hcurrent
  have hmost := h.atMost
  split
  · rename_i batch rest hready
    refine .same h rfl ?_ rfl rfl Iff.rfl
    simp [queued, hready, hcurrent]
  rename_i hready
  have hqueued : g.queued = 0 := by rw [queued, hready, hcurrent]; rfl
  have htokens : g.tokens - (slots + 1) = 0 := by
    unfold signals at hmost
    split at hmost <;> simp only [slots] <;> omega
  dsimp only
  split
  · rename_i error herror
    have heof := h.exclusive (by rw [herror]; rfl)
    refine .drained htokens hqueued ?_ nofun
    rintro (hsome | ⟨htrue, -⟩)
    · cases hsome
    · exact Bool.noConfusion (heof.symm.trans htrue)
  · rename_i hnone
    split
    · refine .drained htokens hqueued ?_ h.exclusive
      rintro (hsome | ⟨-, hnot⟩)
      · change g.error.isSome = true at hsome
        rw [hnone] at hsome
        cases hsome
      · exact hnot (mem_append_right _ (List.mem_singleton.mpr rfl))
    · exact .same h rfl rfl rfl rfl Iff.rfl

/-- With the last byte of a batch goes the batch's byte in the socket. -/
theorem Signals.copy (h : Signalled g) (room : ℕ) : Signals g (g.copy room) := by
  unfold Gather.copy
  split
  · exact .refl h
  rename_i batch hcurrent
  dsimp only
  split
  · have hmost := h.atMost
    generalize hafter : ({ (g.record _).drain 1 with
      current := none, offset := _, owner := _ } : Gather) = after
    have htokens : after.tokens = g.tokens - 1 := by rw [← hafter]; rfl
    have hqueued : after.queued + 1 = g.queued := by
      rw [← hafter, queued, queued, hcurrent]
      rfl
    have hended : after.Ended ↔ g.Ended := by
      rw [← hafter]
      unfold Ended
      exact or_congr_right (and_congr_right fun _ => not_congr (ended_mem_concat nofun))
    have hsignals : after.signals + 1 = g.signals := by
      by_cases hg : g.Ended
      · rw [signals_of_ended hg, signals_of_ended (hended.mpr hg)]
        omega
      · rw [signals_of_not_ended hg, signals_of_not_ended (fun hg' => hg (hended.mp hg'))]
        exact hqueued
    refine ⟨⟨?_, ?_⟩, fun hexact => ?_⟩
    · omega
    · rw [← hafter]
      exact h.exclusive
    · omega
  · refine .same h rfl ?_ rfl rfl (ended_mem_concat nofun)
    rfl

/-- A reset empties the socket and drops every batch, but no end. -/
theorem reset_spec (h : Signalled g) (hconserved : Conserved g) :
    g.reset.tokens = 0 ∧ g.reset.queued = 0 ∧ (g.reset.Ended ↔ g.Ended) := by
  have htokens := h.tokens_le hconserved
  refine ⟨Nat.sub_eq_zero_of_le htokens, rfl, ?_⟩
  unfold Ended
  exact or_congr_right (and_congr_right fun _ => not_congr (ended_mem_concat nofun))

/-- No end waits where the owner resets. -/
def Harmless (g : Gather) (act : Act) : Prop :=
  act = .reset → g.resettable = true → ¬ g.Ended

theorem Signalled.step (h : Signalled g) (hconserved : Conserved g) (act : Act) :
    Signalled (g.step act) ∧
      (Harmless g act → g.tokens = g.signals → (g.step act).tokens = (g.step act).signals) := by
  cases act with
  | work result late poll interrupted =>
    have hsignals := Signals.work h hconserved result late poll interrupted
    exact ⟨hsignals.signalled, fun _ => hsignals.exact⟩
  | beginRead room =>
    dsimp only [Gather.step]
    split
    · have hsignals := Signals.beginRead h room
      exact ⟨hsignals.signalled, fun _ => hsignals.exact⟩
    · exact ⟨h, fun _ => id⟩
  | proceed =>
    dsimp only [Gather.step]
    have hsignals : Signals g g.proceed := by
      unfold Gather.proceed
      split
      · exact .refl h
      · exact .copy h _
      · exact .same h rfl rfl rfl rfl Iff.rfl
      · unfold Gather.join
        split
        · exact .same h rfl rfl rfl rfl Iff.rfl
        · exact .refl h
    exact ⟨hsignals.signalled, fun _ => hsignals.exact⟩
  | idle | stop =>
    dsimp only [Gather.step]
    split
    · exact ⟨⟨h.atMost, h.exclusive⟩, fun _ => id⟩
    · exact ⟨h, fun _ => id⟩
  | reset =>
    dsimp only [Gather.step]
    split
    · rename_i hresettable
      obtain ⟨htokens, hqueued, hended⟩ := reset_spec h hconserved
      refine ⟨⟨htokens ▸ Nat.zero_le _, h.exclusive⟩, fun hharmless _ => ?_⟩
      have hopen : ¬ g.reset.Ended := fun h => hharmless rfl hresettable (hended.mp h)
      rw [htokens, signals_of_not_ended hopen, hqueued]
    · exact ⟨h, fun _ => id⟩

theorem run_signalled (acts : List Act) : Signalled (run acts) := by
  induction acts using List.reverseRecOn with
  | nil => exact ⟨Nat.zero_le _, nofun⟩
  | append_singleton acts act ih =>
    rw [run_concat]
    exact (ih.step (run_conserved acts) act).1

theorem run_tokens {acts : List Act} (h : Throughout run Harmless acts) :
    (run acts).tokens = (run acts).signals := by
  refine h.induct (fun acts => (run acts).tokens = (run acts).signals) rfl ?_
  intro acts act hexact hharmless
  rw [run_concat]
  exact ((run_signalled acts).step (run_conserved acts) act).2 hharmless hexact

/-- What the owner can rely on: it is given what was read since the last reset, in order, and the end
after all of it; the buffers are all there; and the socket is readable where something waits. -/
structure Sound (g : Gather) : Prop where
  kept : undelivered g.log = g.held
  legal : Throughout undelivered Event.Legal g.log
  whole : g.buffers.Perm (List.range slots)
  readable : g.Waiting → 0 < g.tokens

/-- The read-ahead is sound all along a run if and only if no reset of the run comes where the end of
the file or an error waits to be read. -/
theorem run_sound_iff (acts : List Act) :
    (∀ n, Sound (run (acts.take n))) ↔ Throughout run Harmless acts := by
  constructor
  · rintro h earlier _ later rfl rfl hresettable hended
    have hafter := (h (earlier.length + 1)).readable
    have htake : (earlier ++ Act.reset :: later).take (earlier.length + 1) =
        earlier ++ [.reset] := by
      rw [take_length_add_append]
      rfl
    have hstep : (run earlier).step .reset = (run earlier).reset := if_pos hresettable
    rw [htake, run_concat, hstep] at hafter
    obtain ⟨_, -, hended'⟩ := reset_spec (run_signalled earlier) (run_conserved earlier)
    have hreadable := hafter (Or.inr (Or.inr (hended'.mpr hended)))
    omega
  · intro h n
    have htake : Throughout run Harmless (acts.take n) := by
      rw [← take_append_drop n acts] at h
      exact h.of_append
    have hconserved := run_conserved (acts.take n)
    refine ⟨hconserved.kept, hconserved.legal, hconserved.whole, fun hwaiting => ?_⟩
    rw [run_tokens htake]
    exact signals_pos hwaiting

/-- The file ends, and the owner resets before it reads: the end waits, and nothing tells of it. -/
theorem reset_silences : ¬ ∀ (acts : List Act) (n : ℕ), Sound (run (acts.take n)) := by
  intro h
  have hsound := h [.work .interrupted false .woken false,
    .work .interrupted false .woken false, .work (.bytes []) false .woken false,
    .work .interrupted false .woken false, .reset] 5
  have hreadable := hsound.readable (Or.inr (Or.inr (by decide)))
  revert hreadable
  decide

end Gather

end Vivido.Tty
