import Mathlib.Data.List.Basic
import Vivido.Transport.Writer

/-!
What the writer sends and when it fails. Each answer takes the bytes that follow from
what is offered. While the last slice holds a byte something is always offered, so that
a willing socket gets all of it; after an empty last slice the writer offers nothing and
takes the socket's zero for a failure.
-/

namespace Vivido.Transport

open List

/-- The socket takes a byte of what it is offered, or asks to be called again. -/
def Response.Willing : Response → Prop
  | .room count => 0 < count
  | .error failure => failure.kind = .interrupted

instance decidableWilling (response : Response) : Decidable response.Willing :=
  match response with
  | .room count => inferInstanceAs (Decidable (0 < count))
  | .error failure => inferInstanceAs (Decidable (failure.kind = .interrupted))

/-- How many of the answers take bytes. -/
def rooms (responses : List Response) : ℕ :=
  responses.countP fun
    | .room _ => true
    | .error _ => false

/-- The offset lies before the end of the first slice, or at its start. -/
def Within : Slices → ℕ → Prop
  | [], _ => True
  | slice :: _, offset => offset = 0 ∨ offset < slice.length

variable {slices rest : Slices} {offset offset' remaining : ℕ} {sent : List UInt8}
  {responses : List Response}

theorem offered_zero (slices : Slices) : offered slices 0 = slices.flatten := by
  cases slices with
  | nil => rfl
  | cons => rw [offered, drop_zero, flatten_cons]

theorem within_advance (h : Within slices offset) :
    Within (advance slices offset remaining).1 (advance slices offset remaining).2 := by
  induction slices generalizing offset remaining with
  | nil => trivial
  | cons _ slices ih =>
    rw [advance]
    have hstart : ∀ slices : Slices, Within slices 0 := by
      intro slices
      cases slices with
      | nil => trivial
      | cons => exact Or.inl rfl
    split
    · refine Or.inr ?_
      omega
    · split
      · exact hstart slices
      · exact ih (hstart slices)

theorem offered_advance (h : Within slices offset)
    (hremaining : remaining ≤ (offered slices offset).length) :
    offered (advance slices offset remaining).1 (advance slices offset remaining).2 =
      (offered slices offset).drop remaining := by
  induction slices generalizing offset remaining with
  | nil => simp [advance, offered]
  | cons slice slices ih =>
    rw [offered, length_append, length_drop] at hremaining
    rw [advance]
    split
    · rw [offered, offered, drop_append_of_le_length (by rw [length_drop]; omega),
        drop_drop]
    have hpast : (offered (slice :: slices) offset).drop remaining =
        slices.flatten.drop (remaining - (slice.length - offset)) := by
      rw [offered, drop_append, drop_eq_nil_of_le (by rw [length_drop]; omega),
        nil_append, length_drop]
    rw [hpast]
    split
    · next hzero => rw [offered_zero, hzero, drop_zero]
    · rw [ih (by cases slices <;> [trivial; exact Or.inl rfl])
        (by rw [offered_zero]; omega), offered_zero]

/-- The slices that are left are the last ones. -/
theorem advance_suffix (slices : Slices) (offset remaining : ℕ) :
    (advance slices offset remaining).1 <:+ slices := by
  induction slices generalizing offset remaining with
  | nil => exact suffix_refl []
  | cons slice slices ih =>
    rw [advance]
    split
    · exact suffix_refl _
    · split
      · exact suffix_cons slice slices
      · exact (ih 0 _).trans (suffix_cons slice slices)

theorem getLast?_of_suffix (h : rest <:+ slices) (hrest : rest ≠ []) :
    rest.getLast? = slices.getLast? := by
  obtain ⟨_, rfl⟩ := h
  rw [getLast?_append_of_ne_nil _ hrest]

theorem offered_ne_nil (h : Within slices offset) (hslices : slices ≠ [])
    (hlast : slices.getLast? ≠ some []) : offered slices offset ≠ [] := by
  cases slices with
  | nil => exact absurd rfl hslices
  | cons _ slices =>
    rw [offered]
    intro hempty
    obtain ⟨hslice, hflat⟩ := List.append_eq_nil_iff.mp hempty
    rcases eq_nil_or_concat slices with rfl | ⟨_, last, rfl⟩
    · refine hlast ?_
      rw [drop_eq_nil_iff] at hslice
      rcases h with rfl | _
      · rw [eq_nil_of_length_eq_zero (Nat.le_zero.mp hslice)]
        rfl
      · omega
    · refine hlast ?_
      rw [flatten_eq_nil_iff] at hflat
      rw [concat_eq_append, ← cons_append, getLast?_concat,
        hflat last (by simp)]

/-- With bytes to pass the writer never gets past an empty last slice. -/
theorem advance_ne_nil (hslices : slices ≠ []) (hlast : slices.getLast? = some [])
    (hpositive : 0 < remaining) (hremaining : remaining ≤ (offered slices offset).length) :
    (advance slices offset remaining).1 ≠ [] := by
  induction slices generalizing offset remaining with
  | nil => exact absurd rfl hslices
  | cons slice slices ih =>
    rw [offered, length_append, length_drop] at hremaining
    have hmore : slices ≠ [] := by
      rintro rfl
      simp only [getLast?_singleton, Option.some.injEq] at hlast
      subst hlast
      simp at hremaining
      omega
    rw [advance]
    split
    · exact cons_ne_nil _ _
    · split
      · exact hmore
      · refine ih hmore ?_ (by omega) (by rw [offered_zero]; omega)
        rw [← hlast]
        exact getLast?_of_suffix (suffix_cons slice slices) hmore

/-! ### The loop -/

theorem writeSlices_nil (offset : ℕ) (responses : List Response) (sent : List UInt8) :
    writeSlices [] offset responses sent = (.done, sent) := by
  rw [writeSlices.eq_def, if_pos isEmpty_nil]

theorem writeSlices_waiting (hslices : slices ≠ []) :
    writeSlices slices offset [] sent = (.waiting, sent) := by
  rw [writeSlices, if_neg (by simpa using hslices)]

theorem writeSlices_error (hslices : slices ≠ []) (failure : IoError) :
    writeSlices slices offset (.error failure :: responses) sent =
      if failure.kind = .interrupted then writeSlices slices offset responses sent
      else (.failed failure, sent) := by
  rw [writeSlices, if_neg (by simpa using hslices)]

theorem writeSlices_room (hslices : slices ≠ []) (count : ℕ) :
    writeSlices slices offset (.room count :: responses) sent =
      if min count (offered slices offset).length = 0 then (.failed writeZero, sent)
      else writeSlices (advance slices offset (min count (offered slices offset).length)).1
          (advance slices offset (min count (offered slices offset).length)).2 responses
          (sent ++ (offered slices offset).take (min count (offered slices offset).length)) := by
  rw [writeSlices, if_neg (by simpa using hslices)]

/-- The answer that the writer gives up at: it still had bytes to offer, all earlier answers were
willing, and this one is not. -/
def Blamed (slices : Slices) (offset : ℕ) (responses : List Response) (sent : List UInt8) : Prop :=
  ∃ taken response later sent', responses = taken ++ response :: later ∧
    (∀ earlier ∈ taken, earlier.Willing) ∧ ¬ response.Willing ∧
    writeSlices slices offset taken sent = (.waiting, sent') ∧
    sent' ≠ sent ++ offered slices offset

theorem Blamed.now {response : Response} (hslices : slices ≠ [])
    (hoffered : offered slices offset ≠ []) (h : ¬ response.Willing) :
    Blamed slices offset (response :: responses) sent := by
  refine ⟨[], response, responses, sent, rfl, by simp, h, writeSlices_waiting hslices, ?_⟩
  simpa using hoffered

/-- One answer of the socket: it is the one to blame, or the rest is written from where it left. -/
theorem writeSlices_step (response : Response) (sent : List UInt8) (hslices : slices ≠ [])
    (h : Within slices offset) (hlast : slices.getLast? ≠ some []) : (¬ response.Willing ∧
      ∃ failure, ∀ responses,
        writeSlices slices offset (response :: responses) sent = (.failed failure, sent)) ∨
    ∃ rest offset' taken, response.Willing ∧
      (∀ responses, writeSlices slices offset (response :: responses) sent =
        writeSlices rest offset' responses (sent ++ taken)) ∧
      offered slices offset = taken ++ offered rest offset' ∧ Within rest offset' ∧
      rest.getLast? ≠ some [] ∧ rooms [response] ≤ taken.length := by
  cases response with
  | error failure =>
    by_cases hkind : failure.kind = .interrupted
    · refine Or.inr ⟨slices, offset, [], hkind, fun responses => ?_, rfl, h, hlast, Nat.le_refl 0⟩
      rw [writeSlices_error hslices, if_pos hkind, append_nil]
    · refine Or.inl ⟨hkind, failure, fun responses => ?_⟩
      rw [writeSlices_error hslices, if_neg hkind]
  | room count =>
    have hoffered := offered_ne_nil h hslices hlast
    have hpositive := length_pos_of_ne_nil hoffered
    by_cases hcount : count = 0
    · refine Or.inl ⟨by simp [Response.Willing, hcount], writeZero, fun responses => ?_⟩
      rw [writeSlices_room hslices, if_pos (by omega)]
    obtain ⟨written, hwritten⟩ : ∃ written, written = min count (offered slices offset).length :=
      ⟨_, rfl⟩
    refine Or.inr ⟨(advance slices offset written).1, (advance slices offset written).2,
      (offered slices offset).take written, Nat.pos_of_ne_zero hcount, fun responses => ?_, ?_,
      within_advance h, ?_, ?_⟩
    · rw [writeSlices_room hslices, if_neg (by omega), hwritten]
    · rw [offered_advance h (by omega), take_append_drop]
    · by_cases hrest : (advance slices offset written).1 = []
      · rw [hrest]
        exact (Option.some_ne_none _).symm
      · rw [getLast?_of_suffix (advance_suffix _ _ _) hrest]
        exact hlast
    · rw [length_take]
      change 1 ≤ _
      omega

/-- While the last slice holds a byte: what was written, where it ends, and who is to blame where it
does not. -/
theorem writeSlices_exact (responses : List Response) (sent : List UInt8) (hslices : slices ≠ [])
    (h : Within slices offset) (hlast : slices.getLast? ≠ some []) :
    ((∀ response ∈ responses, response.Willing) → (offered slices offset).length ≤ rooms responses →
      writeSlices slices offset responses sent = (.done, sent ++ offered slices offset)) ∧
    (∀ failure sent', writeSlices slices offset responses sent = (.failed failure, sent') →
      Blamed slices offset responses sent) := by
  induction responses generalizing slices offset sent with
  | nil =>
    have hpositive := length_pos_of_ne_nil (offered_ne_nil h hslices hlast)
    constructor
    · intro _ henough
      change _ ≤ 0 at henough
      omega
    · intro failure sent' hfailed
      rw [writeSlices_waiting hslices] at hfailed
      cases hfailed
  | cons response responses ih =>
    rcases writeSlices_step response sent hslices h hlast with
      ⟨hunwilling, failure, hfailed⟩ | ⟨rest, _, taken, hwilling, hstep, hoffered, hwithin,
        hrest, _⟩
    · constructor
      · intro hall _
        exact absurd (hall response mem_cons_self) hunwilling
      · intro _ _ _
        exact Blamed.now hslices (offered_ne_nil h hslices hlast) hunwilling
    · rw [hstep responses, hoffered]
      have hsplit : rooms (response :: responses) = rooms [response] + rooms responses := by
        simp only [rooms, countP_cons, countP_nil]
        omega
      by_cases hdone : rest = []
      · subst hdone
        rw [writeSlices_nil]
        constructor
        · intro _ _
          rw [offered, append_nil]
        · intro failure sent' hfailed
          cases hfailed
      · obtain ⟨hcompletes, hblames⟩ := ih (sent ++ taken) hdone hwithin hrest
        constructor
        · intro hall henough
          rw [hcompletes (fun r hr => hall r (mem_cons_of_mem _ hr)) ?_, append_assoc]
          rw [length_append] at henough
          omega
        · intro failure sent' hfailed
          obtain ⟨before, blamed, later, sent'', hresponses, hbefore, hblamed, hwaiting, _⟩ :=
            hblames failure sent' hfailed
          refine ⟨response :: before, blamed, later, sent'', ?_, ?_, hblamed, ?_, ?_⟩
          · rw [hresponses, cons_append]
          · intro earlier hearlier
            rcases List.mem_cons.mp hearlier with rfl | hmem
            · exact hwilling
            · exact hbefore earlier hmem
          · rw [hstep before, hwaiting]
          · rwa [hoffered, ← append_assoc]

/-- After an empty last slice the writer never gets to the end. -/
theorem writeSlices_ne_done (offset : ℕ) (responses : List Response) (sent : List UInt8)
    (hslices : slices ≠ []) (hlast : slices.getLast? = some []) :
    (writeSlices slices offset responses sent).1 ≠ .done := by
  induction responses generalizing slices offset sent with
  | nil =>
    rw [writeSlices_waiting hslices]
    exact Outcome.noConfusion
  | cons response responses ih =>
    cases response with
    | error =>
      rw [writeSlices_error hslices]
      split
      · exact ih offset sent hslices hlast
      · exact Outcome.noConfusion
    | room count =>
      rw [writeSlices_room hslices]
      split
      · exact Outcome.noConfusion
      · next hmin =>
        have hrest := advance_ne_nil hslices hlast (Nat.pos_of_ne_zero hmin) (Nat.min_le_right _ _)
        refine ih _ _ hrest ?_
        rw [getLast?_of_suffix (advance_suffix _ _ _) hrest, hlast]

/-! ### The record -/

namespace Writer

variable (protocol : RecordProtocol)

/-- The record is refused before anything is written, or all its bytes go out in order and the
sequence advances once the socket took them, and only the socket is to blame for a failure. -/
structure Exact (w : Writer) (recordType objectId : ℕ) (parts : Slices) : Prop where
  refuses : ∀ failure, w.header protocol recordType objectId parts = .error failure →
    ∀ responses flushed,
      w.writePartsSequenced protocol recordType objectId parts responses flushed =
        (w, .failed failure)
  completes : ∀ header, w.header protocol recordType objectId parts = .ok header →
    ∀ responses, (∀ response ∈ responses, response.Willing) →
      (protocol.encode header ++ parts.flatten).length ≤ rooms responses →
      w.writePartsSequenced protocol recordType objectId parts responses none =
        ({ w with
            sent := w.sent ++ (protocol.encode header ++ parts.flatten)
            sequence := w.sequence + 1 }, .written (w.sequence + 1))
  blames : ∀ header, w.header protocol recordType objectId parts = .ok header →
    ∀ responses flushed failure,
      (w.writePartsSequenced protocol recordType objectId parts responses flushed).2 =
        .failed failure →
      flushed = some failure ∨ Blamed (protocol.encode header :: parts) 0 responses []

/-- A record that is accepted ends with a byte: its last part does, or its header where it has no
parts. -/
def EndsWithByte (w : Writer) (recordType objectId : ℕ) (parts : Slices) : Prop :=
  ∀ header, w.header protocol recordType objectId parts = .ok header →
    (protocol.encode header :: parts).getLast? ≠ some []

theorem sequence_of_header {w : Writer} {recordType objectId : ℕ} {parts : Slices}
    {header : RecordHeader} (h : w.header protocol recordType objectId parts = .ok header) :
    header.sequence = w.sequence + 1 := by
  simp only [Writer.header, bind, Except.bind, pure, Except.pure, throw, throwThe,
    MonadExceptOf.throw] at h
  split_ifs at h
  cases h
  rfl

variable {protocol} {w : Writer} {recordType objectId : ℕ} {parts : Slices} {header : RecordHeader}

/-- The writer and its reply where the bytes went out like this. -/
def concluded (w : Writer) (flushed : Option IoError) (sent : List UInt8) :
    Outcome → Writer × Reply
  | .waiting => ({ w with sent := w.sent ++ sent }, .waiting)
  | .failed failure =>
    ({ w with sent := w.sent ++ sent, failed := true, shutdown := true }, .failed failure)
  | .done =>
    match flushed with
    | some failure =>
      ({ w with sent := w.sent ++ sent, failed := true, shutdown := true }, .failed failure)
    | none =>
      ({ w with sent := w.sent ++ sent, sequence := w.sequence + 1 }, .written (w.sequence + 1))

theorem writePartsSequenced_of_header
    (h : w.header protocol recordType objectId parts = .ok header) (responses : List Response)
    (flushed : Option IoError) :
    w.writePartsSequenced protocol recordType objectId parts responses flushed =
      w.concluded flushed (writeParts (protocol.encode header) parts responses).2
        (writeParts (protocol.encode header) parts responses).1 := by
  rw [writePartsSequenced, h]
  dsimp only
  obtain ⟨outcome, _⟩ := writeParts (protocol.encode header) parts responses
  cases outcome with
  | waiting | failed failure => rfl
  | done =>
    cases flushed with
    | some => rfl
    | none =>
      simp only [sequence_of_header protocol h]
      rfl

variable {responses : List Response}

theorem done_of_written (h : w.header protocol recordType objectId parts = .ok header)
    {flushed : Option IoError} {sequence : ℕ}
    (hwritten : (w.writePartsSequenced protocol recordType objectId parts responses flushed).2 =
      .written sequence) : (writeParts (protocol.encode header) parts responses).1 = .done := by
  rw [writePartsSequenced_of_header h responses flushed] at hwritten
  generalize writeParts (protocol.encode header) parts responses = written at hwritten ⊢
  obtain ⟨outcome, _⟩ := written
  cases outcome with
  | waiting | failed failure => cases hwritten
  | done => rfl

theorem failed_of_reply (h : w.header protocol recordType objectId parts = .ok header)
    {flushed : Option IoError} {failure : IoError}
    (hfailed : (w.writePartsSequenced protocol recordType objectId parts responses flushed).2 =
      .failed failure) : flushed = some failure ∨
      ∃ sent, writeParts (protocol.encode header) parts responses = (.failed failure, sent) := by
  rw [writePartsSequenced_of_header h responses flushed] at hfailed
  generalize writeParts (protocol.encode header) parts responses = written at hfailed ⊢
  obtain ⟨outcome, sent⟩ := written
  cases outcome with
  | waiting => cases hfailed
  | failed =>
    cases hfailed
    exact Or.inr ⟨sent, rfl⟩
  | done =>
    cases flushed with
    | none => cases hfailed
    | some =>
      cases hfailed
      exact Or.inl rfl

/-- A writer is exact if and only if it has a byte to offer for as long as it writes. -/
theorem write_parts_exact_iff (protocol : RecordProtocol) (w : Writer) (recordType objectId : ℕ)
    (parts : Slices) : w.Exact protocol recordType objectId parts ↔
      w.EndsWithByte protocol recordType objectId parts := by
  have hbytes : ∀ header : List UInt8, offered (header :: parts) 0 = header ++ parts.flatten := by
    intro header
    rw [offered_zero, flatten_cons]
  constructor
  · intro h header hheader hlast
    have hwritten := h.completes header hheader
      (List.replicate (protocol.encode header ++ parts.flatten).length (.room 1)) ?_ ?_
    · exact writeSlices_ne_done 0 _ [] (cons_ne_nil _ _) hlast
        (done_of_written hheader (congrArg Prod.snd hwritten))
    · intro _ hresponse
      rw [eq_of_mem_replicate hresponse]
      exact Nat.one_pos
    · rw [rooms, countP_replicate]
      exact Nat.le_refl _
  · intro h
    refine ⟨?_, ?_, ?_⟩
    · intro failure hfailure responses flushed
      rw [writePartsSequenced, hfailure]
    · intro header hheader responses hwilling henough
      rw [← hbytes] at henough ⊢
      have hwrite : writeParts (protocol.encode header) parts responses = _ :=
        (writeSlices_exact responses [] (cons_ne_nil _ parts) (Or.inl rfl)
        (h header hheader)).1 hwilling henough
      rw [writePartsSequenced_of_header hheader responses none, hwrite, nil_append]
      rfl
    · intro header hheader responses _ failure hfailed
      rcases failed_of_reply hheader hfailed with hflushed | ⟨sent, hwrite⟩
      · exact Or.inl hflushed
      · exact Or.inr ((writeSlices_exact responses [] (cons_ne_nil _ parts) (Or.inl rfl)
          (h header hheader)).2 failure sent hwrite)

/-- A protocol whose headers are eight bytes. -/
def plain : RecordProtocol where
  hardMaxRecordBody := 2 ^ 26
  encode header := List.replicate 8 (UInt8.ofNat header.recordType)

/-- A record with an empty body: the socket takes all of the header, and the writer fails. -/
theorem write_parts_empty_body :
    let w : Writer := { maximum := 2 ^ 16 }
    (w.writePartsSequenced plain 1 0 [[]] [.room 8, .room 1] none).2 = .failed writeZero ∧
      ¬ w.Exact plain 1 0 [[]] := by
  have hheader : ({ maximum := 2 ^ 16 } : Writer).header plain 1 0 [[]] =
      .ok ⟨0, 1, 0, 0, 1⟩ := by decide +kernel
  refine ⟨by decide +kernel, fun h => ?_⟩
  have hwritten := h.completes _ hheader (List.replicate 8 (.room 8)) (by decide) (by decide)
  exact absurd hwritten (by decide +kernel)

end Writer

end Vivido.Transport
