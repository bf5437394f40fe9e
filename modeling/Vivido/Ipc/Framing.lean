import Mathlib.Data.List.Basic
import Mathlib.Data.List.TakeWhile
import Mathlib.Data.Nat.Notation

/-!
Request frames out of the reads of a client's stream. A frame is a line with its
newline; at the end of the stream it is what is left. A line over the limit is
refused, and nothing is read after it. The reads may end anywhere.
-/

namespace Vivido.Ipc

open List

def newline : UInt8 := 0x0a

/-- `MAX_REQUEST_FRAME_BYTES` -/
def maxRequestFrameBytes : ℕ := 1024 * 1024

/-- What a buffered reader still gives, read by read. No read is empty before the end. -/
structure Reads where
  reads : List (List UInt8)
  nonempty : ∀ read ∈ reads, read ≠ []

namespace Reads

def bytes (reader : Reads) : List UInt8 := reader.reads.flatten

/-- `BufRead::fill_buf` -/
def available (reader : Reads) : List UInt8 := reader.reads.head?.getD []

/-- `BufRead::consume`, of what is available -/
def consume (reader : Reads) (count : ℕ) : Reads where
  reads := [reader.available.drop count].filter (· ≠ []) ++ reader.reads.tail
  nonempty read h := by
    rcases List.mem_append.mp h with h | h
    · exact of_decide_eq_true (List.mem_filter.mp h).2
    · exact reader.nonempty read (mem_of_mem_tail h)

theorem bytes_eq (reader : Reads) : reader.bytes = reader.available ++ reader.reads.tail.flatten := by
  unfold bytes available
  cases reader.reads with
  | nil | cons => rfl

theorem bytes_consume {reader : Reads} {count : ℕ} (h : count ≤ reader.available.length) :
    (reader.consume count).bytes = reader.bytes.drop count := by
  rw [bytes_eq reader, drop_append_of_le_length h]
  unfold consume bytes
  rw [flatten_append]
  by_cases hrest : reader.available.drop count = []
  · simp [hrest]
  · simp [hrest]

theorem bytes_eq_nil {reader : Reads} (h : reader.available = []) : reader.bytes = [] := by
  unfold available at h
  unfold bytes
  cases hreads : reader.reads with
  | nil => rfl
  | cons read =>
    rw [hreads] at h
    exact absurd h (reader.nonempty read (by simp [hreads]))

end Reads

inductive FrameRead where
  | frame (bytes : List UInt8)
  | closed
  | limitExceeded
  deriving DecidableEq

/-- How many of the bytes belong to the line they begin. -/
def lineLength (bytes : List UInt8) : ℕ :=
  match bytes.findIdx? (· = newline) with
  | none => bytes.length
  | some i => i + 1

/-- How many of the available bytes a turn of the loop takes, and the frame with them. -/
def extend (limit : ℕ) (frame available : List UInt8) : List UInt8 :=
  frame ++ available.take (min (lineLength available) (limit + 1 - frame.length))

theorem lineLength_le (bytes : List UInt8) : lineLength bytes ≤ bytes.length := by
  unfold lineLength
  cases h : bytes.findIdx? (· = newline) with
  | none => exact Nat.le_refl _
  | some =>
    obtain ⟨hlt, -⟩ := List.findIdx?_eq_some_iff_getElem.mp h
    exact hlt

theorem lineLength_pos {bytes : List UInt8} (h : bytes ≠ []) : 0 < lineLength bytes := by
  have := List.length_pos_iff.mpr h
  unfold lineLength
  split
  · exact this
  · omega

theorem take_lineLength_ne_nil {bytes : List UInt8} (h : bytes ≠ []) :
    bytes.take (lineLength bytes) ≠ [] := by
  have hpos := lineLength_pos h
  intro hnil
  rcases List.take_eq_nil_iff.mp hnil with _ | hnil
  · omega
  · exact h hnil

/-- The loop of `read_request_frame`, with the frame read so far. -/
def readRequestFrame (limit : ℕ) (frame : List UInt8) (reader : Reads) : FrameRead × Reads :=
  if _h : reader.available = [] then (if frame = [] then .closed else .frame frame, reader)
  else
    let frame' := extend limit frame reader.available
    let rest := reader.consume (lineLength reader.available)
    if limit < frame'.length ∨ limit + 1 - frame.length < lineLength reader.available then
      (.limitExceeded, rest)
    else if frame'.getLast? = some newline then (.frame frame', rest)
    else readRequestFrame limit frame' rest
termination_by reader.bytes.length
decreasing_by
  have hpos := lineLength_pos _h
  have hle := lineLength_le reader.available
  rw [Reads.bytes_consume hle, length_drop, Reads.bytes_eq reader, length_append]
  omega

/-! ### Lines -/

theorem lineLength_append {frame : List UInt8} (h : newline ∉ frame) (bytes : List UInt8) :
    lineLength (frame ++ bytes) = frame.length + lineLength bytes := by
  have hnone : frame.findIdx? (· = newline) = none := by
    rw [findIdx?_eq_none_iff]
    intro b hb
    simpa using fun heq : b = newline => h (heq ▸ hb)
  unfold lineLength
  rw [findIdx?_append, hnone]
  cases bytes.findIdx? (· = newline) with
  | none => simp
  | some => simp; omega

/-- A read either ends the line, or belongs to it as a whole. -/
theorem line_cases (available later : List UInt8) :
    (lineLength (available ++ later) = lineLength available ∧
        (available.take (lineLength available)).getLast? = some newline) ∨
      newline ∉ available ∧ lineLength available = available.length := by
  unfold lineLength
  rw [findIdx?_append]
  cases h : available.findIdx? (· = newline) with
  | none =>
    right
    refine ⟨fun hmem => ?_, rfl⟩
    have := List.findIdx?_eq_none_iff.mp h newline hmem
    simp at this
  | some i =>
    left
    obtain ⟨hlt, hi, -⟩ := List.findIdx?_eq_some_iff_getElem.mp h
    refine ⟨rfl, ?_⟩
    rw [getLast?_take, if_neg (Nat.succ_ne_zero i), Nat.add_sub_cancel,
      getElem?_eq_getElem hlt, Option.some_or, of_decide_eq_true hi]

/-- What a call is to return for the stream, and what of the stream is left after a frame. -/
def nextLine (limit : ℕ) (bytes : List UInt8) : FrameRead :=
  if bytes = [] then .closed
  else if limit < lineLength bytes then .limitExceeded
  else .frame (bytes.take (lineLength bytes))

theorem nextLine_frame {limit : ℕ} {bytes frame : List UInt8}
    (h : nextLine limit bytes = .frame frame) :
    bytes ≠ [] ∧ lineLength bytes ≤ limit ∧ frame = bytes.take (lineLength bytes) := by
  unfold nextLine at h
  split at h
  · cases h
  · next hne =>
    split at h
    · cases h
    · next hfits => exact ⟨hne, Nat.le_of_not_lt hfits, (FrameRead.frame.inj h).symm⟩

/-! ### One turn of the loop -/

section Turn

variable {limit : ℕ} {frame : List UInt8} (reader : Reads)

/-- A turn refuses the line exactly if what it takes of it is over the limit. -/
theorem turn_exceeds (hlimit : frame.length ≤ limit) (available : List UInt8) :
    (limit < (extend limit frame available).length ∨
        limit + 1 - frame.length < lineLength available) ↔
      limit < frame.length + lineLength available := by
  have hle := lineLength_le available
  unfold extend
  rw [length_append, length_take]
  omega

theorem extend_fits {available : List UInt8} (h : frame.length + lineLength available ≤ limit) :
    extend limit frame available = frame ++ available.take (lineLength available) := by
  unfold extend
  rw [Nat.min_eq_left (by omega)]

section

variable (hline : newline ∉ frame)
include hline

theorem lineLength_available :
    frame.length + lineLength reader.available ≤ lineLength (frame ++ reader.bytes) := by
  rw [lineLength_append hline, reader.bytes_eq]
  rcases line_cases reader.available reader.reads.tail.flatten with ⟨_, -⟩ | ⟨hnot, _⟩
  · omega
  · rw [lineLength_append hnot]
    omega

theorem nextLine_exceeds (hsome : reader.available ≠ [])
    (h : limit < frame.length + lineLength reader.available) :
    nextLine limit (frame ++ reader.bytes) = .limitExceeded := by
  have hle := lineLength_available reader hline
  have hne : frame ++ reader.bytes ≠ [] := by
    rw [reader.bytes_eq]
    simp [hsome]
  unfold nextLine
  rw [if_neg hne, if_pos (by omega)]

theorem nextLine_ends (hsome : reader.available ≠ [])
    (hlast : (frame ++ reader.available.take (lineLength reader.available)).getLast? =
      some newline) :
    lineLength (frame ++ reader.bytes) = frame.length + lineLength reader.available := by
  rw [lineLength_append hline, reader.bytes_eq]
  rcases line_cases reader.available reader.reads.tail.flatten with ⟨heq, -⟩ | ⟨hnot, heq⟩
  · rw [heq]
  · rw [heq, take_length, getLast?_append_of_ne_nil _ hsome] at hlast
    exact absurd (mem_of_getLast? hlast) hnot

/-- A turn that does not has only moved the boundary between the frame and the reads. -/
theorem turn_goesOn (hsome : reader.available ≠ [])
    (hlast : (frame ++ reader.available.take (lineLength reader.available)).getLast? ≠
      some newline) : newline ∉ frame ++ reader.available.take (lineLength reader.available) ∧
      frame ++ reader.available.take (lineLength reader.available) ++
          (reader.consume (lineLength reader.available)).bytes = frame ++ reader.bytes := by
  have hle := lineLength_le reader.available
  constructor
  · rcases line_cases reader.available [] with ⟨-, hends⟩ | ⟨hnot, -⟩
    · rw [getLast?_append_of_ne_nil _ (take_lineLength_ne_nil hsome)] at hlast
      exact absurd hends hlast
    · intro h
      rcases List.mem_append.mp h with h | h
      · exact hline h
      · exact hnot (mem_of_mem_take h)
  · rw [Reads.bytes_consume hle, append_assoc, reader.bytes_eq,
      drop_append_of_le_length hle, ← append_assoc (List.take _ _), take_append_drop]

end

end Turn

/-- The loop returns what the frame so far and the rest of the stream begin with. -/
theorem readRequestFrame_spec {limit : ℕ} (frame : List UInt8) (reader : Reads)
    (hline : newline ∉ frame) (hlimit : frame.length ≤ limit) :
    (readRequestFrame limit frame reader).1 = nextLine limit (frame ++ reader.bytes) ∧
      (nextLine limit (frame ++ reader.bytes) ≠ .limitExceeded →
        (readRequestFrame limit frame reader).2.bytes =
          (frame ++ reader.bytes).drop (lineLength (frame ++ reader.bytes))) := by
  induction frame, reader using readRequestFrame.induct limit with
  | case1 frame _ hnone =>
    have hlength := lineLength_append hline ([] : List UInt8)
    have hnil : lineLength [] = 0 := rfl
    rw [append_nil, hnil, Nat.add_zero] at hlength
    rw [readRequestFrame, dif_pos hnone, Reads.bytes_eq_nil hnone, append_nil, nextLine,
      hlength, if_neg (by omega : ¬ limit < frame.length), take_length, drop_length]
    exact ⟨rfl, fun _ => rfl⟩
  | case2 _ reader hsome _ hexceeds =>
    have hrefused := nextLine_exceeds reader hline hsome ((turn_exceeds hlimit _).mp hexceeds)
    rw [readRequestFrame, dif_neg hsome]
    dsimp only
    rw [if_pos hexceeds, hrefused]
    exact ⟨rfl, fun h => absurd rfl h⟩
  | case3 frame reader hsome _ hfits hlast =>
    have hover := mt (turn_exceeds hlimit _).mpr hfits
    have hframe := extend_fits (Nat.le_of_not_lt hover)
    have hle := lineLength_le reader.available
    rw [readRequestFrame, dif_neg hsome]
    dsimp only
    rw [if_neg hfits, if_pos hlast]
    have hlength := nextLine_ends reader hline hsome (hframe ▸ hlast)
    have hne : frame ++ reader.bytes ≠ [] := by
      rw [reader.bytes_eq]
      simp [hsome]
    have hrest : reader.bytes.take (lineLength reader.available) =
        reader.available.take (lineLength reader.available) := by
      rw [reader.bytes_eq, take_append_of_le_length hle]
    rw [nextLine, if_neg hne, hlength, if_neg hover, Reads.bytes_consume hle, hframe,
      take_length_add_append, drop_length_add_append, hrest]
    exact ⟨rfl, fun _ => rfl⟩
  | case4 frame reader hsome frame' _ hfits hlast ih =>
    have hover := mt (turn_exceeds hlimit _).mpr hfits
    have hframe : frame' = frame ++ reader.available.take (lineLength reader.available) :=
      extend_fits (Nat.le_of_not_lt hover)
    obtain ⟨hline', hbytes⟩ := turn_goesOn reader hline hsome (hframe ▸ hlast)
    rw [readRequestFrame, dif_neg hsome]
    dsimp only
    rw [if_neg hfits, if_neg hlast, ← hbytes, ← hframe]
    refine ih (hframe ▸ hline') ?_
    rw [hframe, length_append, length_take]
    omega

/-! ### All frames of a stream -/

theorem readRequestFrame_shorter {limit : ℕ} {reader : Reads} {bytes : List UInt8}
    (h : (readRequestFrame limit [] reader).1 = .frame bytes) :
    (readRequestFrame limit [] reader).2.bytes.length < reader.bytes.length := by
  obtain ⟨hread, hrest⟩ := readRequestFrame_spec [] reader (not_mem_nil) (Nat.zero_le limit)
  rw [nil_append, h] at hread
  rw [nil_append, ← hread] at hrest
  have hne : reader.bytes ≠ [] := by
    intro hnil
    rw [hnil] at hread
    cases hread
  have hpos := lineLength_pos hne
  have hlength := List.length_pos_iff.mpr hne
  rw [hrest (by simp), length_drop]
  omega

/-- The frames a connection reads until it stops, and why it stops. -/
def readFrames (limit : ℕ) (reader : Reads) : List (List UInt8) × FrameRead :=
  match _h : (readRequestFrame limit [] reader).1 with
  | .frame bytes =>
    let later := readFrames limit (readRequestFrame limit [] reader).2
    (bytes :: later.1, later.2)
  | stop => ([], stop)
termination_by reader.bytes.length
decreasing_by exact readRequestFrame_shorter _h

/-- The lines of a stream, with their newlines; the last may have none. -/
def lines (bytes : List UInt8) : List (List UInt8) :=
  if _h : bytes = [] then []
  else bytes.take (lineLength bytes) :: lines (bytes.drop (lineLength bytes))
termination_by bytes.length
decreasing_by
  have := lineLength_pos _h
  have := List.length_pos_iff.mpr _h
  rw [length_drop]
  omega

theorem lines_of_ne_nil {bytes : List UInt8} (h : bytes ≠ []) :
    lines bytes = bytes.take (lineLength bytes) :: lines (bytes.drop (lineLength bytes)) := by
  rw [lines, dif_neg h]

theorem lines_flatten (bytes : List UInt8) : (lines bytes).flatten = bytes := by
  induction bytes using lines.induct with
  | case1 => simp [lines]
  | case2 _ h ih =>
    rw [lines_of_ne_nil h, flatten_cons, ih, take_append_drop]

theorem take_lineLength (bytes : List UInt8) :
    ∃ before, newline ∉ before ∧ (bytes.take (lineLength bytes) = before ++ [newline] ∨
      bytes = before ∧ bytes.drop (lineLength bytes) = []) := by
  unfold lineLength
  cases hfind : bytes.findIdx? (· = newline) with
  | none =>
    refine ⟨bytes, fun hmem => ?_, Or.inr ⟨rfl, drop_length⟩⟩
    simpa using List.findIdx?_eq_none_iff.mp hfind newline hmem
  | some i =>
    obtain ⟨hlt, hi, hbefore⟩ := List.findIdx?_eq_some_iff_getElem.mp hfind
    refine ⟨bytes.take i, fun hmem => ?_, Or.inl ?_⟩
    · obtain ⟨j, _, hnewline⟩ := List.mem_take_iff_getElem.mp hmem
      exact hbefore j (by omega) (decide_eq_true hnewline)
    · show bytes.take (i + 1) = bytes.take i ++ [newline]
      rw [take_succ_eq_append_getElem hlt, of_decide_eq_true hi]

/-- Every line but the last ends in its only newline; the last may lack it. -/
theorem lines_shape (bytes : List UInt8) {before after : List (List UInt8)} {line : List UInt8}
    (h : lines bytes = before ++ line :: after) :
    line ≠ [] ∧ ∃ text, newline ∉ text ∧ (line = text ++ [newline] ∨ line = text ∧ after = []) := by
  induction bytes using lines.induct generalizing before with
  | case1 => simp [lines] at h
  | case2 _ hne ih =>
    rw [lines_of_ne_nil hne] at h
    cases before with
    | cons => exact ih (List.cons.inj h).2
    | nil =>
      obtain ⟨rfl, rfl⟩ := List.cons.inj h
      refine ⟨take_lineLength_ne_nil hne, ?_⟩
      obtain ⟨text, hclean, heq | ⟨heq, hend⟩⟩ := take_lineLength _
      · exact ⟨text, hclean, Or.inl heq⟩
      · refine ⟨text, hclean, Or.inr ⟨?_, by rw [hend, lines, dif_pos rfl]⟩⟩
        rw [← heq, ← append_nil (List.take _ _), ← hend, take_append_drop]

theorem readFrames_eq (limit : ℕ) (reader : Reads) :
    readFrames limit reader = ((lines reader.bytes).takeWhile (·.length ≤ limit),
      if ∀ line ∈ lines reader.bytes, line.length ≤ limit then .closed else .limitExceeded) := by
  induction reader using readFrames.induct limit with
  | case1 reader bytes h ih =>
    obtain ⟨hread, hrest⟩ := readRequestFrame_spec [] reader not_mem_nil (Nat.zero_le limit)
    rw [nil_append, h] at hread
    rw [nil_append, ← hread] at hrest
    obtain ⟨hne, _, rfl⟩ := nextLine_frame hread.symm
    have hlength : (reader.bytes.take (lineLength reader.bytes)).length ≤ limit := by
      rw [length_take]
      omega
    rw [readFrames]
    split
    · next bytes' h' =>
      obtain rfl := FrameRead.frame.inj (h.symm.trans h')
      rw [ih, hrest (by simp), lines_of_ne_nil hne]
      simp only [takeWhile_cons, hlength, decide_true, if_true, forall_mem_cons, true_and]
    · next h' => exact absurd h (h' _)
  | case2 reader h =>
    obtain ⟨hread, -⟩ := readRequestFrame_spec [] reader not_mem_nil (Nat.zero_le limit)
    rw [nil_append] at hread
    rw [readFrames]
    split
    · next bytes' h' => exact absurd h' (h bytes')
    rw [hread]
    rw [hread] at h
    unfold nextLine at h ⊢
    by_cases hnil : reader.bytes = []
    · simp [hnil, lines]
    rw [if_neg hnil] at h ⊢
    by_cases hover : limit < lineLength reader.bytes
    · have hlength : ¬ (reader.bytes.take (lineLength reader.bytes)).length ≤ limit := by
        have := lineLength_le reader.bytes
        rw [length_take]
        omega
      rw [if_pos hover, lines_of_ne_nil hnil]
      simp only [takeWhile_cons, hlength, decide_false, forall_mem_cons, false_and,
        if_false, Bool.false_eq_true]
    · rw [if_neg hover] at h
      exact absurd rfl (h _)

/-- The frame and the reader at the head of the loop, turn after turn. -/
inductive Turns (limit : ℕ) (reader : Reads) : List UInt8 → Reads → Prop
  | start : Turns limit reader [] reader
  | goesOn {frame : List UInt8} {rest : Reads} : Turns limit reader frame rest →
      rest.available ≠ [] → (extend limit frame rest.available).length ≤ limit →
      lineLength rest.available ≤ limit + 1 - frame.length →
      (extend limit frame rest.available).getLast? ≠ some newline →
      Turns limit reader (extend limit frame rest.available)
        (rest.consume (lineLength rest.available))

theorem turns_length {limit : ℕ} {reader rest : Reads} {frame : List UInt8}
    (h : Turns limit reader frame rest) : frame.length ≤ limit := by
  cases h with
  | start => exact Nat.zero_le _
  | goesOn _ _ hlength => exact hlength

theorem length_extend (limit : ℕ) {frame available : List UInt8} (h : frame.length ≤ limit) :
    (extend limit frame available).length ≤ limit + 1 := by
  unfold extend
  rw [length_append, length_take]
  omega

/-- However the reads split the stream, the frames of a connection are its lines up to the first
that is over the limit, with an unended last line as it is; the connection stops there, or at the
end. No turn of the loop holds more than one byte over the limit. -/
theorem readFrames_chunk_invariant (reader : Reads) : readFrames maxRequestFrameBytes reader =
        ((lines reader.bytes).takeWhile (·.length ≤ maxRequestFrameBytes),
          if ∀ line ∈ lines reader.bytes, line.length ≤ maxRequestFrameBytes then .closed
          else .limitExceeded) ∧ (lines reader.bytes).flatten = reader.bytes ∧
      (∀ before line after, lines reader.bytes = before ++ line :: after →
        line ≠ [] ∧ ∃ text, newline ∉ text ∧
          (line = text ++ [newline] ∨ line = text ∧ after = [])) ∧
      (∀ other : Reads, other.bytes = reader.bytes →
        readFrames maxRequestFrameBytes other = readFrames maxRequestFrameBytes reader) ∧
      ∀ frame rest, Turns maxRequestFrameBytes reader frame rest →
        (extend maxRequestFrameBytes frame rest.available).length ≤ maxRequestFrameBytes + 1 := by
  refine ⟨readFrames_eq _ reader, lines_flatten _, fun _ _ _ h => lines_shape _ h, ?_,
    fun frame rest h => length_extend _ (turns_length h)⟩
  intro _ hbytes
  rw [readFrames_eq, readFrames_eq, hbytes]

theorem lines_joined {messages : List (List UInt8)} (h : ∀ message ∈ messages, newline ∉ message) :
    lines (messages.flatMap (· ++ [newline])) = messages.map (· ++ [newline]) := by
  induction messages with
  | nil => simp [lines]
  | cons message messages ih =>
    obtain ⟨hclean, hrest⟩ := forall_mem_cons.mp h
    have hlength : lineLength (newline :: messages.flatMap (· ++ [newline])) = 1 := by
      simp [lineLength, findIdx?_cons]
    rw [flatMap_cons, append_assoc, singleton_append, lines_of_ne_nil (by simp),
      lineLength_append hclean, hlength, take_length_add_append, drop_length_add_append, drop_one,
      tail_cons, ih hrest]
    rfl

/-- Messages without a newline, each ended by one, are read back one by one, wherever the reads
end. -/
theorem readFrames_joined {limit : ℕ} (reader : Reads) (messages : List (List UInt8))
    (h : ∀ message ∈ messages, newline ∉ message ∧ message.length < limit)
    (hbytes : reader.bytes = messages.flatMap (· ++ [newline])) :
    readFrames limit reader = (messages.map (· ++ [newline]), .closed) := by
  have hfits : ∀ line ∈ messages.map (· ++ [newline]), line.length ≤ limit := by
    simpa [Nat.succ_le_iff] using fun message hmessage => (h message hmessage).2
  rw [readFrames_eq, hbytes, lines_joined fun message hmessage => (h message hmessage).1,
    if_pos hfits, takeWhile_eq_self_iff.mpr fun line hline => decide_eq_true (hfits line hline)]

theorem readFrames_joined_two :
    readFrames 3 ⟨[[65], [10, 66, 67, 10]], by decide⟩ = ([[65, 10], [66, 67, 10]], .closed) :=
  readFrames_joined _ [[65], [66, 67]] (by decide) (by decide)

end Vivido.Ipc
