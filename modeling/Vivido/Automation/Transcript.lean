import Mathlib.Data.List.DropRight
import Vivido.Automation.Hub

/-!
The transcript of a window's output: the newest bytes of the stream, addressed by their
offsets in it. The bytes lie in a ring whose two runs meet at a seam; a read copies from
each run what it has of the range.
-/

namespace Vivido.Automation

open List

/-- `TRANSCRIPT_CAPACITY` -/
def transcriptCapacity : ℕ := 1024 * 1024

structure Transcript where
  bytes : List UInt8 := []
  oldestOffset : ℕ := 0
  endOffset : ℕ := 0
  deriving DecidableEq, Repr

/-- The `IpcError` of a range that starts before the window. -/
structure SequenceGap where
  code : String
  message : String
  requestedOffset : ℕ
  oldestOffset : ℕ
  endOffset : ℕ
  deriving DecidableEq, Repr

structure TranscriptSnapshot where
  oldestOffset : ℕ
  startOffset : ℕ
  endOffset : ℕ
  returnedEndOffset : ℕ
  truncated : Bool
  data : List UInt8
  deriving DecidableEq, Repr

/-- The elements from one index to before another. -/
def slice {α : Type*} (l : List α) (start stop : ℕ) : List α := (l.take stop).drop start

namespace Transcript

def append (t : Transcript) (bytes : List UInt8) : Transcript :=
  let endOffset := saturatingAdd t.endOffset bytes.length
  let kept :=
    if transcriptCapacity ≤ bytes.length then bytes.drop (bytes.length - transcriptCapacity)
    else
      let overflow := saturatingAdd t.bytes.length bytes.length - transcriptCapacity
      t.bytes.drop overflow ++ bytes
  { bytes := kept
    oldestOffset := endOffset - kept.length
    endOffset }

/-- `range`, where the first run of the ring ends at the seam. -/
def range (t : Transcript) (seam start maxBytes : ℕ) : Except SequenceGap (List UInt8) :=
  if start < t.oldestOffset then
    .error {
      code := "sequence_gap"
      message := "transcript offset " ++ toString start ++
        " was evicted; oldest retained offset is " ++ toString t.oldestOffset
      requestedOffset := start
      oldestOffset := t.oldestOffset
      endOffset := t.endOffset }
  else
    let relative := min (start - t.oldestOffset) t.bytes.length
    let stop := min (saturatingAdd relative maxBytes) t.bytes.length
    let front := t.bytes.take seam
    let back := t.bytes.drop seam
    .ok ((if relative < front.length then slice front relative (min stop front.length) else []) ++
      (if front.length < stop then slice back (relative - front.length) (stop - front.length)
        else []))

def snapshot (t : Transcript) (seam : ℕ) (afterOffset : Option ℕ) (maxBytes : ℕ) :
    Except SequenceGap TranscriptSnapshot := do
  let start := match afterOffset with
    | some offset => offset
    | none => max (t.endOffset - maxBytes) t.oldestOffset
  let data ← t.range seam start maxBytes
  let returnedEnd := saturatingAdd start data.length
  return {
    oldestOffset := t.oldestOffset
    startOffset := start
    endOffset := t.endOffset
    returnedEndOffset := returnedEnd
    truncated := t.oldestOffset < start || returnedEnd < t.endOffset
    data }

def run (chunks : List (List UInt8)) : Transcript := chunks.foldl append {}

/-! ### The window -/

/-- The transcript holds the longest suffix of the stream that fits, at its offsets. -/
structure Windows (t : Transcript) (stream : List UInt8) : Prop where
  stop : t.endOffset = stream.length
  bytes : t.bytes = slice stream t.oldestOffset t.endOffset
  fits : t.bytes.length ≤ transcriptCapacity
  longest : ∀ suffix, suffix <:+ stream → suffix.length ≤ transcriptCapacity →
    t.oldestOffset ≤ stream.length - suffix.length

variable {α : Type*}

variable (l front : List α) (t : Transcript) (chunks : List (List UInt8)) (back : List α)
  (start : ℕ)

theorem slice_to_end : slice l start l.length = l.drop start := by
  rw [slice, take_length]

theorem slice_eq_nil {start stop : ℕ} (h : stop ≤ start) : slice l start stop = [] := by
  rw [slice, drop_eq_nil_iff, length_take]
  omega

theorem slice_append (stop : ℕ) : slice (front ++ back) start stop =
      slice front start (min stop front.length) ++
        slice back (start - front.length) (stop - front.length) := by
  rw [slice, take_append, drop_append, slice, slice]
  by_cases hstop : stop ≤ front.length
  · rw [Nat.min_eq_left hstop, Nat.sub_eq_zero_of_le hstop, take_zero, drop_nil,
      drop_nil]
  · have hall : (front.take stop).length = front.length := by
      rw [length_take]
      omega
    rw [Nat.min_eq_right (by omega), take_of_length_le (by omega), take_length]

/-- What a read copies from the two runs is the range of the bytes. -/
theorem copied_eq_slice (stop : ℕ) :
    (if start < front.length then slice front start (min stop front.length) else []) ++
      (if front.length < stop then
        slice back (start - front.length) (stop - front.length) else []) =
      slice (front ++ back) start stop := by
  rw [slice_append]
  congr 1
  · split
    · rfl
    · exact (slice_eq_nil front (by omega)).symm
  · split
    · rfl
    · exact (slice_eq_nil back (by omega)).symm

theorem slice_drop (from' start stop : ℕ) :
    slice (l.drop from') start stop = slice l (from' + start) (from' + stop) := by
  rw [slice, slice, take_drop, drop_drop]

/-! ### What is appended -/

/-- The transcript keeps the end of what it had and was given. -/
theorem bytes_append (chunk : List UInt8) (hfits : t.bytes.length ≤ transcriptCapacity) :
    (t.append chunk).bytes = (t.bytes ++ chunk).rtake transcriptCapacity := by
  rw [append, List.rtake]
  dsimp only
  split
  · next hlong =>
    have hpast : t.bytes.length ≤ (t.bytes ++ chunk).length - transcriptCapacity := by
      rw [length_append]
      omega
    have hskip : (t.bytes ++ chunk).length - transcriptCapacity - t.bytes.length =
        chunk.length - transcriptCapacity := by
      rw [length_append]
      omega
    rw [drop_append, drop_eq_nil_of_le hpast, nil_append, hskip]
  · next hshort =>
    have hcapacity : transcriptCapacity = 1048576 := rfl
    have hsum : saturatingAdd t.bytes.length chunk.length = t.bytes.length + chunk.length := by
      rw [saturatingAdd]
      omega
    rw [hsum, length_append, drop_append_of_le_length (by omega)]

theorem length_rtake (count : ℕ) : (l.rtake count).length = min count l.length := by
  rw [List.rtake, length_drop]
  omega

theorem rtake_rtake_append (count : ℕ) :
    (front.rtake count ++ back).rtake count = (front ++ back).rtake count := by
  rw [rtake_eq_reverse_take_reverse, rtake_eq_reverse_take_reverse (front ++ back),
    reverse_append, reverse_append, rtake_eq_reverse_take_reverse front,
    reverse_reverse, take_append, take_append, take_take,
    Nat.min_eq_left (Nat.sub_le _ _)]

/-- The newest bytes that fit are the transcript's; only the end's offset may be capped. -/
theorem bytes_run : (run chunks).bytes = chunks.flatten.rtake transcriptCapacity := by
  induction chunks using List.reverseRecOn with
  | nil => rfl
  | append_singleton chunks chunk ih =>
    have hfits : (run chunks).bytes.length ≤ transcriptCapacity := by
      rw [ih, length_rtake]
      exact Nat.min_le_left _ _
    rw [run, foldl_concat]
    change ((run chunks).append chunk).bytes = _
    rw [bytes_append _ chunk hfits, ih, rtake_rtake_append, flatten_concat]

theorem endOffset_run : (run chunks).endOffset = min chunks.flatten.length (2 ^ 64 - 1) := by
  induction chunks using List.reverseRecOn with
  | nil => rfl
  | append_singleton chunks chunk ih =>
    rw [run, foldl_concat]
    change saturatingAdd (run chunks).endOffset chunk.length = _
    rw [ih, saturatingAdd, flatten_concat, length_append]
    omega

theorem oldestOffset_run :
    (run chunks).oldestOffset = (run chunks).endOffset - (run chunks).bytes.length := by
  rcases eq_nil_or_concat chunks with rfl | ⟨_, _, rfl⟩
  · rfl
  · rw [concat_eq_append, run, foldl_concat]
    rfl

/-- The window of a stream whose end has an offset. -/
theorem windows_run (h : chunks.flatten.length < 2 ^ 64) : (run chunks).Windows chunks.flatten := by
  have hstop : (run chunks).endOffset = chunks.flatten.length := by
    rw [endOffset_run]
    omega
  have hlength : (run chunks).bytes.length = min transcriptCapacity chunks.flatten.length := by
    rw [bytes_run, length_rtake]
  have holdest : (run chunks).oldestOffset = chunks.flatten.length - transcriptCapacity := by
    rw [oldestOffset_run, hstop, hlength]
    omega
  refine ⟨hstop, ?_, ?_, ?_⟩
  · rw [hstop, holdest, slice_to_end, bytes_run, List.rtake]
  · rw [hlength]
    exact Nat.min_le_left _ _
  · intro _ _ _
    rw [holdest]
    omega

/-! ### What is read -/

theorem range_eq (seam start maxBytes : ℕ) (h : t.oldestOffset ≤ start) :
    t.range seam start maxBytes = .ok (slice t.bytes (min (start - t.oldestOffset) t.bytes.length)
      (min (saturatingAdd (min (start - t.oldestOffset) t.bytes.length) maxBytes)
        t.bytes.length)) := by
  rw [range, if_neg (Nat.not_lt.mpr h)]
  dsimp only
  rw [copied_eq_slice, take_append_drop]

/-- What a range of the window returns: the stream's bytes from the start on. -/
theorem Windows.read {t : Transcript} {stream : List UInt8} (h : t.Windows stream) (seam start : ℕ)
    (maxBytes : ℕ) (hstart : t.oldestOffset ≤ start) : t.range seam start maxBytes =
      .ok (slice stream start (min (start + maxBytes) t.endOffset)) := by
  have hbytes : t.bytes = stream.drop t.oldestOffset := by
    rw [h.bytes, h.stop, slice_to_end]
  have hlength : t.bytes.length = t.endOffset - t.oldestOffset := by
    rw [hbytes, length_drop, h.stop]
  have hfits : t.bytes.length ≤ 1048576 := h.fits
  rw [range_eq t seam start maxBytes hstart, saturatingAdd]
  by_cases hinside : start < t.endOffset
  · have hrelative : min (start - t.oldestOffset) t.bytes.length = start - t.oldestOffset := by
      omega
    have hstop : min (min (start - t.oldestOffset + maxBytes) (2 ^ 64 - 1)) t.bytes.length =
        min (start + maxBytes) t.endOffset - t.oldestOffset := by
      omega
    rw [hrelative, hstop, hbytes, slice_drop, Nat.add_sub_cancel' hstart,
      Nat.add_sub_cancel' (by omega)]
  · rw [slice_eq_nil t.bytes (by omega), slice_eq_nil stream (by omega)]

theorem refused_iff (seam start maxBytes : ℕ) :
    (∃ gap, t.range seam start maxBytes = .error gap) ↔ start < t.oldestOffset := by
  constructor
  · rintro ⟨_, hgap⟩
    by_contra hstart
    rw [range_eq t seam start maxBytes (Nat.not_lt.mp hstart)] at hgap
    cases hgap
  · intro hstart
    rw [range, if_pos hstart]
    exact ⟨_, rfl⟩

end Transcript

/-- The snapshot's offsets are those of its bytes in the stream, as many as were asked for and are
there, and it is truncated if a byte of the window is not among them. -/
structure TranscriptSnapshot.Honest (snapshot : TranscriptSnapshot) (t : Transcript)
    (stream : List UInt8) (maxBytes : ℕ) : Prop where
  oldest : snapshot.oldestOffset = t.oldestOffset
  stop : snapshot.endOffset = t.endOffset
  inside : t.oldestOffset ≤ snapshot.startOffset ∧ snapshot.returnedEndOffset ≤ t.endOffset
  data : snapshot.data = slice stream snapshot.startOffset snapshot.returnedEndOffset
  returned : snapshot.returnedEndOffset = snapshot.startOffset + snapshot.data.length
  most : snapshot.data.length = min maxBytes (t.endOffset - snapshot.startOffset)
  truncated : snapshot.truncated = true ↔ ∃ offset, t.oldestOffset ≤ offset ∧ offset < t.endOffset ∧
    ¬ (snapshot.startOffset ≤ offset ∧ offset < snapshot.returnedEndOffset)

namespace Transcript

def snapshotStart (t : Transcript) (afterOffset : Option ℕ) (maxBytes : ℕ) : ℕ :=
  afterOffset.getD (max (t.endOffset - maxBytes) t.oldestOffset)

/-- The transcript of a stream: its window, and what ranges and snapshots of it return. -/
structure Exact (t : Transcript) (stream : List UInt8) : Prop where
  windows : t.Windows stream
  refused : ∀ seam start maxBytes,
    (∃ gap, t.range seam start maxBytes = .error gap) ↔ start < t.oldestOffset
  read : ∀ seam start maxBytes, t.oldestOffset ≤ start →
    t.range seam start maxBytes = .ok (slice stream start (min (start + maxBytes) t.endOffset))
  snapshot_refused : ∀ seam afterOffset maxBytes,
    (∃ gap, t.snapshot seam afterOffset maxBytes = .error gap) ↔
      t.snapshotStart afterOffset maxBytes < t.oldestOffset
  snapshot : ∀ seam afterOffset maxBytes, (∀ offset ∈ afterOffset, offset ≤ t.endOffset) →
    t.oldestOffset ≤ t.snapshotStart afterOffset maxBytes →
    ∃ snapshot, t.snapshot seam afterOffset maxBytes = .ok snapshot ∧
      snapshot.startOffset = t.snapshotStart afterOffset maxBytes ∧
      snapshot.Honest t stream maxBytes

theorem snapshot_eq (t : Transcript) (seam : ℕ) (afterOffset : Option ℕ) (maxBytes : ℕ) :
    t.snapshot seam afterOffset maxBytes =
      (t.range seam (t.snapshotStart afterOffset maxBytes) maxBytes).map fun data => {
        oldestOffset := t.oldestOffset, startOffset := t.snapshotStart afterOffset maxBytes
        endOffset := t.endOffset
        returnedEndOffset := saturatingAdd (t.snapshotStart afterOffset maxBytes) data.length
        truncated := t.oldestOffset < t.snapshotStart afterOffset maxBytes ||
          saturatingAdd (t.snapshotStart afterOffset maxBytes) data.length < t.endOffset
        data } := by
  cases afterOffset <;> rfl

theorem length_slice {α : Type*} (l : List α) {start stop : ℕ} (h : stop ≤ l.length) :
    (slice l start stop).length = stop - start := by
  rw [slice, length_drop, length_take, Nat.min_eq_left h]

theorem Windows.snapshot {t : Transcript} {stream : List UInt8} (h : t.Windows stream)
    (hshort : stream.length < 2 ^ 64) (seam : ℕ) (afterOffset : Option ℕ) (maxBytes : ℕ)
    (hafter : ∀ offset ∈ afterOffset, offset ≤ t.endOffset)
    (hstart : t.oldestOffset ≤ t.snapshotStart afterOffset maxBytes) :
    ∃ snapshot, t.snapshot seam afterOffset maxBytes = .ok snapshot ∧
      snapshot.startOffset = t.snapshotStart afterOffset maxBytes ∧
      snapshot.Honest t stream maxBytes := by
  have holdest : t.oldestOffset ≤ t.endOffset := by
    have hempty := h.longest [] nil_suffix (Nat.zero_le _)
    rw [h.stop]
    exact hempty
  have hwithin : t.snapshotStart afterOffset maxBytes ≤ t.endOffset := by
    cases afterOffset with
    | none =>
      rw [snapshotStart, Option.getD_none]
      omega
    | some offset => exact hafter offset rfl
  have hstop := h.stop
  obtain ⟨start, hname⟩ : ∃ start, start = t.snapshotStart afterOffset maxBytes := ⟨_, rfl⟩
  obtain ⟨stop, hstops⟩ : ∃ stop, stop = min (start + maxBytes) t.endOffset := ⟨_, rfl⟩
  rw [snapshot_eq, ← hname, h.read seam start maxBytes (hname ▸ hstart), ← hstops]
  rw [← hname] at hstart hwithin
  have hlength : (slice stream start stop).length = stop - start := length_slice stream (by omega)
  have hreturned : saturatingAdd start (slice stream start stop).length = stop := by
    rw [hlength, saturatingAdd]
    omega
  simp only [Except.map, hreturned]
  refine ⟨_, rfl, rfl, rfl, rfl, ⟨hstart, ?_⟩, rfl, ?_, ?_, ?_⟩
  · change stop ≤ t.endOffset
    omega
  · change stop = start + (slice stream start stop).length
    omega
  · change (slice stream start stop).length = min maxBytes (t.endOffset - start)
    omega
  simp only [Bool.or_eq_true, decide_eq_true_eq]
  constructor
  · rintro (hbefore | hafter)
    · exact ⟨t.oldestOffset, Nat.le_refl _, by omega, by omega⟩
    · exact ⟨stop, by omega, hafter, by omega⟩
  · rintro ⟨_, _, _, _⟩
    omega

/-- A transcript of a stream that is short enough for its offsets is exact. -/
theorem transcript_exact (chunks : List (List UInt8)) (h : chunks.flatten.length < 2 ^ 64) :
    (run chunks).Exact chunks.flatten := by
  have hwindows := windows_run chunks h
  refine ⟨hwindows, (run chunks).refused_iff, hwindows.read, ?_, hwindows.snapshot h⟩
  intro seam afterOffset maxBytes
  rw [snapshot_eq, ← (run chunks).refused_iff seam _ maxBytes]
  cases (run chunks).range seam ((run chunks).snapshotStart afterOffset maxBytes) maxBytes with
  | error gap => exact iff_of_true ⟨gap, rfl⟩ ⟨gap, rfl⟩
  | ok => exact iff_of_false (fun ⟨_, hgap⟩ => by cases hgap) (fun ⟨_, hgap⟩ => by cases hgap)

theorem transcript_exact_abcdef : (run [[97, 98, 99], [100, 101, 102]]).Exact
    [97, 98, 99, 100, 101, 102] :=
  transcript_exact [[97, 98, 99], [100, 101, 102]] (by decide)

/-- The end of a stream of `2 ^ 64` bytes, written one by one, has no offset. -/
theorem transcript_end_capped :
    ¬ (run (List.replicate (2 ^ 64) [0])).Exact (List.replicate (2 ^ 64) [0]).flatten := by
  intro h
  have hstop := h.windows.stop
  have hlength : (List.replicate (2 ^ 64) [(0 : UInt8)]).flatten.length = 2 ^ 64 := by
    rw [length_flatten, map_replicate, sum_replicate_nat, length_singleton,
      Nat.mul_one]
  rw [endOffset_run, hlength] at hstop
  omega

/-! ### Reading on -/

inductive Turn where
  | append (chunk : List UInt8)
  | read (seam maxBytes : ℕ)

/-- The chunks of a stream and a client that asks for what comes after what it has read. -/
structure Following where
  chunks : List (List UInt8) := []
  offset : ℕ := 0
  received : List UInt8 := []

namespace Following

def turn (f : Following) : Turn → Following
  | .append chunk => { f with chunks := f.chunks ++ [chunk] }
  | .read seam maxBytes =>
    match (Transcript.run f.chunks).snapshot seam (some f.offset) maxBytes with
    | .ok read => { f with offset := read.returnedEndOffset, received := f.received ++ read.data }
    | .error _ => f

/-- The client has the bytes before its offset. -/
def Exact (f : Following) : Prop := f.chunks.flatten.length < 2 ^ 64 →
  f.offset ≤ f.chunks.flatten.length ∧ f.received = f.chunks.flatten.take f.offset

theorem Exact.turn {f : Following} (h : f.Exact) (turn : Turn) : (f.turn turn).Exact := by
  intro hshort
  cases turn with
  | append chunk =>
    simp only [Following.turn, flatten_concat, length_append] at hshort ⊢
    obtain ⟨hoffset, hreceived⟩ := h (by omega)
    exact ⟨by omega, hreceived.trans (take_append_of_le_length hoffset).symm⟩
  | read seam maxBytes =>
    unfold Following.turn at hshort ⊢
    dsimp only at hshort ⊢
    split at hshort
    · next read hread =>
      obtain ⟨hoffset, hreceived⟩ := h hshort
      have hwindows := windows_run f.chunks hshort
      have hstart : (run f.chunks).oldestOffset ≤ f.offset := by
        by_contra hgap
        obtain ⟨_, hrefused⟩ := (refused_iff _ seam f.offset maxBytes).mpr (Nat.lt_of_not_le hgap)
        rw [snapshot_eq, snapshotStart, Option.getD_some, hrefused] at hread
        cases hread
      obtain ⟨_, hsnapshot, hfrom, hhonest⟩ := hwindows.snapshot hshort seam (some f.offset) maxBytes
        (fun _ hafter => Option.some.inj hafter ▸ hwindows.stop ▸ hoffset) hstart
      cases hread.symm.trans hsnapshot
      have hlater : f.offset ≤ read.returnedEndOffset := by
        rw [hhonest.returned, hfrom]
        exact Nat.le_add_right ..
      have htake := take_append_drop f.offset (take read.returnedEndOffset f.chunks.flatten)
      rw [take_take, Nat.min_eq_left hlater] at htake
      refine ⟨hwindows.stop ▸ hhonest.inside.2, ?_⟩
      dsimp only
      rw [hhonest.data, hfrom, hreceived]
      exact htake
    · exact h hshort

end Following

/-- Whatever is appended between its reads, the client has the stream up to its offset, each byte
once. -/
theorem following_exact (turns : List Turn) : (turns.foldl Following.turn {}).Exact := by
  induction turns using List.reverseRecOn with
  | nil => exact fun _ => ⟨Nat.zero_le _, rfl⟩
  | append_singleton _ turn ih =>
    rw [foldl_concat]
    exact ih.turn turn

end Transcript

end Vivido.Automation
