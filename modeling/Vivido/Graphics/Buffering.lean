import Vivido.Graphics.Inflating
import Vivido.Graphics.Quads
import Vivido.Support.Since

/-!
How much a transmission holds. Whole quads are checked against the limit before
they are decoded; the tail of a chunk is not, and may run past it. The pixels of
a 24-bit image stay within the limit even so, because their tail waits to be
widened.
-/

namespace Vivido.Graphics

open List

/-- What arrives of a transmission: a fragment of a chunk, or the end of one. -/
inductive Arrival where
  | fragment (payload : List UInt8)
  | chunkEnd
  deriving DecidableEq, Repr

namespace Load

/-- The transmission after something arrived. -/
def arrive (decoders : Decoders) (load : Load) : Arrival → Load
  | .fragment payload => load.push decoders payload
  | .chunkEnd => load.endChunk decoders

/-- The transmission that a command starts, after all that arrived. -/
def arrived (decoders : Decoders) (start : Command) (arrivals : List Arrival) : Load :=
  arrivals.foldl (arrive decoders) (begin start)

/-- Whether what an arrival stores unchecked fits: the tail of a chunk that is stored as it is. -/
def TailFits (decoders : Decoders) (load : Load) : Arrival → Prop
  | .fragment _ => True
  | .chunkEnd => load.target ≠ .rgb → load.isRejected = false →
      ∀ bytes, decoders.base64 load.pending = some bytes →
        load.buf.length + bytes.length ≤ load.limit

instance (decoders : Decoders) (load : Load) (arrival : Arrival) :
    Decidable (load.TailFits decoders arrival) :=
  match arrival with
  | .fragment _ => isTrue trivial
  | .chunkEnd => decidable_of_iff (load.target ≠ .rgb → load.isRejected = false →
      (decoders.base64 load.pending).all fun bytes =>
        load.buf.length + bytes.length ≤ load.limit) (by
    unfold TailFits
    cases decoders.base64 load.pending <;> simp)

variable {decoders : Decoders} {load : Load}

/-! ### Widening -/

theorem widenPixels_nil_of_short {rgb : List UInt8} (h : rgb.length < 3) : widenPixels rgb = [] := by
  match rgb, h with
  | [], _ | [_], _ | [_, _], _ => rfl

theorem length_widenPixels_eq (rgb : List UInt8) :
    (widenPixels rgb).length = rgb.length / 3 * 4 := by
  induction rgb using widenPixels.induct with
  | case1 _ _ _ rgb ih =>
    change (widenPixels rgb).length + 4 = (rgb.length + 3) / 3 * 4
    rw [ih]
    omega
  | case2 rgb hshort =>
    match rgb, hshort with
    | [], _ | [_], _ | [_, _], _ => simp [widenPixels]
    | red :: green :: blue :: rest, hshort => exact (hshort red green blue rest rfl).elim

/-! ### What always holds of what is held -/

/-- Less than a quad waits, a refused transmission holds nothing, and a 24-bit one holds whole
pixels and less than one more; between chunks it may be two bytes over. -/
structure Staged (load : Load) : Prop where
  pending : load.pending.length < 4
  rejected : load.isRejected = true → load.buf = []
  pixels : load.target = .rgb → load.buf.length % 4 = 0
  staging : load.target = .rgb → load.rgb.length < 3
  stored : load.target = .rgb →
    load.buf.length / 4 * 3 + load.rgb.length ≤ load.limit / 4 * 3 + 2
  within : load.target = .rgb → load.pending ≠ [] →
    load.buf.length / 4 * 3 + load.rgb.length ≤ load.limit / 4 * 3

/-- Pixels stay within the limit whatever the tails of their chunks. -/
theorem Staged.rgb_within (h : load.Staged) (hrgb : load.target = .rgb) :
    load.buf.length ≤ load.limit := by
  have hpixels := h.pixels hrgb
  have hstored := h.stored hrgb
  omega

theorem staged_reject (failure : Failure) (hpending : load.pending.length < 4)
    (hrejected : load.isRejected = true → load.buf = []) : (load.reject failure).Staged := by
  unfold reject
  split
  · rename_i h
    have hrgb : load.target ≠ .rgb := by
      intro heq
      unfold isRejected at h
      rw [heq] at h
      cases h
    exact ⟨hpending, hrejected, fun heq => (hrgb heq).elim, fun heq => (hrgb heq).elim,
      fun heq => (hrgb heq).elim, fun heq => (hrgb heq).elim⟩
  · exact ⟨hpending, fun _ => rfl, nofun, nofun, nofun, nofun⟩

theorem buf_reject (failure : Failure) (hrejected : load.isRejected = true → load.buf = []) :
    (load.reject failure).buf = [] := by
  unfold reject
  split
  · exact hrejected ‹_›
  · rfl

@[simp] theorem scan_buf (load : Load) : load.scan.buf = load.buf := by
  unfold scan
  split <;> rfl

@[simp] theorem scan_pending (load : Load) : load.scan.pending = load.pending := by
  unfold scan
  split <;> rfl

@[simp] theorem scan_target (load : Load) : load.scan.target = load.target := by
  unfold scan
  split <;> rfl

@[simp] theorem scan_limit (load : Load) : load.scan.limit = load.limit := by
  unfold scan
  split <;> rfl

/-- Bytes staged and widened: as many pixels and bytes of one as were received. -/
theorem stored_widen (load : Load) (hpixels : load.buf.length % 4 = 0) :
    load.widen.buf.length % 4 = 0 ∧ load.widen.rgb.length < 3 ∧
      load.widen.buf.length / 4 * 3 + load.widen.rgb.length =
        load.buf.length / 4 * 3 + load.rgb.length := by
  unfold widen
  dsimp only
  rw [length_append, length_widenPixels_eq, length_drop]
  omega

theorem isRejected_iff : load.isRejected = true ↔ ∃ failure, load.target = .rejected failure := by
  unfold isRejected
  split
  · rename_i failure h
    exact ⟨fun _ => ⟨failure, h⟩, fun _ => rfl⟩
  · rename_i h
    exact ⟨nofun, fun ⟨failure, hfailure⟩ => (h failure hfailure).elim⟩

/-- What a fragment can do. -/
theorem push_cases (decoders : Decoders) (load : Load) (payload : List UInt8) :
    (load.isRejected = true ∧ load.push decoders payload = load) ∨
      (∃ pending failure, (pending = load.pending ∨ pending = []) ∧
        load.push decoders payload = ({ load with pending := pending } : Load).reject failure) ∨
      ∃ bytes pending, Base64Stream.push decoders load.pending payload = .ok (bytes, pending) ∧
          (load.target = .rgb ∧ load.buf.length / 4 * 3 + load.rgb.length +
                Base64Stream.bound load.pending payload.length ≤ load.limit / 4 * 3 ∧
              load.push decoders payload =
                ({ load with pending := pending, rgb := load.rgb ++ bytes } : Load).widen ∨
            load.target ≠ .rgb ∧ load.isRejected = false ∧
              load.buf.length + Base64Stream.bound load.pending payload.length ≤ load.limit ∧
              load.push decoders payload =
                ({ load with pending := pending, buf := load.buf ++ bytes } : Load).scan) := by
  unfold push
  cases hdecode : load.decode decoders payload with
  | error failure =>
    refine Or.inr (Or.inl ?_)
    dsimp only
    split
    · exact ⟨[], failure, Or.inr rfl, rfl⟩
    · exact ⟨load.pending, failure, Or.inl rfl, rfl⟩
  | ok load' =>
    unfold decode at hdecode
    split at hdecode
    · rename_i failure htarget
      cases hdecode
      exact Or.inl ⟨isRejected_iff.mpr ⟨failure, htarget⟩, rfl⟩
    · rename_i htarget
      dsimp only at hdecode
      split at hdecode
      · cases hdecode
      · rename_i hroom
        obtain ⟨⟨bytes, pending⟩, hpush, rfl⟩ := ok_of_map hdecode
        exact Or.inr (Or.inr ⟨bytes, pending, hpush,
          Or.inl ⟨htarget, Nat.le_of_not_lt hroom, rfl⟩⟩)
    · rename_i haccepted hrgb
      split at hdecode
      · cases hdecode
      rename_i hroom
      obtain ⟨⟨bytes, pending⟩, hpush, rfl⟩ := ok_of_map hdecode
      have hrejected : load.isRejected = false := Bool.eq_false_iff.mpr fun h =>
        (isRejected_iff.mp h).elim fun failure hfailure => haccepted failure hfailure
      exact Or.inr (Or.inr ⟨bytes, pending, hpush,
        Or.inr ⟨hrgb, hrejected, Nat.le_of_not_lt hroom, rfl⟩⟩)

theorem endChunk_cases (decoders : Decoders) (load : Load) :
    (load.isRejected = true ∧ load.endChunk decoders = { load with pending := [] }) ∨
      (decoders.base64 load.pending = none ∧ load.isRejected = false ∧ ∃ failure,
        load.endChunk decoders = ({ load with pending := [] } : Load).reject failure) ∨
      ∃ bytes, decoders.base64 load.pending = some bytes ∧
        (load.target = .rgb ∧ load.endChunk decoders =
            ({ load with pending := [], rgb := load.rgb ++ bytes } : Load).widen ∨
          load.target ≠ .rgb ∧ load.isRejected = false ∧ load.endChunk decoders =
            ({ load with pending := [], buf := load.buf ++ bytes } : Load).scan) := by
  have hrejected : (∀ failure, load.target ≠ .rejected failure) → load.isRejected = false :=
    fun haccepted => Bool.eq_false_iff.mpr fun h =>
      (isRejected_iff.mp h).elim fun failure hfailure => haccepted failure hfailure
  unfold endChunk
  cases hdecode : load.decodeTail decoders with
  | error failure =>
    unfold decodeTail at hdecode
    have hnone : ∀ {f : List UInt8 → Load},
        (Base64Stream.finish decoders load.pending).map f = .error failure →
          decoders.base64 load.pending = none := by
      intro f h
      unfold Base64Stream.finish at h
      cases hbase : decoders.base64 load.pending with
      | none => rfl
      | some =>
        rw [hbase] at h
        cases h
    split at hdecode
    · cases hdecode
    · rename_i htarget
      exact Or.inr (Or.inl ⟨hnone hdecode, hrejected (by simp [htarget]), failure, rfl⟩)
    · rename_i haccepted _
      exact Or.inr (Or.inl ⟨hnone hdecode, hrejected haccepted, failure, rfl⟩)
  | ok load' =>
    unfold decodeTail at hdecode
    have hsome : ∀ {f : List UInt8 → Load},
        (Base64Stream.finish decoders load.pending).map f = .ok load' →
          ∃ bytes, decoders.base64 load.pending = some bytes ∧ load' = f bytes := by
      intro f h
      obtain ⟨bytes, hbytes, rfl⟩ := ok_of_map h
      exact ⟨bytes, Base64Stream.decodeText_ok.mp hbytes, rfl⟩
    split at hdecode
    · rename_i failure htarget
      cases hdecode
      exact Or.inl ⟨isRejected_iff.mpr ⟨failure, htarget⟩, rfl⟩
    · rename_i htarget
      obtain ⟨bytes, hbytes, rfl⟩ := hsome hdecode
      exact Or.inr (Or.inr ⟨bytes, hbytes, Or.inl ⟨htarget, rfl⟩⟩)
    · rename_i haccepted hrgb
      obtain ⟨bytes, hbytes, rfl⟩ := hsome hdecode
      exact Or.inr (Or.inr ⟨bytes, hbytes, Or.inr ⟨hrgb, hrejected haccepted, rfl⟩⟩)

/-! ### One arrival -/

theorem limit_reject (load : Load) (failure : Failure) : (load.reject failure).limit = load.limit := by
  unfold reject
  split <;> rfl

theorem limit_arrive (decoders : Decoders) (load : Load) (arrival : Arrival) :
    (load.arrive decoders arrival).limit = load.limit := by
  cases arrival with
  | fragment payload =>
    change (load.push decoders payload).limit = load.limit
    rcases push_cases decoders load payload with ⟨-, h⟩ | ⟨_, _, -, h⟩ |
      ⟨_, _, -, ⟨-, -, h⟩ | ⟨-, -, -, h⟩⟩ <;> rw [h]
    · exact limit_reject _ _
    · rfl
    · exact scan_limit _
  | chunkEnd =>
    change (load.endChunk decoders).limit = load.limit
    rcases endChunk_cases decoders load with ⟨-, h⟩ | ⟨-, -, _, h⟩ |
      ⟨_, -, ⟨-, h⟩ | ⟨-, -, h⟩⟩ <;> rw [h]
    · exact limit_reject _ _
    · rfl
    · exact scan_limit _

/-- A transmission that stores what it receives as it is. -/
theorem staged_scan (htarget : load.target ≠ .rgb) (hpending : load.pending.length < 4)
    (hrejected : load.isRejected = false) : load.scan.Staged := by
  refine ⟨by rw [scan_pending]; exact hpending, fun h => ?_, ?_, ?_, ?_, ?_⟩
  · unfold isRejected at h hrejected
    rw [scan_target, hrejected] at h
    cases h
  all_goals
    rw [scan_target]
    exact fun heq => (htarget heq).elim

theorem staged_arrive (hdec : decoders.QuadWise) (h : load.Staged) (arrival : Arrival) :
    (load.arrive decoders arrival).Staged := by
  have hnotRejected : load.target = .rgb → load.isRejected = false := by
    intro htarget
    unfold isRejected
    rw [htarget]
  cases arrival with
  | fragment payload =>
    change (load.push decoders payload).Staged
    rcases push_cases decoders load payload with ⟨-, heq⟩ | ⟨pending, failure, hpending, heq⟩ |
      ⟨bytes, pending, hpush, ⟨htarget, _, heq⟩ | ⟨htarget, hrejected, -, heq⟩⟩ <;> rw [heq]
    · exact h
    · refine staged_reject failure ?_ h.rejected
      rcases hpending with rfl | rfl
      · exact h.pending
      · exact Nat.zero_lt_succ 3
    · obtain ⟨_, hpending⟩ := Base64Stream.push_bound hdec h.pending hpush
      obtain ⟨hpixels, hstaging, hstored⟩ := stored_widen
        { load with pending := pending, rgb := load.rgb ++ bytes } (h.pixels htarget)
      have hwithin : load.buf.length / 4 * 3 + (load.rgb ++ bytes).length ≤
          load.limit / 4 * 3 := by
        rw [length_append]
        omega
      refine ⟨hpending, fun hbad => ?_, fun _ => hpixels, fun _ => hstaging, fun _ => ?_,
        fun _ _ => ?_⟩
      · change load.isRejected = true at hbad
        rw [hnotRejected htarget] at hbad
        cases hbad
      · rw [hstored]
        exact Nat.le_add_right_of_le hwithin
      · rw [hstored]
        exact hwithin
    · exact staged_scan htarget (Base64Stream.push_bound hdec h.pending hpush).2 hrejected
  | chunkEnd =>
    change (load.endChunk decoders).Staged
    rcases endChunk_cases decoders load with ⟨hrejected, heq⟩ | ⟨-, -, failure, heq⟩ |
      ⟨bytes, hbytes, ⟨htarget, heq⟩ | ⟨htarget, hrejected, heq⟩⟩ <;> rw [heq]
    · have hrgb : load.target ≠ .rgb := fun htarget => by
        rw [hnotRejected htarget] at hrejected
        cases hrejected
      exact ⟨Nat.zero_lt_succ 3, h.rejected, fun heq => (hrgb heq).elim,
        fun heq => (hrgb heq).elim, fun heq => (hrgb heq).elim, fun heq => (hrgb heq).elim⟩
    · exact staged_reject failure (Nat.zero_lt_succ 3) h.rejected
    · obtain ⟨hpixels, hstaging, hstored⟩ := stored_widen
        { load with pending := [], rgb := load.rgb ++ bytes } (h.pixels htarget)
      have hshort := hdec.short hbytes
      have hpending := h.pending
      refine ⟨Nat.zero_lt_succ 3, fun hbad => ?_, fun _ => hpixels, fun _ => hstaging,
        fun _ => ?_, fun _ hne => (hne rfl).elim⟩
      · change load.isRejected = true at hbad
        rw [hnotRejected htarget] at hbad
        cases hbad
      rw [hstored]
      dsimp only
      rw [length_append]
      -- A tail of two bytes follows a quad that was checked.
      by_cases hnone : load.pending = []
      · have hstored := h.stored htarget
        rw [hnone, length_nil] at hshort
        change _ ≤ load.limit / 4 * 3 + 2
        omega
      · have hwithin := h.within htarget hnone
        change _ ≤ load.limit / 4 * 3 + 2
        omega
    · exact staged_scan htarget (Nat.zero_lt_succ 3) hrejected

/-- Within the limit, an arrival stays within it if and only if the tail it stores fits. -/
theorem within_arrive_iff (hdec : decoders.QuadWise) (h : load.Staged)
    (hwithin : load.buf.length ≤ load.limit) (arrival : Arrival) :
    (load.arrive decoders arrival).buf.length ≤ load.limit ↔ load.TailFits decoders arrival := by
  have hnext := staged_arrive hdec h arrival
  have hlimit := limit_arrive decoders load arrival
  cases arrival with
  | fragment payload =>
    refine iff_of_true ?_ trivial
    change (load.push decoders payload).buf.length ≤ load.limit
    rcases push_cases decoders load payload with ⟨-, heq⟩ | ⟨pending, failure, -, heq⟩ |
      ⟨bytes, pending, hpush, ⟨htarget, -, heq⟩ | ⟨-, -, _, heq⟩⟩
    · rw [heq]
      exact hwithin
    · have hempty : (({ load with pending := pending } : Load).reject failure).buf = [] :=
        buf_reject failure h.rejected
      rw [heq, hempty]
      exact Nat.zero_le _
    · rw [← hlimit]
      refine hnext.rgb_within ?_
      change (load.push decoders payload).target = .rgb
      rw [heq]
      exact htarget
    · have hbound := (Base64Stream.push_bound hdec h.pending hpush).1
      rw [heq, scan_buf]
      dsimp only
      rw [length_append]
      omega
  | chunkEnd =>
    change (load.endChunk decoders).buf.length ≤ load.limit ↔ _
    unfold TailFits
    rcases endChunk_cases decoders load with ⟨hrejected, heq⟩ | ⟨hnone, -, failure, heq⟩ |
      ⟨bytes, hbytes, ⟨htarget, heq⟩ | ⟨htarget, hrejected, heq⟩⟩
    · rw [heq, hrejected]
      exact iff_of_true hwithin nofun
    · have hempty : (({ load with pending := [] } : Load).reject failure).buf = [] :=
        buf_reject failure h.rejected
      rw [heq, hempty, hnone]
      exact iff_of_true (Nat.zero_le _) nofun
    · refine iff_of_true ?_ fun hne => (hne htarget).elim
      rw [← hlimit]
      refine hnext.rgb_within ?_
      change (load.endChunk decoders).target = .rgb
      rw [heq]
      exact htarget
    · rw [heq, scan_buf, hbytes]
      dsimp only
      rw [length_append]
      constructor
      · rintro hfits - - _ hother
        cases hother
        exact hfits
      · exact fun hfits => hfits htarget hrejected bytes rfl

/-! ### Every sequence -/

theorem staged_begin (start : Command) : (begin start).Staged := by
  unfold begin
  split
  · exact ⟨Nat.zero_lt_succ 3, fun _ => rfl, fun _ => rfl, fun _ => Nat.zero_lt_succ 2,
      fun _ => by simp, fun _ hne => (hne rfl).elim⟩
  · exact ⟨Nat.zero_lt_succ 3, fun _ => rfl, nofun, nofun, nofun, nofun⟩

theorem arrived_concat (start : Command) (arrivals : List Arrival) (arrival : Arrival) :
    arrived decoders start (arrivals ++ [arrival]) =
      (arrived decoders start arrivals).arrive decoders arrival :=
  foldl_concat ..

theorem staged_arrived (hdec : decoders.QuadWise) (start : Command) (arrivals : List Arrival) :
    (arrived decoders start arrivals).Staged := by
  induction arrivals using List.reverseRecOn with
  | nil => exact staged_begin start
  | append_singleton _ arrival ih =>
    rw [arrived_concat]
    exact staged_arrive hdec ih arrival

/-- A transmission never holds more than its limit if and only if no tail that is stored runs past
it; and a stream inflates to no more than its limit in every case. -/
theorem buffered_within_iff (hdec : decoders.QuadWise) (start : Command)
    (arrivals : List Arrival) (inflater : Inflater) :
    ((∀ n, (arrived decoders start (arrivals.take n)).buf.length ≤
          (arrived decoders start (arrivals.take n)).limit) ↔
        Throughout (arrived decoders start) (TailFits decoders) arrivals) ∧
      ∀ data limit, ∃ result, inflateBounded inflater data limit = some result ∧
        ∀ bytes, result = .ok bytes → bytes.length ≤ limit := by
  refine ⟨?_, inflateBounded_ends inflater⟩
  refine throughout_iff_always (fun arrivals => (arrived decoders start arrivals).buf.length ≤
    (arrived decoders start arrivals).limit) ?_ fun arrivals arrival hwithin => ?_
  · unfold arrived begin
    dsimp only [foldl_nil]
    split <;> exact Nat.zero_le _
  · rw [arrived_concat, limit_arrive]
    exact within_arrive_iff hdec (staged_arrived hdec start arrivals) hwithin arrival

/-- An inflater that never gets anywhere. -/
def stalled : Inflater where
  State := Unit
  new := ()
  totalIn := fun _ => 0
  decompress := fun _ _ _ => some ((), [], .bufError)
  spare := by
    intro _ _ room _ _ _ h
    cases h
    exact Nat.zero_le room

/-- The command of one 32-bit pixel. -/
def onePixel : Command := { format := 32, dataWidth := 1, dataHeight := 1 }

theorem buffered_within_pixel :
    Throughout (arrived Decoders.uncompressed onePixel) (TailFits Decoders.uncompressed)
        [.fragment ("AAAAAA".toList.map ascii), .chunkEnd] ∧
      ∀ n, (arrived Decoders.uncompressed onePixel
          ([.fragment ("AAAAAA".toList.map ascii), .chunkEnd].take n)).buf.length ≤
        (arrived Decoders.uncompressed onePixel
          ([.fragment ("AAAAAA".toList.map ascii), .chunkEnd].take n)).limit := by
  have hfits : Throughout (arrived Decoders.uncompressed onePixel)
      (TailFits Decoders.uncompressed)
      [.fragment ("AAAAAA".toList.map ascii), .chunkEnd] := by decide +kernel
  exact ⟨hfits, (buffered_within_iff quadWise_uncompressed onePixel _ stalled).1.mpr hfits⟩

/-- A chunk of three symbols, after sixteen bytes that fill the buffer. -/
theorem buffered_past_limit : ¬(arrived Decoders.uncompressed onePixel
        [.fragment ("AAAAAAAAAAAAAAAAAAAAAA".toList.map ascii), .chunkEnd,
          .fragment ("AAA".toList.map ascii), .chunkEnd]).buf.length ≤
      (arrived Decoders.uncompressed onePixel
        [.fragment ("AAAAAAAAAAAAAAAAAAAAAA".toList.map ascii), .chunkEnd,
          .fragment ("AAA".toList.map ascii), .chunkEnd]).limit := by
  decide +kernel

end Load

end Vivido.Graphics
