import Vivido.Graphics.Buffering

/-!
Raw pixels from fragments. However the chunks of a transmission are cut, what is
held after a fragment is what the quads so far decode to, widened if the pixels
have 24 bits, and the opacity of the whole pixels among it; the transmission is
refused exactly when the quads of a chunk run past the slack.
-/

namespace Vivido.Graphics

open List

/-! ### Pixels of a stream -/

theorem widenPixels_append {front : List UInt8} (back : List UInt8) (h : front.length % 3 = 0) :
    widenPixels (front ++ back) = widenPixels front ++ widenPixels back := by
  induction front using widenPixels.induct with
  | case1 _ _ _ rest ih =>
    have hrest : rest.length % 3 = 0 := by
      simp only [length_cons] at h
      omega
    simp only [cons_append, widenPixels, ih hrest]
  | case2 front hshort =>
    rcases front with _ | ⟨_, _ | ⟨_, _ | _⟩⟩
    · rfl
    · simp at h
    · simp at h
    · exact (hshort _ _ _ _ rfl).elim

theorem allOpaque_append {front : List UInt8} (back : List UInt8) (h : front.length % 4 = 0) :
    allOpaque (front ++ back) = (allOpaque front && allOpaque back) := by
  induction front using allOpaque.induct with
  | case1 _ _ _ _ rest ih =>
    have hrest : rest.length % 4 = 0 := by
      simp only [length_cons] at h
      omega
    simp only [cons_append, allOpaque, ih hrest, Bool.and_assoc]
  | case2 front hshort =>
    rcases front with _ | ⟨red, _ | ⟨green, _ | ⟨blue, _ | ⟨alpha, rest⟩⟩⟩⟩
    · rfl
    · cases h
    · cases h
    · cases h
    · exact (hshort red green blue alpha rest rfl).elim

/-- The opacity of a buffer is that of each of its pixels. -/
theorem allOpaque_iff {pixels : ℕ} {rgba : List UInt8} (h : rgba.length = pixels * 4) :
    allOpaque rgba = true ↔ ∀ i < pixels, rgba[4 * i + 3]? = some 255 := by
  induction pixels generalizing rgba with
  | zero =>
    rw [Nat.zero_mul, length_eq_zero_iff] at h
    subst h
    exact iff_of_true rfl fun i hi => (Nat.not_lt_zero i hi).elim
  | succ pixels ih =>
    obtain ⟨red, green, blue, alpha, rest, rfl⟩ :
        ∃ red green blue alpha rest, rgba = red :: green :: blue :: alpha :: rest := by
      rcases rgba with _ | ⟨red, _ | ⟨green, _ | ⟨blue, _ | ⟨alpha, rest⟩⟩⟩⟩
      all_goals simp only [length_cons, length_nil] at h
      · omega
      · omega
      · omega
      · omega
      · exact ⟨red, green, blue, alpha, rest, rfl⟩
    have hrest : rest.length = pixels * 4 := by
      simp only [length_cons] at h
      omega
    unfold allOpaque
    rw [Bool.and_eq_true, decide_eq_true_eq, ih hrest]
    constructor
    · rintro ⟨rfl, hall⟩ i hi
      cases i with
      | zero => rfl
      | succ i => exact hall i (by omega)
    · intro hall
      refine ⟨?_, fun i hi => hall (i + 1) (by omega)⟩
      exact Option.some_inj.mp (hall 0 (Nat.zero_lt_succ pixels))

theorem allOpaque_widenPixels (rgb : List UInt8) : allOpaque (widenPixels rgb) = true := by
  induction rgb using widenPixels.induct with
  | case1 _ _ _ _ ih =>
    simp only [widenPixels, allOpaque, ih, decide_true, Bool.and_self]
  | case2 rgb hshort =>
    rcases rgb with _ | ⟨_, _ | ⟨_, _ | _⟩⟩
    · rfl
    · rfl
    · rfl
    · exact (hshort _ _ _ _ rfl).elim

/-- The pixels widened so far, and those of a stream cut off after a number of them. -/
theorem take_widenPixels (rgb : List UInt8) (pixels : ℕ) :
    (widenPixels rgb).take (pixels * 4) = widenPixels (rgb.take (pixels * 3)) := by
  induction pixels generalizing rgb with
  | zero => simp [widenPixels]
  | succ pixels ih =>
    rcases rgb with _ | ⟨_, _ | ⟨_, _ | _⟩⟩
    · simp [widenPixels]
    · rw [take_of_length_le (by simp [widenPixels]), take_of_length_le (by simp; omega)]
    · rw [take_of_length_le (by simp [widenPixels]), take_of_length_le (by simp; omega)]
    · have hfour : (pixels + 1) * 4 = pixels * 4 + 1 + 1 + 1 + 1 := by omega
      have hthree : (pixels + 1) * 3 = pixels * 3 + 1 + 1 + 1 := by omega
      rw [hfour, hthree]
      simp only [widenPixels, take_succ_cons, ih]

namespace Load

/-! ### What is held -/

/-- A transmission of raw pixels that holds what a stream has come to. -/
structure Holding (start : Command) (plan : Target × ℕ × ℕ) (load : Load)
    (stream pending : List UInt8) : Prop where
  start : load.start = start
  target : load.target = plan.1
  expected : load.expected = plan.2.1
  limit : load.limit = plan.2.2
  pending : load.pending = pending
  rgb : plan.1 = .rgb → load.buf = widenPixels stream ∧
    load.rgb = stream.drop (stream.length / 3 * 3) ∧ load.isOpaque = true
  rgba : plan.1 = .rgba → load.buf = stream ∧
    load.scanned = min (stream.length / 4 * 4) plan.2.1 ∧
    load.isOpaque = allOpaque (stream.take load.scanned)

/-- The most received bytes that whole quads may come to. -/
def allowance (plan : Target × ℕ × ℕ) : ℕ :=
  if plan.1 = .rgb then plan.2.2 / 4 * 3 else plan.2.2

/-- A plan for raw pixels, of a size in whole pixels. -/
structure Raw (plan : Target × ℕ × ℕ) : Prop where
  target : plan.1 = .rgba ∨ plan.1 = .rgb
  expected : plan.2.1 % 4 = 0

variable {decoders : Decoders} {start : Command} {plan : Target × ℕ × ℕ} {load : Load}
  {stream pending : List UInt8}

section

variable (h : Holding start plan load stream pending)
include h

theorem Holding.accepted (hraw : Raw plan) : load.isRejected = false := by
  unfold isRejected
  rw [h.target]
  rcases hraw.target with htarget | htarget <;> rw [htarget]

/-- Bytes staged and widened are those of the stream. -/
theorem Holding.stored (hrgb : plan.1 = .rgb) :
    load.buf.length / 4 * 3 + load.rgb.length = stream.length := by
  obtain ⟨hbuf, hstaging, -⟩ := h.rgb hrgb
  rw [hbuf, hstaging, length_widenPixels_eq, length_drop]
  omega

/-- More bytes of 24-bit pixels. -/
theorem Holding.widen (hrgb : plan.1 = .rgb) (bytes pending' : List UInt8) :
    Holding start plan ({ load with pending := pending', rgb := load.rgb ++ bytes } : Load).widen
      (stream ++ bytes) pending' := by
  obtain ⟨hbuf, hstaging, hopacity⟩ := h.rgb hrgb
  refine ⟨h.start, h.target, h.expected, h.limit, rfl, fun _ => ⟨?_, ?_, hopacity⟩,
    fun htarget => ?_⟩
  · have hwhole : (stream.take (stream.length / 3 * 3)).length % 3 = 0 := by
      rw [length_take]
      omega
    have hrest : widenPixels (stream.drop (stream.length / 3 * 3)) = [] := by
      refine widenPixels_nil_of_short ?_
      rw [length_drop]
      omega
    have hstream : widenPixels stream = widenPixels (stream.take (stream.length / 3 * 3)) := by
      have happend := widenPixels_append (stream.drop (stream.length / 3 * 3)) hwhole
      rw [take_append_drop, hrest, append_nil] at happend
      exact happend
    change load.buf ++ widenPixels (load.rgb ++ bytes) = widenPixels (stream ++ bytes)
    rw [hbuf, hstaging, hstream, ← widenPixels_append _ hwhole, ← append_assoc,
      take_append_drop]
  · change (load.rgb ++ bytes).drop ((load.rgb ++ bytes).length / 3 * 3) = _
    have hlength : (load.rgb ++ bytes).length / 3 * 3 + stream.length / 3 * 3 =
        (stream ++ bytes).length / 3 * 3 := by
      rw [hstaging, length_append, length_append, length_drop]
      omega
    have hshorter : stream.length / 3 * 3 ≤ stream.length := by omega
    rw [← hlength, Nat.add_comm, ← drop_drop, drop_append_of_le_length hshorter,
      ← hstaging]
  · rw [hrgb] at htarget
    cases htarget

/-- More bytes of 32-bit pixels, whose opacity is looked at as they come. -/
theorem Holding.scan (hraw : Raw plan)
    (hrgba : plan.1 = .rgba) (bytes pending' : List UInt8) :
    Holding start plan ({ load with pending := pending', buf := load.buf ++ bytes } : Load).scan
      (stream ++ bytes) pending' := by
  obtain ⟨hbuf, hscanned, hopacity⟩ := h.rgba hrgba
  have htarget : load.target = .rgba := h.target.trans hrgba
  unfold Load.scan
  dsimp only
  rw [if_neg (not_not.mpr htarget)]
  refine ⟨h.start, h.target, h.expected, h.limit, rfl, fun htarget => ?_, fun _ => ?_⟩
  · rw [hrgba] at htarget
    cases htarget
  have hexpected := hraw.expected
  dsimp only
  rw [h.expected, hbuf, hscanned] at *
  have hlater : min (stream.length / 4 * 4) plan.2.1 ≤
      min ((stream ++ bytes).length / 4 * 4) plan.2.1 := by
    rw [length_append]
    omega
  rw [Nat.max_eq_left hlater]
  refine ⟨rfl, rfl, ?_⟩
  generalize hearlier : min (stream.length / 4 * 4) plan.2.1 = earlier at *
  generalize hstop : min ((stream ++ bytes).length / 4 * 4) plan.2.1 = stop at *
  have hsame : (stream ++ bytes).take earlier = stream.take earlier :=
    take_append_of_le_length (by omega)
  have hsplit : (stream ++ bytes).take stop =
      stream.take earlier ++ ((stream ++ bytes).take stop).drop earlier := by
    rw [← hsame]
    have hprefix := take_append_drop earlier ((stream ++ bytes).take stop)
    rw [take_take, Nat.min_eq_left hlater] at hprefix
    exact hprefix.symm
  have hwhole : (stream.take earlier).length % 4 = 0 := by
    rw [length_take]
    omega
  have hall : allOpaque ((stream ++ bytes).take stop) =
      (load.isOpaque && allOpaque (((stream ++ bytes).take stop).drop earlier)) := by
    rw [hopacity]
    exact (congrArg allOpaque hsplit).trans (allOpaque_append _ hwhole)
  rw [hall]
  split
  · rename_i hmore
    rw [hmore.1, Bool.true_and]
  rename_i hno
  cases hold : load.isOpaque with
  | false => rfl
  | true =>
    have hend : earlier = stop := by
      by_contra hne
      exact hno ⟨hold, by omega⟩
    rw [hend, drop_of_length_le (length_take_le ..)]
    rfl

end

/-! ### A fragment, and the end of a chunk -/

theorem decode_rgb (h : load.target = .rgb) (payload : List UInt8) : load.decode decoders payload =
      if load.limit / 4 * 3 < load.buf.length / 4 * 3 + load.rgb.length +
          Base64Stream.bound load.pending payload.length then .error .tooMuchData
      else (Base64Stream.push decoders load.pending payload).map fun (bytes, pending) =>
        ({ load with pending := pending, rgb := load.rgb ++ bytes } : Load).widen := by
  unfold decode
  split
  · rename_i failure hrejected
    cases h.symm.trans hrejected
  · rfl
  · rename_i hrgb
    exact (hrgb h).elim

theorem decode_stored (h : load.target ≠ .rgb) (haccepted : load.isRejected = false)
    (payload : List UInt8) : load.decode decoders payload =
      if load.limit < load.buf.length + Base64Stream.bound load.pending payload.length then
        .error .tooMuchData
      else (Base64Stream.push decoders load.pending payload).map fun (bytes, pending) =>
        ({ load with pending := pending, buf := load.buf ++ bytes } : Load).scan := by
  unfold decode
  split
  · rename_i failure hrejected
    rw [isRejected_iff.mpr ⟨failure, hrejected⟩] at haccepted
    cases haccepted
  · rename_i hrgb
    exact (h hrgb).elim
  · rfl

theorem decodeTail_rgb (h : load.target = .rgb) : load.decodeTail decoders =
    (Base64Stream.finish decoders load.pending).map fun bytes =>
      ({ load with pending := [], rgb := load.rgb ++ bytes } : Load).widen := by
  unfold decodeTail
  split
  · rename_i failure hrejected
    cases h.symm.trans hrejected
  · rfl
  · rename_i hrgb
    exact (hrgb h).elim

theorem decodeTail_stored (h : load.target ≠ .rgb) (haccepted : load.isRejected = false) :
    load.decodeTail decoders = (Base64Stream.finish decoders load.pending).map fun bytes =>
      ({ load with pending := [], buf := load.buf ++ bytes } : Load).scan := by
  unfold decodeTail
  split
  · rename_i failure hrejected
    rw [isRejected_iff.mpr ⟨failure, hrejected⟩] at haccepted
    cases haccepted
  · rename_i hrgb
    exact (h hrgb).elim
  · rfl

variable (text : List UInt8) {bytes : List UInt8}

/-- A fragment of valid text is decoded if its quads are within the allowance; if not, refused. -/
theorem push_holding (hdec : decoders.QuadWise) (hraw : Raw plan)
    (h : Holding start plan load stream pending) (hpending : pending.length < 4)
    {payload : List UInt8} (hvalid : decoders.base64
      ((pending ++ payload).take ((pending ++ payload).length / 4 * 4)) = some bytes) :
    (stream.length + (pending ++ payload).length / 4 * 3 ≤ allowance plan →
      Holding start plan (load.push decoders payload) (stream ++ bytes)
        ((pending ++ payload).drop ((pending ++ payload).length / 4 * 4))) ∧
      (allowance plan < stream.length + (pending ++ payload).length / 4 * 3 →
        (load.push decoders payload).isRejected = true) := by
  have hpush := Base64Stream.push_valid hdec hpending hvalid
  have hbound : Base64Stream.bound load.pending payload.length =
      (pending ++ payload).length / 4 * 3 := by
    rw [h.pending, length_append]
    rfl
  rw [← h.pending] at hpush
  rw [← hbound, ← h.pending]
  generalize (load.pending ++ payload).drop ((load.pending ++ payload).length / 4 * 4) = rest
    at hpush ⊢
  unfold allowance push
  rw [← h.limit]
  rcases hraw.target with hrgba | hrgb
  · have htarget := h.target.trans hrgba
    have hlength : load.buf.length = stream.length := by rw [(h.rgba hrgba).1]
    rw [decode_stored (by rw [htarget]; nofun) (h.accepted hraw), hlength, hrgba,
      if_neg nofun]
    constructor
    · intro hfits
      rw [if_neg (Nat.not_lt.mpr hfits), hpush]
      exact h.scan hraw hrgba bytes rest
    · intro hover
      rw [if_pos hover]
      exact isRejected_reject _ _
  · have htarget := h.target.trans hrgb
    rw [decode_rgb htarget, h.stored hrgb, hrgb, if_pos rfl]
    constructor
    · intro hfits
      rw [if_neg (Nat.not_lt.mpr hfits), hpush]
      exact h.widen hrgb bytes rest
    · intro hover
      rw [if_pos hover]
      exact isRejected_reject _ _

theorem endChunk_holding (hraw : Raw plan) (h : Holding start plan load stream pending)
    (hvalid : decoders.base64 pending = some bytes) :
    Holding start plan (load.endChunk decoders) (stream ++ bytes) [] := by
  have hfinish : Base64Stream.finish decoders load.pending = .ok bytes :=
    Base64Stream.decodeText_ok.mpr (by rw [h.pending]; exact hvalid)
  unfold endChunk
  rcases hraw.target with hrgba | hrgb
  · have htarget := h.target.trans hrgba
    rw [decodeTail_stored (by rw [htarget]; nofun) (h.accepted hraw), hfinish]
    exact h.scan hraw hrgba bytes []
  · rw [decodeTail_rgb (h.target.trans hrgb), hfinish]
    exact h.widen hrgb bytes []

/-- A refused transmission swallows what follows. -/
theorem isRejected_push (h : load.isRejected = true) (payload : List UInt8) :
    (load.push decoders payload).isRejected = true := by
  obtain ⟨_, htarget⟩ := isRejected_iff.mp h
  unfold push decode
  rw [htarget]
  exact h

theorem isRejected_endChunk (h : load.isRejected = true) :
    (load.endChunk decoders).isRejected = true := by
  rcases endChunk_cases decoders load with ⟨-, heq⟩ | ⟨-, -, failure, heq⟩ |
    ⟨_, -, ⟨htarget, -⟩ | ⟨-, haccepted, -⟩⟩
  · rw [heq]
    exact h
  · rw [heq]
    exact isRejected_reject _ _
  · obtain ⟨_, hfailure⟩ := isRejected_iff.mp h
    cases htarget.symm.trans hfailure
  · rw [h] at haccepted
    cases haccepted

theorem isRejected_arrivals (h : load.isRejected = true) (arrivals : List Arrival) :
    (arrivals.foldl (arrive decoders) load).isRejected = true := by
  induction arrivals generalizing load with
  | nil => exact h
  | cons arrival _ ih =>
    refine ih ?_
    cases arrival with
    | fragment payload => exact isRejected_push h payload
    | chunkEnd => exact isRejected_endChunk h

/-! ### A chunk -/

/-- The whole quads of a text, and the rest. -/
def wholeOf (text : List UInt8) : List UInt8 := text.take (text.length / 4 * 4)

def restOf (text : List UInt8) : List UInt8 := text.drop (text.length / 4 * 4)

theorem length_wholeOf : (wholeOf text).length = text.length / 4 * 4 := by
  unfold wholeOf
  rw [length_take]
  omega

theorem length_restOf : (restOf text).length < 4 := by
  unfold restOf
  rw [length_drop]
  omega

theorem whole_append_rest : wholeOf text ++ restOf text = text :=
  take_append_drop _ text

theorem wholeOf_append (more : List UInt8) :
    wholeOf (text ++ more) = wholeOf text ++ wholeOf (restOf text ++ more) ∧
      restOf (text ++ more) = restOf (restOf text ++ more) := by
  have hwhole := length_wholeOf text
  have hlength : (text ++ more).length / 4 * 4 =
      (wholeOf text).length + (restOf text ++ more).length / 4 * 4 := by
    have hsum := congrArg List.length (whole_append_rest text)
    rw [length_append] at hsum ⊢
    rw [length_append]
    omega
  have htext : text ++ more = wholeOf text ++ (restOf text ++ more) := by
    rw [← append_assoc, whole_append_rest]
  constructor
  · rw [wholeOf, hlength, htext, take_length_add_append]
    rfl
  · rw [restOf, hlength, htext, drop_length_add_append]
    rfl

/-- The quads that a valid text begins with are valid, and so is what follows them. -/
theorem whole_valid (hdec : decoders.QuadWise) {front back : List UInt8}
    (hfront : 4 ∣ front.length) (h : decoders.base64 (front ++ back) = some bytes) :
    ∃ first second, decoders.base64 front = some first ∧ decoders.base64 back = some second ∧
      bytes = first ++ second ∧ (back ≠ [] → 4 * first.length = 3 * front.length) := by
  by_cases hback : back = []
  · rw [hback, append_nil] at h
    exact ⟨bytes, [], h, hback ▸ hdec.nil, (append_nil bytes).symm,
      fun hne => (hne hback).elim⟩
  · obtain ⟨first, second, hfirst, hsecond, heq, hexact⟩ := hdec.split hfront hback h
    exact ⟨first, second, hfirst, hsecond, heq, fun _ => hexact⟩

/-- Fragments of a chunk: either all their quads fit, and are held decoded, or they do not fit. -/
theorem fragments_holding (hdec : decoders.QuadWise) (hraw : Raw plan) (before : List UInt8)
    (fragments : List (List UInt8)) {load : Load} {done held : List UInt8}
    (h : Holding start plan load (before ++ held) (restOf done))
    (hheld : decoders.base64 (wholeOf done) = some held)
    (hvalid : decoders.base64 (done ++ fragments.flatten) = some bytes) :
    (((fragments.map Arrival.fragment).foldl (arrive decoders) load).isRejected = true ∧
        allowance plan < before.length + (done ++ fragments.flatten).length / 4 * 3) ∨
      ∃ held', decoders.base64 (wholeOf (done ++ fragments.flatten)) = some held' ∧
        Holding start plan ((fragments.map Arrival.fragment).foldl (arrive decoders) load)
          (before ++ held') (restOf (done ++ fragments.flatten)) ∧
        (before.length + done.length / 4 * 3 ≤ allowance plan →
          before.length + (done ++ fragments.flatten).length / 4 * 3 ≤ allowance plan) := by
  induction fragments generalizing load done held with
  | nil =>
    rw [flatten_nil, append_nil]
    exact Or.inr ⟨held, hheld, h, id⟩
  | cons payload fragments ih =>
    rw [flatten_cons, ← append_assoc] at hvalid ⊢
    obtain ⟨hwhole, hrest⟩ := wholeOf_append done payload
    have hdone := length_wholeOf done
    have hmore := length_wholeOf (restOf done ++ payload)
    have hall := length_wholeOf (done ++ payload)
    rw [hwhole, length_append] at hall
    -- The quads completed so far begin the chunk, and those of the fragment end them.
    have hprefix : decoders.base64 (wholeOf (done ++ payload) ++
        (restOf (done ++ payload) ++ fragments.flatten)) = some bytes := by
      rw [← append_assoc, whole_append_rest]
      exact hvalid
    obtain ⟨_, -, hupto, -⟩ := whole_valid hdec
      (by rw [length_wholeOf]; exact Nat.dvd_mul_left ..) hprefix
    rw [hwhole] at hupto
    obtain ⟨_, _, hfirst, hmoreBytes, rfl, hexact⟩ := whole_valid hdec
      (by rw [length_wholeOf]; exact Nat.dvd_mul_left ..) hupto
    cases hheld.symm.trans hfirst
    have hshort := hdec.short hheld
    obtain ⟨hfits, hover⟩ := push_holding hdec hraw h (length_restOf done) hmoreBytes
    rw [length_append] at hfits hover
    rw [map_cons, foldl_cons]
    by_cases hroom : before.length + held.length +
        (restOf done ++ payload).length / 4 * 3 ≤ allowance plan
    · have hnext := hfits hroom
      rw [append_assoc] at hnext
      change Holding start plan (load.push decoders payload) _ (restOf (restOf done ++ payload))
        at hnext
      rw [← hrest] at hnext
      rcases ih hnext (by rw [hwhole]; exact hupto) hvalid with
        hrejected | ⟨held', hheld', h', hgrow⟩
      · exact Or.inl hrejected
      refine Or.inr ⟨held', hheld', h', fun hbefore => hgrow ?_⟩
      by_cases hnone : wholeOf (restOf done ++ payload) = []
      · rw [hnone, length_nil] at hall hmore
        omega
      · have hexact := hexact hnone
        omega
    · refine Or.inl ⟨isRejected_arrivals (hover (Nat.lt_of_not_le hroom)) _, ?_⟩
      have hgrow : (done ++ payload).length / 4 ≤
          (done ++ payload ++ fragments.flatten).length / 4 := by
        rw [@length_append _ (done ++ payload) _]
        exact Nat.div_le_div_right (Nat.le_add_right _ _)
      omega

/-- What arrives of a chunk cut into fragments. -/
def arrivalsOfChunk (fragments : List (List UInt8)) : List Arrival :=
  fragments.map Arrival.fragment ++ [.chunkEnd]

/-- A chunk is held decoded, or is refused because its quads run past the allowance. -/
theorem chunk_holding (hdec : decoders.QuadWise) (hraw : Raw plan) {load : Load}
    {before : List UInt8} (h : Holding start plan load before []) (fragments : List (List UInt8))
    (hvalid : decoders.base64 fragments.flatten = some bytes) :
    (((arrivalsOfChunk fragments).foldl (arrive decoders) load).isRejected = true ∧
        allowance plan < before.length + fragments.flatten.length / 4 * 3) ∨
      Holding start plan ((arrivalsOfChunk fragments).foldl (arrive decoders) load)
          (before ++ bytes) [] ∧ (before.length ≤ allowance plan →
          before.length + fragments.flatten.length / 4 * 3 ≤ allowance plan) := by
  have hstart : Holding start plan load (before ++ []) (restOf []) := by
    rw [append_nil]
    exact h
  unfold arrivalsOfChunk
  rw [foldl_concat]
  rcases fragments_holding hdec hraw before fragments hstart hdec.nil hvalid with
    ⟨hrejected, hover⟩ | ⟨_, hheld, hheldBytes, hfits⟩
  · exact Or.inl ⟨isRejected_endChunk hrejected, hover⟩
  refine Or.inr ⟨?_, fun hbefore => hfits ?_⟩
  · rw [nil_append] at hheld hheldBytes
    have hsplit : decoders.base64
        (wholeOf fragments.flatten ++ restOf fragments.flatten) = some bytes := by
      rw [whole_append_rest]
      exact hvalid
    obtain ⟨_, _, hfirst, hsecond, rfl, -⟩ := whole_valid hdec
      (by rw [length_wholeOf]; exact Nat.dvd_mul_left ..) hsplit
    cases hheld.symm.trans hfirst
    rw [← append_assoc]
    exact endChunk_holding hraw hheldBytes hsecond
  · rw [length_nil]
    exact hbefore

/-! ### A transmission -/

/-- What arrives of a transmission in chunks, each of them cut into fragments. -/
def arrivalsOf (chunks : List (List (List UInt8))) : List Arrival :=
  chunks.flatMap arrivalsOfChunk

/-- The bytes that a chunk decodes to. -/
def decodedChunk (decoders : Decoders) (fragments : List (List UInt8)) : List UInt8 :=
  (decoders.base64 fragments.flatten).getD []

/-- The stream that chunks decode to. -/
def decoded (decoders : Decoders) (chunks : List (List (List UInt8))) : List UInt8 :=
  chunks.flatMap (decodedChunk decoders)

/-- Whether the quads of each chunk, on top of what came before, are within a bound; a padded quad
counts as three bytes. -/
def QuadsFit (decoders : Decoders) (most : ℕ) : ℕ → List (List (List UInt8)) → Prop
  | _, [] => True
  | before, fragments :: chunks =>
      before + fragments.flatten.length / 4 * 3 ≤ most ∧
        QuadsFit decoders most (before + (decodedChunk decoders fragments).length) chunks

/-- Whether a chunk whose quads are within a bound is within it as a whole. -/
def TailsFit (decoders : Decoders) (most : ℕ) : ℕ → List (List (List UInt8)) → Prop
  | _, [] => True
  | before, fragments :: chunks =>
      before + fragments.flatten.length / 4 * 3 ≤ most →
        before + (decodedChunk decoders fragments).length ≤ most ∧
          TailsFit decoders most (before + (decodedChunk decoders fragments).length) chunks

/-- A chunk that is valid base64. -/
def Valid (decoders : Decoders) (fragments : List (List UInt8)) : Prop :=
  (decoders.base64 fragments.flatten).isSome = true

theorem Valid.decodes {fragments : List (List UInt8)} (h : Valid decoders fragments) :
    decoders.base64 fragments.flatten = some (decodedChunk decoders fragments) := by
  obtain ⟨_, hbytes⟩ := Option.isSome_iff_exists.mp h
  unfold decodedChunk
  rw [hbytes]
  rfl

theorem arrivalsOf_cons (fragments : List (List UInt8)) (chunks : List (List (List UInt8))) :
    arrivalsOf (fragments :: chunks) = arrivalsOfChunk fragments ++ arrivalsOf chunks :=
  flatMap_cons

section

variable (hdec : decoders.QuadWise) (hraw : Raw plan) (chunks : List (List (List UInt8)))
  (hvalid : ∀ fragments ∈ chunks, Valid decoders fragments)
include hdec hraw chunks hvalid

/-- A transmission of valid chunks is held decoded, or refused. -/
theorem transmission_holding
    {load : Load} {before : List UInt8} (h : Holding start plan load before []) :
    ((arrivalsOf chunks).foldl (arrive decoders) load).isRejected = true ∨
      Holding start plan ((arrivalsOf chunks).foldl (arrive decoders) load)
        (before ++ decoded decoders chunks) [] := by
  induction chunks generalizing load before with
  | nil =>
    right
    rw [show decoded decoders [] = [] from rfl, append_nil]
    exact h
  | cons fragments _ ih =>
    rw [arrivalsOf_cons, foldl_append]
    rcases chunk_holding hdec hraw h fragments (hvalid fragments mem_cons_self).decodes with
      ⟨hrejected, -⟩ | ⟨hheld, -⟩
    · exact Or.inl (isRejected_arrivals hrejected _)
    · have hlater := ih (fun later hlater => hvalid later (mem_cons_of_mem _ hlater)) hheld
      rw [append_assoc] at hlater
      exact hlater

/-- Where the tails fit, a transmission is refused exactly when the quads of a chunk do not. -/
theorem transmission_rejected_iff
    {load : Load} {before : List UInt8} (h : Holding start plan load before [])
    (hbefore : before.length ≤ allowance plan)
    (htails : TailsFit decoders (allowance plan) before.length chunks) :
    ((arrivalsOf chunks).foldl (arrive decoders) load).isRejected = true ↔
      ¬QuadsFit decoders (allowance plan) before.length chunks := by
  induction chunks generalizing load before with
  | nil =>
    refine iff_of_false ?_ (not_not.mpr trivial)
    change ¬load.isRejected = true
    rw [h.accepted hraw]
    exact Bool.false_ne_true
  | cons fragments _ ih =>
    rw [arrivalsOf_cons, foldl_append]
    rcases chunk_holding hdec hraw h fragments (hvalid fragments mem_cons_self).decodes with
      ⟨hrejected, hover⟩ | ⟨hheld, hfits⟩
    · exact iff_of_true (isRejected_arrivals hrejected _) fun hquads =>
        absurd hquads.1 (Nat.not_le.mpr hover)
    · obtain ⟨htail, htails⟩ := htails (hfits hbefore)
      rw [← length_append] at htail htails
      rw [ih (fun later hlater => hvalid later (mem_cons_of_mem _ hlater)) hheld htail htails,
        length_append]
      exact not_congr ⟨fun hquads => ⟨hfits hbefore, hquads⟩, fun hquads => hquads.2⟩

end

/-- Quads and tails that fit make a stream that fits. -/
theorem decoded_within {most before : ℕ} {chunks : List (List (List UInt8))}
    (hbefore : before ≤ most) (hquads : QuadsFit decoders most before chunks)
    (htails : TailsFit decoders most before chunks) :
    before + (decoded decoders chunks).length ≤ most := by
  induction chunks generalizing before with
  | nil => exact hbefore
  | cons fragments chunks ih =>
    obtain ⟨htail, htails⟩ := htails hquads.1
    have hrest := ih htail hquads.2 htails
    change before + (decodedChunk decoders fragments ++ decoded decoders chunks).length ≤ most
    rw [length_append]
    omega

/-! ### The image -/

/-- Bytes of a pixel as it is received. -/
def bytesPerPixel (start : Command) : ℕ := if start.format = 24 then 3 else 4

/-- Bytes that the declared size takes as they are received. -/
def declared (start : Command) : ℕ := start.dataWidth * start.dataHeight * bytesPerPixel start

/-- Received bytes by which a transmission may run past its declared size: three pixels. -/
def overrun (start : Command) : ℕ := 3 * bytesPerPixel start

section

variable (hplan : Load.plan start = .ok plan)
include hplan

theorem plan_raw (hraw : plan.1 = .rgba ∨ plan.1 = .rgb) :
    (plan.1 = .rgb ↔ start.format = 24) ∧ plan.2.1 = start.dataWidth * start.dataHeight * 4 ∧
      plan.2.2 = start.dataWidth * start.dataHeight * 4 + slack := by
  unfold Load.plan at hplan
  dsimp only at hplan
  split at hplan
  · cases hplan
  split at hplan
  · cases hplan
    rcases hraw with h | h <;> cases h
  split at hplan
  · cases hplan
  split at hplan
  · cases hplan
  split at hplan
  · cases hplan
  split at hplan
  · cases hplan
    rcases hraw with h | h <;> cases h
  cases hplan
  refine ⟨?_, rfl, rfl⟩
  by_cases hformat : start.format = 24
  · rw [if_pos hformat]
    exact iff_of_true rfl hformat
  · rw [if_neg hformat]
    exact iff_of_false nofun hformat

theorem raw_of_plan (htarget : plan.1 = .rgba ∨ plan.1 = .rgb) : Raw plan where
  target := htarget
  expected := by
    rw [(plan_raw hplan htarget).2.1]
    exact Nat.mul_mod_left _ 4

theorem allowance_eq (htarget : plan.1 = .rgba ∨ plan.1 = .rgb) :
    allowance plan = declared start + overrun start := by
  obtain ⟨hrgb, -, hlimit⟩ := plan_raw hplan htarget
  unfold allowance declared overrun bytesPerPixel
  rw [hlimit]
  unfold slack
  by_cases hformat : start.format = 24
  · rw [if_pos (hrgb.mpr hformat), if_pos hformat]
    omega
  · rw [if_neg fun h => hformat (hrgb.mp h), if_neg hformat]

theorem holding_begin : Holding start plan (begin start) [] [] := by
  unfold begin
  rw [hplan]
  refine ⟨rfl, rfl, rfl, rfl, rfl, fun _ => ⟨rfl, rfl, rfl⟩, fun _ => ⟨rfl, ?_, rfl⟩⟩
  exact (Nat.min_eq_left (Nat.zero_le _)).symm

end

/-- A transmission that was refused yields its failure. -/
theorem finish_rejected (h : load.isRejected = true) (pixels : Pixels) :
    load.finish ≠ .ok (.pixels pixels) := by
  obtain ⟨_, hfailure⟩ := isRejected_iff.mp h
  unfold finish
  rw [hfailure]
  nofun

/-- What a stream of pixels yields. -/
def firstPixels (start : Command) (stream : List UInt8) : List UInt8 :=
  if start.format = 24 then widenPixels (stream.take (declared start))
  else stream.take (declared start)

theorem finish_raw (htarget : load.target = .rgba ∨ load.target = .rgb) : load.finish =
    if load.buf.length < load.expected then .error .notEnoughData
    else .ok (.pixels ⟨load.start.dataWidth, load.start.dataHeight,
      load.buf.take load.expected, load.isOpaque⟩) := by
  unfold finish
  rcases htarget with htarget | htarget <;> rw [htarget]

/-- A stream held yields its first pixels if there are as many as declared. -/
theorem Holding.finish (hplan : Load.plan start = .ok plan) (hraw : Raw plan)
    (h : Holding start plan load stream pending) :
    ((∃ pixels, load.finish = .ok (.pixels pixels)) ↔ declared start ≤ stream.length) ∧
      ∀ pixels, load.finish = .ok (.pixels pixels) →
        pixels.width = start.dataWidth ∧ pixels.height = start.dataHeight ∧
          pixels.rgba = firstPixels start stream ∧ (pixels.isOpaque = true ↔
            ∀ i < start.dataWidth * start.dataHeight, pixels.rgba[4 * i + 3]? = some 255) := by
  obtain ⟨hformat, hexpected, -⟩ := plan_raw hplan hraw.target
  have hexpectedRaw := hraw.expected
  have henough : load.expected ≤ load.buf.length ↔ declared start ≤ stream.length := by
    rw [h.expected, hexpected]
    unfold declared bytesPerPixel
    rcases hraw.target with hrgba | hrgb
    · rw [(h.rgba hrgba).1, if_neg fun h24 => by cases hrgba.symm.trans (hformat.mpr h24)]
    · rw [(h.rgb hrgb).1, length_widenPixels_eq, if_pos (hformat.mp hrgb)]
      omega
  rw [finish_raw (h.target ▸ hraw.target)]
  by_cases hshort : load.buf.length < load.expected
  · rw [if_pos hshort]
    exact ⟨iff_of_false (fun ⟨_, hpixels⟩ => by cases hpixels)
      fun hdeclared => absurd (henough.mpr hdeclared) (Nat.not_le.mpr hshort), nofun⟩
  have hlong := Nat.le_of_not_lt hshort
  rw [if_neg hshort]
  refine ⟨iff_of_true ⟨_, rfl⟩ (henough.mp hlong), fun pixels hpixels => ?_⟩
  cases hpixels
  have hlength : (load.buf.take load.expected).length =
      start.dataWidth * start.dataHeight * 4 := by
    rw [length_take, Nat.min_eq_left hlong, h.expected, hexpected]
  refine ⟨congrArg Command.dataWidth h.start, congrArg Command.dataHeight h.start, ?_, ?_⟩
  · unfold firstPixels declared bytesPerPixel
    dsimp only
    rw [h.expected, hexpected]
    rcases hraw.target with hrgba | hrgb
    · have h24 : start.format ≠ 24 := fun h24 => by cases hrgba.symm.trans (hformat.mpr h24)
      rw [(h.rgba hrgba).1, if_neg h24, if_neg h24]
    · rw [(h.rgb hrgb).1, if_pos (hformat.mp hrgb), if_pos (hformat.mp hrgb), take_widenPixels]
  · dsimp only
    rw [← allOpaque_iff hlength]
    rcases hraw.target with hrgba | hrgb
    · obtain ⟨hbuf, hscanned, hopacity⟩ := h.rgba hrgba
      rw [hbuf, h.expected] at hlong
      rw [hopacity, hscanned, hbuf, h.expected, Nat.min_eq_right (by omega)]
    · obtain ⟨hbuf, -, hopacity⟩ := h.rgb hrgb
      rw [hopacity, hbuf, h.expected, hexpected, take_widenPixels]
      exact iff_of_true rfl (allOpaque_widenPixels _)

/-- Raw pixels are loaded exactly, however their valid chunks are cut into fragments. Where no
tail runs past the slack, an image is yielded if and only if the stream is as long as declared and
within the slack, a padded quad being counted as three bytes when its chunk arrives. -/
theorem raw_exact (hdec : decoders.QuadWise) (hplan : Load.plan start = .ok plan)
    (htarget : plan.1 = .rgba ∨ plan.1 = .rgb) (chunks : List (List (List UInt8)))
    (hvalid : ∀ fragments ∈ chunks, Valid decoders fragments) :
    (TailsFit decoders (declared start + overrun start) 0 chunks →
      ((∃ pixels, (arrived decoders start (arrivalsOf chunks)).finish = .ok (.pixels pixels)) ↔
        declared start ≤ (decoded decoders chunks).length ∧
          (decoded decoders chunks).length ≤ declared start + overrun start ∧
          QuadsFit decoders (declared start + overrun start) 0 chunks)) ∧
      ∀ pixels, (arrived decoders start (arrivalsOf chunks)).finish = .ok (.pixels pixels) →
        pixels.width = start.dataWidth ∧ pixels.height = start.dataHeight ∧
          pixels.rgba = firstPixels start (decoded decoders chunks) ∧ (pixels.isOpaque = true ↔
            ∀ i < start.dataWidth * start.dataHeight, pixels.rgba[4 * i + 3]? = some 255) := by
  have hraw := raw_of_plan hplan htarget
  have hbegin := holding_begin hplan
  have hends := transmission_holding hdec hraw chunks hvalid hbegin
  rw [nil_append] at hends
  constructor
  · rw [← allowance_eq hplan htarget]
    intro htails
    have hrejected := transmission_rejected_iff hdec hraw chunks hvalid hbegin
      (Nat.zero_le _) htails
    by_cases hquads : QuadsFit decoders (allowance plan) 0 chunks
    · have hwithin := decoded_within (Nat.zero_le _) hquads htails
      rw [Nat.zero_add] at hwithin
      rcases hends with hbad | hheld
      · exact absurd hquads (hrejected.mp hbad)
      · refine (hheld.finish hplan hraw).1.trans ?_
        exact ⟨fun h => ⟨h, hwithin, hquads⟩, fun h => h.1⟩
    · refine iff_of_false ?_ fun h => hquads h.2.2
      rintro ⟨pixels, hpixels⟩
      exact finish_rejected (hrejected.mpr hquads) pixels hpixels
  · intro pixels hpixels
    rcases hends with hbad | hheld
    · exact (finish_rejected hbad pixels hpixels).elim
    · exact (hheld.finish hplan hraw).2 pixels hpixels

/-- A pixel in one chunk, cut within its first quad. -/
theorem raw_exact_pixel : (∃ pixels, (arrived Decoders.uncompressed onePixel (arrivalsOf
        [["AA".toList.map ascii, "AAAA==".toList.map ascii]])).finish = .ok (.pixels pixels)) := by
  have hvalid : ∀ fragments ∈ [["AA".toList.map ascii, "AAAA==".toList.map ascii]],
      Valid Decoders.uncompressed fragments := by
    intro _ hfragments
    cases List.mem_singleton.mp hfragments
    unfold Valid
    decide +kernel
  have hplan : Load.plan onePixel = .ok (.rgba, 4, 16) := rfl
  refine ((raw_exact quadWise_uncompressed hplan (Or.inl rfl) _ hvalid).1 fun _ => ?_).mpr ?_
  · exact ⟨by decide +kernel, trivial⟩
  · exact ⟨by decide +kernel, by decide +kernel, by decide +kernel, trivial⟩

/-- Sixteen bytes for a pixel are twelve too many, and refused for the padding of the last quad. -/
theorem padded_refused : Valid Decoders.uncompressed ["AAAAAAAAAAAAAAAAAAAAAA==".toList.map ascii] ∧
      ¬((∃ pixels, (arrived Decoders.uncompressed onePixel (arrivalsOf
            [["AAAAAAAAAAAAAAAAAAAAAA==".toList.map ascii]])).finish = .ok (.pixels pixels)) ↔
          declared onePixel ≤ (decoded Decoders.uncompressed
              [["AAAAAAAAAAAAAAAAAAAAAA==".toList.map ascii]]).length ∧
            (decoded Decoders.uncompressed [["AAAAAAAAAAAAAAAAAAAAAA==".toList.map ascii]]).length ≤
              declared onePixel + overrun onePixel) := by
  have hrefused : (arrived Decoders.uncompressed onePixel (arrivalsOf
      [["AAAAAAAAAAAAAAAAAAAAAA==".toList.map ascii]])).finish = .error .tooMuchData := by
    decide +kernel
  have hwithin : declared onePixel ≤ (decoded Decoders.uncompressed
        [["AAAAAAAAAAAAAAAAAAAAAA==".toList.map ascii]]).length ∧
      (decoded Decoders.uncompressed
        [["AAAAAAAAAAAAAAAAAAAAAA==".toList.map ascii]]).length ≤
        declared onePixel + overrun onePixel := by decide +kernel
  refine ⟨by unfold Valid; decide +kernel, fun hclaim => ?_⟩
  obtain ⟨_, hpixels⟩ := hclaim.mpr hwithin
  rw [hrefused] at hpixels
  cases hpixels

end Load

end Vivido.Graphics
