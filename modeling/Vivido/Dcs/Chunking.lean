import Vivido.Dcs.Scanner
import Mathlib.Tactic.ByContra

/-!
The scanner's result depends on the stream alone. Every iteration of the scan
loop is a nonempty run of a machine that takes single bytes, so the loop ends,
keeps its body within the limit and gives the same events for every way to cut
the stream. A held-bytes invariant of that machine then splits the stream into
the reported pieces, the dropped over-long sequences and the unfinished rest.
-/

namespace Vivido.Dcs

open List Option

theorem findEsc_some {bytes : List UInt8} {k : ℕ} (h : findEsc bytes = some k) :
    ∃ before after, bytes = before ++ esc :: after ∧ before.length = k ∧ ∀ b ∈ before, b ≠ esc := by
  obtain ⟨_, hesc, hbefore⟩ := List.findIdx?_eq_some_iff_getElem.mp h
  refine ⟨bytes.take k, bytes.drop (k + 1), ?_, by simp; omega, ?_⟩
  · have hk' : bytes[k] = esc := by simpa using hesc
    rw [← hk', getElem_cons_drop, take_append_drop]
  · intro b hb
    obtain ⟨i, _, rfl⟩ := List.mem_take_iff_getElem.mp hb
    simpa using hbefore i (by omega)

theorem findEsc_none {bytes : List UInt8} (h : findEsc bytes = none) : ∀ b ∈ bytes, b ≠ esc := by
  intro b hb
  have := List.findIdx?_eq_none_iff.mp h b hb
  simpa using this


/-- The scanner as a machine over single bytes. -/
def stepByte (s : DcsScanner) (b : UInt8) : DcsScanner × List Event :=
  match s.state with
  | .ground => if b = esc then ({ s with state := .escape }, []) else (s, [.byte b])
  | .escape =>
      if b = dcsByte then ({ state := .body, body := [], raw := [esc, dcsByte] }, [])
      else if b = esc then (s, [.byte esc])
      else ({ s with state := .ground }, [.byte esc, .byte b])
  | .body => if b = esc then ({ s with state := .bodyEscape }, []) else (pushBody s [b], [])
  | .bodyEscape =>
      if b = stByte then
        ({ state := .ground, body := [], raw := [] },
          (finishChunk s.body (s.raw ++ [esc, stByte])).events)
      else
        let escaped := pushBody s [esc]
        (if escaped.state = .body then pushBody escaped [b] else escaped, [])
  | .discarding => if b = esc then ({ s with state := .discardingEscape }, []) else (s, [])
  | .discardingEscape =>
      if b = stByte then ({ state := .ground, body := [], raw := [] }, [])
      else if b = esc then (s, [])
      else ({ s with state := .discarding }, [])

def runBytes : DcsScanner → List UInt8 → DcsScanner × List Event
  | s, [] => (s, [])
  | s, b :: rest =>
      ((runBytes (stepByte s b).1 rest).1, (stepByte s b).2 ++ (runBytes (stepByte s b).1 rest).2)

theorem runBytes_append (s : DcsScanner) (left right : List UInt8) : runBytes s (left ++ right) =
      ((runBytes (runBytes s left).1 right).1,
        (runBytes s left).2 ++ (runBytes (runBytes s left).1 right).2) := by
  induction left generalizing s with
  | nil => rfl
  | cons _ _ ih => simp only [cons_append, runBytes, ih, append_assoc]

/-- The scanner holds at most the allowed body. -/
def Bounded (s : DcsScanner) : Prop := s.body.length ≤ dcsMaxBytes

theorem bounded_pushBody (s : DcsScanner) (chunk : List UInt8) : Bounded (pushBody s chunk) := by
  unfold pushBody Bounded
  split
  · exact Nat.zero_le _
  · exact Nat.le_of_not_lt ‹_›

theorem bounded_stepByte (s : DcsScanner) (b : UInt8) (h : Bounded s) :
    Bounded (stepByte s b).1 := by
  have hempty : ∀ state : DcsState, Bounded { state := state, body := [], raw := [] } :=
    fun _ => Nat.zero_le _
  unfold stepByte
  cases s.state <;> dsimp only <;> repeat' split
  all_goals first | exact h | exact bounded_pushBody _ _ | exact Nat.zero_le _

theorem bounded_runBytes (s : DcsScanner) (bytes : List UInt8) (h : Bounded s) :
    Bounded (runBytes s bytes).1 := by
  induction bytes generalizing s with
  | nil => exact h
  | cons b _ ih => exact ih _ (bounded_stepByte s b h)

theorem pushBody_body {s : DcsScanner} {chunk : List UInt8}
    (h : s.body.length + chunk.length ≤ dcsMaxBytes) :
    pushBody s chunk = { state := .body, body := s.body ++ chunk, raw := s.raw ++ chunk } := by
  unfold pushBody
  rw [if_neg (by rw [length_append]; omega)]

theorem pushBody_overflow {s : DcsScanner} {chunk : List UInt8}
    (h : dcsMaxBytes < s.body.length + chunk.length) :
    pushBody s chunk = { state := .discarding, body := [], raw := [] } := by
  unfold pushBody
  rw [if_pos (by rw [length_append]; exact h)]

/-- Pushing a run that overflows at its last byte at most is pushing its bytes in turn. -/
theorem runBytes_body (chunk : List UInt8) (s : DcsScanner) (hs : s.state = .body)
    (hne : chunk ≠ []) (hesc : ∀ b ∈ chunk, b ≠ esc)
    (hlen : s.body.length + chunk.length ≤ dcsMaxBytes + 1) :
    runBytes s chunk = (pushBody s chunk, []) := by
  induction chunk generalizing s with
  | nil => exact absurd rfl hne
  | cons b rest ih =>
    have hb : b ≠ esc := hesc b (mem_cons_self ..)
    have hstep : stepByte s b = (pushBody s [b], []) := by simp [stepByte, hs, hb]
    simp only [runBytes, hstep, nil_append]
    cases rest with
    | nil => rfl
    | cons =>
      simp only [length_cons] at hlen
      have hone : pushBody s [b] =
          { state := .body, body := s.body ++ [b], raw := s.raw ++ [b] } :=
        pushBody_body (by simp only [length_singleton]; omega)
      rw [hone, ih _ rfl (by simp) (fun x hx => hesc x (mem_cons_of_mem _ hx))
        (by simp only [length_append, length_cons, length_nil]; omega)]
      simp only [pushBody, append_assoc, singleton_append]

theorem runBytes_discarding (chunk : List UInt8) (s : DcsScanner) (hs : s.state = .discarding)
    (hesc : ∀ b ∈ chunk, b ≠ esc) : runBytes s chunk = (s, []) := by
  induction chunk with
  | nil => rfl
  | cons b _ ih =>
    have hstep : stepByte s b = (s, []) := by
      simp [stepByte, hs, hesc b (mem_cons_self ..)]
    simp only [runBytes, hstep, ih fun x hx => hesc x (mem_cons_of_mem _ hx), append_nil]

theorem state_ground_self {s : DcsScanner} (hs : s.state = .ground) :
    { state := .ground, body := s.body, raw := s.raw } = s := by
  rw [← hs]

/-- Bytes that open no DCS pass through; a trailing ESC stays behind. -/
theorem runBytes_ground (bytes : List UInt8) (s : DcsScanner) (hs : s.state = .ground)
    (hfind : findIntroducer bytes = none) : runBytes s bytes =
      if bytes.getLast? = some esc then ({ s with state := .escape }, bytes.dropLast.map .byte)
      else (s, bytes.map .byte) := by
  induction bytes with
  | nil => rfl
  | cons b rest ih =>
    cases rest with
    | nil =>
      by_cases hb : b = esc <;> simp [runBytes, stepByte, hs, hb]
    | cons c more =>
      have hnot : ¬ (b = esc ∧ c = dcsByte) := by
        intro h
        simp [findIntroducer, h] at hfind
      have htail : findIntroducer (c :: more) = none := by
        simpa [findIntroducer, hnot] using hfind
      have hih := ih htail
      -- Both sides put `b` in front of what the tail passes through.
      suffices hcons : runBytes s (b :: c :: more) =
          ((runBytes s (c :: more)).1, .byte b :: (runBytes s (c :: more)).2) by
        rw [hcons, hih, getLast?_cons_cons]
        split <;> simp
      by_cases hb : b = esc
      · subst b
        have hc : c ≠ dcsByte := fun h => hnot ⟨rfl, h⟩
        by_cases hc' : c = esc
        · simp [runBytes, stepByte, hs, hc', show esc ≠ dcsByte by decide]
        · simp [runBytes, stepByte, hs, hc, hc', state_ground_self hs]
      · simp [runBytes, stepByte, hs, hb]

/-- The run the body state takes: no ESC inside, and empty only in front of one. -/
theorem findEsc_limit (first : UInt8) (rest : List UInt8) :
    (∀ b ∈ (first :: rest).take ((findEsc (first :: rest)).getD (first :: rest).length), b ≠ esc) ∧
      (findEsc (first :: rest)).getD (first :: rest).length ≤ (first :: rest).length ∧
      ((findEsc (first :: rest)).getD (first :: rest).length = 0 → first = esc) := by
  cases hfind : findEsc (first :: rest) with
  | some =>
    obtain ⟨before, _, heq, rfl, hesc⟩ := findEsc_some hfind
    rw [heq]
    refine ⟨by simpa using hesc, by simp, fun h => ?_⟩
    have hnil : before = [] := eq_nil_of_length_eq_zero h
    subst before
    exact (List.cons.inj heq).1
  | none =>
    refine ⟨?_, Nat.le_refl _, fun h => absurd h (by simp)⟩
    simpa using findEsc_none hfind

theorem findIntroducer_some {bytes : List UInt8} {k : ℕ} (h : findIntroducer bytes = some k) :
    ∃ before after, bytes = before ++ esc :: after ∧ before.length = k ∧
      findIntroducer (before ++ [esc]) = none := by
  induction bytes generalizing k with
  | nil => simp [findIntroducer] at h
  | cons b rest ih =>
    cases rest with
    | nil => simp [findIntroducer] at h
    | cons c more =>
      by_cases hbc : b = esc ∧ c = dcsByte
      · simp only [findIntroducer, hbc, and_self, if_true, Option.some.injEq] at h
        exact ⟨[], c :: more, by simp [hbc.1], h, rfl⟩
      simp only [findIntroducer, hbc, if_false, map_eq_some_iff] at h
      obtain ⟨i, hi, rfl⟩ := h
      obtain ⟨before, after, heq, hlen, hnone⟩ := ih hi
      refine ⟨b :: before, after, by simp [heq], by simp [hlen], ?_⟩
      cases before with
      | nil => simp [findIntroducer, esc, dcsByte]
      | cons d =>
        have hd : d = c := by simpa using (congrArg List.head? heq).symm
        subst d
        simpa [findIntroducer, hbc] using hnone

theorem events_bytes (span : List UInt8) : events [.bytes span] = span.map .byte := by
  simp [events, DcsChunk.events]

/-- An iteration is a nonempty run of the byte machine over a prefix of the input. -/
theorem iterate_spec (s : DcsScanner) (first : UInt8) (rest : List UInt8) (hb : Bounded s) :
    ∃ used, used ≠ [] ∧ used ++ (iterate s first rest).2.2 = first :: rest ∧
      runBytes s used = ((iterate s first rest).1, events (iterate s first rest).2.1) := by
  unfold iterate
  cases hs : s.state with
  | ground =>
    dsimp only
    cases hfind : findIntroducer (first :: rest) with
    | some =>
      obtain ⟨before, after, heq, hlen, hnone⟩ := findIntroducer_some hfind
      have hrun := runBytes_ground (before ++ [esc]) s hs hnone
      rw [getLast?_concat, if_pos rfl, dropLast_concat] at hrun
      refine ⟨before ++ [esc], by simp, ?_, ?_⟩
      · dsimp only
        rw [heq, ← hlen, drop_append]
        simp
      · dsimp only
        rw [hrun, heq, take_left' hlen]
        cases before with
        | nil => simp [← hlen, events]
        | cons => simp [← hlen, events_bytes]
    | none =>
      have hrun := runBytes_ground (first :: rest) s hs hfind
      by_cases hlast : (first :: rest).getLast? = some esc
      · rw [if_pos hlast] at hrun
        dsimp only
        rw [if_pos hlast]
        refine ⟨first :: rest, by simp, by simp, ?_⟩
        rw [hrun, dropLast_eq_take]
        cases rest with
        | nil => simp [events]
        | cons => simp [events_bytes]
      · rw [if_neg hlast] at hrun
        dsimp only
        rw [if_neg hlast]
        exact ⟨first :: rest, by simp, by simp, by rw [hrun, events_bytes, state_ground_self hs]⟩
  | escape =>
    refine ⟨[first], by simp, ?_, ?_⟩ <;> dsimp only <;> repeat' split
    all_goals simp_all [runBytes, stepByte, events, DcsChunk.events]
  | body =>
    dsimp only
    have hprefix := findEsc_limit first rest
    generalize (findEsc (first :: rest)).getD (first :: rest).length = limit at hprefix
    by_cases hlimit : limit = 0
    · rw [if_pos hlimit]
      have hfirst : first = esc := hprefix.2.2 hlimit
      exact ⟨[first], by simp, by simp, by simp [runBytes, stepByte, hs, hfirst, events]⟩
    rw [if_neg hlimit]
    dsimp only
    unfold Bounded at hb
    generalize htake : min limit (dcsMaxBytes + 1 - s.body.length) = take
    have hpos : 0 < take := by omega
    refine ⟨(first :: rest).take take, ?_, take_append_drop _ _, ?_⟩
    · intro h
      have := congrArg List.length h
      simp only [length_take, length_cons, length_nil] at this
      omega
    · apply runBytes_body _ s hs
      · intro h
        have := congrArg List.length h
        simp only [length_take, length_cons, length_nil] at this
        omega
      · intro b hb
        exact hprefix.1 b (take_subset_take_left _ (by omega) hb)
      · simp only [length_take]
        omega
  | bodyEscape | discardingEscape =>
    refine ⟨[first], by simp, ?_, ?_⟩ <;> dsimp only <;> repeat' split
    all_goals simp_all [runBytes, stepByte, events]
  | discarding =>
    dsimp only
    cases hfind : findEsc (first :: rest) with
    | some =>
      obtain ⟨before, _, heq, hlen, hesc⟩ := findEsc_some hfind
      refine ⟨before ++ [esc], by simp, ?_, ?_⟩
      · dsimp only
        rw [heq, ← hlen, drop_append]
        simp
      · rw [runBytes_append, runBytes_discarding before s hs hesc]
        simp [runBytes, stepByte, hs, events]
    | none =>
      exact ⟨first :: rest, by simp, by simp, runBytes_discarding _ s hs (findEsc_none hfind)⟩

theorem iterate_consumes (s : DcsScanner) (first : UInt8) (rest : List UInt8) (hb : Bounded s) :
    (iterate s first rest).2.2.length < (first :: rest).length := by
  obtain ⟨_, hne, hused, _⟩ := iterate_spec s first rest hb
  have hlen := congrArg List.length hused
  have hpos := length_pos_of_ne_nil hne
  simp only [length_append] at hlen
  omega

/-- The loop ends within one iteration a byte, and does what the byte machine does. -/
theorem pushLoop_spec (fuel : ℕ) (s : DcsScanner) (bytes : List UInt8) (hb : Bounded s)
    (hfuel : bytes.length ≤ fuel) :
    ∃ out, pushLoop fuel s bytes = some ((runBytes s bytes).1, out) ∧
      events out = (runBytes s bytes).2 := by
  induction fuel generalizing s bytes with
  | zero =>
    have hnil : bytes = [] := eq_nil_of_length_eq_zero (by omega)
    subst bytes
    exact ⟨[], rfl, rfl⟩
  | succ _ ih =>
    cases bytes with
    | nil => exact ⟨[], rfl, rfl⟩
    | cons first rest =>
      obtain ⟨used, _, hused, hrun⟩ := iterate_spec s first rest hb
      have hconsume := iterate_consumes s first rest hb
      have hb' : Bounded (iterate s first rest).1 := by
        have := bounded_runBytes s used hb
        rwa [hrun] at this
      obtain ⟨out, hout, hevents⟩ := ih (iterate s first rest).1 (iterate s first rest).2.2 hb'
        (by simp only [length_cons] at hfuel hconsume; omega)
      have hsplit := runBytes_append s used (iterate s first rest).2.2
      rw [hused, hrun] at hsplit
      refine ⟨(iterate s first rest).2.1 ++ out, ?_, ?_⟩
      · simp only [pushLoop, hout, map_some, hsplit]
      · rw [hsplit, ← hevents]
        simp [events]

theorem push_spec (s : DcsScanner) (bytes : List UInt8) (hb : Bounded s) :
    ∃ out, push s bytes = some ((runBytes s bytes).1, out) ∧ events out = (runBytes s bytes).2 :=
  pushLoop_spec bytes.length s bytes hb (Nat.le_refl _)

theorem feed_spec (s : DcsScanner) (chunks : List (List UInt8)) (hb : Bounded s) :
    ∃ out, feed s chunks = some ((runBytes s chunks.flatten).1, out) ∧
      events out = (runBytes s chunks.flatten).2 := by
  induction chunks generalizing s with
  | nil => exact ⟨[], rfl, rfl⟩
  | cons chunk _ ih =>
    obtain ⟨out, hpush, hout⟩ := push_spec s chunk hb
    obtain ⟨more, hfeed, hmore⟩ := ih _ (bounded_runBytes s chunk hb)
    refine ⟨out ++ more, ?_, ?_⟩
    · simp only [feed, hpush, bind_some, hfeed, map_some, flatten_cons,
        runBytes_append]
    · rw [flatten_cons, runBytes_append, ← hout, ← hmore]
      simp [events]

/-- A piece of the stream: a byte passed on, a recognised request, or a whole
DCS dropped because its body outgrew the limit. -/
inductive Segment
  | passed (b : UInt8)
  | request (prefixBytes : UInt8 × UInt8) (body : List UInt8)
  | dropped (body : List UInt8) (long : dcsMaxBytes < body.length)

def Segment.bytes : Segment → List UInt8
  | .passed b => [b]
  | .request (first, second) body => frame (first :: second :: body)
  | .dropped body _ => frame body

def Segment.events : Segment → List Event
  | .passed b => [.byte b]
  | .request prefixBytes body => [.request prefixBytes body]
  | .dropped _ _ => []

/-- The bytes of an unfinished sequence the scanner has taken but not reported. -/
def Held (s : DcsScanner) (held : List UInt8) : Prop :=
  match s.state with
  | .ground => held = []
  | .escape => held = [esc]
  | .body => s.raw = [esc, dcsByte] ++ s.body ∧ held = s.raw
  | .bodyEscape => s.raw = [esc, dcsByte] ++ s.body ∧ held = s.raw ++ [esc]
  | .discarding => ∃ body, held = [esc, dcsByte] ++ body ∧ dcsMaxBytes < body.length
  | .discardingEscape => ∃ body, held = [esc, dcsByte] ++ body ++ [esc] ∧ dcsMaxBytes < body.length

theorem segments_passed (bytes : List UInt8) :
    (bytes.map Segment.passed).flatMap Segment.bytes = bytes ∧
      (bytes.map Segment.passed).flatMap Segment.events = bytes.map .byte := by
  induction bytes with
  | nil => exact ⟨rfl, rfl⟩
  | cons _ _ ih => simp [Segment.bytes, Segment.events, ih]

/-- A finished body is one request, or its raw bytes passed on. -/
theorem finishChunk_segments (body : List UInt8) :
    ∃ segments : List Segment, segments.flatMap Segment.bytes = frame body ∧
      segments.flatMap Segment.events = (finishChunk body (frame body)).events := by
  have hrequest : ∀ first second request, ∃ segments : List Segment,
      segments.flatMap Segment.bytes = frame (first :: second :: request) ∧
        segments.flatMap Segment.events = [.request (first, second) request] :=
    fun first second request => ⟨[.request (first, second) request], by simp [Segment.bytes],
      by simp [Segment.events]⟩
  unfold finishChunk
  split
  · exact hrequest _ _ _
  · exact hrequest _ _ _
  · exact hrequest _ _ _
  · exact ⟨(frame body).map .passed, (segments_passed _).1, (segments_passed _).2⟩

/-- Pushing onto a held body keeps it held, as a body or as one too long to keep. -/
theorem held_pushBody {s : DcsScanner} (hraw : s.raw = [esc, dcsByte] ++ s.body)
    (chunk : List UInt8) : Held (pushBody s chunk) (s.raw ++ chunk) := by
  by_cases hlen : s.body.length + chunk.length ≤ dcsMaxBytes
  · rw [pushBody_body hlen]
    exact ⟨by rw [hraw, append_assoc], rfl⟩
  · rw [pushBody_overflow (by omega)]
    exact ⟨s.body ++ chunk, by rw [hraw, append_assoc], by rw [length_append]; omega⟩

/-- One byte either joins the held bytes or releases them as segments. -/
theorem held_stepByte (s : DcsScanner) (held : List UInt8) (b : UInt8) (h : Held s held) :
    ∃ (segments : List Segment) (held' : List UInt8),
      held ++ [b] = segments.flatMap Segment.bytes ++ held' ∧
        (stepByte s b).2 = segments.flatMap Segment.events ∧ Held (stepByte s b).1 held' := by
  unfold Held at h
  unfold stepByte
  cases hs : s.state <;> rw [hs] at h <;> dsimp only at h ⊢
  case ground =>
    subst held
    split
    · exact ⟨[], [b], by simp, by simp, by simp [Held, *]⟩
    · exact ⟨[.passed b], [], by simp [Segment.bytes], by simp [Segment.events], by simp [Held, hs]⟩
  case escape =>
    subst held
    split
    · exact ⟨[], [esc, b], by simp, by simp, by simp [Held, *]⟩
    split
    · exact ⟨[.passed esc], [b], by simp [Segment.bytes], by simp [Segment.events],
        by simp [Held, *]⟩
    · exact ⟨[.passed esc, .passed b], [], by simp [Segment.bytes], by simp [Segment.events],
        by simp [Held]⟩
  case body =>
    obtain ⟨hraw, rfl⟩ := h
    split
    · exact ⟨[], s.raw ++ [b], by simp, by simp, by simp [Held, *]⟩
    · exact ⟨[], s.raw ++ [b], by simp, by simp, held_pushBody hraw [b]⟩
  case bodyEscape =>
    obtain ⟨hraw, rfl⟩ := h
    split
    · obtain ⟨segments, hbytes, hevents⟩ := finishChunk_segments s.body
      have hframe : s.raw ++ [esc, stByte] = frame s.body := by simp [hraw, frame]
      refine ⟨segments, [], ?_, ?_, rfl⟩
      · rw [hbytes, ← hframe]
        simp [*]
      · rw [hframe, hevents]
    · refine ⟨[], s.raw ++ [esc] ++ [b], by simp, by simp, ?_⟩
      have hesc := held_pushBody hraw [esc]
      split
      · -- The ESC was part of the body; so is the byte after it.
        have hbody := hesc
        unfold Held at hbody
        rw [‹(pushBody s [esc]).state = .body›] at hbody
        rw [hbody.2]
        exact held_pushBody hbody.1 [b]
      · rename_i hstate
        -- The ESC overflowed the body, and the byte after it is dropped unread.
        have hover : dcsMaxBytes < s.body.length + [esc].length := by
          by_contra hle
          exact hstate (by rw [pushBody_body (by omega)])
        rw [pushBody_overflow hover]
        exact ⟨s.body ++ [esc, b], by rw [hraw]; simp, by simp at hover ⊢; omega⟩
  case discarding =>
    obtain ⟨body, rfl, hlen⟩ := h
    split
    · exact ⟨[], _, by simp; rfl, by simp, body, by simp [*], hlen⟩
    · refine ⟨[], _, by simp; rfl, by simp, ?_⟩
      unfold Held
      rw [hs]
      exact ⟨body ++ [b], by simp, by simp; omega⟩
  case discardingEscape =>
    obtain ⟨body, rfl, hlen⟩ := h
    split
    · exact ⟨[.dropped body hlen], [], by simp [Segment.bytes, frame, *], by simp [Segment.events],
        rfl⟩
    split
    · refine ⟨[], _, by simp; rfl, by simp, ?_⟩
      unfold Held
      rw [hs]
      exact ⟨body ++ [esc], by simp [*], by simp; omega⟩
    · exact ⟨[], _, by simp; rfl, by simp, body ++ [esc, b], by simp, by simp; omega⟩

theorem held_runBytes (bytes : List UInt8) (s : DcsScanner) (held : List UInt8) (h : Held s held) :
    ∃ (segments : List Segment) (held' : List UInt8),
      held ++ bytes = segments.flatMap Segment.bytes ++ held' ∧
        (runBytes s bytes).2 = segments.flatMap Segment.events ∧ Held (runBytes s bytes).1 held' := by
  induction bytes generalizing s held with
  | nil => exact ⟨[], held, by simp, rfl, h⟩
  | cons b _ ih =>
    obtain ⟨first, held₁, heq₁, hev₁, hheld₁⟩ := held_stepByte s held b h
    obtain ⟨more, held₂, heq₂, hev₂, hheld₂⟩ := ih _ held₁ hheld₁
    refine ⟨first ++ more, held₂, ?_, ?_, hheld₂⟩
    · rw [append_cons, heq₁, append_assoc, heq₂, flatMap_append,
        append_assoc]
    · rw [flatMap_append, ← hev₁, ← hev₂]
      rfl

end Vivido.Dcs
