import Vivido.Osc.Capture

/-!
The capture beside the terminal's own parser. The parser ends a string at `CAN`,
`SUB` and any `ESC`; the capture only at the string's own terminator. Where the
strings of a stream run to their terminators the two find the same sequences.
-/

namespace Vivido.Osc

open List

/-- `CAN`. -/
def can : UInt8 := 0x18

/-- `SUB`. -/
def sub : UInt8 := 0x1a

/-- The single byte `ST`. -/
def c1St : UInt8 := 0x9c

/-- Where a parser is. `outside` is everything but the escape state and the strings. -/
inductive Mode
  | outside
  | escape
  | osc
  | other
  deriving DecidableEq, Repr

/-- Bytes the escape state executes or ignores without being left. -/
def staysInEscape (byte : UInt8) : Bool := byte < 0x20 || 0x7f ≤ byte

/-- The bytes at which a string is abandoned. -/
def cancels (byte : UInt8) : Bool := byte = can || byte = sub

/-- The terminal's parser, as far as its strings go, with the verdict on a body that a
fresh parser gives. -/
structure Vte where
  State : Type
  start : State
  step : State → UInt8 → State
  mode : State → Mode
  topLevel : List UInt8 → Bool
  mode_start : mode start = .outside
  mode_esc : ∀ s, mode (step s esc) = .escape
  mode_cancel : ∀ s {byte}, cancels byte → mode (step s byte) = .outside
  mode_outside : ∀ {s byte}, mode s = .outside → byte ≠ esc → mode (step s byte) = .outside
  mode_escape : ∀ {s byte}, mode s = .escape → byte ≠ esc → ¬cancels byte →
    mode (step s byte) =
      if byte = oscByte then .osc
      else if opensOther byte then .other
      else if staysInEscape byte then .escape
      else .outside
  mode_osc : ∀ {s byte}, mode s = .osc → byte ≠ esc → ¬cancels byte →
    mode (step s byte) = if byte = bel then .outside else .osc
  mode_other : ∀ {s byte}, mode s = .other → byte ≠ esc → ¬cancels byte → byte ≠ c1St →
    mode (step s byte) = .other
  topLevel_family : ∀ {raw family}, family ∈ families → family <+: raw →
    (∀ byte ∈ raw, byte ≠ bel ∧ byte ≠ esc ∧ ¬cancels byte) → topLevel raw

/-- An `OSC` string in the stream: where its body starts, where its terminator is, and
the body. -/
structure Span where
  start : ℕ
  stop : ℕ
  body : List UInt8
  deriving DecidableEq, Repr

/-- A sequence the capture completed; `raw` is the body where it was kept. -/
structure Captured where
  start : ℕ
  stop : ℕ
  raw : Option (List UInt8)
  deriving DecidableEq, Repr

/-- The `OSC` strings the parser terminates, from a position on. `start` and `body` are of
the string that is open. -/
def Vte.terminated (p : Vte) : p.State → ℕ → ℕ → List UInt8 → List UInt8 → List Span
  | _, _, _, _, [] => []
  | s, position, start, body, byte :: rest =>
      if p.mode s ≠ .osc then
        p.terminated (p.step s byte) (position + 1) (position + 1) [] rest
      else if p.mode (p.step s byte) = .osc then
        p.terminated (p.step s byte) (position + 1) start (body ++ [byte]) rest
      else
        ⟨start, position, body⟩ ::
          p.terminated (p.step s byte) (position + 1) (position + 1) [] rest

/-- The sequences the capture completes, from a position on. -/
def captured : CaptureState → ℕ → ℕ → List UInt8 → List Captured
  | _, _, _, [] => []
  | state, position, start, byte :: rest =>
      let next := capture state byte
      match state with
      | .osc _ _ _ =>
          match next.2 with
          | .complete raw =>
              ⟨start, if byte = bel then position else position - 1, raw⟩ ::
                captured next.1 (position + 1) (position + 1) rest
          | .nothing => captured next.1 (position + 1) start rest
      | _ => captured next.1 (position + 1) (position + 1) rest

/-- Whether a body is within the capture limit and can belong to a family. -/
def Kept (body : List UInt8) : Prop := body.length ≤ maxOscBytes ∧ mayBeCaptured body

instance : DecidablePred Kept := fun _ => inferInstanceAs (Decidable (_ ∧ _))

/-- What the capture makes of a string. -/
def Span.captured (span : Span) : Captured :=
  ⟨span.start, span.stop, if Kept span.body then some span.body else none⟩

/-- What a byte must be, with what follows it, for both machines to go on alike. -/
def Regular (mode : Mode) (byte : UInt8) (rest : List UInt8) : Prop :=
  match mode with
  | .outside => True
  | .escape => byte = esc ∨ cancels byte ∨ ¬staysInEscape byte
  | .osc => ¬cancels byte ∧ (byte = esc → rest.head? = some backslash)
  | .other => ¬cancels byte ∧ byte ≠ c1St ∧ (byte = esc → rest.head? = some backslash)

/-- In every string of the stream only its terminator ends it, and no control interrupts an
escape sequence right after `ESC`. -/
def Vte.Delimited (p : Vte) : p.State → List UInt8 → Prop
  | _, [] => True
  | s, byte :: rest => Regular (p.mode s) byte rest ∧ p.Delimited (p.step s byte) rest

instance : (mode : Mode) → (byte : UInt8) → (rest : List UInt8) →
    Decidable (Regular mode byte rest)
  | .outside, _, _ => inferInstanceAs (Decidable True)
  | .escape, byte, _ =>
      inferInstanceAs (Decidable (byte = esc ∨ cancels byte ∨ ¬staysInEscape byte))
  | .osc, byte, rest =>
      inferInstanceAs (Decidable (¬cancels byte ∧ (byte = esc → rest.head? = some backslash)))
  | .other, byte, rest => inferInstanceAs
      (Decidable (¬cancels byte ∧ byte ≠ c1St ∧ (byte = esc → rest.head? = some backslash)))

instance Vte.decidableDelimited (p : Vte) : (s : p.State) → (bytes : List UInt8) →
    Decidable (p.Delimited s bytes)
  | _, [] => inferInstanceAs (Decidable True)
  | s, byte :: rest =>
      have := Vte.decidableDelimited p (p.step s byte) rest
      inferInstanceAs (Decidable (Regular (p.mode s) byte rest ∧ p.Delimited (p.step s byte) rest))

theorem Kept.of_append {body : List UInt8} (more : List UInt8) (h : Kept (body ++ more)) :
    Kept body := by
  obtain ⟨hlen, hfamily⟩ := h
  rw [length_append] at hlen
  exact ⟨by omega, mayBeCaptured_append more hfamily⟩

/-- What the capture holds of an open body. -/
def Holds (body raw : List UInt8) (discarding : Bool) : Prop :=
  if discarding then ¬Kept body else raw = body ∧ Kept body

theorem Holds.raw {body raw : List UInt8} {discarding : Bool} (h : Holds body raw discarding) :
    (if discarding then none else some raw) = if Kept body then some body else none := by
  unfold Holds at h
  cases discarding with
  | true =>
    rw [if_pos rfl] at h
    rw [if_pos rfl, if_neg h]
  | false =>
    rw [if_neg Bool.false_ne_true] at h
    rw [if_neg Bool.false_ne_true, if_pos h.2, h.1]

theorem capture_osc_esc {body raw : List UInt8} {discarding : Bool}
    (h : Holds body raw discarding) :
    ∃ raw', capture (.osc raw false discarding) esc = (.osc raw' true discarding, .nothing) ∧
      Holds body raw' discarding := by
  unfold Holds at h
  cases discarding with
  | true =>
    rw [if_pos rfl] at h
    exact ⟨raw, rfl, by rw [Holds, if_pos rfl]; exact h⟩
  | false =>
    rw [if_neg Bool.false_ne_true] at h
    obtain ⟨rfl, hlen, hfamily⟩ := h
    refine ⟨raw, ?_, by rw [Holds, if_neg Bool.false_ne_true]; exact ⟨rfl, hlen, hfamily⟩⟩
    rw [capture, if_neg (by decide), if_neg Bool.false_ne_true]
    dsimp only
    rw [if_neg Bool.false_ne_true, if_pos rfl, hfamily, if_neg (by simpa using hlen)]
    rfl

theorem capture_osc_byte {body raw : List UInt8} {discarding : Bool} {byte : UInt8}
    (h : Holds body raw discarding) (hbel : byte ≠ bel) (hesc : byte ≠ esc) :
    ∃ raw' discarding', capture (.osc raw false discarding) byte =
        (.osc raw' false discarding', .nothing) ∧ Holds (body ++ [byte]) raw' discarding' := by
  have hno : (decide (byte = bel) || (false && decide (byte = backslash))) = false := by
    simpa using hbel
  unfold Holds at h
  rw [capture, hno, if_neg Bool.false_ne_true]
  cases discarding with
  | true =>
    rw [if_pos rfl] at h
    refine ⟨raw, true, ?_, ?_⟩
    · rw [if_pos rfl, decide_eq_false hesc]
    · rw [Holds, if_pos rfl]
      exact fun hkept => h hkept.of_append
  | false =>
    rw [if_neg Bool.false_ne_true] at h
    obtain ⟨rfl, _⟩ := h
    rw [if_neg Bool.false_ne_true]
    dsimp only
    rw [if_neg Bool.false_ne_true, if_neg hesc, decide_eq_false hesc]
    by_cases hlonger : Kept (raw ++ [byte])
    · refine ⟨raw ++ [byte], false, ?_, ?_⟩
      · rw [hlonger.2, if_neg (by simpa using hlonger.1)]
      · rw [Holds, if_neg Bool.false_ne_true]
        exact ⟨rfl, hlonger⟩
    · refine ⟨[], true, ?_, ?_⟩
      · rw [if_pos]
        unfold Kept at hlonger
        rw [Bool.or_eq_true]
        by_cases hlen : maxOscBytes < (raw ++ [byte]).length
        · exact Or.inl (decide_eq_true hlen)
        · right
          simpa using fun hfamily => hlonger ⟨by omega, hfamily⟩
      · rw [Holds, if_pos rfl]
        exact hlonger

/-- How the two machines stand to each other. After the `ESC` of a terminator the parser has
ended a string the capture still holds; `due` is what the capture is about to complete. -/
def Beside (p : Vte) (s : p.State) (position start begun : ℕ) (body rest : List UInt8)
    (due : List Captured) : CaptureState → Prop
  | .ground => p.mode s = .outside ∧ due = []
  | .escape => p.mode s = .escape ∧ due = []
  | .otherString false => p.mode s = .other ∧ due = []
  | .otherString true => p.mode s = .escape ∧ rest.head? = some backslash ∧ due = []
  | .osc raw false discarding =>
      p.mode s = .osc ∧ Holds body raw discarding ∧ start = begun ∧ due = []
  | .osc raw true discarding => p.mode s = .escape ∧ rest.head? = some backslash ∧
      due = [⟨start, position - 1, if discarding then none else some raw⟩]

section Steps

variable {p : Vte} {s : p.State} {position start : ℕ} {body rest : List UInt8} {byte : UInt8}

theorem terminated_outside (h : p.mode s ≠ .osc) :
    p.terminated s position start body (byte :: rest) =
      p.terminated (p.step s byte) (position + 1) (position + 1) [] rest := by
  rw [Vte.terminated, if_pos h]

theorem terminated_inside (h : p.mode s = .osc) (hstep : p.mode (p.step s byte) = .osc) :
    p.terminated s position start body (byte :: rest) =
      p.terminated (p.step s byte) (position + 1) start (body ++ [byte]) rest := by
  rw [Vte.terminated, if_neg (not_not.mpr h), if_pos hstep]

theorem terminated_end (h : p.mode s = .osc) (hstep : p.mode (p.step s byte) ≠ .osc) :
    p.terminated s position start body (byte :: rest) = ⟨start, position, body⟩ ::
        p.terminated (p.step s byte) (position + 1) (position + 1) [] rest := by
  rw [Vte.terminated, if_neg (not_not.mpr h), if_neg hstep]

theorem captured_inside {raw : List UInt8} {escape discarding : Bool} {state : CaptureState}
    (h : capture (.osc raw escape discarding) byte = (state, .nothing)) :
    captured (.osc raw escape discarding) position start (byte :: rest) =
      captured state (position + 1) start rest := by
  rw [captured, h]

theorem captured_end {raw : List UInt8} {escape discarding : Bool} {state : CaptureState}
    {kept : Option (List UInt8)}
    (h : capture (.osc raw escape discarding) byte = (state, .complete kept)) :
    captured (.osc raw escape discarding) position start (byte :: rest) =
      ⟨start, if byte = bel then position else position - 1, kept⟩ ::
        captured state (position + 1) (position + 1) rest := by
  rw [captured, h]

/-- After `ESC`, a backslash ends the sequence. -/
theorem mode_backslash (h : p.mode s = .escape) : p.mode (p.step s backslash) = .outside :=
  p.mode_escape h (by decide) (by decide)

/-- The capture's next state after `ESC` is the parser's next mode. -/
theorem beside_escape (h : p.mode s = .escape) (hbyte : Regular .escape byte rest) :
    Beside p (p.step s byte) (position + 1) (position + 1) (position + 1) [] rest []
      (capture .escape byte).1 := by
  rw [capture]
  by_cases hesc : byte = esc
  · rw [hesc]
    exact ⟨p.mode_esc s, rfl⟩
  by_cases hcancel : cancels byte
  · have hno : byte ≠ oscByte ∧ ¬opensOther byte := by
      unfold cancels at hcancel
      rw [Bool.or_eq_true, decide_eq_true_iff, decide_eq_true_iff] at hcancel
      rcases hcancel with rfl | rfl <;> decide
    rw [if_neg hno.1, if_neg hno.2, if_neg hesc]
    exact ⟨p.mode_cancel s hcancel, rfl⟩
  · have hstays : ¬staysInEscape byte := by
      rcases hbyte with h | h | h
      · exact (hesc h).elim
      · exact (hcancel h).elim
      · exact h
    have hmode := p.mode_escape h hesc hcancel
    rw [if_neg hstays] at hmode
    by_cases hopen : byte = oscByte
    · rw [if_pos hopen] at hmode ⊢
      exact ⟨hmode, by rw [Holds, if_neg Bool.false_ne_true]; decide, rfl, rfl⟩
    rw [if_neg hopen] at hmode ⊢
    by_cases hother : opensOther byte
    · rw [if_pos hother] at hmode ⊢
      exact ⟨hmode, rfl⟩
    · rw [if_neg hother] at hmode ⊢
      rw [if_neg hesc]
      exact ⟨hmode, rfl⟩

end Steps

variable {p : Vte}

/-- Where only terminators end strings, what the capture completes is what the parser
terminates. -/
theorem captured_eq {s : p.State} {state : CaptureState} {position start begun : ℕ}
    {body rest : List UInt8} {due : List Captured} (hdelimited : p.Delimited s rest)
    (h : Beside p s position start begun body rest due state) : captured state position start rest =
      due ++ (p.terminated s position begun body rest).map Span.captured := by
  induction rest generalizing s state position start begun body due with
  | nil =>
    have hdue : due = [] := by
      cases state with
      | ground | escape => exact h.2
      | otherString escape => cases escape with
        | false => exact h.2
        | true => exact h.2.2
      | osc _ escape => cases escape with
        | false => exact h.2.2.2
        | true => cases h.2.1
    rw [hdue]
    rfl
  | cons byte rest ih =>
    obtain ⟨hregular, hrest⟩ := hdelimited
    cases state with
    | ground =>
      obtain ⟨hmode, rfl⟩ := h
      rw [terminated_outside (by rw [hmode]; decide)]
      refine ih hrest ?_
      by_cases hesc : byte = esc
      · rw [capture, if_pos hesc, hesc]
        exact ⟨p.mode_esc s, rfl⟩
      · rw [capture, if_neg hesc]
        exact ⟨p.mode_outside hmode hesc, rfl⟩
    | escape =>
      obtain ⟨hmode, rfl⟩ := h
      rw [hmode] at hregular
      rw [terminated_outside (by rw [hmode]; decide)]
      exact ih hrest (beside_escape hmode hregular)
    | otherString escape =>
      cases escape with
      | false =>
        obtain ⟨hmode, rfl⟩ := h
        rw [hmode] at hregular
        obtain ⟨hcancel, hst, hesc⟩ := hregular
        rw [terminated_outside (by rw [hmode]; decide)]
        have hcapture : (capture (.otherString false) byte).1 = .otherString (byte = esc) := rfl
        refine ih hrest ?_
        rw [hcapture]
        by_cases hbyte : byte = esc
        · rw [decide_eq_true hbyte]
          exact ⟨by rw [hbyte]; exact p.mode_esc s, hesc hbyte, rfl⟩
        · rw [decide_eq_false hbyte]
          exact ⟨p.mode_other hmode hbyte hcancel hst, rfl⟩
      | true =>
        obtain ⟨hmode, hhead, rfl⟩ := h
        rw [show byte = backslash from Option.some.inj hhead] at hrest ⊢
        rw [terminated_outside (by rw [hmode]; decide)]
        exact ih hrest ⟨mode_backslash hmode, rfl⟩
    | osc raw escape discarding =>
      cases escape with
      | false =>
        obtain ⟨hmode, hholds, rfl, rfl⟩ := h
        rw [hmode] at hregular
        obtain ⟨hcancel, hesc⟩ := hregular
        by_cases hbyte : byte = esc
        · obtain ⟨raw', hcapture, hholds'⟩ := capture_osc_esc hholds
          have hstep : p.mode (p.step s byte) = .escape := by
            rw [hbyte]
            exact p.mode_esc s
          rw [← hbyte] at hcapture
          have hbeside : Beside p (p.step s byte) (position + 1) start (position + 1) [] rest
              [⟨start, position, if discarding then none else some raw'⟩]
              (.osc raw' true discarding) := ⟨hstep, hesc hbyte, rfl⟩
          rw [captured_inside hcapture, terminated_end hmode (by rw [hstep]; decide),
            ih hrest hbeside, hholds'.raw]
          rfl
        · have hstep := p.mode_osc hmode hbyte hcancel
          by_cases hbel : byte = bel
          · rw [if_pos hbel] at hstep
            have hcapture : capture (.osc raw false discarding) byte =
                (.ground, .complete (if discarding then none else some raw)) := by
              rw [capture, hbel]
              rfl
            have hbeside : Beside p (p.step s byte) (position + 1) (position + 1) (position + 1) []
                rest [] .ground := ⟨hstep, rfl⟩
            rw [captured_end hcapture, terminated_end hmode (by rw [hstep]; decide), if_pos hbel,
              ih hrest hbeside, hholds.raw]
            rfl
          · rw [if_neg hbel] at hstep
            obtain ⟨_, _, hcapture, hholds'⟩ := capture_osc_byte hholds hbel hbyte
            rw [captured_inside hcapture, terminated_inside hmode hstep]
            exact ih hrest ⟨hstep, hholds', rfl, rfl⟩
      | true =>
        obtain ⟨hmode, hhead, rfl⟩ := h
        rw [show byte = backslash from Option.some.inj hhead] at hrest ⊢
        have hcapture : capture (.osc raw true discarding) backslash =
            (.ground, .complete (if discarding then none else some raw)) := rfl
        have hbeside : Beside p (p.step s backslash) (position + 1) (position + 1) (position + 1) []
            rest [] .ground := ⟨mode_backslash hmode, rfl⟩
        rw [captured_end hcapture, terminated_outside (by rw [hmode]; decide), ih hrest hbeside,
          if_neg (by decide)]
        rfl

/-- The messages come from the sequences completed. -/
theorem bytewise_messages {Message : Type*} (parsers : BodyParsers Message)
    (topLevel : List UInt8 → Bool) (state : CaptureState) (position start : ℕ)
    (bytes : List UInt8) : (bytewise parsers topLevel state bytes).2 =
      (captured state position start bytes).flatMap fun c =>
        observed parsers topLevel (.complete c.raw) := by
  induction bytes generalizing state position start with
  | nil => rfl
  | cons byte _ ih =>
    rw [bytewise]
    dsimp only
    cases state with
    | ground => exact ih _ _ _
    | escape =>
      have hnone : (capture .escape byte).2 = .nothing := by
        rw [capture]
        split
        · rfl
        · split
          · rfl
          · split <;> rfl
      rw [hnone]
      exact ih _ _ _
    | otherString escape =>
      have hnone : observed parsers topLevel (capture (.otherString escape) byte).2 = [] := by
        rw [capture]
        split <;> rfl
      rw [hnone]
      exact ih _ _ _
    | osc raw escape discarding =>
      cases hobserved : (capture (.osc raw escape discarding) byte).2 with
      | nothing =>
        rw [captured, hobserved]
        dsimp only
        rw [← ih]
        rfl
      | complete =>
        rw [captured, hobserved]
        dsimp only
        rw [flatMap_cons, ← ih]

theorem no_terminator {s : p.State} {byte : UInt8} (h : p.mode s = .osc)
    (hstep : p.mode (p.step s byte) = .osc) : byte ≠ bel ∧ byte ≠ esc ∧ ¬cancels byte := by
  have hesc : byte ≠ esc := by
    rintro rfl
    rw [p.mode_esc] at hstep
    cases hstep
  have hcancel : ¬cancels byte := by
    intro hcancel
    rw [p.mode_cancel s hcancel] at hstep
    cases hstep
  refine ⟨?_, hesc, hcancel⟩
  intro hbel
  rw [p.mode_osc h hesc hcancel, if_pos hbel] at hstep
  cases hstep

theorem body_terminated {s : p.State} {position start : ℕ} {body rest : List UInt8}
    (hbody : ∀ byte ∈ body, byte ≠ bel ∧ byte ≠ esc ∧ ¬cancels byte) :
    ∀ span ∈ p.terminated s position start body rest,
      ∀ byte ∈ span.body, byte ≠ bel ∧ byte ≠ esc ∧ ¬cancels byte := by
  have hnil : ∀ byte ∈ ([] : List UInt8), byte ≠ bel ∧ byte ≠ esc ∧ ¬cancels byte := by
    intro byte hbyte
    cases hbyte
  induction rest generalizing s position start body with
  | nil =>
    intro span hspan
    cases hspan
  | cons byte _ ih =>
    by_cases hmode : p.mode s = .osc
    · by_cases hstep : p.mode (p.step s byte) = .osc
      · rw [terminated_inside hmode hstep]
        refine ih ?_
        intro b hb
        rcases List.mem_append.mp hb with hb | hb
        · exact hbody b hb
        · rw [List.mem_singleton.mp hb]
          exact no_terminator hmode hstep
      · rw [terminated_end hmode hstep]
        intro span hspan
        rcases List.mem_cons.mp hspan with rfl | hspan
        · exact hbody
        · exact ih hnil span hspan
    · rw [terminated_outside hmode]
      exact ih hnil

/-- A string within the limit is confirmed, and gives what its parser makes of it. -/
theorem observed_captured {Message : Type*} (parsers : BodyParsers Message) {span : Span}
    (h : ∀ byte ∈ span.body, byte ≠ bel ∧ byte ≠ esc ∧ ¬cancels byte) :
    observed parsers p.topLevel (.complete span.captured.raw) =
      if span.body.length ≤ maxOscBytes then (parseOsc parsers span.body).toList else [] := by
  unfold Span.captured
  dsimp only
  by_cases hparse : parseOsc parsers span.body = none
  · rw [hparse]
    by_cases hkept : Kept span.body
    · rw [if_pos hkept, observed, hparse]
      simp
    · rw [if_neg hkept]
      simp [observed]
  · by_cases hlen : span.body.length ≤ maxOscBytes
    · obtain ⟨_, hmem, hopen⟩ := family_of_parseOsc hparse
      rw [if_pos ⟨hlen, mayBeCaptured_of_parseOsc hparse⟩, if_pos hlen, observed,
        if_pos (p.topLevel_family hmem hopen h)]
    · rw [if_neg (fun hkept => hlen hkept.1), if_neg hlen]
      rfl

/-- **Capture agreement**: reads may be cut anywhere; and where only their terminators end
strings, the sequences completed are those the parser terminates, with the same start, end
and body, so that every string within the limit that parses gives its message, in order. -/
theorem feed_agrees {Message : Type*} (parsers : BodyParsers Message) (p : Vte)
    (chunks : List (List UInt8)) :
    feed parsers p.topLevel .ground chunks = advance parsers p.topLevel .ground chunks.flatten ∧
      (p.Delimited p.start chunks.flatten → captured .ground 0 0 chunks.flatten =
            (p.terminated p.start 0 0 [] chunks.flatten).map Span.captured ∧
          (feed parsers p.topLevel .ground chunks).2 =
            (p.terminated p.start 0 0 [] chunks.flatten).flatMap fun span =>
              if span.body.length ≤ maxOscBytes then (parseOsc parsers span.body).toList
              else []) := by
  rw [feed_eq_bytewise, advance_eq_bytewise]
  refine ⟨rfl, fun hdelimited => ?_⟩
  have hbeside : Beside p p.start 0 0 0 [] chunks.flatten [] .ground := ⟨p.mode_start, rfl⟩
  have hcaptured := captured_eq hdelimited hbeside
  rw [nil_append] at hcaptured
  refine ⟨hcaptured, ?_⟩
  rw [bytewise_messages parsers p.topLevel .ground 0 0, hcaptured, flatMap_map]
  refine flatMap_congr ?_
  intro span hspan
  exact observed_captured parsers
    (body_terminated (fun byte hbyte => by cases hbyte) span hspan)

/-- The parser as documented, reduced to where it is. -/
def Vte.documented : Vte where
  State := Mode
  start := .outside
  step mode byte :=
    if byte = esc then .escape
    else if cancels byte then .outside
    else
      match mode with
      | .outside => .outside
      | .escape =>
          if byte = oscByte then .osc
          else if opensOther byte then .other
          else if staysInEscape byte then .escape
          else .outside
      | .osc => if byte = bel then .outside else .osc
      | .other => .other
  mode := id
  topLevel raw := families.any fun family => family.isPrefixOf raw
  mode_start := rfl
  mode_esc _ := if_pos rfl
  mode_cancel s {byte} hcancel := by
    have hesc : byte ≠ esc := by
      rintro rfl
      cases hcancel
    rw [id, if_neg hesc, if_pos hcancel]
  mode_outside {s byte} hmode hesc := by
    rw [show s = .outside from hmode, id, if_neg hesc]
    exact ite_self _
  mode_escape {s byte} hmode hesc hcancel := by
    rw [show s = .escape from hmode, id, if_neg hesc, if_neg hcancel]
  mode_osc {s byte} hmode hesc hcancel := by
    rw [show s = .osc from hmode, id, if_neg hesc, if_neg hcancel]
  mode_other {s byte} hmode hesc hcancel _ := by
    rw [show s = .other from hmode, id, if_neg hesc, if_neg hcancel]
  topLevel_family {raw family} hmem hopen _ :=
    List.any_eq_true.mpr ⟨family, hmem, List.isPrefixOf_iff_prefix.mpr hopen⟩

/-- The bodies themselves as messages. -/
def rawBodies : BodyParsers (List UInt8) where
  workingDirectory := some
  progress := some
  legacy := some
  shellIntegration := some
  kitty metadata payload := some (metadata ++ payload)

/-- A notification cut over two reads, with a device control string before it. -/
theorem feed_agrees_documented : Vte.documented.Delimited Vte.documented.start
        [esc, 0x50, 0x71, esc, backslash, esc, oscByte, 0x39, semicolon, 0x68, bel] ∧
      (feed rawBodies Vte.documented.topLevel .ground
        [[esc, 0x50, 0x71, esc, backslash, esc], [oscByte, 0x39, semicolon, 0x68, bel]]).2 =
        [[0x68]] := by
  have hdelimited : Vte.documented.Delimited Vte.documented.start
      [esc, 0x50, 0x71, esc, backslash, esc, oscByte, 0x39, semicolon, 0x68, bel] := by decide
  refine ⟨hdelimited, ?_⟩
  rw [((feed_agrees rawBodies Vte.documented
    [[esc, 0x50, 0x71, esc, backslash, esc], [oscByte, 0x39, semicolon, 0x68, bel]]).2
    hdelimited).2]
  decide

/-- The parser ends a string at `CAN`; the capture goes on. -/
theorem captured_ne_terminated :
    captured .ground 0 0 [esc, oscByte, 0x39, semicolon, 0x68, 0x69, can] = [] ∧
      (Vte.documented.terminated Vte.documented.start 0 0 []
        [esc, oscByte, 0x39, semicolon, 0x68, 0x69, can]).map Span.captured =
        [⟨2, 6, some [0x39, semicolon, 0x68, 0x69]⟩] := by
  decide

end Vivido.Osc
