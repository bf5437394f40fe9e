import Mathlib.Data.List.Basic
import Mathlib.Data.Nat.Notation

/-!
The capture of the `OSC` sequences that the terminal's parser does not dispatch
itself. A state machine collects the body of each sequence from the raw bytes;
a body that is complete is confirmed by a second parser and then parsed. Runs of
bytes that cannot change the state are skipped, which makes no difference.
-/

namespace Vivido.Osc

open List

/-- `ESC`. -/
def esc : UInt8 := 0x1b

/-- `BEL`. -/
def bel : UInt8 := 0x07

/-- The backslash that ends a string after `ESC`. -/
def backslash : UInt8 := 0x5c

/-- `]`, which opens an operating system command after `ESC`. -/
def oscByte : UInt8 := 0x5d

def semicolon : UInt8 := 0x3b

/-- `P`, `_`, `^` and `X` open the other strings after `ESC`. -/
def opensOther (byte : UInt8) : Bool :=
  byte = 0x50 || byte = 0x5f || byte = 0x5e || byte = 0x58

/-- `MAX_OSC_BYTES`. -/
def maxOscBytes : ℕ := 8 * 1024

/-- `b"7;"`. -/
def workingDirectoryFamily : List UInt8 := [0x37, semicolon]

/-- `b"9;"`. -/
def legacyFamily : List UInt8 := [0x39, semicolon]

/-- `b"9;4;"`. -/
def progressFamily : List UInt8 := [0x39, semicolon, 0x34, semicolon]

/-- `b"99;"`. -/
def kittyFamily : List UInt8 := [0x39, 0x39, semicolon]

/-- `b"133;"`. -/
def shellFamily : List UInt8 := [0x31, 0x33, 0x33, semicolon]

/-- The families in the order `may_be_captured` tries them. -/
def families : List (List UInt8) :=
  [workingDirectoryFamily, legacyFamily, kittyFamily, shellFamily]

/-- `may_be_captured`. -/
def mayBeCaptured (opening : List UInt8) : Bool :=
  families.any fun candidate =>
    let shared := min opening.length candidate.length
    opening.take shared == candidate.take shared

inductive CaptureState
  | ground
  | escape
  | otherString (escape : Bool)
  | osc (raw : List UInt8) (escape discarding : Bool)
  deriving DecidableEq, Repr

inductive CaptureObservation
  | nothing
  /-- A string sequence ended, with the body of an `OSC` still worth inspecting. -/
  | complete (raw : Option (List UInt8))
  deriving DecidableEq, Repr

/-- `OscCapture::advance`. -/
def capture : CaptureState → UInt8 → CaptureState × CaptureObservation
  | .ground, byte => (if byte = esc then .escape else .ground, .nothing)
  | .escape, byte =>
      if byte = oscByte then (.osc [] false false, .nothing)
      else if opensOther byte then (.otherString false, .nothing)
      else if byte = esc then (.escape, .nothing)
      else (.ground, .nothing)
  | .otherString escape, byte =>
      if escape && byte = backslash then (.ground, .complete none)
      else (.otherString (byte = esc), .nothing)
  | .osc raw escape discarding, byte =>
      if byte = bel || (escape && byte = backslash) then
        (.ground, .complete (if discarding then none else some raw))
      else if discarding then (.osc raw (byte = esc) true, .nothing)
      else
        let withEscape := if escape then raw ++ [esc] else raw
        let longer := if byte = esc then withEscape else withEscape ++ [byte]
        -- A body that can no longer be one of the families is only scanned for its end.
        if maxOscBytes < longer.length || !mayBeCaptured longer then
          (.osc [] (byte = esc) true, .nothing)
        else (.osc longer (byte = esc) false, .nothing)

/-- The parsers of the bodies, family by family. -/
structure BodyParsers (Message : Type*) where
  workingDirectory : List UInt8 → Option Message
  progress : List UInt8 → Option Message
  legacy : List UInt8 → Option Message
  shellIntegration : List UInt8 → Option Message
  kitty : List UInt8 → List UInt8 → Option Message

variable {Message : Type*} (parsers : BodyParsers Message)

/-- `parse_osc`. -/
def parseOsc (raw : List UInt8) : Option Message :=
  if workingDirectoryFamily.isPrefixOf raw then
    parsers.workingDirectory (raw.drop workingDirectoryFamily.length)
  else if progressFamily.isPrefixOf raw then parsers.progress (raw.drop progressFamily.length)
  else if legacyFamily.isPrefixOf raw then parsers.legacy (raw.drop legacyFamily.length)
  else if shellFamily.isPrefixOf raw then
    parsers.shellIntegration (raw.drop shellFamily.length)
  else if kittyFamily.isPrefixOf raw then
    let rest := raw.drop kittyFamily.length
    (rest.findIdx? (· == semicolon)).bind fun separator =>
      parsers.kitty (rest.take separator) (rest.drop (separator + 1))
  else none

/-- What becomes of an observation: a body confirmed as a top-level sequence is parsed. -/
def observed (topLevel : List UInt8 → Bool) : CaptureObservation → List Message
  | .complete (some raw) => if topLevel raw then (parseOsc parsers raw).toList else []
  | _ => []

/-- Where the scan for the next byte that matters stops. -/
def nextIndex : CaptureState → List UInt8 → Option ℕ
  | .ground, rest => rest.findIdx? (· == esc)
  | .otherString false, rest => rest.findIdx? (· == esc)
  | .osc _ false true, rest => rest.findIdx? fun byte => byte == bel || byte == esc
  | _, _ => some 0

variable (topLevel : List UInt8 → Bool)

/-- `OscNotificationParser::advance`. -/
def advance (state : CaptureState) (rest : List UInt8) : CaptureState × List Message :=
  if _h : rest = [] then (state, [])
  else
    match nextIndex state rest with
    | none => (state, [])
    | some index =>
        match rest[index]? with
        | none => (state, [])
        | some byte =>
            let next := capture state byte
            let last := advance next.1 (rest.drop (index + 1))
            (last.1, observed parsers topLevel next.2 ++ last.2)
termination_by rest.length
decreasing_by
  have hpos := List.length_pos_iff.mpr _h
  rw [length_drop]
  omega

/-- Successive reads. -/
def feed : CaptureState → List (List UInt8) → CaptureState × List Message
  | state, [] => (state, [])
  | state, chunk :: chunks =>
      let next := advance parsers topLevel state chunk
      let last := feed next.1 chunks
      (last.1, next.2 ++ last.2)

/-- The capture byte by byte, nothing skipped. -/
def bytewise : CaptureState → List UInt8 → CaptureState × List Message
  | state, [] => (state, [])
  | state, byte :: rest =>
      let next := capture state byte
      let last := bytewise next.1 rest
      (last.1, observed parsers topLevel next.2 ++ last.2)

variable {parsers topLevel}

variable (state : CaptureState)

theorem bytewise_append (left right : List UInt8) :
    bytewise parsers topLevel state (left ++ right) =
      ((bytewise parsers topLevel (bytewise parsers topLevel state left).1 right).1,
        (bytewise parsers topLevel state left).2 ++
          (bytewise parsers topLevel (bytewise parsers topLevel state left).1 right).2) := by
  induction left generalizing state with
  | nil => rfl
  | cons _ _ ih =>
    rw [cons_append, bytewise, bytewise]
    dsimp only
    rw [ih, append_assoc]

/-- Bytes that a state does not react to. -/
def Inert (state : CaptureState) (bytes : List UInt8) : Prop :=
  ∀ byte ∈ bytes, capture state byte = (state, .nothing)

theorem bytewise_inert {state : CaptureState} {bytes : List UInt8} (h : Inert state bytes) :
    bytewise parsers topLevel state bytes = (state, []) := by
  induction bytes with
  | nil => rfl
  | cons byte _ ih =>
    rw [bytewise, h byte mem_cons_self]
    dsimp only
    rw [ih (fun b hb => h b (mem_cons_of_mem byte hb))]
    rfl

/-- The bytes before the first hit of a search that covers all a state reacts to. -/
theorem inert_of_search {state : CaptureState} {reacts : UInt8 → Bool} {rest : List UInt8}
    (hreacts : ∀ byte, reacts byte = false → capture state byte = (state, .nothing)) :
    match rest.findIdx? reacts with
    | none => Inert state rest
    | some index => index < rest.length ∧ Inert state (rest.take index) := by
  cases hfound : rest.findIdx? reacts with
  | none =>
    intro byte hbyte
    exact hreacts byte (List.findIdx?_eq_none_iff.mp hfound byte hbyte)
  | some =>
    obtain ⟨hlt, _, hbefore⟩ := List.findIdx?_eq_some_iff_getElem.mp hfound
    refine ⟨hlt, ?_⟩
    intro _ hbyte
    obtain ⟨i, _, rfl⟩ := List.mem_take_iff_getElem.mp hbyte
    exact hreacts _ (by simpa using hbefore i (by omega))

/-- Nothing that matters is skipped. -/
theorem inert_nextIndex {rest : List UInt8} (hrest : rest ≠ []) :
    match nextIndex state rest with
    | none => Inert state rest
    | some index => index < rest.length ∧ Inert state (rest.take index) := by
  have hzero : 0 < rest.length ∧ Inert state (rest.take 0) :=
    ⟨List.length_pos_iff.mpr hrest, fun byte hbyte => by cases hbyte⟩
  cases state with
  | ground =>
    refine inert_of_search ?_
    intro byte hbyte
    rw [capture, if_neg (by simpa using hbyte)]
  | escape => exact hzero
  | otherString escape =>
    cases escape with
    | true => exact hzero
    | false =>
      refine inert_of_search ?_
      intro byte hbyte
      rw [capture, Bool.false_and, if_neg Bool.false_ne_true,
        show decide (byte = esc) = false by simpa using hbyte]
  | osc _ escape discarding =>
    cases escape with
    | true => exact hzero
    | false =>
      cases discarding with
      | false => exact hzero
      | true =>
        refine inert_of_search ?_
        intro byte hbyte
        obtain ⟨hbel, hesc⟩ := Bool.or_eq_false_iff.mp hbyte
        rw [capture, Bool.false_and, Bool.or_false, if_neg (by simpa using hbel), if_pos rfl,
          show decide (byte = esc) = false by simpa using hesc]

/-- Skipping makes no difference. -/
theorem advance_eq_bytewise (rest : List UInt8) :
    advance parsers topLevel state rest = bytewise parsers topLevel state rest := by
  induction hlen : rest.length using Nat.strongRecOn generalizing state rest with
  | ind length ih =>
    unfold advance
    by_cases hrest : rest = []
    · rw [dif_pos hrest, hrest]
      rfl
    rw [dif_neg hrest]
    have hinert := inert_nextIndex state hrest
    cases hnext : nextIndex state rest with
    | none =>
      rw [hnext] at hinert
      exact (bytewise_inert hinert).symm
    | some index =>
      rw [hnext] at hinert
      obtain ⟨hlt, hbefore⟩ := hinert
      have hsplit : rest = rest.take index ++ rest[index] :: rest.drop (index + 1) := by
        rw [← drop_eq_getElem_cons, take_append_drop]
      have hrun : bytewise parsers topLevel state rest =
          bytewise parsers topLevel state (rest[index] :: rest.drop (index + 1)) := by
        conv_lhs => rw [hsplit]
        rw [bytewise_append, bytewise_inert hbefore]
        rfl
      dsimp only
      rw [getElem?_eq_getElem hlt, hrun, bytewise]
      dsimp only
      rw [ih _ (by rw [length_drop]; omega) _ _ rfl]

/-- Cuts make no difference. -/
theorem feed_eq_bytewise (chunks : List (List UInt8)) :
    feed parsers topLevel state chunks = bytewise parsers topLevel state chunks.flatten := by
  induction chunks generalizing state with
  | nil => rfl
  | cons _ _ ih =>
    rw [feed, flatten_cons, bytewise_append, advance_eq_bytewise, ih]

theorem mayBeCaptured_iff {opening : List UInt8} :
    mayBeCaptured opening ↔ ∃ candidate ∈ families, opening <+: candidate ∨ candidate <+: opening := by
  unfold mayBeCaptured
  rw [any_eq_true]
  refine exists_congr fun candidate => and_congr_right fun _ => ?_
  dsimp only
  rw [beq_iff_eq]
  constructor
  · intro hshared
    rcases Nat.le_total opening.length candidate.length with hle | hle
    · left
      rw [Nat.min_eq_left hle, take_length] at hshared
      rw [hshared]
      exact take_prefix _ _
    · right
      rw [Nat.min_eq_right hle, take_length] at hshared
      rw [← hshared]
      exact take_prefix _ _
  · rintro (hshort | hlong)
    · rw [Nat.min_eq_left hshort.length_le, take_length]
      exact List.prefix_iff_eq_take.mp hshort
    · rw [Nat.min_eq_right hlong.length_le, take_length]
      exact (List.prefix_iff_eq_take.mp hlong).symm

/-- A body that can be captured could be when it was shorter. -/
theorem mayBeCaptured_append {opening : List UInt8} (more : List UInt8)
    (h : mayBeCaptured (opening ++ more)) : mayBeCaptured opening := by
  rw [mayBeCaptured_iff] at h ⊢
  obtain ⟨candidate, hmem, hpre⟩ := h
  refine ⟨candidate, hmem, ?_⟩
  rcases hpre with hshort | hlong
  · exact Or.inl ((prefix_append opening more).trans hshort)
  · exact prefix_or_prefix_of_prefix (prefix_append opening more) hlong

/-- A body that gives a message belongs to a family. -/
theorem family_of_parseOsc {raw : List UInt8} (h : parseOsc parsers raw ≠ none) :
    ∃ candidate ∈ families, candidate <+: raw := by
  unfold parseOsc at h
  split at h
  · rename_i hopen
    exact ⟨_, by simp [families], List.isPrefixOf_iff_prefix.mp hopen⟩
  split at h
  · rename_i hopen
    have hlegacy : legacyFamily <+: progressFamily := by decide
    exact ⟨_, by simp [families], hlegacy.trans (List.isPrefixOf_iff_prefix.mp hopen)⟩
  split at h
  · rename_i hopen
    exact ⟨_, by simp [families], List.isPrefixOf_iff_prefix.mp hopen⟩
  split at h
  · rename_i hopen
    exact ⟨_, by simp [families], List.isPrefixOf_iff_prefix.mp hopen⟩
  · split at h
    · rename_i hopen
      exact ⟨_, by simp [families], List.isPrefixOf_iff_prefix.mp hopen⟩
    · exact (h rfl).elim

/-- Discarding a body that cannot be captured suppresses no message. -/
theorem mayBeCaptured_of_parseOsc {raw : List UInt8} (h : parseOsc parsers raw ≠ none) :
    mayBeCaptured raw := by
  obtain ⟨candidate, hmem, hpre⟩ := family_of_parseOsc h
  exact mayBeCaptured_iff.mpr ⟨candidate, hmem, Or.inr hpre⟩

end Vivido.Osc
