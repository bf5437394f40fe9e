import Mathlib.Data.List.DropRight
import Vivido.Support.Since

/-!
The Kitty keyboard modes of the terminal. Each screen has a stack of them, and the
terminal's mode word holds five bits that the encoder of key presses reads. Push and
pop reload these bits from the top of the stack and a swap of the screens from the
other stack; a request that sets modes writes the bits and leaves the stack.
-/

namespace Vivido.Terminal

open List

/-- The flags of `KeyboardModes`, the lowest `DISAMBIGUATE_ESC_CODES`. -/
abbrev KeyboardModes := BitVec 5

namespace KeyboardModes

def noMode : KeyboardModes := 0#5
def disambiguateEscCodes : KeyboardModes := 1#5
def reportEventTypes : KeyboardModes := 2#5
def reportAlternateKeys : KeyboardModes := 4#5
def reportAllKeysAsEsc : KeyboardModes := 8#5
def reportAssociatedText : KeyboardModes := 16#5

/-- `contains`. -/
def contains (modes other : KeyboardModes) : Bool := modes &&& other = other

end KeyboardModes

inductive KeyboardModesApplyBehavior where
  | replace
  | union
  | difference
  deriving DecidableEq, Repr

/-- What the flags in effect become. -/
def KeyboardModesApplyBehavior.applied {w : ℕ} (apply : KeyboardModesApplyBehavior)
    (active mode : BitVec w) : BitVec w :=
  match apply with
  | .replace => mode
  | .union => active ||| mode
  | .difference => active &&& ~~~mode

/-- The bits of `TermMode` as the terminal holds them. -/
abbrev ModeWord := BitVec 32

namespace ModeWord

def showCursor : ModeWord := 1#32
def lineWrap : ModeWord := 1#32 <<< 7
def altScreen : ModeWord := 1#32 <<< 12
def alternateScroll : ModeWord := 1#32 <<< 15
def urgencyHints : ModeWord := 1#32 <<< 17
def disambiguateEscCodes : ModeWord := 1#32 <<< 18
def reportEventTypes : ModeWord := 1#32 <<< 19
def reportAlternateKeys : ModeWord := 1#32 <<< 20
def reportAllKeysAsEsc : ModeWord := 1#32 <<< 21
def reportAssociatedText : ModeWord := 1#32 <<< 22

/-- `KITTY_KEYBOARD_PROTOCOL`. -/
def kittyKeyboardProtocol : ModeWord :=
  disambiguateEscCodes ||| reportEventTypes ||| reportAlternateKeys ||| reportAllKeysAsEsc |||
    reportAssociatedText

/-- `TermMode::default`. -/
def default : ModeWord := showCursor ||| lineWrap ||| alternateScroll ||| urgencyHints

/-- The `set` of one flag in a word where it is clear. -/
def given (flag : ModeWord) (value : Bool) : ModeWord := if value then flag else 0#32

/-- `From<KeyboardModes> for TermMode`. -/
def ofKeyboard (value : KeyboardModes) : ModeWord :=
  given disambiguateEscCodes (value.contains .disambiguateEscCodes) |||
    given reportEventTypes (value.contains .reportEventTypes) |||
    given reportAlternateKeys (value.contains .reportAlternateKeys) |||
    given reportAllKeysAsEsc (value.contains .reportAllKeysAsEsc) |||
    given reportAssociatedText (value.contains .reportAssociatedText)

/-- The keyboard flags that a word has in effect. -/
def keyboard (mode : ModeWord) : KeyboardModes := mode.extractLsb' 18 5

theorem ofKeyboard_eq (value : KeyboardModes) : ofKeyboard value = value.setWidth 32 <<< 18 := by
  revert value
  decide

/-- `Term::set_keyboard_mode` on the word. -/
def setKeyboardMode (word mode : ModeWord) (apply : KeyboardModesApplyBehavior) : ModeWord :=
  let activeMode := word &&& kittyKeyboardProtocol
  let word := word &&& ~~~kittyKeyboardProtocol
  let newMode := apply.applied activeMode mode
  word ||| newMode

/-- The bits from 18 to 22 are the keyboard's. -/
theorem getLsbD_kittyKeyboardProtocol (i : ℕ) :
    kittyKeyboardProtocol.getLsbD i = decide (18 ≤ i ∧ i < 23) := by
  by_cases hi : i < 32
  · have hall : ∀ i : Fin 32, kittyKeyboardProtocol.getLsbD i = decide (18 ≤ (i : ℕ) ∧ i < 23) := by
      decide
    exact hall ⟨i, hi⟩
  · rw [BitVec.getLsbD_of_ge _ _ (Nat.le_of_not_lt hi)]
    simp only [false_eq_decide_iff, not_and, not_lt]
    intro _
    omega

theorem getLsbD_keyboard (mode : ModeWord) (i : ℕ) (hi : i < 5) :
    mode.keyboard.getLsbD i = mode.getLsbD (18 + i) := by
  rw [keyboard, BitVec.getLsbD_extractLsb', decide_eq_true hi, Bool.true_and]

variable (word : ModeWord) (modes : KeyboardModes) (apply : KeyboardModesApplyBehavior)

theorem getLsbD_ofKeyboard (i : ℕ) (hi : i < 5) :
    (ofKeyboard modes).getLsbD (18 + i) = modes.getLsbD i := by
  have hword : 18 + i < 32 := by omega
  simp [ofKeyboard_eq, hword]

theorem keyboard_setKeyboardMode : (word.setKeyboardMode (ofKeyboard modes) apply).keyboard =
      apply.applied word.keyboard modes := by
  apply BitVec.eq_of_getLsbD_eq
  intro i hi
  have hword : 18 + i < 32 := by omega
  have hmask : kittyKeyboardProtocol.getLsbD (18 + i) = true := by
    rw [getLsbD_kittyKeyboardProtocol]
    simp only [decide_eq_true_eq]
    omega
  rw [getLsbD_keyboard _ _ hi, setKeyboardMode, BitVec.getLsbD_or, BitVec.getLsbD_and,
    BitVec.getLsbD_not, hmask, Bool.not_true, Bool.and_false, Bool.and_false, Bool.false_or]
  cases apply with
  | replace => exact getLsbD_ofKeyboard modes i hi
  | union =>
    simp only [KeyboardModesApplyBehavior.applied, BitVec.getLsbD_or, BitVec.getLsbD_and, hmask,
      Bool.and_true, getLsbD_ofKeyboard modes i hi, getLsbD_keyboard word i hi]
  | difference =>
    simp only [KeyboardModesApplyBehavior.applied, BitVec.getLsbD_and, BitVec.getLsbD_not, hmask,
      hi, hword, decide_true, Bool.true_and, Bool.and_true, getLsbD_ofKeyboard modes i hi,
      getLsbD_keyboard word i hi]

theorem keyboard_xor_altScreen : (word ^^^ altScreen).keyboard = word.keyboard := by
  have hscreen : keyboard altScreen = 0#5 := by decide
  rw [keyboard, BitVec.extractLsb'_xor]
  exact (congrArg (word.keyboard ^^^ ·) hscreen).trans BitVec.xor_zero

theorem keyboard_cleared : (word &&& ~~~kittyKeyboardProtocol).keyboard = 0#5 := by
  have hmask : (~~~kittyKeyboardProtocol).keyboard = 0#5 := by decide
  rw [keyboard, BitVec.extractLsb'_and]
  exact (congrArg (word.keyboard &&& ·) hmask).trans BitVec.and_zero

/-- The bits that are no mode of the keyboard, nor the screen's. -/
def others (word : ModeWord) : ModeWord := word &&& ~~~(kittyKeyboardProtocol ||| altScreen)

theorem others_setKeyboardMode (word : ModeWord) (modes : KeyboardModes)
    (apply : KeyboardModesApplyBehavior) :
    (word.setKeyboardMode (ofKeyboard modes) apply).others = word.others := by
  have hin : ofKeyboard modes = ofKeyboard modes &&& kittyKeyboardProtocol := by
    revert modes
    decide
  rw [hin]
  unfold others setKeyboardMode KeyboardModesApplyBehavior.applied
  generalize kittyKeyboardProtocol = bits
  cases apply <;> ext i <;> simp <;> grind

end ModeWord

/-- `KEYBOARD_MODE_STACK_MAX_DEPTH`. -/
def keyboardModeStackMaxDepth : ℕ := 4096

/-- What the keyboard modes are kept in: `mode`, the two stacks with their tops last, and
`config.kitty_keyboard`. -/
structure KeyboardTerm where
  kittyKeyboard : Bool
  mode : ModeWord := .default
  keyboardModeStack : List KeyboardModes := []
  inactiveKeyboardModeStack : List KeyboardModes := []
  deriving DecidableEq

inductive KeyboardOp where
  | push (mode : KeyboardModes)
  | pop (toPop : ℕ)
  | set (mode : KeyboardModes) (apply : KeyboardModesApplyBehavior)
  | swapAlt
  | resetState
  | resetClientState
  | setOptions (kittyKeyboard : Bool)
  deriving DecidableEq

namespace KeyboardTerm

/-- The text that answers a query with these modes. -/
def keyboardReply (modes : KeyboardModes) : String := "\x1b[?" ++ toString modes.toNat ++ "u"

/-- The modes on top of the active screen's stack. -/
def topModes (t : KeyboardTerm) : KeyboardModes :=
  t.keyboardModeStack.getLast?.getD .noMode

def reportKeyboardMode (t : KeyboardTerm) : Option String :=
  if t.kittyKeyboard then some (keyboardReply t.topModes) else none

/-- `Term::set_keyboard_mode`. -/
def writeKeyboardMode (t : KeyboardTerm) (mode : KeyboardModes)
    (apply : KeyboardModesApplyBehavior) : KeyboardTerm :=
  { t with mode := t.mode.setKeyboardMode (.ofKeyboard mode) apply }

def pushKeyboardMode (t : KeyboardTerm) (mode : KeyboardModes) : KeyboardTerm :=
  if !t.kittyKeyboard then t
  else
    let stack := if keyboardModeStackMaxDepth ≤ t.keyboardModeStack.length then
      t.keyboardModeStack.tail else t.keyboardModeStack
    { t with keyboardModeStack := stack ++ [mode] }.writeKeyboardMode mode .replace

def popKeyboardModes (t : KeyboardTerm) (toPop : ℕ) : KeyboardTerm :=
  if !t.kittyKeyboard then t
  else
    let newLen := t.keyboardModeStack.length - toPop
    let t := { t with keyboardModeStack := t.keyboardModeStack.take newLen }
    t.writeKeyboardMode t.topModes .replace

/-- The handler's `set_keyboard_mode`. -/
def setKeyboardMode (t : KeyboardTerm) (mode : KeyboardModes)
    (apply : KeyboardModesApplyBehavior) : KeyboardTerm :=
  if !t.kittyKeyboard then t else t.writeKeyboardMode mode apply

def swapAlt (t : KeyboardTerm) : KeyboardTerm :=
  let t := { t with
    keyboardModeStack := t.inactiveKeyboardModeStack
    inactiveKeyboardModeStack := t.keyboardModeStack }
  let t := t.writeKeyboardMode t.topModes .replace
  { t with mode := t.mode ^^^ .altScreen }

/-- `reset_state` and `reset_client_state`. -/
def reset (t : KeyboardTerm) : KeyboardTerm := { kittyKeyboard := t.kittyKeyboard }

def setOptions (t : KeyboardTerm) (kittyKeyboard : Bool) : KeyboardTerm :=
  if kittyKeyboard ≠ t.kittyKeyboard then
    { kittyKeyboard := kittyKeyboard
      mode := t.mode &&& ~~~.kittyKeyboardProtocol }
  else t

def apply (t : KeyboardTerm) : KeyboardOp → KeyboardTerm
  | .push mode => t.pushKeyboardMode mode
  | .pop toPop => t.popKeyboardModes toPop
  | .set mode behavior => t.setKeyboardMode mode behavior
  | .swapAlt => t.swapAlt
  | .resetState => t.reset
  | .resetClientState => t.reset
  | .setOptions kittyKeyboard => t.setOptions kittyKeyboard

def run (kittyKeyboard : Bool) (history : List KeyboardOp) : KeyboardTerm :=
  history.foldl apply { kittyKeyboard }

/-- The keyboard bits that the terminal has in effect. -/
def activeModes (t : KeyboardTerm) : KeyboardModes := t.mode.keyboard

end KeyboardTerm

/-- The request acts on the stack and the modes of the screen that is shown. -/
def KeyboardOp.Local : KeyboardOp → Prop
  | .push _ | .pop _ | .set _ _ => True
  | .swapAlt | .resetState | .resetClientState | .setOptions _ => False

namespace KeyboardTerm

/-- The report names the modes in effect, a trip through the other screen keeps them, and the stacks
stay within the limit, a push on a full one dropping the oldest entry. -/
structure Exact (t : KeyboardTerm) : Prop where
  reported : ∀ text, t.reportKeyboardMode = some text → text = keyboardReply t.activeModes
  returned : ∀ trip : List KeyboardOp, (∀ op ∈ trip, op.Local) →
    (trip.foldl apply t.swapAlt).swapAlt.activeModes = t.activeModes
  bounded : t.keyboardModeStack.length ≤ keyboardModeStackMaxDepth
  inactive_bounded : t.inactiveKeyboardModeStack.length ≤ keyboardModeStackMaxDepth
  newest : ∀ mode, t.kittyKeyboard = true → (t.pushKeyboardMode mode).keyboardModeStack =
    (t.keyboardModeStack ++ [mode]).rtake keyboardModeStackMaxDepth

/-- The bits in effect are those on top of the stack. -/
structure Synced (t : KeyboardTerm) : Prop where
  active : t.activeModes = t.topModes
  bounded : t.keyboardModeStack.length ≤ keyboardModeStackMaxDepth
  inactive_bounded : t.inactiveKeyboardModeStack.length ≤ keyboardModeStackMaxDepth

/-- A request that sets modes asks for those in effect: all of them in place of the old ones, some
of them besides, or none of them taken away. -/
def Idle (t : KeyboardTerm) : KeyboardOp → Prop
  | .set mode .replace => t.kittyKeyboard = true → mode = t.activeModes
  | .set mode .union => t.kittyKeyboard = true → mode &&& t.activeModes = mode
  | .set mode .difference => t.kittyKeyboard = true → mode &&& t.activeModes = .noMode
  | _ => True

instance decidableIdle (t : KeyboardTerm) (op : KeyboardOp) : Decidable (t.Idle op) :=
  match op with
  | .set mode .replace =>
    inferInstanceAs (Decidable (t.kittyKeyboard = true → mode = t.activeModes))
  | .set mode .union =>
    inferInstanceAs (Decidable (t.kittyKeyboard = true → mode &&& t.activeModes = mode))
  | .set mode .difference =>
    inferInstanceAs (Decidable (t.kittyKeyboard = true → mode &&& t.activeModes = .noMode))
  | .push _ | .pop _ | .swapAlt | .resetState | .resetClientState | .setOptions _ => isTrue trivial

section

variable (t : KeyboardTerm)
include t

theorem activeModes_writeKeyboardMode (mode : KeyboardModes)
    (behavior : KeyboardModesApplyBehavior) :
    (t.writeKeyboardMode mode behavior).activeModes = behavior.applied t.activeModes mode :=
  t.mode.keyboard_setKeyboardMode mode behavior

theorem activeModes_swapAlt :
    t.swapAlt.activeModes = t.inactiveKeyboardModeStack.getLast?.getD .noMode := by
  have hload := ({ t with
    keyboardModeStack := t.inactiveKeyboardModeStack
    inactiveKeyboardModeStack := t.keyboardModeStack } : KeyboardTerm).activeModes_writeKeyboardMode
      (t.inactiveKeyboardModeStack.getLast?.getD .noMode) .replace
  exact (ModeWord.keyboard_xor_altScreen _).trans hload

/-- What acts on the shown screen leaves the other stack. -/
theorem inactive_apply (op : KeyboardOp) (h : op.Local) :
    (t.apply op).inactiveKeyboardModeStack = t.inactiveKeyboardModeStack := by
  cases op with
  | push =>
    simp only [apply, pushKeyboardMode]
    split <;> rfl
  | pop =>
    simp only [apply, popKeyboardModes]
    split <;> rfl
  | set =>
    simp only [apply, setKeyboardMode]
    split <;> rfl
  | swapAlt | resetState | resetClientState | setOptions _ => cases h

theorem inactive_trip (trip : List KeyboardOp) (h : ∀ op ∈ trip, op.Local) :
    (trip.foldl apply t).inactiveKeyboardModeStack = t.inactiveKeyboardModeStack := by
  induction trip generalizing t with
  | nil => rfl
  | cons op _ ih =>
    rw [foldl_cons, ih (t.apply op) fun op' hop' => h op' (mem_cons_of_mem op hop'),
      inactive_apply t op (h op mem_cons_self)]

/-- A trip through the other screen brings back what is on top of this one's stack. -/
theorem activeModes_trip (trip : List KeyboardOp) (h : ∀ op ∈ trip, op.Local) :
    (trip.foldl apply t.swapAlt).swapAlt.activeModes = t.topModes := by
  rw [activeModes_swapAlt, inactive_trip t.swapAlt trip h]
  rfl

theorem stack_pushKeyboardMode (mode : KeyboardModes)
    (hkitty : t.kittyKeyboard = true) (h : t.keyboardModeStack.length ≤ keyboardModeStackMaxDepth) :
    (t.pushKeyboardMode mode).keyboardModeStack =
      (t.keyboardModeStack ++ [mode]).rtake keyboardModeStackMaxDepth := by
  have hstack : (t.pushKeyboardMode mode).keyboardModeStack =
      (if keyboardModeStackMaxDepth ≤ t.keyboardModeStack.length then
        t.keyboardModeStack.tail else t.keyboardModeStack) ++ [mode] := by
    simp only [pushKeyboardMode, hkitty]
    rfl
  have hnewest : (t.keyboardModeStack ++ [mode]).rtake keyboardModeStackMaxDepth =
      t.keyboardModeStack.rtake 4095 ++ [mode] := rtake_concat_succ _ 4095 mode
  rw [hstack, hnewest, List.rtake]
  by_cases hfull : keyboardModeStackMaxDepth ≤ t.keyboardModeStack.length
  · have hlength : t.keyboardModeStack.length = 4096 := Nat.le_antisymm h hfull
    rw [if_pos hfull, hlength, ← drop_one]
  · have hlength : t.keyboardModeStack.length ≤ 4095 := by
      change ¬ 4096 ≤ _ at hfull
      omega
    rw [if_neg hfull, Nat.sub_eq_zero_of_le hlength, drop_zero]

theorem exact_iff_synced : t.Exact ↔ t.Synced := by
  constructor
  · intro h
    refine ⟨?_, h.bounded, h.inactive_bounded⟩
    rw [← h.returned [] (by simp), activeModes_trip t [] (by simp)]
  intro h
  refine ⟨?_, ?_, h.bounded, h.inactive_bounded, ?_⟩
  · intro _ htext
    simp only [reportKeyboardMode, Option.ite_none_right_eq_some, Option.some.injEq] at htext
    rw [← htext.2, h.active]
  · intro trip htrip
    rw [activeModes_trip t trip htrip, h.active]
  · intro mode hkitty
    exact t.stack_pushKeyboardMode mode hkitty h.bounded

/-! ### What a step keeps -/

theorem synced_pushKeyboardMode (mode : KeyboardModes) (h : t.Synced) :
    (t.pushKeyboardMode mode).Synced := by
  cases hkitty : t.kittyKeyboard with
  | false => simpa [pushKeyboardMode, hkitty] using h
  | true =>
    have hstack := t.stack_pushKeyboardMode mode hkitty h.bounded
    have hactive : (t.pushKeyboardMode mode).activeModes = mode := by
      simp only [pushKeyboardMode, hkitty, Bool.not_true]
      exact activeModes_writeKeyboardMode _ mode .replace
    refine ⟨?_, ?_, ?_⟩
    · rw [hactive, topModes, hstack]
      simp [show keyboardModeStackMaxDepth = 4095 + 1 from rfl, rtake_concat_succ]
    · rw [hstack, List.rtake, length_drop]
      omega
    · have hsame := t.inactive_apply (.push mode) trivial
      rw [apply] at hsame
      rw [hsame]
      exact h.inactive_bounded

theorem synced_popKeyboardModes (toPop : ℕ) (h : t.Synced) : (t.popKeyboardModes toPop).Synced := by
  cases hkitty : t.kittyKeyboard with
  | false => simpa [popKeyboardModes, hkitty] using h
  | true =>
    have hbounded := h.bounded
    simp only [popKeyboardModes, hkitty, Bool.not_true]
    refine ⟨activeModes_writeKeyboardMode _ _ .replace, ?_, h.inactive_bounded⟩
    refine Nat.le_trans ?_ hbounded
    exact length_take_le' _ _

theorem synced_swapAlt (h : t.Synced) : t.swapAlt.Synced :=
  ⟨t.activeModes_swapAlt, h.inactive_bounded, h.bounded⟩

theorem synced_reset : t.reset.Synced := by
  refine ⟨?_, Nat.zero_le _, Nat.zero_le _⟩
  change ModeWord.keyboard .default = .noMode
  decide

theorem synced_setOptions (kittyKeyboard : Bool) (h : t.Synced) :
    (t.setOptions kittyKeyboard).Synced := by
  by_cases hsame : kittyKeyboard = t.kittyKeyboard
  · simpa [setOptions, hsame] using h
  · simp only [setOptions, ne_eq, hsame, not_false_eq_true, if_true]
    exact ⟨ModeWord.keyboard_cleared t.mode, Nat.zero_le _, Nat.zero_le _⟩

end

theorem applied_eq_iff (behavior : KeyboardModesApplyBehavior) (active modes : KeyboardModes) :
    behavior.applied active modes = active ↔ match behavior with
      | .replace => modes = active
      | .union => modes &&& active = modes
      | .difference => modes &&& active = .noMode := by
  cases behavior with
  | replace => rfl
  | union | difference =>
    revert active modes
    decide +kernel

/-- A request that sets modes leaves the stack, and so must leave the bits. -/
theorem synced_setKeyboardMode_iff (t : KeyboardTerm) (mode : KeyboardModes)
    (behavior : KeyboardModesApplyBehavior) (h : t.Synced) :
    (t.setKeyboardMode mode behavior).Synced ↔ t.Idle (.set mode behavior) := by
  cases hkitty : t.kittyKeyboard with
  | false =>
    have hidle : t.Idle (.set mode behavior) := by
      cases behavior <;> exact fun hon => absurd (hkitty.symm.trans hon) Bool.false_ne_true
    simpa [setKeyboardMode, hkitty, hidle] using h
  | true =>
    have hset : t.setKeyboardMode mode behavior = t.writeKeyboardMode mode behavior := by
      simp [setKeyboardMode, hkitty]
    have hsynced : (t.writeKeyboardMode mode behavior).Synced ↔
        behavior.applied t.activeModes mode = t.activeModes := by
      constructor
      · intro hafter
        have hactive := hafter.active
        rw [activeModes_writeKeyboardMode] at hactive
        exact hactive.trans h.active.symm
      · intro hsame
        refine ⟨?_, h.bounded, h.inactive_bounded⟩
        rw [activeModes_writeKeyboardMode, hsame]
        exact h.active
    rw [hset, hsynced, applied_eq_iff]
    cases behavior <;> simp [Idle, hkitty]

theorem synced_apply_iff (t : KeyboardTerm) (op : KeyboardOp) (h : t.Synced) :
    (t.apply op).Synced ↔ t.Idle op := by
  cases op with
  | push mode => exact iff_of_true (t.synced_pushKeyboardMode mode h) trivial
  | pop toPop => exact iff_of_true (t.synced_popKeyboardModes toPop h) trivial
  | set mode behavior => exact t.synced_setKeyboardMode_iff mode behavior h
  | swapAlt => exact iff_of_true (t.synced_swapAlt h) trivial
  | resetState | resetClientState => exact iff_of_true t.synced_reset trivial
  | setOptions kittyKeyboard => exact iff_of_true (t.synced_setOptions kittyKeyboard h) trivial

/-- No other bit of the word is ever touched. -/
theorem others_run (kittyKeyboard : Bool) (history : List KeyboardOp) :
    (run kittyKeyboard history).mode.others = .default := by
  have hdefault : ModeWord.default.others = .default := by decide
  induction history using List.reverseRecOn with
  | nil => exact hdefault
  | append_singleton history op ih =>
    unfold run at *
    rw [foldl_concat]
    generalize history.foldl apply _ = t at *
    have hwrite : ∀ (t : KeyboardTerm) mode behavior,
        (t.writeKeyboardMode mode behavior).mode.others = t.mode.others :=
      fun t => t.mode.others_setKeyboardMode
    have hxor : ∀ word : ModeWord, (word ^^^ .altScreen).others = word.others := by
      intro word
      ext i
      simp [ModeWord.others]
      grind
    have hclear : (t.mode &&& ~~~.kittyKeyboardProtocol).others = t.mode.others := by
      ext i
      simp [ModeWord.others]
      grind
    cases op with
    | push | pop | set =>
      simp only [apply, pushKeyboardMode, popKeyboardModes, setKeyboardMode]
      split <;> simp [hwrite, ih]
    | swapAlt => simp [apply, swapAlt, hxor, hwrite, ih]
    | resetState | resetClientState => exact hdefault
    | setOptions =>
      simp only [apply, setOptions]
      split
      · exact hclear.trans ih
      · exact ih

/-- All along a run the report names the modes in effect and a trip through the other screen keeps
them, if and only if no request sets modes other than those in effect. -/
theorem keyboard_modes_exact_iff (kittyKeyboard : Bool) (history : List KeyboardOp) :
    (∀ n, (run kittyKeyboard (history.take n)).Exact) ↔
      Throughout (run kittyKeyboard) Idle history := by
  refine throughout_iff_always (fun history => (run kittyKeyboard history).Exact) ?_ ?_
  · exact (exact_iff_synced _).mpr (synced_reset { kittyKeyboard })
  · intro _ op h
    rw [exact_iff_synced] at h ⊢
    rw [run, foldl_concat]
    exact synced_apply_iff _ op h

/-- A program that replaces the modes with an empty stack reads back that none are in effect. -/
theorem keyboard_modes_not_reported :
    let t := run true [.set .disambiguateEscCodes .replace]
    t.reportKeyboardMode = some "\x1b[?0u" ∧ t.activeModes = .disambiguateEscCodes ∧ ¬ t.Exact := by
  refine ⟨by decide +kernel, by decide +kernel, fun h => ?_⟩
  have hwrong := h.reported _ rfl
  exact absurd hwrong (by decide +kernel)

end KeyboardTerm

end Vivido.Terminal
