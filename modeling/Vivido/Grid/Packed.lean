import Mathlib
import Vivido.Grid.Cell

/-!
Cells packed into one word of 64 bits, from the lowest: 21 bits of character,
four layout flags, 24 bits of style with the blank bit, and 13 bits of extra
entry with the combining bit. The word has the bits of the cell it stands for,
and its setters move it as the cell's own fields move.
-/

namespace Vivido.Terminal

namespace StyleId

/-- The index, then the blank bit. -/
def packed (style : StyleId) : BitVec 64 :=
  BitVec.ofNat 64 style.index ||| BitVec.ofNat 64 style.showsOnBlank.toNat <<< 24

/-- Higher bits are ignored. -/
def fromPacked (bits : BitVec 64) : StyleId where
  index := (bits &&& 1#64 <<< 24 - 1).toNat
  showsOnBlank := bits >>> 24 &&& 1#64 != 0

def bit (style : StyleId) (i : ℕ) : Bool :=
  if i < 24 then style.index.testBit i else i = 24 && style.showsOnBlank

end StyleId

namespace ExtraId

def packed (extra : ExtraId) : Option (BitVec 64) :=
  if extra.number < packedNumbers then
    some (BitVec.ofNat 64 extra.number ||| BitVec.ofNat 64 extra.hasZerowidth.toNat <<< 13)
  else .none

def fromPacked (bits : BitVec 64) : ExtraId where
  number := (bits &&& 1#64 <<< 13 - 1).toNat
  hasZerowidth := bits >>> 13 &&& 1#64 != 0

def bit (extra : ExtraId) (i : ℕ) : Bool :=
  if i < 13 then extra.number.testBit i else i = 13 && extra.hasZerowidth

end ExtraId

/-- The layout flags in the order of their packed bits. -/
def Layout.bit (flags : Layout) : ℕ → Bool
  | 0 => flags.wrapline
  | 1 => flags.wideChar
  | 2 => flags.wideCharSpacer
  | 3 => flags.leadingWideCharSpacer
  | _ => false

def Cell.bit (cell : Cell) (i : ℕ) : Bool :=
  if i < 21 then cell.c.toNat.testBit i
  else if i < 25 then cell.layout.bit (i - 21)
  else if i < 50 then cell.style.bit (i - 25)
  else cell.extra.bit (i - 50)

/-- The style and the entry have numbers that a packed cell can hold. -/
def Cell.Fits (cell : Cell) : Prop := cell.style.index < 2 ^ 24 ∧ cell.extra.number < packedNumbers

namespace Packed

def charMask : BitVec 64 := 1#64 <<< 21 - 1

def layoutMask : BitVec 64 := (1#64 <<< 4 - 1) <<< 21

def styleMask : BitVec 64 := (1#64 <<< 25 - 1) <<< 25

def extraMask : BitVec 64 := (~~~0#64) <<< 50

/-- Layout flags as packed bits, in place. -/
def layoutBits (flags : Layout) : BitVec 64 :=
  (List.range 4).foldl
    (fun bits bit => if flags.bit bit then bits ||| 1#64 <<< (21 + bit) else bits) 0

def c (word : BitVec 64) : Char :=
  let code := (word &&& charMask).toNat
  if code.isValidChar then Char.ofNat code else ' '

def setC (word : BitVec 64) (c : Char) : BitVec 64 :=
  word &&& ~~~charMask ||| BitVec.ofNat 64 c.toNat

def style (word : BitVec 64) : StyleId := .fromPacked (word >>> 25)

def setStyle (word : BitVec 64) (style : StyleId) : BitVec 64 :=
  word &&& ~~~styleMask ||| style.packed <<< 25

def layout (word : BitVec 64) : Layout where
  wrapline := word &&& 1#64 <<< 21 != 0
  wideChar := word &&& 1#64 <<< 22 != 0
  wideCharSpacer := word &&& 1#64 <<< 23 != 0
  leadingWideCharSpacer := word &&& 1#64 <<< 24 != 0

def setLayout (word : BitVec 64) (flags : Layout) : BitVec 64 :=
  word &&& ~~~layoutMask ||| layoutBits flags

def insertLayout (word : BitVec 64) (flags : Layout) : BitVec 64 := word ||| layoutBits flags

def removeLayout (word : BitVec 64) (flags : Layout) : BitVec 64 := word &&& ~~~layoutBits flags

def hasLayout (word : BitVec 64) (flags : Layout) : Bool := word &&& layoutBits flags != 0

/-- A print may overwrite the cell outright. -/
def isSimple (word : BitVec 64) : Bool :=
  word &&& (extraMask ||| layoutBits ((Layout.wide.insert .spacer).insert .leading)) == 0

def hasExtra (word : BitVec 64) : Bool := word &&& extraMask != 0

def extra (word : BitVec 64) : ExtraId := .fromPacked (word >>> 50)

def setExtraId (word : BitVec 64) (extra : ExtraId) : BitVec 64 :=
  word &&& ~~~extraMask ||| (extra.packed.getD 0) <<< 50

def write (_word : BitVec 64) (c : Char) (style : StyleId) (layout : Layout) : BitVec 64 :=
  BitVec.ofNat 64 c.toNat ||| layoutBits layout ||| style.packed <<< 25

def clearWide (word : BitVec 64) : BitVec 64 :=
  setC (removeLayout word .wide &&& ~~~extraMask) ' '

/-- `Cell::default`. -/
def default : BitVec 64 := BitVec.ofNat 64 ' '.toNat

/-- `GridCell::reset`. -/
def reset (_word template : BitVec 64) : BitVec 64 :=
  BitVec.ofNat 64 ' '.toNat ||| template &&& styleMask

/-- `From<char>`. -/
def ofChar (c : Char) : BitVec 64 := BitVec.ofNat 64 c.toNat

/-- The cell that `fill_ascii` stores for a byte. -/
def asciiCell (style : StyleId) (byte : ℕ) : BitVec 64 :=
  write default '\x00' style .empty ||| BitVec.ofNat 64 byte

/-- `From<&Cell> for UnpackedCell`: all of its fields. -/
def unpack (word : BitVec 64) : Cell where
  c := c word
  style := style word
  layout := layout word
  extra := extra word

/-- `From<&UnpackedCell> for Cell`. -/
def pack (cell : Cell) : BitVec 64 :=
  setExtraId (write default cell.c cell.style cell.layout) cell.extra

/-- The word's bits are those of the cell. -/
def Stands (word : BitVec 64) (cell : Cell) : Prop :=
  cell.Fits ∧ ∀ i < 64, word.getLsbD i = cell.bit i

variable {word : BitVec 64} {cell : Cell}

theorem testBit_of_lt {value bits i : ℕ} (h : value < 2 ^ bits) (hi : bits ≤ i) :
    value.testBit i = false :=
  Nat.testBit_lt_two_pow (lt_of_lt_of_le h (Nat.pow_le_pow_right (by omega) hi))

theorem char_lt (c : Char) : c.toNat < 2 ^ 21 := by
  rcases c.valid with h | ⟨-, h⟩
  · exact lt_trans h (by decide)
  · exact lt_trans h (by decide)

section Bits

variable {i : ℕ} (hi : i < 64)
include hi

theorem getLsbD_ofNat (value : ℕ) : (BitVec.ofNat 64 value).getLsbD i = value.testBit i := by
  rw [BitVec.getLsbD_ofNat]
  simp only [hi, decide_true, Bool.true_and]

theorem getLsbD_ones (start count : ℕ) : (BitVec.ofNat 64 (2 ^ count - 1) <<< start).getLsbD i =
      decide (start ≤ i ∧ i < start + count) := by
  rw [BitVec.getLsbD_shiftLeft, getLsbD_ofNat (by omega), Nat.testBit_two_pow_sub_one]
  grind

@[grind =] theorem getLsbD_charMask : charMask.getLsbD i = decide (i < 21) := by
  rw [show charMask = BitVec.ofNat 64 (2 ^ 21 - 1) <<< 0 by decide, getLsbD_ones hi]
  simp

@[grind =] theorem getLsbD_layoutMask : layoutMask.getLsbD i = decide (21 ≤ i ∧ i < 25) :=
  getLsbD_ones hi 21 4

@[grind =] theorem getLsbD_styleMask : styleMask.getLsbD i = decide (25 ≤ i ∧ i < 50) :=
  getLsbD_ones hi 25 25

@[grind =] theorem getLsbD_extraMask : extraMask.getLsbD i = decide (50 ≤ i) := by
  rw [show extraMask = BitVec.ofNat 64 (2 ^ 14 - 1) <<< 50 by decide, getLsbD_ones hi]
  grind

@[grind =] theorem getLsbD_char (c : Char) :
    (BitVec.ofNat 64 c.toNat).getLsbD i = (decide (i < 21) && c.toNat.testBit i) := by
  rw [getLsbD_ofNat hi]
  grind [testBit_of_lt (char_lt c) (i := i)]

/-- A number below a flag, each in its own bits. -/
theorem getLsbD_flagged {value count : ℕ} (h : value < 2 ^ count) (flag : Bool) :
    (BitVec.ofNat 64 value ||| BitVec.ofNat 64 flag.toNat <<< count).getLsbD i =
      if i < count then value.testBit i else i = count && flag := by
  rw [BitVec.getLsbD_or, BitVec.getLsbD_shiftLeft, getLsbD_ofNat hi, getLsbD_ofNat (by omega),
    Nat.testBit_bool_toNat]
  grind [testBit_of_lt h (i := i)]

@[grind =] theorem getLsbD_style {style : StyleId} (h : style.index < 2 ^ 24) :
    (style.packed <<< 25).getLsbD i = (decide (25 ≤ i ∧ i < 50) && style.bit (i - 25)) := by
  rw [BitVec.getLsbD_shiftLeft, StyleId.packed, getLsbD_flagged (by omega) h, StyleId.bit]
  grind

@[grind =] theorem getLsbD_extra (extra : ExtraId) : (extra.packed.getD 0 <<< 50).getLsbD i =
    (decide (50 ≤ i ∧ extra.number < packedNumbers) && extra.bit (i - 50)) := by
  rw [ExtraId.packed, BitVec.getLsbD_shiftLeft]
  split_ifs with hnumber
  · rw [Option.getD_some, getLsbD_flagged (by omega) hnumber, ExtraId.bit]
    grind
  · simp [hnumber]

theorem getLsbD_single (flag : Bool) (k : ℕ) :
    (if flag then 1#64 <<< k else 0).getLsbD i = (flag && decide (i = k)) := by
  cases flag
  · exact BitVec.getLsbD_zero
  · have := getLsbD_ones hi k 1
    grind

@[grind =] theorem getLsbD_layoutBits (flags : Layout) : (layoutBits flags).getLsbD i =
    (decide (21 ≤ i ∧ i < 25) && flags.bit (i - 21)) := by
  have hbits : layoutBits flags = (if flags.wrapline then 1#64 <<< 21 else 0) |||
      (if flags.wideChar then 1#64 <<< 22 else 0) |||
      (if flags.wideCharSpacer then 1#64 <<< 23 else 0) |||
      (if flags.leadingWideCharSpacer then 1#64 <<< 24 else 0) := by
    obtain ⟨a, b, c, d⟩ := flags
    cases a <;> cases b <;> cases c <;> cases d <;> rfl
  rw [hbits]
  simp only [BitVec.getLsbD_or, getLsbD_single hi]
  by_cases hlow : 21 ≤ i
  · obtain ⟨k, rfl⟩ := Nat.exists_eq_add_of_le hlow
    match k with
    | 0 | 1 | 2 | 3 => simp [Layout.bit]
    | k + 4 => grind
  · grind

end Bits

@[grind =] theorem bit_insert (flags more : Layout) (i : ℕ) :
    (flags.insert more).bit i = (flags.bit i || more.bit i) := by
  match i with
  | 0 | 1 | 2 | 3 | i + 4 => rfl

@[grind =] theorem bit_remove (flags less : Layout) (i : ℕ) :
    (flags.remove less).bit i = (flags.bit i && !less.bit i) := by
  match i with
  | 0 | 1 | 2 | 3 | i + 4 => rfl

@[grind =] theorem bit_none (i : ℕ) : ExtraId.none.bit i = false := by
  grind [ExtraId.bit, ExtraId.none]

section

variable (h : Stands word cell)
include h

theorem stands_setC (c : Char) : Stands (setC word c) (cell.setC c) :=
  ⟨h.1, fun i hi => by grind [setC, Cell.setC, Cell.bit, h.2 i hi]⟩

theorem stands_setStyle {style : StyleId} (hstyle : style.index < 2 ^ 24) :
    Stands (setStyle word style) (cell.setStyle style) :=
  ⟨⟨hstyle, h.1.2⟩, fun i hi => by grind [setStyle, Cell.setStyle, Cell.bit, h.2 i hi]⟩

theorem stands_setLayout (flags : Layout) :
    Stands (setLayout word flags) { cell with layout := flags } :=
  ⟨h.1, fun i hi => by grind [setLayout, Cell.bit, h.2 i hi]⟩

theorem stands_insertLayout (flags : Layout) :
    Stands (insertLayout word flags) (cell.insertLayout flags) :=
  ⟨h.1, fun i hi => by grind [insertLayout, Cell.insertLayout, Cell.bit, h.2 i hi]⟩

theorem stands_removeLayout (flags : Layout) :
    Stands (removeLayout word flags) (cell.removeLayout flags) :=
  ⟨h.1, fun i hi => by grind [removeLayout, Cell.removeLayout, Cell.bit, h.2 i hi]⟩

theorem stands_setExtraId (extra : ExtraId) :
    Stands (setExtraId word extra) (cell.setExtraId extra) := by
  refine ⟨⟨h.1.1, ?_⟩, fun i hi => ?_⟩
  · grind [Cell.setExtraId, ExtraId.none, packedNumbers]
  · grind [setExtraId, Cell.setExtraId, Cell.bit, h.2 i hi]

end

theorem stands_write (word : BitVec 64) (c : Char) {style : StyleId} (hstyle : style.index < 2 ^ 24)
    (layout : Layout) : Stands (write word c style layout) ⟨c, style, layout, .none⟩ :=
  ⟨⟨hstyle, Nat.two_pow_pos _⟩, fun i hi => by grind [write, Cell.bit]⟩

theorem stands_clearWide (h : Stands word cell) : Stands (clearWide word) cell.clearWide := by
  have hnone : Stands (removeLayout word .wide &&& ~~~extraMask)
      { cell.removeLayout .wide with extra := .none } :=
    ⟨⟨h.1.1, Nat.two_pow_pos _⟩, fun i hi => by
      grind [removeLayout, Cell.removeLayout, Cell.bit, h.2 i hi]⟩
  exact stands_setC hnone ' '

theorem stands_ofChar (c : Char) : Stands (ofChar c) { c := c } := by
  have hblank : ofChar c = write 0 c {} .empty := by
    rw [write, show layoutBits .empty = 0 by rfl, show StyleId.packed {} = 0 by rfl]
    simp [ofChar]
  rw [hblank]
  exact stands_write 0 c (by decide) .empty

theorem stands_reset {template : BitVec 64} (h : Stands template cell) (word : BitVec 64) :
    Stands (reset word template) ⟨' ', cell.style, .empty, .none⟩ := by
  refine ⟨⟨h.1.1, Nat.two_pow_pos _⟩, fun i hi => ?_⟩
  have hempty : (0#64).getLsbD i = _ := getLsbD_layoutBits hi .empty
  have := getLsbD_char hi ' '
  grind [reset, Cell.bit, h.2 i hi]

theorem stands_asciiCell {style : StyleId} (hstyle : style.index < 2 ^ 24) {byte : ℕ}
    (hbyte : byte < 128) : Stands (asciiCell style byte) ⟨.ofNat byte, style, .empty, .none⟩ := by
  obtain ⟨hfits, _⟩ := stands_write default '\x00' hstyle .empty
  refine ⟨hfits, fun i hi => ?_⟩
  have hvalue : (Char.ofNat byte).toNat = byte := by
    simp only [Char.ofNat, show byte.isValidChar from .inl (by omega), dite_true]
    rfl
  have := getLsbD_char hi (.ofNat byte)
  rw [hvalue] at this
  grind [asciiCell, Cell.bit]

theorem toNat_low {bits : BitVec 64} {value count : ℕ} (hvalue : value < 2 ^ count)
    (hcount : count ≤ 64) (h : ∀ i < count, bits.getLsbD i = value.testBit i) :
    (bits &&& BitVec.ofNat 64 (2 ^ count - 1)).toNat = value := by
  apply Nat.eq_of_testBit_eq
  intro i
  rw [BitVec.testBit_toNat, BitVec.getLsbD_and, BitVec.getLsbD_ofNat, Nat.testBit_two_pow_sub_one]
  grind [testBit_of_lt hvalue (i := i)]

theorem and_ne_zero (bits mask : BitVec 64) : (bits &&& mask != 0) = true ↔
    ∃ i < 64, bits.getLsbD i = true ∧ mask.getLsbD i = true := by
  rw [bne_iff_ne, ← not_iff_not]
  push Not
  constructor
  · intro hzero i hi
    have := congrArg (BitVec.getLsbD · i) hzero
    simp only [BitVec.getLsbD_and] at this
    grind
  · exact fun hnone => BitVec.eq_of_getLsbD_eq fun i hi => by grind

theorem bit_ne_zero {bits : BitVec 64} {k : ℕ} (hk : k < 64) :
    (bits &&& 1#64 <<< k != 0) = bits.getLsbD k := by
  rw [Bool.eq_iff_iff, and_ne_zero]
  have hsingle : ∀ i < 64, (1#64 <<< k).getLsbD i = decide (i = k) := fun i hi => by
    simpa using getLsbD_single hi true k
  grind

/-- A number and the flag above it are read back. -/
theorem low_flag (bits : BitVec 64) {value count : ℕ} (flag : Bool) (hvalue : value < 2 ^ count)
    (hcount : count < 64) (h : ∀ i ≤ count,
      bits.getLsbD i = if i < count then value.testBit i else i = count && flag) :
    (bits &&& BitVec.ofNat 64 (2 ^ count - 1)).toNat = value ∧
      (bits >>> count &&& 1#64 != 0) = flag := by
  have hbit : (bits >>> count &&& 1#64 <<< 0 != 0) = (bits >>> count).getLsbD 0 :=
    bit_ne_zero (by omega)
  exact ⟨toNat_low hvalue (by omega) (by grind), by grind⟩

/-- The getters read the fields of the cell that the word stands for. -/
theorem unpack_eq (h : Stands word cell) : unpack word = cell := by
  obtain ⟨⟨hstyle, hextra⟩, hbits⟩ := h
  have hc : c word = cell.c := by
    have hlow : (word &&& charMask).toNat = cell.c.toNat :=
      toNat_low (char_lt cell.c) (by omega) fun i hi => by
        rw [hbits i (by omega), Cell.bit, if_pos hi]
    unfold c
    rw [hlow]
    exact (if_pos cell.c.valid).trans (Char.ofNat_toNat _)
  have hlayout : layout word = cell.layout := by
    unfold layout
    rw [bit_ne_zero, bit_ne_zero, bit_ne_zero, bit_ne_zero, hbits, hbits, hbits, hbits]
    · rfl
    all_goals omega
  have hstyle : style word = cell.style := by
    obtain ⟨hindex, hblank⟩ := low_flag (word >>> 25) cell.style.showsOnBlank
      hstyle (by omega) fun i hi => by
        rw [BitVec.getLsbD_ushiftRight, hbits _ (by omega)]
        grind [Cell.bit, StyleId.bit]
    unfold style StyleId.fromPacked
    rw [hblank]
    exact congrArg (StyleId.mk · _) hindex
  have hextra : extra word = cell.extra := by
    obtain ⟨hnumber, hflag⟩ := low_flag (word >>> 50) cell.extra.hasZerowidth
      (show _ < 2 ^ 13 from hextra) (by omega) fun i hi => by
        rw [BitVec.getLsbD_ushiftRight, hbits _ (by omega)]
        grind [Cell.bit, ExtraId.bit]
    unfold extra ExtraId.fromPacked
    rw [hflag]
    exact congrArg (ExtraId.mk · _) hnumber
  unfold unpack
  rw [hc, hstyle, hlayout, hextra]

theorem hasLayout_eq (h : Stands word cell) (flags : Layout) : hasLayout word flags =
    (List.range 4).any fun i => cell.layout.bit i && flags.bit i := by
  rw [Bool.eq_iff_iff, hasLayout, and_ne_zero, List.any_eq_true]
  constructor
  · rintro ⟨i, hi, hbit, _⟩
    exact ⟨i - 21, by grind, by grind [Cell.bit, h.2 i hi]⟩
  · rintro ⟨i, hi, _⟩
    rw [List.mem_range] at hi
    exact ⟨21 + i, by omega, by grind [Cell.bit, h.2 (21 + i) (by omega)], by grind⟩

theorem hasExtra_eq (h : Stands word cell) : hasExtra word = cell.hasExtra := by
  rw [Bool.eq_iff_iff, hasExtra, and_ne_zero, Cell.hasExtra, bne_iff_ne]
  constructor
  · rintro ⟨i, hi, _, _⟩ _
    grind [Cell.bit, h.2 i hi]
  intro _
  -- An entry number has a bit set, and without one the combining bit is.
  by_cases hnumber : cell.extra.number = 0
  · refine ⟨63, by omega, ?_, by decide⟩
    have : cell.extra = ⟨0, cell.extra.hasZerowidth⟩ := by rw [← hnumber]
    grind [Cell.bit, ExtraId.bit, ExtraId.none, h.2 63 (by omega)]
  · obtain ⟨i, hi⟩ := Nat.exists_testBit_of_ne_zero hnumber
    have hlt : i < 13 := by
      by_contra hle
      rw [testBit_of_lt h.1.2 (by omega)] at hi
      cases hi
    exact ⟨50 + i, by omega, by grind [Cell.bit, ExtraId.bit, h.2 (50 + i) (by omega)], by grind⟩

theorem isSimple_eq (h : Stands word cell) : isSimple word = cell.isSimple := by
  have hsplit (mask more : BitVec 64) :
      (word &&& (mask ||| more) != 0) = (word &&& mask != 0 || word &&& more != 0) := by
    rw [Bool.eq_iff_iff, Bool.or_eq_true]
    simp only [and_ne_zero, BitVec.getLsbD_or, Bool.or_eq_true]
    grind
  have hsimple : isSimple word =
      !(hasExtra word || hasLayout word ((Layout.wide.insert .spacer).insert .leading)) := by
    rw [hasExtra, hasLayout, ← hsplit, isSimple, bne, Bool.not_not]
  rw [hsimple, hasExtra_eq h, hasLayout_eq h]
  simp [Cell.isSimple, List.range_succ, Layout.bit, Layout.insert, Layout.wide, Layout.spacer,
    Layout.leading, Bool.and_assoc]

/-- The words that cells hold. -/
inductive Made : BitVec 64 → Prop where
  | default : Made default
  | ofChar (c : Char) : Made (ofChar c)
  | setC {word : BitVec 64} (h : Made word) (c : Char) : Made (setC word c)
  | setStyle {word : BitVec 64} (h : Made word) {style : StyleId} (hstyle : style.index < 2 ^ 24) :
      Made (setStyle word style)
  | setLayout {word : BitVec 64} (h : Made word) (flags : Layout) : Made (setLayout word flags)
  | insertLayout {word : BitVec 64} (h : Made word) (flags : Layout) : Made (insertLayout word flags)
  | removeLayout {word : BitVec 64} (h : Made word) (flags : Layout) : Made (removeLayout word flags)
  | setExtraId {word : BitVec 64} (h : Made word) (extra : ExtraId) : Made (setExtraId word extra)
  | write {word : BitVec 64} (h : Made word) (c : Char) {style : StyleId} (hstyle : style.index < 2 ^ 24)
      (layout : Layout) : Made (write word c style layout)
  | clearWide {word : BitVec 64} (h : Made word) : Made (clearWide word)
  | reset {word template : BitVec 64} (h : Made word) (htemplate : Made template) : Made (reset word template)
  | asciiCell {style : StyleId} (hstyle : style.index < 2 ^ 24) {byte : ℕ} (hbyte : byte < 128) :
      Made (asciiCell style byte)

theorem Made.stands (h : Made word) : Stands word (unpack word) := by
  have hstands : ∃ cell, Stands word cell := by
    induction h with
    | default => exact ⟨_, stands_ofChar ' '⟩
    | ofChar c => exact ⟨_, stands_ofChar c⟩
    | setC _ c ih => exact ⟨_, stands_setC ih.choose_spec c⟩
    | setStyle _ hstyle ih => exact ⟨_, stands_setStyle ih.choose_spec hstyle⟩
    | setLayout _ flags ih => exact ⟨_, stands_setLayout ih.choose_spec flags⟩
    | insertLayout _ flags ih => exact ⟨_, stands_insertLayout ih.choose_spec flags⟩
    | removeLayout _ flags ih => exact ⟨_, stands_removeLayout ih.choose_spec flags⟩
    | setExtraId _ extra ih => exact ⟨_, stands_setExtraId ih.choose_spec extra⟩
    | write _ c hstyle layout => exact ⟨_, stands_write _ c hstyle layout⟩
    | clearWide _ ih => exact ⟨_, stands_clearWide ih.choose_spec⟩
    | reset _ _ _ ih => exact ⟨_, stands_reset ih.choose_spec _⟩
    | asciiCell hstyle hbyte => exact ⟨_, stands_asciiCell hstyle hbyte⟩
  obtain ⟨_, hcell⟩ := hstands
  rwa [unpack_eq hcell]

theorem stands_pack (h : cell.Fits) : Stands (pack cell) cell := by
  have := stands_setExtraId (stands_write default cell.c h.1 cell.layout) cell.extra
  rwa [Cell.setExtraId, if_pos h.2] at this

theorem stands_unique {other : BitVec 64} (h : Stands word cell) (hother : Stands other cell) :
    word = other :=
  BitVec.eq_of_getLsbD_eq fun i hi => (h.2 i hi).trans (hother.2 i hi).symm

/-- The words that setters make stand for the cells that fit, one word for each. -/
theorem existsUnique_made_iff (cell : Cell) :
    (∃! word, Made word ∧ unpack word = cell) ↔ cell.Fits := by
  constructor
  · rintro ⟨word, ⟨hmade, rfl⟩, -⟩
    exact hmade.stands.1
  intro h
  have hstands := stands_pack h
  refine ⟨pack cell, ⟨.setExtraId (.write .default _ h.1 _) _, unpack_eq hstands⟩, ?_⟩
  rintro other ⟨hmade, rfl⟩
  exact stands_unique hmade.stands hstands

end Packed

end Vivido.Terminal
