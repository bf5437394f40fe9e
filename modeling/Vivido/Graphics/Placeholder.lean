import Vivido.Grid.Row
import Vivido.Term.Style

/-!
Cells that stand for part of an image. The foreground color of such a cell gives
the image, its underline color the placement, and up to three combining marks the
row, the column and the high byte of the image. Cells of a line that show adjacent
columns of one row of an image are grouped into runs.
-/

namespace Vivido.Graphics.Placeholder

open Terminal

/-- `PLACEHOLDER`. -/
def placeholder : Char := Char.ofNat 0x10EEEE

/-- `DIACRITICS`: the code points of the marks that stand for numbers, in their order. -/
def diacritics : List ℕ :=
  [0x0305, 0x030D, 0x030E, 0x0310, 0x0312, 0x033D, 0x033E, 0x033F, 0x0346, 0x034A, 0x034B, 0x034C,
   0x0350, 0x0351, 0x0352, 0x0357, 0x035B, 0x0363, 0x0364, 0x0365, 0x0366, 0x0367, 0x0368, 0x0369,
   0x036A, 0x036B, 0x036C, 0x036D, 0x036E, 0x036F, 0x0483, 0x0484, 0x0485, 0x0486, 0x0487, 0x0592,
   0x0593, 0x0594, 0x0595, 0x0597, 0x0598, 0x0599, 0x059C, 0x059D, 0x059E, 0x059F, 0x05A0, 0x05A1,
   0x05A8, 0x05A9, 0x05AB, 0x05AC, 0x05AF, 0x05C4, 0x0610, 0x0611, 0x0612, 0x0613, 0x0614, 0x0615,
   0x0616, 0x0617, 0x0657, 0x0658, 0x0659, 0x065A, 0x065B, 0x065D, 0x065E, 0x06D6, 0x06D7, 0x06D8,
   0x06D9, 0x06DA, 0x06DB, 0x06DC, 0x06DF, 0x06E0, 0x06E1, 0x06E2, 0x06E4, 0x06E7, 0x06E8, 0x06EB,
   0x06EC, 0x0730, 0x0732, 0x0733, 0x0735, 0x0736, 0x073A, 0x073D, 0x073F, 0x0740, 0x0741, 0x0743,
   0x0745, 0x0747, 0x0749, 0x074A, 0x07EB, 0x07EC, 0x07ED, 0x07EE, 0x07EF, 0x07F0, 0x07F1, 0x07F3,
   0x0816, 0x0817, 0x0818, 0x0819, 0x081B, 0x081C, 0x081D, 0x081E, 0x081F, 0x0820, 0x0821, 0x0822,
   0x0823, 0x0825, 0x0826, 0x0827, 0x0829, 0x082A, 0x082B, 0x082C, 0x082D, 0x0951, 0x0953, 0x0954,
   0x0F82, 0x0F83, 0x0F86, 0x0F87, 0x135D, 0x135E, 0x135F, 0x17DD, 0x193A, 0x1A17, 0x1A75, 0x1A76,
   0x1A77, 0x1A78, 0x1A79, 0x1A7A, 0x1A7B, 0x1A7C, 0x1B6B, 0x1B6D, 0x1B6E, 0x1B6F, 0x1B70, 0x1B71,
   0x1B72, 0x1B73, 0x1CD0, 0x1CD1, 0x1CD2, 0x1CDA, 0x1CDB, 0x1CE0, 0x1DC0, 0x1DC1, 0x1DC3, 0x1DC4,
   0x1DC5, 0x1DC6, 0x1DC7, 0x1DC8, 0x1DC9, 0x1DCB, 0x1DCC, 0x1DD1, 0x1DD2, 0x1DD3, 0x1DD4, 0x1DD5,
   0x1DD6, 0x1DD7, 0x1DD8, 0x1DD9, 0x1DDA, 0x1DDB, 0x1DDC, 0x1DDD, 0x1DDE, 0x1DDF, 0x1DE0, 0x1DE1,
   0x1DE2, 0x1DE3, 0x1DE4, 0x1DE5, 0x1DE6, 0x1DFE, 0x20D0, 0x20D1, 0x20D4, 0x20D5, 0x20D6, 0x20D7,
   0x20DB, 0x20DC, 0x20E1, 0x20E7, 0x20E9, 0x20F0, 0x2CEF, 0x2CF0, 0x2CF1, 0x2DE0, 0x2DE1, 0x2DE2,
   0x2DE3, 0x2DE4, 0x2DE5, 0x2DE6, 0x2DE7, 0x2DE8, 0x2DE9, 0x2DEA, 0x2DEB, 0x2DEC, 0x2DED, 0x2DEE,
   0x2DEF, 0x2DF0, 0x2DF1, 0x2DF2, 0x2DF3, 0x2DF4, 0x2DF5, 0x2DF6, 0x2DF7, 0x2DF8, 0x2DF9, 0x2DFA,
   0x2DFB, 0x2DFC, 0x2DFD, 0x2DFE, 0x2DFF, 0xA66F, 0xA67C, 0xA67D, 0xA6F0, 0xA6F1, 0xA8E0, 0xA8E1,
   0xA8E2, 0xA8E3, 0xA8E4, 0xA8E5, 0xA8E6, 0xA8E7, 0xA8E8, 0xA8E9, 0xA8EA, 0xA8EB, 0xA8EC, 0xA8ED,
   0xA8EE, 0xA8EF, 0xA8F0, 0xA8F1, 0xAAB0, 0xAAB2, 0xAAB3, 0xAAB7, 0xAAB8, 0xAABE, 0xAABF, 0xAAC1,
   0xFE20, 0xFE21, 0xFE22, 0xFE23, 0xFE24, 0xFE25, 0xFE26, 0x10A0F, 0x10A38, 0x1D185, 0x1D186,
   0x1D187, 0x1D188, 0x1D189, 0x1D1AA, 0x1D1AB, 0x1D1AC, 0x1D1AD, 0x1D242, 0x1D243, 0x1D244]

/-- `diacritic_number`: one more than the mark's place in the table, or zero. -/
def diacriticNumber (mark : Char) : ℕ :=
  match diacritics.idxOf? mark.toNat with
  | some index => index + 1
  | none => 0

/-- `color_number`; the components of a color are bytes. -/
def colorNumber : Color → ℕ
  | .spec r g b => ((r % 256) <<< 16 ||| (g % 256) <<< 8) ||| b % 256
  | .indexed index => index % 256
  | .named (.other index) => if index < 16 then index else 0
  | .named .foreground | .named .background => 0

/-- What a placeholder cell says; zero stands for what it does not give. -/
structure CellCode where
  idLow : ℕ := 0
  placement : ℕ := 0
  row : ℕ := 0
  col : ℕ := 0
  idHigh : ℕ := 0
  deriving DecidableEq, Repr

/-- `decode_cell`. -/
def decodeCell (cell : Cell) (styles : StyleTable) (extras : RowExtras) : Option CellCode :=
  if cell.c ≠ placeholder then none
  else
    let marks := (extras.zerowidth cell.extra).getD []
    let mark := fun index : ℕ => (marks[index]?).elim 0 diacriticNumber
    some
      { idLow := colorNumber (styles.get cell.style).fg
        placement := (styles.get cell.style).underlineColor.elim 0 colorNumber
        row := mark 0
        col := mark 1
        idHigh := mark 2 }

def lineCells (styles : StyleTable) (row : Row) (columns : ℕ) : List (Option CellCode) :=
  (List.range columns).map fun column => decodeCell (row.get column) styles row.extras

/-- Consecutive cells that show adjacent columns of one row of an image. -/
structure Run where
  column : ℕ
  len : ℕ
  image : ℕ
  placement : ℕ
  imgRow : ℕ
  imgCol : ℕ
  deriving DecidableEq, Repr

/-- What `runs` has come to: the runs emitted, the run in progress and the cells seen. -/
structure Grouping where
  emitted : List Run := []
  len : ℕ := 0
  last : CellCode := {}
  columns : ℕ := 0
  deriving DecidableEq, Repr

/-- `flush`: emit the run in progress, which ends before a column. -/
def flush (emitted : List Run) (stop len : ℕ) (last : CellCode) : List Run :=
  if 0 < len then
    emitted ++
      [{ column := stop - len
         len := len
         image := last.idLow ||| ((last.idHigh - 1) &&& 0xFF) <<< 24
         placement := last.placement
         imgRow := last.row - 1
         imgCol := last.col - len }]
  else emitted

/-- Whether a cell continues the run in progress. -/
def continues (len : ℕ) (last cell : CellCode) : Bool :=
  0 < len && cell.idLow = last.idLow && cell.placement = last.placement &&
    (cell.row = 0 || cell.row = last.row) && (cell.col = 0 || cell.col = last.col + 1) &&
    (cell.idHigh = 0 || cell.idHigh = last.idHigh)

/-- One turn of the loop of `runs`. -/
def step (state : Grouping) (cell : Option CellCode) : Grouping :=
  match cell.filter (continues state.len state.last), cell with
  | some cell, _ =>
      { state with
        len := state.len + 1
        last := { cell with
          row := state.last.row
          col := state.last.col + 1
          idHigh := state.last.idHigh }
        columns := state.columns + 1 }
  | none, started =>
      let cell := started.getD {}
      { emitted := flush state.emitted state.columns state.len state.last
        len := if started.isSome then 1 else 0
        -- A first cell with nothing given shows the top left corner of the image.
        last := { cell with
          row := max cell.row 1
          col := max cell.col 1
          idHigh := max cell.idHigh 1 }
        columns := state.columns + 1 }

/-- The runs when the line ends here. -/
def Grouping.closed (state : Grouping) : List Run :=
  flush state.emitted state.columns state.len state.last

/-- `runs`. -/
def runs (cells : List (Option CellCode)) : List Run := (cells.foldl step {}).closed

/-! ### Numbers -/

theorem diacritics_ascending : diacritics.Pairwise (· < ·) :=
  List.isChain_iff_pairwise.mp (by decide +kernel)

theorem diacriticNumber_eq_succ_iff (mark : Char) (index : ℕ) :
    diacriticNumber mark = index + 1 ↔ diacritics[index]? = some mark.toNat := by
  unfold diacriticNumber
  constructor
  · intro h
    split at h
    · rename_i found hfound
      cases h
      obtain ⟨hlt, hmark, -⟩ := List.idxOf?_eq_some_iff.mp hfound
      rw [List.getElem?_eq_getElem hlt]
      exact congrArg some hmark
    · cases h
  · intro h
    obtain ⟨hlt, hmark⟩ := List.getElem?_eq_some_iff.mp h
    have hfound : diacritics.idxOf? mark.toNat = some index := by
      refine List.idxOf?_eq_some_iff.mpr ⟨hlt, hmark, fun j hj => ?_⟩
      have hless := List.pairwise_iff_getElem.mp diacritics_ascending j index (by omega) hlt hj
      rw [hmark] at hless
      exact Nat.ne_of_lt hless
    rw [hfound]

theorem colorNumber_lt (color : Color) : colorNumber color < 2 ^ 24 := by
  have hbyte : ∀ n k : ℕ, k ≤ 16 → (n % 256) <<< k < 2 ^ 24 := by
    intro n k hk
    have hpow : 2 ^ k ≤ 2 ^ 16 := Nat.pow_le_pow_right Nat.two_pos hk
    rw [Nat.shiftLeft_eq]
    calc n % 256 * 2 ^ k < 256 * 2 ^ k :=
          Nat.mul_lt_mul_of_pos_right (Nat.mod_lt n (by decide)) (Nat.two_pow_pos k)
      _ ≤ 256 * 2 ^ 16 := Nat.mul_le_mul_left 256 hpow
  cases color with
  | spec r g b =>
    have hblue := hbyte b 0 (Nat.zero_le _)
    rw [Nat.shiftLeft_zero] at hblue
    exact Nat.or_lt_two_pow (Nat.or_lt_two_pow (hbyte r 16 (Nat.le_refl _)) (hbyte g 8 (by decide)))
      hblue
  | indexed index => exact Nat.lt_trans (Nat.mod_lt index (by decide)) (by decide)
  | named name =>
    cases name with
    | foreground | background => decide
    | other index =>
      change (if index < 16 then index else 0) < 2 ^ 24
      split <;> omega

end Vivido.Graphics.Placeholder
