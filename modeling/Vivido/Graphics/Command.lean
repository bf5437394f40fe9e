import Mathlib.Data.Int.Notation
import Mathlib.Algebra.Group.Nat.Defs

/-!
Control data of one Kitty graphics command: a comma-separated list of `key=value`
pairs, with zero for the keys that are absent. What the keys mean is not known
here.
-/

namespace Vivido.Graphics

/-- The byte of an ASCII character. -/
def ascii (c : Char) : UInt8 := c.toUInt8

/-- `MAX_CONTROL_BYTES`. -/
def maxControlBytes : ℕ := 512

structure Command where
  action : UInt8 := 0
  delete : UInt8 := 0
  medium : UInt8 := 0
  compression : UInt8 := 0
  format : ℕ := 0
  more : ℕ := 0
  id : ℕ := 0
  number : ℕ := 0
  placement : ℕ := 0
  quiet : ℕ := 0
  width : ℕ := 0
  height : ℕ := 0
  x : ℕ := 0
  y : ℕ := 0
  dataWidth : ℕ := 0
  dataHeight : ℕ := 0
  dataSize : ℕ := 0
  dataOffset : ℕ := 0
  columns : ℕ := 0
  rows : ℕ := 0
  cellX : ℕ := 0
  cellY : ℕ := 0
  z : ℤ := 0
  cursor : ℕ := 0
  unicode : ℕ := 0
  parent : ℕ := 0
  parentPlacement : ℕ := 0
  parentX : ℤ := 0
  parentY : ℤ := 0
  hints : ℕ := 0
  deriving DecidableEq, Repr, Inhabited

namespace Command

/-- A single-character value that must be one of `allowed`. -/
def flag (value : List UInt8) (allowed : String) : Option UInt8 :=
  match value with
  | [flag] => if flag ∈ allowed.toList.map ascii then some flag else none
  | _ => none

/-- The value of a digit. -/
def digit (byte : UInt8) : Option ℕ :=
  if ascii '0' ≤ byte ∧ byte ≤ ascii '9' then some (byte - ascii '0').toNat else none

/-- A decimal `u32` with no sign, no padding and no overflow. -/
def unsigned (value : List UInt8) : Option ℕ :=
  if value = [] then none
  else
    value.foldlM (fun total byte =>
      (digit byte).bind fun digit =>
        if total * 10 + digit < 2 ^ 32 then some (total * 10 + digit) else none) 0

/-- A decimal `i32` with an optional leading minus. -/
def signed (value : List UInt8) : Option ℤ :=
  match value with
  | [] => none
  | first :: digits =>
      if first = ascii '-' then
        (unsigned digits).bind fun n => if n ≤ 2 ^ 31 then some (-(n : ℤ)) else none
      else (unsigned value).bind fun n => if n < 2 ^ 31 then some (n : ℤ) else none

/-- Set the field of a key. -/
def set (command : Command) (key : UInt8) (value : List UInt8) : Option Command :=
  match Char.ofNat key.toNat with
  | 'a' => (flag value "Tacdfpqt").map fun v => { command with action := v }
  | 'd' => (flag value "AaCcFfIiNnPpQqRrXxYyZz").map fun v => { command with delete := v }
  | 't' => (flag value "dfst").map fun v => { command with medium := v }
  | 'o' => (flag value "z").map fun v => { command with compression := v }
  | 'f' => (unsigned value).map fun v => { command with format := v }
  | 'm' => (unsigned value).map fun v => { command with more := v }
  | 'i' => (unsigned value).map fun v => { command with id := v }
  | 'I' => (unsigned value).map fun v => { command with number := v }
  | 'p' => (unsigned value).map fun v => { command with placement := v }
  | 'q' => (unsigned value).map fun v => { command with quiet := v }
  | 'w' => (unsigned value).map fun v => { command with width := v }
  | 'h' => (unsigned value).map fun v => { command with height := v }
  | 'x' => (unsigned value).map fun v => { command with x := v }
  | 'y' => (unsigned value).map fun v => { command with y := v }
  | 's' => (unsigned value).map fun v => { command with dataWidth := v }
  | 'v' => (unsigned value).map fun v => { command with dataHeight := v }
  | 'S' => (unsigned value).map fun v => { command with dataSize := v }
  | 'O' => (unsigned value).map fun v => { command with dataOffset := v }
  | 'c' => (unsigned value).map fun v => { command with columns := v }
  | 'r' => (unsigned value).map fun v => { command with rows := v }
  | 'X' => (unsigned value).map fun v => { command with cellX := v }
  | 'Y' => (unsigned value).map fun v => { command with cellY := v }
  | 'z' => (signed value).map fun v => { command with z := v }
  | 'C' => (unsigned value).map fun v => { command with cursor := v }
  | 'U' => (unsigned value).map fun v => { command with unicode := v }
  | 'P' => (unsigned value).map fun v => { command with parent := v }
  | 'Q' => (unsigned value).map fun v => { command with parentPlacement := v }
  | 'H' => (signed value).map fun v => { command with parentX := v }
  | 'V' => (signed value).map fun v => { command with parentY := v }
  | 'N' => (unsigned value).map fun v => { command with hints := v }
  | _ => none

/-- One `key=value` pair. -/
def setPair (command : Command) (pair : List UInt8) : Option Command :=
  match pair with
  | key :: equals :: value => if equals = ascii '=' then command.set key value else none
  | _ => none

/-- `parse`; nothing for anything malformed. -/
def parse (control : List UInt8) : Option Command :=
  if control = [] then some {} else (control.splitOn (ascii ',')).foldlM setPair {}

end Command

end Vivido.Graphics
