import Vivido.Graphics.Load

/-!
Decoders written out, of which proofs about any decoders can be shown to apply:
base64 as the protocol uses it, of the standard alphabet with padding optional, and
the zlib streams that do not compress.
-/

namespace Vivido.Graphics

/-- The six bits of a symbol. -/
def sextet (symbol : UInt8) : Option ℕ :=
  if ascii 'A' ≤ symbol ∧ symbol ≤ ascii 'Z' then some (symbol - ascii 'A').toNat
  else if ascii 'a' ≤ symbol ∧ symbol ≤ ascii 'z' then some ((symbol - ascii 'a').toNat + 26)
  else if ascii '0' ≤ symbol ∧ symbol ≤ ascii '9' then some ((symbol - ascii '0').toNat + 52)
  else if symbol = ascii '+' then some 62
  else if symbol = ascii '/' then some 63
  else none

/-- The bytes of two, three or four sextets; the bits left over do not count. -/
def octets : List ℕ → Option (List UInt8)
  | [a, b] => some [UInt8.ofNat (a * 4 + b / 16)]
  | [a, b, c] => some [UInt8.ofNat (a * 4 + b / 16), UInt8.ofNat (b * 16 + c / 4)]
  | [a, b, c, d] =>
      some [UInt8.ofNat (a * 4 + b / 16), UInt8.ofNat (b * 16 + c / 4), UInt8.ofNat (c * 64 + d)]
  | _ => none

/-- The last quad: at least two symbols, then padding or nothing. -/
def decodeLast (quad : List UInt8) : Option (List UInt8) :=
  let symbols := quad.takeWhile (· ≠ ascii '=')
  if (quad.dropWhile (· ≠ ascii '=')).all (· = ascii '=') then
    (symbols.mapM sextet).bind octets
  else none

/-- Standard base64; only the last quad may be padded or short. -/
def decodeBase64 : List UInt8 → Option (List UInt8)
  | [] => some []
  | a :: b :: c :: d :: e :: rest =>
      (([a, b, c, d].mapM sextet).bind octets).bind fun bytes =>
        (decodeBase64 (e :: rest)).map (bytes ++ ·)
  | quad => decodeLast quad

/-- Decoders that know base64 and no compression. -/
def Decoders.uncompressed : Decoders where
  base64 := decodeBase64
  inflate _ _ := none
  inflateHead _ _ := none
  inflateBounded _ _ := .error .badZlib
  png _ := none

/-- The checksum of a zlib stream. -/
def adler32 (data : List UInt8) : List UInt8 :=
  let sums := data.foldl (fun sums byte =>
    let low := (sums.1 + byte.toNat) % 65521
    (low, (sums.2 + low) % 65521)) (1, 0)
  [sums.2 / 256, sums.2, sums.1 / 256, sums.1].map UInt8.ofNat

/-- A zlib stream of one block that is stored as it is. -/
def inflateStored : List UInt8 → ℕ → Option (List UInt8 × Bool)
  | 0x78 :: 0x01 :: 0x01 :: low :: high :: low' :: high' :: rest, capacity =>
      let out := rest.take (low.toNat + high.toNat * 256)
      if low' ≠ ~~~low ∨ high' ≠ ~~~high then none
      else some (out.take capacity, out.length ≤ capacity && rest.drop out.length = adler32 out)
  | _, _ => none

/-- Decoders that know base64 and zlib streams that do not compress. -/
def Decoders.stored : Decoders := { Decoders.uncompressed with inflate := inflateStored }

example : decodeBase64 ("QUJDRA==".toList.map ascii) = some [65, 66, 67, 68] := by decide

end Vivido.Graphics
