import Vivido.Graphics.Load

/-!
Inflating a stream of unknown size. The output grows in steps up to a limit; every
round either ends the loop or writes at least a byte, so it ends, with no more than
the limit. The inflater comes from outside and is a parameter.
-/

namespace Vivido.Graphics

/-- `Status`: how far a call of the inflater got. -/
inductive Inflater.Status where
  | ok
  | bufError
  | streamEnd
  deriving DecidableEq, Repr

/-- `Decompress`. A call reads a part of the input and writes into the spare room only. -/
structure Inflater where
  State : Type
  new : State
  totalIn : State → ℕ
  /-- `decompress_vec` with no flush: what it wrote, unless the data is corrupt. -/
  decompress : State → List UInt8 → ℕ → Option (State × List UInt8 × Inflater.Status)
  spare : ∀ {state input room state' bytes status},
    decompress state input room = some (state', bytes, status) → bytes.length ≤ room

/-- `STEP`. -/
def inflateStep : ℕ := 256 * 1024

/-- The loop of `inflate_bounded`, with the capacity of the output; `none` when out of fuel. -/
def inflateLoop (inflater : Inflater) (data : List UInt8) (limit : ℕ) :
    ℕ → inflater.State → List UInt8 → ℕ → Option (Except Failure (List UInt8))
  | 0, _, _, _ => none
  | fuel + 1, state, out, capacity =>
      if out.length = capacity ∧ limit ≤ out.length then some (.error .tooMuchData)
      else
        let capacity := if out.length = capacity then
            out.length + min inflateStep (limit - out.length)
          else capacity
        match inflater.decompress state (data.drop (inflater.totalIn state))
            (capacity - out.length) with
        | none => some (.error .badZlib)
        | some (state, bytes, status) =>
            if status = .streamEnd then some (.ok (out ++ bytes))
            -- No progress with room to write means the stream is truncated.
            else if (out ++ bytes).length = out.length ∧ (out ++ bytes).length < capacity then
              some (.error .badZlib)
            else inflateLoop inflater data limit fuel state (out ++ bytes) capacity

/-- `inflate_bounded`: inflate a stream, to no more than `limit` bytes. -/
def inflateBounded (inflater : Inflater) (data : List UInt8) (limit : ℕ) :
    Option (Except Failure (List UInt8)) :=
  inflateLoop inflater data limit (limit + 1) inflater.new [] 0

def Decoders.inflating (decoders : Decoders) (inflater : Inflater) : Decoders :=
  { decoders with
    inflateBounded := fun data limit =>
      (Vivido.Graphics.inflateBounded inflater data limit).getD (.error .badZlib) }

/-- Every round that does not end the loop writes a byte, of which there is room for `limit`. -/
theorem inflateLoop_ends (inflater : Inflater) (data : List UInt8) (limit : ℕ) {fuel : ℕ}
    {state : inflater.State} {out : List UInt8} {capacity : ℕ} (hout : out.length ≤ capacity)
    (hcapacity : capacity ≤ limit) (hfuel : limit - out.length < fuel) :
    ∃ result, inflateLoop inflater data limit fuel state out capacity = some result ∧
      ∀ bytes, result = .ok bytes → bytes.length ≤ limit := by
  induction fuel generalizing state out capacity with
  | zero => omega
  | succ fuel ih =>
    unfold inflateLoop
    split
    · exact ⟨_, rfl, nofun⟩
    rename_i hroom
    dsimp only
    have hstep : 0 < inflateStep := by decide
    generalize hgrown : (if out.length = capacity then
      out.length + min inflateStep (limit - out.length) else capacity) = grown
    have hlarger : out.length < grown ∧ grown ≤ limit := by
      rw [← hgrown]
      split <;> omega
    split
    · exact ⟨_, rfl, nofun⟩
    rename_i state' bytes status hcall
    have hspare := inflater.spare hcall
    have hlength : (out ++ bytes).length = out.length + bytes.length := List.length_append
    split
    · refine ⟨_, rfl, fun result hresult => ?_⟩
      cases hresult
      omega
    · split
      · exact ⟨_, rfl, nofun⟩
      · rename_i hprogress
        rw [hlength] at hprogress
        exact ih (by omega) hlarger.2 (by omega)

theorem inflateBounded_ends (inflater : Inflater) (data : List UInt8) (limit : ℕ) :
    ∃ result, inflateBounded inflater data limit = some result ∧
      ∀ bytes, result = .ok bytes → bytes.length ≤ limit :=
  inflateLoop_ends inflater data limit (Nat.le_refl 0) (Nat.zero_le limit) (Nat.lt_succ_self _)

/-- A compressed PNG file is inflated to no more than a file may have. -/
theorem length_inflating (decoders : Decoders) (inflater : Inflater) {data bytes : List UInt8}
    {limit : ℕ} (h : (decoders.inflating inflater).inflateBounded data limit = .ok bytes) :
    bytes.length ≤ limit := by
  obtain ⟨_, hresult, hlimit⟩ := @inflateLoop_ends inflater data limit (limit + 1) inflater.new []
    0 (Nat.le_refl 0) (Nat.zero_le limit) (Nat.lt_succ_self _)
  refine hlimit bytes ?_
  unfold Decoders.inflating at h
  dsimp only at h
  rw [inflateBounded, hresult] at h
  exact h

end Vivido.Graphics
