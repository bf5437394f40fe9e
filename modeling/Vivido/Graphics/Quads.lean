import Mathlib.Data.List.TakeWhile
import Vivido.Graphics.Base64
import Vivido.Graphics.Received

/-!
Base64 a quad at a time. A stream of fragments is decoded by what its quads decode
to, wherever the fragments are cut; a quad before the last of a chunk holds three
bytes, and no text holds more than three for four symbols.
-/

namespace Vivido.Graphics

open List

/-- What is relied on of a base64 decoder: text decodes quad by quad, to three bytes each but for
the last, and to no more than that. -/
structure Decoders.QuadWise (decoders : Decoders) : Prop where
  nil : decoders.base64 [] = some []
  split : ∀ {front back bytes}, 4 ∣ front.length → back ≠ [] →
    decoders.base64 (front ++ back) = some bytes →
    ∃ first second, decoders.base64 front = some first ∧ decoders.base64 back = some second ∧
      bytes = first ++ second ∧ 4 * first.length = 3 * front.length
  short : ∀ {text bytes}, decoders.base64 text = some bytes → 4 * bytes.length ≤ 3 * text.length

/-! ### The decoder written out -/

theorem length_of_mapM {α β : Type} {f : α → Option β} {xs : List α} {ys : List β}
    (h : xs.mapM f = some ys) : ys.length = xs.length := by
  induction xs generalizing ys with
  | nil =>
    cases h
    rfl
  | cons _ _ ih =>
    rw [mapM_cons] at h
    obtain ⟨y, -, h⟩ := Option.bind_eq_some_iff.mp h
    obtain ⟨_, hrest, h⟩ := Option.bind_eq_some_iff.mp h
    cases h
    rw [length_cons, length_cons, ih hrest]

theorem length_octets {sextets : List ℕ} {bytes : List UInt8} (h : octets sextets = some bytes) :
    bytes.length + 1 = sextets.length ∧ sextets.length ≤ 4 := by
  unfold octets at h
  split at h <;> cases h <;> exact ⟨rfl, by simp⟩

theorem sextet_padding : sextet (ascii '=') = none := by decide

/-- A quad of symbols is no padded one. -/
theorem decodeLast_of_sextets {quad : List UInt8} {sextets : List ℕ}
    (h : quad.mapM sextet = some sextets) : decodeLast quad = octets sextets := by
  have hplain : ∀ symbol ∈ quad, symbol ≠ ascii '=' := by
    intro symbol hsymbol heq
    induction quad generalizing sextets with
    | nil => cases hsymbol
    | cons _ _ ih =>
      rw [mapM_cons] at h
      obtain ⟨_, hvalue, h⟩ := Option.bind_eq_some_iff.mp h
      obtain ⟨_, hrest, -⟩ := Option.bind_eq_some_iff.mp h
      rcases List.mem_cons.mp hsymbol with rfl | hsymbol
      · rw [heq, sextet_padding] at hvalue
        cases hvalue
      · exact ih hrest hsymbol
  have htake : quad.takeWhile (· ≠ ascii '=') = quad :=
    List.takeWhile_eq_self_iff.mpr fun symbol hsymbol => decide_eq_true (hplain symbol hsymbol)
  have hdrop : quad.dropWhile (· ≠ ascii '=') = [] :=
    List.dropWhile_eq_nil_iff.mpr fun symbol hsymbol => decide_eq_true (hplain symbol hsymbol)
  unfold decodeLast
  dsimp only
  rw [htake, hdrop, h]
  rfl

theorem short_decodeLast {quad bytes : List UInt8} (h : decodeLast quad = some bytes) :
    4 * bytes.length ≤ 3 * quad.length := by
  unfold decodeLast at h
  dsimp only at h
  split at h
  · obtain ⟨_, hsextets, hbytes⟩ := Option.bind_eq_some_iff.mp h
    have hlength := length_of_mapM hsextets
    have hle := (takeWhile_sublist (fun symbol => symbol ≠ ascii '=') (l := quad)).length_le
    have hoctets := length_octets hbytes
    omega
  · cases h

theorem short_decodeBase64 {text bytes : List UInt8} (h : decodeBase64 text = some bytes) :
    4 * bytes.length ≤ 3 * text.length := by
  induction text using decodeBase64.induct generalizing bytes with
  | case1 =>
    cases h
    exact Nat.le_refl _
  | case2 _ _ _ _ _ _ ih =>
    unfold decodeBase64 at h
    obtain ⟨_, hfirst, h⟩ := Option.bind_eq_some_iff.mp h
    obtain ⟨_, -, hoctets⟩ := Option.bind_eq_some_iff.mp hfirst
    obtain ⟨_, hsecond, rfl⟩ := Option.map_eq_some_iff.mp h
    have hrest := ih hsecond
    have hlength := length_octets hoctets
    rw [length_append]
    simp only [length_cons] at hrest ⊢
    omega
  | case3 _ hnil hshort =>
    rw [decodeBase64] at h
    · exact short_decodeLast h
    · exact hnil
    · exact hshort

theorem split_decodeBase64 {front back bytes : List UInt8} (hfront : 4 ∣ front.length)
    (hback : back ≠ []) (h : decodeBase64 (front ++ back) = some bytes) :
    ∃ first second, decodeBase64 front = some first ∧ decodeBase64 back = some second ∧
      bytes = first ++ second ∧ 4 * first.length = 3 * front.length := by
  induction front using decodeBase64.induct generalizing bytes with
  | case1 => exact ⟨[], bytes, rfl, h, rfl, rfl⟩
  | case2 _ _ _ _ e rest ih =>
    simp only [cons_append] at h
    unfold decodeBase64 at h
    obtain ⟨quad, hquad, h⟩ := Option.bind_eq_some_iff.mp h
    obtain ⟨_, hafter, rfl⟩ := Option.map_eq_some_iff.mp h
    obtain ⟨sextets, hsextets, hoctets⟩ := Option.bind_eq_some_iff.mp hquad
    have hlength := length_octets hoctets
    have hsame := length_of_mapM hsextets
    have hrest : 4 ∣ (e :: rest).length := by
      simp only [length_cons] at hfront ⊢
      omega
    obtain ⟨first, second, hfirst, hsecond, rfl, hexact⟩ := ih hrest hafter
    refine ⟨quad ++ first, second, ?_, hsecond, (append_assoc ..).symm, ?_⟩
    · unfold decodeBase64
      rw [hquad, hfirst]
      rfl
    · simp only [length_append, length_cons] at hexact hsame ⊢
      simp only [length_nil] at hsame
      omega
  | case3 quad hnil hshort =>
    -- A single quad, which something follows.
    obtain ⟨a, b, c, d, rfl⟩ : ∃ a b c d, quad = [a, b, c, d] := by
      match quad, hfront, hnil, hshort with
      | [], _, hnil, _ => exact (hnil rfl).elim
      | [_], hfront, _, _ | [_, _], hfront, _, _ | [_, _, _], hfront, _, _ =>
        simp only [length_cons, length_nil] at hfront
        omega
      | [a, b, c, d], _, _, _ => exact ⟨a, b, c, d, rfl⟩
      | a :: b :: c :: d :: e :: rest, _, _, hshort => exact (hshort a b c d e rest rfl).elim
    obtain ⟨e, _, rfl⟩ := exists_cons_of_ne_nil hback
    simp only [cons_append, nil_append] at h
    unfold decodeBase64 at h
    obtain ⟨first, hfirst, h⟩ := Option.bind_eq_some_iff.mp h
    obtain ⟨second, hsecond, rfl⟩ := Option.map_eq_some_iff.mp h
    obtain ⟨_, hsextets, hoctets⟩ := Option.bind_eq_some_iff.mp hfirst
    have hlength := length_octets hoctets
    have hsame := length_of_mapM hsextets
    refine ⟨first, second, ?_, hsecond, rfl, ?_⟩
    · rw [decodeBase64]
      · rw [decodeLast_of_sextets hsextets, hoctets]
      · nofun
      · nofun
    · simp only [length_cons, length_nil] at hsame ⊢
      omega

theorem quadWise_uncompressed : Decoders.uncompressed.QuadWise where
  nil := rfl
  split := split_decodeBase64
  short := short_decodeBase64

/-! ### The stream -/

namespace Base64Stream

variable {decoders : Decoders}

/-- Text decoded, or the failure it is refused with. -/
def decodeText (decoders : Decoders) (text : List UInt8) : Except Failure (List UInt8) :=
  match decoders.base64 text with
  | none => .error .badBase64
  | some bytes => .ok bytes

/-- The quad that a fragment completes, which is decoded apart. -/
def completed (pending text : List UInt8) : List UInt8 :=
  if pending ≠ [] ∧ 4 ≤ text.length then text.take 4 else []

variable {pending input bytes : List UInt8}

/-- A fragment is decoded as the whole quads of what has not been, the one it completes first. -/
theorem push_eq (hnil : decoders.base64 [] = some []) (hpending : pending.length < 4) :
    push decoders pending input =
      let text := pending ++ input
      let whole := text.take (text.length / 4 * 4)
      (decodeText decoders (completed pending text)).bind fun first =>
        (decodeText decoders (whole.drop (completed pending text).length)).map fun second =>
          (first ++ second, text.drop (text.length / 4 * 4)) := by
  have hempty : decodeText decoders [] = .ok [] := by
    unfold decodeText
    rw [hnil]
  unfold push
  dsimp only
  by_cases hfresh : pending = []
  · subst hfresh
    rw [if_neg (not_not.mpr rfl)]
    unfold completed
    rw [if_neg fun h => h.1 rfl, hempty]
    rfl
  · rw [if_pos hfresh, length_append, length_take]
    by_cases hfull : 4 ≤ (pending ++ input).length
    · have hlength := hfull
      rw [length_append] at hlength
      have htake : min (4 - pending.length) input.length = 4 - pending.length := by omega
      have hquad : pending ++ input.take (4 - pending.length) = (pending ++ input).take 4 := by
        rw [take_append, take_of_length_le (show pending.length ≤ 4 by omega)]
      have hrest : input.drop (4 - pending.length) = (pending ++ input).drop 4 := by
        rw [drop_append, drop_of_length_le (show pending.length ≤ 4 by omega),
          nil_append]
      have hcompleted : completed pending (pending ++ input) = (pending ++ input).take 4 :=
        if_pos ⟨hfresh, hfull⟩
      rw [htake, if_neg (by omega), hcompleted, hquad, hrest]
      generalize pending ++ input = text at hfull
      have hwhole : (text.drop 4).length / 4 * 4 + 4 = text.length / 4 * 4 := by
        rw [length_drop]
        omega
      have hfour : (text.take 4).length = 4 := by
        rw [length_take]
        omega
      rw [hfour, drop_take, drop_drop, ← hwhole, Nat.add_sub_cancel, Nat.add_comm 4]
      rfl
    · have hshort : (pending ++ input).length / 4 * 4 = 0 := by omega
      have htake : min (4 - pending.length) input.length = input.length := by
        rw [length_append] at hfull
        omega
      have hcompleted : completed pending (pending ++ input) = [] := if_neg fun h => hfull h.2
      rw [htake, if_pos (by rw [length_append] at hfull; omega), hcompleted, hshort,
        take_length, drop_zero, take_zero, drop_nil, hempty]
      rfl

theorem decodeText_ok {text : List UInt8} :
    decodeText decoders text = .ok bytes ↔ decoders.base64 text = some bytes := by
  unfold decodeText
  split
  · rename_i hnone
    rw [hnone]
    exact ⟨nofun, nofun⟩
  · rename_i other hsome
    rw [hsome]
    exact ⟨fun h => congrArg some (Except.ok.inj h), fun h => congrArg _ (Option.some_inj.mp h)⟩

/-- What a fragment decodes to is within its bound, and less than a quad is left of it. -/
theorem push_bound (hdec : decoders.QuadWise) {pending' : List UInt8}
    (hpending : pending.length < 4) (h : push decoders pending input = .ok (bytes, pending')) :
    bytes.length ≤ bound pending input.length ∧ pending'.length < 4 := by
  rw [push_eq hdec.nil hpending] at h
  dsimp only at h
  obtain ⟨_, hfirst, h⟩ := ok_of_bind h
  obtain ⟨_, hsecond, h⟩ := ok_of_map h
  cases h
  have hfirst := hdec.short (decodeText_ok.mp hfirst)
  have hsecond := hdec.short (decodeText_ok.mp hsecond)
  have hcompleted : (completed pending (pending ++ input)).length ≤
      (pending ++ input).length / 4 * 4 := by
    unfold completed
    split
    · rename_i hfull
      rw [length_take]
      omega
    · exact Nat.zero_le _
  rw [length_drop, length_take] at hsecond
  unfold bound
  rw [length_append] at hsecond hcompleted ⊢
  rw [length_drop, length_append]
  omega

/-- Fragments of a text that is valid as a whole are decoded quad by quad. -/
theorem push_valid (hdec : decoders.QuadWise) (hpending : pending.length < 4)
    (hvalid : decoders.base64
      ((pending ++ input).take ((pending ++ input).length / 4 * 4)) = some bytes) :
    push decoders pending input =
      .ok (bytes, (pending ++ input).drop ((pending ++ input).length / 4 * 4)) := by
  rw [push_eq hdec.nil hpending]
  generalize pending ++ input = text at hvalid
  dsimp only
  have hcompleted : completed pending text = [] ∨
      completed pending text = (text.take (text.length / 4 * 4)).take 4 ∧ 4 ≤ text.length := by
    unfold completed
    split
    · rename_i hfull
      rw [take_take, Nat.min_eq_left (by omega)]
      exact Or.inr ⟨rfl, hfull.2⟩
    · exact Or.inl rfl
  have hempty : decodeText decoders [] = .ok [] := decodeText_ok.mpr hdec.nil
  rcases hcompleted with hnone | ⟨hquad, _⟩
  · rw [hnone, hempty, length_nil, drop_zero, decodeText_ok.mpr hvalid]
    rfl
  have hwhole : (text.take (text.length / 4 * 4)).length = text.length / 4 * 4 := by
    rw [length_take]
    omega
  rw [hquad]
  generalize text.take (text.length / 4 * 4) = whole at hvalid hwhole
  have hfour : (whole.take 4).length = 4 := by
    rw [length_take]
    omega
  rw [hfour]
  by_cases hrest : whole.drop 4 = []
  · have hall : whole.take 4 = whole := by
      have happend := take_append_drop 4 whole
      rw [hrest, append_nil] at happend
      exact happend
    rw [hrest, hall, decodeText_ok.mpr hvalid, hempty]
    change Except.ok (bytes ++ [], _) = _
    rw [append_nil]
  · rw [← take_append_drop 4 whole] at hvalid
    obtain ⟨_, _, hfirst, hsecond, rfl, -⟩ :=
      hdec.split (by rw [hfour]) hrest hvalid
    rw [decodeText_ok.mpr hfirst, decodeText_ok.mpr hsecond]
    rfl

end Base64Stream

end Vivido.Graphics
