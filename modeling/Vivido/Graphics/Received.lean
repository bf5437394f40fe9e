import Vivido.Graphics.Run

/-!
How large what a transmission delivers can be. A plan bounds the dimensions of
raw and inflated pixels; the PNG reader bounds its own.
-/

namespace Vivido.Graphics

open List

theorem ok_of_map {ε α β : Type} {result : Except ε α} {f : α → β} {value : β}
    (h : result.map f = .ok value) : ∃ inner, result = .ok inner ∧ f inner = value := by
  cases result with
  | error => cases h
  | ok inner => exact ⟨inner, rfl, Except.ok.inj h⟩

theorem ok_of_bind {ε α β : Type} {result : Except ε α} {f : α → Except ε β} {value : β}
    (h : result.bind f = .ok value) : ∃ inner, result = .ok inner ∧ f inner = .ok value := by
  cases result with
  | error => cases h
  | ok inner => exact ⟨inner, rfl, h⟩

/-- What the PNG reader guarantees of the images it returns. -/
structure Decoders.Limited (decoders : Decoders) : Prop where
  png : ∀ data width height rgba, decoders.png data = some (width, height, rgba) →
    width ≤ maxDimension ∧ height ≤ maxDimension ∧ rgba.length = width * height * 4

/-- Dimensions an image may have. -/
def Fits (width height : ℕ) : Prop := width ≤ maxDimension ∧ height ≤ maxDimension

theorem length_widenPixels {rgb : List UInt8} {pixels : ℕ} (h : rgb.length = pixels * 3) :
    (widenPixels rgb).length = pixels * 4 := by
  induction pixels generalizing rgb with
  | zero =>
    rw [Nat.zero_mul, length_eq_zero_iff] at h
    rw [h]
    rfl
  | succ pixels ih =>
    match rgb, h with
    | red :: green :: blue :: rest, h =>
      have hrest : rest.length = pixels * 3 := by
        simp only [length_cons] at h
        omega
      simp only [widenPixels, length_cons, ih hrest]
      omega
    | [], h | [_], h | [_, _], h => simp only [length_cons, length_nil] at h; omega

namespace DecodeJob

variable {decoders : Decoders} {job : DecodeJob} {pixels : Pixels}

theorem length_inflateExact {data out : List UInt8} {expected : ℕ}
    (h : inflateExact decoders data expected = .ok out) : out.length = expected := by
  unfold inflateExact at h
  split at h
  · cases h
  split at h
  · cases h
  · split at h
    · cases h
      assumption
    · cases h

/-- Whether the declared dimensions, where they mean something, fit. -/
def Bounded (job : DecodeJob) : Prop :=
  job.encoding = .zlibRgb ∨ job.encoding = .zlibRgba → Fits job.width job.height

theorem decodePng_spec (hdec : decoders.Limited) {data : List UInt8}
    (h : decodePng decoders data = .ok pixels) :
    pixels.rgba.length = pixels.width * pixels.height * 4 ∧ Fits pixels.width pixels.height := by
  unfold decodePng at h
  split at h
  · cases h
  · rename_i width height rgba hpng
    obtain ⟨hwidth, hheight, hlength⟩ := hdec.png _ _ _ _ hpng
    cases h
    exact ⟨hlength, hwidth, hheight⟩

theorem length_run (hdec : decoders.Limited) (h : job.run decoders = .ok pixels) :
    pixels.rgba.length = pixels.width * pixels.height * 4 := by
  unfold run at h
  dsimp only at h
  split at h
  · obtain ⟨_, hrgba, rfl⟩ := ok_of_map h
    exact length_inflateExact hrgba
  · obtain ⟨_, hrgb, rfl⟩ := ok_of_map h
    exact length_widenPixels (length_inflateExact hrgb)
  · exact (decodePng_spec hdec h).1
  · obtain ⟨_, -, hpng⟩ := ok_of_bind h
    exact (decodePng_spec hdec hpng).1

theorem fits_run (hdec : decoders.Limited) (hjob : job.Bounded) (h : job.run decoders = .ok pixels) :
    Fits pixels.width pixels.height := by
  unfold run at h
  dsimp only at h
  split at h
  · rename_i hencoding
    obtain ⟨_, -, rfl⟩ := ok_of_map h
    exact hjob (Or.inr hencoding)
  · rename_i hencoding
    obtain ⟨_, -, rfl⟩ := ok_of_map h
    exact hjob (Or.inl hencoding)
  · exact (decodePng_spec hdec h).2
  · obtain ⟨_, -, hpng⟩ := ok_of_bind h
    exact (decodePng_spec hdec hpng).2

theorem fits_dimensions (hjob : job.Bounded) {size : ℕ × ℕ} (h : job.dimensions decoders = .ok size) :
    Fits size.1 size.2 := by
  unfold dimensions at h
  split at h
  · rename_i hencoding
    cases h
    exact hjob hencoding
  split at h
  · cases h
  split at h
  · cases h
  split at h
  · cases h
  · rename_i hlarge
    cases h
    push Not at hlarge
    exact hlarge

end DecodeJob

namespace Load

/-- The sizes a transmission was planned with. -/
structure Planned (load : Load) : Prop where
  raw : load.target = .rgba ∨ load.target = .rgb →
    load.expected = load.start.dataWidth * load.start.dataHeight * 4 ∧
      Fits load.start.dataWidth load.start.dataHeight
  inflated : load.target = .encoded .zlibRgb ∨ load.target = .encoded .zlibRgba →
    Fits load.start.dataWidth load.start.dataHeight

/-- Receiving keeps the plan, or refuses the transmission. -/
structure Continues (load load' : Load) : Prop where
  start : load'.start = load.start
  expected : load'.expected = load.expected
  target : load'.target = load.target ∨ ∃ failure, load'.target = .rejected failure

variable {load load' load'' : Load} {decoders : Decoders}

theorem Continues.refl (load : Load) : Continues load load := ⟨rfl, rfl, Or.inl rfl⟩

theorem Continues.planned (h : Continues load load') (hplanned : load.Planned) : load'.Planned := by
  rcases h.target with htarget | ⟨_, htarget⟩
  · constructor
    · rw [htarget, h.start, h.expected]
      exact hplanned.raw
    · rw [htarget, h.start]
      exact hplanned.inflated
  · constructor
    · rw [htarget]
      rintro (hraw | hraw) <;> cases hraw
    · rw [htarget]
      rintro (hinflated | hinflated) <;> cases hinflated

theorem Continues.trans (h : Continues load load') (h' : Continues load' load'') :
    Continues load load'' := by
  refine ⟨h'.start.trans h.start, h'.expected.trans h.expected, ?_⟩
  rcases h'.target with htarget | hrejected
  · rw [htarget]
    exact h.target
  · exact Or.inr hrejected

theorem continues_reject (load : Load) (failure : Failure) : Continues load (load.reject failure) := by
  unfold reject
  split
  · exact Continues.refl load
  · exact ⟨rfl, rfl, Or.inr ⟨failure, rfl⟩⟩

theorem isRejected_reject (load : Load) (failure : Failure) :
    (load.reject failure).isRejected = true := by
  unfold reject
  split
  · assumption
  · rfl

theorem continues_scan (load : Load) : Continues load load.scan := by
  unfold scan
  split
  · exact Continues.refl load
  · exact ⟨rfl, rfl, Or.inl rfl⟩

theorem continues_decode {payload : List UInt8} (h : load.decode decoders payload = .ok load') :
    Continues load load' := by
  unfold decode at h
  split at h
  · cases h
    exact Continues.refl load
  · dsimp only at h
    split at h
    · cases h
    · obtain ⟨⟨bytes, pending⟩, -, rfl⟩ := ok_of_map h
      exact ⟨rfl, rfl, Or.inl rfl⟩
  · split at h
    · cases h
    · obtain ⟨⟨_, _⟩, -, rfl⟩ := ok_of_map h
      refine Continues.trans ?_ (continues_scan _)
      exact ⟨rfl, rfl, Or.inl rfl⟩

theorem continues_decodeTail (h : load.decodeTail decoders = .ok load') : Continues load load' := by
  unfold decodeTail at h
  split at h
  · cases h
    exact ⟨rfl, rfl, Or.inl rfl⟩
  · obtain ⟨bytes, -, rfl⟩ := ok_of_map h
    exact ⟨rfl, rfl, Or.inl rfl⟩
  · obtain ⟨_, -, rfl⟩ := ok_of_map h
    refine Continues.trans ?_ (continues_scan _)
    exact ⟨rfl, rfl, Or.inl rfl⟩

theorem continues_push (load : Load) (payload : List UInt8) :
    Continues load (load.push decoders payload) := by
  unfold push
  split
  · rename_i hdecode
    exact continues_decode hdecode
  · refine Continues.trans ?_ (continues_reject _ _)
    split
    · exact ⟨rfl, rfl, Or.inl rfl⟩
    · exact Continues.refl load

theorem continues_endChunk (load : Load) : Continues load (load.endChunk decoders) := by
  unfold endChunk
  split
  · rename_i hdecode
    exact continues_decodeTail hdecode
  · refine Continues.trans ?_ (continues_reject _ _)
    exact ⟨rfl, rfl, Or.inl rfl⟩

theorem Planned.closeChunk (h : load.Planned) (command : Command) :
    (load.closeChunk decoders command).Planned := by
  have hended := (@continues_endChunk decoders load).planned h
  unfold Load.closeChunk
  dsimp only
  split
  · exact ⟨hended.raw, hended.inflated⟩
  · exact hended

theorem planned_begin (start : Command) : (Load.begin start).Planned := by
  unfold Load.begin
  split
  · rename_i target expected limit hplan
    unfold plan at hplan
    dsimp only at hplan
    split at hplan
    · cases hplan
    split at hplan
    · cases hplan
      constructor
      · rintro (hraw | hraw) <;> cases hraw
      · rintro (hinflated | hinflated) <;> split at hinflated <;> cases hinflated
    · split at hplan
      · cases hplan
      split at hplan
      · cases hplan
      rename_i hlarge
      have hfits : Fits start.dataWidth start.dataHeight := by
        push Not at hlarge
        exact hlarge
      split at hplan
      · cases hplan
      split at hplan
      · cases hplan
        constructor
        · rintro (hraw | hraw) <;> cases hraw
        · exact fun _ => hfits
      · cases hplan
        exact ⟨fun _ => ⟨rfl, hfits⟩, fun _ => hfits⟩
  · constructor
    · rintro (hraw | hraw) <;> cases hraw
    · rintro (hinflated | hinflated) <;> cases hinflated

/-- What a transmission delivers is as large as planned. -/
theorem Planned.pixels (h : load.Planned) {pixels : Pixels}
    (hfinish : load.finish = .ok (.pixels pixels)) :
    pixels.rgba.length = pixels.width * pixels.height * 4 ∧ Fits pixels.width pixels.height := by
  unfold finish at hfinish
  dsimp only at hfinish
  split at hfinish
  · cases hfinish
  · cases hfinish
  rename_i hrejected hencoded
  have hraw : load.target = .rgba ∨ load.target = .rgb := by
    cases htarget : load.target with
    | rgba => exact Or.inl rfl
    | rgb => exact Or.inr rfl
    | encoded encoding => exact (hencoded encoding htarget).elim
    | rejected failure => exact (hrejected failure htarget).elim
  obtain ⟨hexpected, hfits⟩ := h.raw hraw
  split at hfinish
  · cases hfinish
  · rename_i henough
    cases hfinish
    refine ⟨?_, hfits⟩
    rw [length_take, ← hexpected]
    exact Nat.min_eq_left (Nat.le_of_not_lt henough)

theorem Planned.job (h : load.Planned) {job : DecodeJob} (hfinish : load.finish = .ok (.job job)) :
    job.Bounded := by
  unfold finish at hfinish
  dsimp only at hfinish
  split at hfinish
  · cases hfinish
  · rename_i encoding htarget
    cases hfinish
    rintro (rfl | rfl)
    · exact h.inflated (Or.inl htarget)
    · exact h.inflated (Or.inr htarget)
  · split at hfinish <;> cases hfinish

end Load

end Vivido.Graphics
