import Mathlib.Data.Nat.Notation

/-!
Content with a version number. From one moment to the next the content stays
under its version or the version rises, so equal versions mean equal content.
What is versioned can be absent; it begins anew when it comes back.
-/

namespace Vivido

variable {β : Type*} {v w : ℕ × β} {before middle after : Option (ℕ × β)}

/-- Where both are there, nothing changed or the version rose. -/
def Succeeds (before after : Option (ℕ × β)) : Prop :=
  ∀ v ∈ before, ∀ w ∈ after, w = v ∨ v.1 < w.1

theorem succeeds_of_eq (h : after = before) : Succeeds before after := by
  intro v hv w hw
  rw [h] at hw
  exact Or.inl (Option.mem_unique hw hv)

theorem succeeds_of_none (h : after = none) : Succeeds before after := by
  intro v _ w hw
  rw [h] at hw
  cases hw

theorem succeeds_of_lt (h : v.1 < w.1) : Succeeds (some v) (some w) := by
  rintro _ ⟨⟩ _ ⟨⟩
  exact Or.inr h

/-- What stays in between keeps its version or raises it. -/
theorem Succeeds.trans (h : Succeeds before middle) (h' : Succeeds middle after)
    (hmiddle : middle.isSome) : Succeeds before after := by
  obtain ⟨x, hx⟩ := Option.isSome_iff_exists.mp hmiddle
  intro v hv w hw
  rcases h v hv x hx with rfl | hlt
  · exact h' _ hx w hw
  · rcases h' x hx w hw with rfl | hlt'
    · exact Or.inr hlt
    · exact Or.inr (Nat.lt_trans hlt hlt')

/-- Other content stands under another version. -/
theorem Succeeds.version_ne (h : Succeeds (some v) (some w)) (hne : w.2 ≠ v.2) : w.1 ≠ v.1 := by
  rcases h v rfl w rfl with rfl | hlt
  · exact (hne rfl).elim
  · exact Nat.ne_of_gt hlt

end Vivido
