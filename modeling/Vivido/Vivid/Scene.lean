import Mathlib.Algebra.Order.Group.Abs
import Mathlib.Algebra.Order.Group.Int
import Vivido.Term.State

/-!
The text anchors of a media scene. Each anchor stands at a column and a line of
one of the two screens. The terminal tells the scene how its grid scrolls, when
it is cleared and which screen is shown, and the scene moves or removes anchors.
-/

namespace Vivido.Vivid

open Terminal

structure TextAnchor where
  column : ℕ
  line : ℤ
  alternate : Bool
  deriving DecidableEq, Repr

/-- The part of `SharedScene` that holds anchors, by identity. An identity removed
is never used again. -/
structure Scene (ι : Type*) where
  anchors : List (ι × TextAnchor) := []
  goneAnchors : List ι := []
  alternateScreen : Bool := false
  deriving DecidableEq, Repr

/-- `i32::MAX`. -/
def i32Max : ℤ := 2 ^ 31 - 1

/-- The new line of an anchor, or none where it scrolls out of the region. -/
def nextLine (scroll : PendingGridScroll) (old : ℤ) : Option ℤ :=
  if 0 < scroll.lines then
    if scroll.origin = 0 ∧ old < scroll.stop then some (Term.saturatingAdd old (-scroll.lines))
    else if scroll.origin ≤ old ∧ old < scroll.stop then
      if Term.saturatingAdd scroll.origin scroll.lines ≤ old then
        some (Term.saturatingAdd old (-scroll.lines))
      else none
    else some old
  else if scroll.origin ≤ old ∧ old < scroll.stop then
    let amount := min |scroll.lines| i32Max
    if old < Term.saturatingAdd scroll.stop (-amount) then some (Term.saturatingAdd old amount)
    else none
  else some old

/-- `minimum_line`: the top of the history. -/
def minimumLine (historySize : ℕ) : ℤ := -min (historySize : ℤ) i32Max

/-- Where a scroll takes an anchor, unless it removes it. -/
def scrollLine (scroll : PendingGridScroll) (old : ℤ) : Option ℤ :=
  (nextLine scroll old).filter (minimumLine scroll.historySize ≤ ·)

def TextAnchor.scroll (scroll : PendingGridScroll) (anchor : TextAnchor) : Option TextAnchor :=
  (scrollLine scroll anchor.line).map fun line => { anchor with line := line }

namespace Scene

variable {ι : Type*}

/-- `remove_anchors`, together with an update of the anchors that stay: each anchor moves to
what `update` gives, and is removed where it gives nothing. -/
def updateAnchors (s : Scene ι) (update : TextAnchor → Option TextAnchor) : Scene ι × List ι :=
  let removed := s.anchors.filterMap fun (identity, anchor) =>
    if update anchor = none then some identity else none
  ({ s with
      anchors := s.anchors.filterMap fun (identity, anchor) => (update anchor).map (identity, ·)
      goneAnchors := s.goneAnchors ++ removed },
    removed)

/-- `scroll_anchors`: the scene and the anchors removed. -/
def scrollAnchors (s : Scene ι) (scroll : PendingGridScroll) : Scene ι × List ι :=
  if scroll.lines = 0 ∨ scroll.stop ≤ scroll.origin then (s, [])
  else s.updateAnchors (·.scroll scroll)

/-- `clear_terminal`. -/
def clearTerminal (s : Scene ι) : Scene ι × List ι :=
  s.updateAnchors fun anchor => if anchor.alternate = s.alternateScreen then none else some anchor

/-- `set_alternate_screen`. -/
def setAlternateScreen (s : Scene ι) (alternate : Bool) : Scene ι × List ι :=
  if s.alternateScreen = alternate then (s, [])
  else
    let s := { s with alternateScreen := alternate }
    if alternate then (s, [])
    else s.updateAnchors fun anchor => if anchor.alternate then none else some anchor

/-- `add_anchor`; none for an identity already used. -/
def addAnchor [DecidableEq ι] (s : Scene ι) (identity : ι) (anchor : TextAnchor) :
    Option (Scene ι) :=
  if identity ∈ s.anchors.map Prod.fst ∨ identity ∈ s.goneAnchors then none
  else some { s with anchors := s.anchors ++ [(identity, anchor)] }

end Scene

def IsI32 (n : ℤ) : Prop := -(2 ^ 31) ≤ n ∧ n ≤ i32Max

/-- The region starts on the screen, and the fields are 32-bit numbers, the count one that can
be negated. -/
structure InRange (scroll : PendingGridScroll) : Prop where
  origin : 0 ≤ scroll.origin ∧ scroll.origin ≤ i32Max
  stop : IsI32 scroll.stop
  lines : |scroll.lines| ≤ i32Max

def Shifts (scroll : PendingGridScroll) (line : ℤ) : Prop :=
  line < scroll.stop ∧ (scroll.origin ≤ line ∨ scroll.origin = 0 ∧ 0 < scroll.lines)

/-- The line it is shifted to is still one of the region's, or of the history above it. -/
def Keeps (scroll : PendingGridScroll) (line : ℤ) : Prop :=
  line - scroll.lines < scroll.stop ∧
    (scroll.origin ≤ line - scroll.lines ∨ scroll.origin = 0 ∧ 0 < scroll.lines)

instance (scroll : PendingGridScroll) : DecidablePred (Shifts scroll) :=
  fun _ => inferInstanceAs (Decidable (_ ∧ _))

instance (scroll : PendingGridScroll) : DecidablePred (Keeps scroll) :=
  fun _ => inferInstanceAs (Decidable (_ ∧ _))

/-- `nextLine` without the limits of the arithmetic. -/
def exactLine (scroll : PendingGridScroll) (old : ℤ) : Option ℤ :=
  if Shifts scroll old then if Keeps scroll old then some (old - scroll.lines) else none
  else some old

theorem minimumLine_gt (historySize : ℕ) : -(2 ^ 31) < minimumLine historySize := by
  unfold minimumLine i32Max
  omega

/-- A line too low to be a number is below the history anyway. -/
theorem filter_saturatingAdd {a b : ℤ} (historySize : ℕ) (h : a + b ≤ i32Max) :
    (some (Term.saturatingAdd a b)).filter (minimumLine historySize ≤ ·) =
      (some (a + b)).filter (minimumLine historySize ≤ ·) := by
  have hmin := minimumLine_gt historySize
  unfold i32Max at h
  by_cases hlow : a + b < -(2 ^ 31)
  · rw [show Term.saturatingAdd a b = -(2 ^ 31) by unfold Term.saturatingAdd; omega]
    rw [Option.filter_some, if_neg (by simp only [decide_eq_true_eq]; omega), Option.filter_some,
      if_neg (by simp only [decide_eq_true_eq]; omega)]
  · rw [show Term.saturatingAdd a b = a + b by unfold Term.saturatingAdd; omega]

/-- Saturation makes no difference to where anchors go. -/
theorem scrollLine_eq {scroll : PendingGridScroll} (h : InRange scroll) {old : ℤ}
    (hold : IsI32 old) :
    scrollLine scroll old = (exactLine scroll old).filter (minimumLine scroll.historySize ≤ ·) := by
  obtain ⟨⟨_, ho'⟩, ⟨_, hs'⟩, habs⟩ := h
  obtain ⟨_, hhigh⟩ := hold
  obtain ⟨hl, hl'⟩ := abs_le.mp habs
  unfold i32Max at ho' hs' hhigh hl hl'
  unfold scrollLine nextLine exactLine
  by_cases hup : 0 < scroll.lines
  · rw [if_pos hup]
    have hsub := @filter_saturatingAdd old (-scroll.lines) scroll.historySize
      (by unfold i32Max; omega)
    by_cases htop : scroll.origin = 0 ∧ old < scroll.stop
    · have hshifts : Shifts scroll old := ⟨htop.2, Or.inr ⟨htop.1, hup⟩⟩
      have hkeeps : Keeps scroll old := ⟨by omega, Or.inr ⟨htop.1, hup⟩⟩
      rw [if_pos htop, if_pos hshifts, if_pos hkeeps, hsub]
      rfl
    · rw [if_neg htop]
      by_cases hregion : scroll.origin ≤ old ∧ old < scroll.stop
      · have hshifts : Shifts scroll old := ⟨hregion.2, Or.inl hregion.1⟩
        rw [if_pos hregion, if_pos hshifts]
        by_cases hstays : Term.saturatingAdd scroll.origin scroll.lines ≤ old
        · have hkeeps : Keeps scroll old := by
            unfold Term.saturatingAdd at hstays
            exact ⟨by omega, Or.inl (by omega)⟩
          rw [if_pos hstays, if_pos hkeeps, hsub]
          rfl
        · have hlost : ¬Keeps scroll old := by
            unfold Term.saturatingAdd at hstays
            rintro ⟨_, hkept | hkept⟩ <;> omega
          rw [if_neg hstays, if_neg hlost]
      · have hfixed : ¬Shifts scroll old := by
          rintro ⟨hstop, hfrom | hfrom⟩
          · exact hregion ⟨hfrom, hstop⟩
          · exact htop ⟨hfrom.1, hstop⟩
        rw [if_neg hregion, if_neg hfixed]
  · rw [if_neg hup, abs_of_nonpos (by omega), Int.min_eq_left (by unfold i32Max; omega)]
    dsimp only
    by_cases hregion : scroll.origin ≤ old ∧ old < scroll.stop
    · have hshifts : Shifts scroll old := ⟨hregion.2, Or.inl hregion.1⟩
      rw [if_pos hregion, if_pos hshifts, neg_neg]
      by_cases hstays : old < Term.saturatingAdd scroll.stop scroll.lines
      · unfold Term.saturatingAdd at hstays
        have hkeeps : Keeps scroll old := ⟨by omega, Or.inl (by omega)⟩
        rw [if_pos (by unfold Term.saturatingAdd; omega), if_pos hkeeps,
          show Term.saturatingAdd old (-scroll.lines) = old - scroll.lines by
            unfold Term.saturatingAdd; omega]
      · have hlost : ¬Keeps scroll old := by
          unfold Term.saturatingAdd at hstays
          rintro ⟨_, _⟩
          omega
        rw [if_neg hstays, if_neg hlost]
    · have hfixed : ¬Shifts scroll old := by
        rintro ⟨hstop, hfrom | hfrom⟩
        · exact hregion ⟨hfrom, hstop⟩
        · omega
      rw [if_neg hregion, if_neg hfixed]

end Vivido.Vivid
