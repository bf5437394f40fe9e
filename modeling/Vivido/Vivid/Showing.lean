import Vivido.Term.Screens
import Vivido.Vivid.Scene

/-!
The scene on the other side of the events: it handles a terminal's events in
order, and its flag is the value of the last screen swap among them.
-/

namespace Vivido.Vivid

open Terminal

namespace Scene

variable {ι : Type*}

/-- What the scene does with an event of the terminal. -/
def receive (s : Scene ι) : Event → Scene ι
  | .vividGridScroll scroll => (s.scrollAnchors scroll).1
  | .vividClear => s.clearTerminal.1
  | .vividScreenSwap alternate => (s.setAlternateScreen alternate).1
  | _ => s

theorem alternateScreen_receive (s : Scene ι) (event : Event) :
    (s.receive event).alternateScreen = event.shows s.alternateScreen := by
  cases event with
  | vividGridScroll scroll =>
    change (s.scrollAnchors scroll).1.alternateScreen = s.alternateScreen
    unfold scrollAnchors
    split <;> rfl
  | vividScreenSwap alternate =>
    change (s.setAlternateScreen alternate).1.alternateScreen = alternate
    unfold setAlternateScreen
    split
    · assumption
    · dsimp only
      split <;> rfl
  | _ => rfl

theorem alternateScreen_receiveAll (s : Scene ι) (events : List Event) :
    (events.foldl receive s).alternateScreen = events.foldl Event.shows s.alternateScreen := by
  induction events generalizing s with
  | nil => rfl
  | cons _ _ ih =>
    rw [List.foldl_cons, List.foldl_cons, ih, alternateScreen_receive]

/-- In a run without a reset of the alternate screen the scene shows the screen the
terminal shows. -/
theorem alternateScreen_eq {env : Charmap} {t : Term} {scrollingHistory lines columns : ℕ}
    {alternate : Bool} (h : Term.Heralded env (.new scrollingHistory lines columns) t alternate) :
    (t.events.foldl receive ({} : Scene ι)).alternateScreen = t.mode.altScreen := by
  rw [alternateScreen_receiveAll]
  exact h.agrees.1

theorem alternateScreen_eq_swapAlt :
    ((Term.new 10 4 2).swapAlt.events.foldl receive ({} : Scene ℕ)).alternateScreen = true := by
  have hstart : Term.Heralded Term.narrow (.new 10 4 2) (.new 10 4 2) false := .start
  have hstep : Term.step Term.narrow (.new 10 4 2) .swapAlt = some (Term.new 10 4 2).swapAlt := rfl
  exact alternateScreen_eq (hstart.step (fun h => by cases h) hstep)

end Scene

end Vivido.Vivid
