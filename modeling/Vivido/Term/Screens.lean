import Vivido.Grid.ResizeLimit
import Vivido.Term.Op

/-!
Which screen is shown. An operation that does not exchange the grids leaves
alone the mode, the history limits that tell the grids apart and the last
screen swap sent; an operation that does changes them all together, except that
`reset_state` sends nothing.
-/

namespace Vivido.Terminal

/-- The screen a scene shows after an event. -/
def Event.shows (shown : Bool) : Event → Bool
  | .vividScreenSwap alternate => alternate
  | _ => shown

/-- The value of the last screen swap sent, or the primary screen. -/
def shownAfter (events : List Event) : Bool := events.foldl Event.shows false

@[simp] theorem shownAfter_append (events more : List Event) :
    shownAfter (events ++ more) = more.foldl Event.shows (shownAfter events) :=
  List.foldl_append ..

namespace Term

/-- Nothing happens to which screen is shown. -/
structure SameScreens (t t' : Term) : Prop where
  altScreen : t'.mode.altScreen = t.mode.altScreen
  shown : shownAfter t'.events = shownAfter t.events
  limit : t'.grid.maxScrollLimit = t.grid.maxScrollLimit
  inactiveLimit : t'.inactiveGrid.maxScrollLimit = t.inactiveGrid.maxScrollLimit
  scrollingHistory : t'.scrollingHistory = t.scrollingHistory

variable {env : Charmap} {t t' t'' : Term}

namespace SameScreens

theorem refl (t : Term) : SameScreens t t := ⟨rfl, rfl, rfl, rfl, rfl⟩

theorem trans (h : SameScreens t t') (h' : SameScreens t' t'') : SameScreens t t'' :=
  ⟨h'.altScreen.trans h.altScreen, h'.shown.trans h.shown, h'.limit.trans h.limit,
    h'.inactiveLimit.trans h.inactiveLimit, h'.scrollingHistory.trans h.scrollingHistory⟩

/-- A change to the visible grid only. -/
theorem of_limit {f : Grid → Grid} (h : (f t.grid).maxScrollLimit = t.grid.maxScrollLimit) :
    SameScreens t (t.modifyGrid f) := ⟨rfl, rfl, h, rfl, rfl⟩

theorem modifyRow (t : Term) (line : ℤ) (update : Row → Row) :
    SameScreens t (t.modifyRow line update) := ⟨rfl, rfl, rfl, rfl, rfl⟩

theorem setCursor (t : Term) (cursor : Cursor) : SameScreens t (t.setCursor cursor) :=
  ⟨rfl, rfl, rfl, rfl, rfl⟩

theorem markFullyDamaged (t : Term) : SameScreens t t.markFullyDamaged := ⟨rfl, rfl, rfl, rfl, rfl⟩

/-- An event other than a screen swap. -/
theorem sendEvent (t : Term) {event : Event} (h : ∀ shown, event.shows shown = shown) :
    SameScreens t (t.sendEvent event) :=
  ⟨rfl, (shownAfter_append ..).trans (h _), rfl, rfl, rfl⟩

theorem flushGridScroll (t : Term) : SameScreens t t.flushGridScroll := by
  unfold Term.flushGridScroll
  split
  · exact ⟨rfl, shownAfter_append .., rfl, rfl, rfl⟩
  · exact refl t

theorem queueGridScroll (t : Term) (origin stop lines : ℤ) (historySize : ℕ) :
    SameScreens t (t.queueGridScroll origin stop lines historySize) := by
  unfold Term.queueGridScroll
  split
  · dsimp only
    split
    · exact ⟨rfl, rfl, rfl, rfl, rfl⟩
    · obtain ⟨halt, hshown, hlimit, hinactive, hhistory⟩ := flushGridScroll t
      exact ⟨halt, hshown, hlimit, hinactive, hhistory⟩
  · exact ⟨rfl, rfl, rfl, rfl, rfl⟩

theorem scrolled (t : Term) {origin stop lines : ℤ} {historySize : ℕ} {queued : Prop}
    [Decidable queued] :
    SameScreens t (if queued then t.queueGridScroll origin stop lines historySize
      else t).markFullyDamaged := by
  split
  · exact (queueGridScroll ..).trans (markFullyDamaged _)
  · exact markFullyDamaged t

theorem scrollUpRelativeResetting (t : Term) (origin : ℤ) (lines : ℕ) (reset : Bool) :
    SameScreens t (t.scrollUpRelativeResetting origin lines reset).1 := by
  unfold Term.scrollUpRelativeResetting
  dsimp only
  refine trans ?_ (scrolled _)
  split
  · exact of_limit (Grid.sameFrame_scrollUpResetting ..).maxScrollLimit
  · exact of_limit (Grid.sameFrame_scrollUpResetting ..).maxScrollLimit

theorem scrollDownRelative (t : Term) (origin : ℤ) (lines : ℕ) :
    SameScreens t (t.scrollDownRelative origin lines) :=
  (of_limit (Grid.sameFrame_scrollDown ..).maxScrollLimit).trans (scrolled _)

theorem linefeed (t : Term) : SameScreens t t.linefeed := by
  unfold Term.linefeed
  dsimp only
  split
  · exact scrollUpRelativeResetting ..
  · split
    · exact ⟨rfl, rfl, rfl, rfl, rfl⟩
    · exact refl t

theorem nextLine (t : Term) (recycle : Bool) : SameScreens t (t.nextLine recycle).1 := by
  unfold Term.nextLine
  split
  · exact scrollUpRelativeResetting ..
  · split
    · exact linefeed t
    · exact ⟨rfl, rfl, rfl, rfl, rfl⟩

theorem wraplineRecycling (t : Term) (recycle : Bool) :
    SameScreens t (t.wraplineRecycling recycle).1 := by
  unfold Term.wraplineRecycling
  split
  · exact refl t
  · obtain ⟨halt, hshown, hlimit, hinactive, hhistory⟩ :=
      nextLine (t.modifyCell t.cursor.point (·.insertLayout .wrap)) recycle
    exact ⟨halt, hshown, hlimit, hinactive, hhistory⟩

theorem wrapPending (t : Term) : SameScreens t t.wrapPending := by
  unfold Term.wrapPending
  split
  · exact wraplineRecycling t false
  · exact refl t

theorem clearOtherHalf (t : Term) : SameScreens t t.clearOtherHalf := by
  unfold Term.clearOtherHalf
  dsimp only
  split
  · exact modifyRow ..
  · split
    · exact modifyRow ..
    · exact refl t

theorem clearLeading (t : Term) : SameScreens t t.clearLeading := by
  unfold Term.clearLeading
  dsimp only
  split
  · exact modifyRow ..
  · exact refl t

theorem clearWideAtCursor (t : Term) : SameScreens t t.clearWideAtCursor := by
  unfold Term.clearWideAtCursor
  dsimp only
  split
  · exact (clearOtherHalf t).trans (clearLeading _)
  · exact refl t

theorem shiftCells (t : Term) (width : ℕ) : SameScreens t (t.shiftCells width) := by
  unfold Term.shiftCells
  dsimp only
  split
  · exact modifyRow ..
  · exact refl t

theorem advanceCursor (t : Term) : SameScreens t t.advanceCursor := by
  unfold Term.advanceCursor
  split
  · exact setCursor ..
  · exact setCursor ..

variable (env : Charmap)

theorem writeAtCursor (t : Term) (c : Char) (layout : Layout) :
    SameScreens t (t.writeAtCursor env c layout) :=
  (clearWideAtCursor t).trans (modifyRow ..)

theorem writeWide (t : Term) (c : Char) : SameScreens t (t.writeWide env c) :=
  (writeAtCursor env t c .wide).trans ((setCursor ..).trans
    ((writeAtCursor env _ ' ' .spacer).trans (advanceCursor _)))

theorem printAt (t : Term) (c : Char) (width : ℕ) : SameScreens t (t.printAt env c width) := by
  unfold Term.printAt
  split
  · exact (writeAtCursor env t c .empty).trans (advanceCursor _)
  split
  · split
    · exact (writeAtCursor env t ' ' .leading).trans
        ((wraplineRecycling _ false).trans (writeWide env _ c))
    · exact setCursor ..
  · exact writeWide env t c

theorem input (t : Term) (c : Char) : SameScreens t (t.input env c) := by
  unfold Term.input
  split
  · exact refl t
  · split
    · exact modifyRow ..
    · exact (wrapPending t).trans ((shiftCells _ _).trans (printAt env _ c _))

theorem foldl_input (t : Term) (text : List Char) :
    SameScreens t (text.foldl (Term.input env) t) := by
  induction text generalizing t with
  | nil => exact refl t
  | cons c _ ih => exact (input env t c).trans (ih _)

theorem fillRow {τ : Type*} (t : Term) (count : ℕ → ℕ)
    (fill : Bool → List Cell → List Cell × ℕ × τ) : SameScreens t (t.fillRow count fill).1 := by
  have hfill : ∀ (u : Term) (recycled : Bool), SameScreens u (u.fillAt recycled count fill).1 :=
    fun u recycled => modifyRow ..
  unfold Term.fillRow
  dsimp only
  split
  · exact (wraplineRecycling t true).trans (hfill _ _)
  · exact hfill t false

theorem finishRun (t : Term) (stop : ℕ) : SameScreens t (t.finishRun stop) :=
  ⟨rfl, rfl, rfl, rfl, rfl⟩

theorem asciiLoop (fuel : ℕ) (t : Term) (chars : List Char) :
    SameScreens t (Term.asciiLoop env fuel t chars) := by
  induction fuel generalizing t chars with
  | zero => exact refl t
  | succ _ ih =>
    cases chars with
    | nil => exact refl t
    | cons first =>
      unfold Term.asciiLoop
      split
      · exact (input env t first).trans (ih _ _)
      · dsimp only
        split
        · exact (fillRow ..).trans ((input ..).trans (ih _ _))
        · exact (fillRow ..).trans ((finishRun ..).trans (ih _ _))

theorem writeAsciiRun (t : Term) (chars : List Char) :
    SameScreens t (t.writeAsciiRun env chars) := by
  unfold Term.writeAsciiRun
  split
  · exact foldl_input env t chars
  · exact asciiLoop env _ t chars

theorem textLoop (fuel : ℕ) (t : Term) (chars : List Char) :
    SameScreens t (Term.textLoop env fuel t chars) := by
  induction fuel generalizing t chars with
  | zero => exact refl t
  | succ _ ih =>
    cases chars with
    | nil => exact refl t
    | cons =>
      unfold Term.textLoop
      split
      · exact (modifyRow ..).trans (ih _ _)
      · split
        · dsimp only
          split
          · exact (fillRow ..).trans ((input ..).trans (ih _ _))
          · exact (fillRow ..).trans ((finishRun ..).trans (ih _ _))
        · exact (input ..).trans (ih _ _)
      · exact (input ..).trans (ih _ _)

theorem inputStr (t : Term) (chars : List Char) : SameScreens t (t.inputStr env chars) := by
  unfold Term.inputStr
  split
  · split
    · exact input ..
    · exact writeAsciiRun env t chars
  · unfold Term.writeTextRun
    split
    · exact foldl_input env t chars
    · exact textLoop env _ t chars

theorem repeatChunks {write : Term → List Char → Term} (h : ∀ t text, SameScreens t (write t text))
    (c : Char) (size fuel left : ℕ) (t : Term) :
    SameScreens t (Term.repeatChunks write c size fuel left t) := by
  induction fuel generalizing left t with
  | zero => exact refl t
  | succ _ ih =>
    unfold Term.repeatChunks
    split
    · exact refl t
    · exact (h _ _).trans (ih _ _)

theorem repeatChar (t : Term) (c : Char) (count : ℕ) :
    SameScreens t (t.repeatChar env c count) := by
  unfold Term.repeatChar
  split
  · exact repeatChunks (writeAsciiRun env) ..
  · exact repeatChunks (inputStr env) ..

theorem goto (t : Term) (line : ℤ) (column : ℕ) : SameScreens t (t.goto line column) := by
  unfold Term.goto
  split
  exact ⟨rfl, rfl, rfl, rfl, rfl⟩

theorem putTab (t : Term) (count : ℕ) : SameScreens t (t.putTab env count) := by
  have htabs : ∀ (count : ℕ) (t : Term), SameScreens t (putTabs env count t) := by
    intro count
    induction count with
    | zero => exact refl
    | succ _ ih =>
      intro t
      unfold putTabs
      split
      · exact (modifyRow ..).trans ((setCursor ..).trans (ih _))
      · exact refl t
  unfold Term.putTab
  split
  · exact wraplineRecycling t false
  · exact htabs count t

theorem linefeeds (count : ℕ) (t : Term) : SameScreens t (Term.linefeeds count t) := by
  induction count generalizing t with
  | zero => exact refl t
  | succ _ ih => exact (linefeed t).trans (ih _)

theorem backspace (t : Term) : SameScreens t t.backspace := by
  unfold Term.backspace
  dsimp only
  split <;> exact ⟨rfl, rfl, rfl, rfl, rfl⟩

theorem newline (t : Term) : SameScreens t t.newline := by
  unfold Term.newline
  dsimp only
  split
  · obtain ⟨halt, hshown, hlimit, hinactive, hhistory⟩ := linefeed t
    exact ⟨halt, hshown, hlimit, hinactive, hhistory⟩
  · exact linefeed t

theorem insertBlankLines (t : Term) (lines : ℕ) : SameScreens t (t.insertBlankLines lines) := by
  unfold Term.insertBlankLines
  dsimp only
  split
  · exact scrollDownRelative ..
  · exact refl t

theorem deleteLines (t : Term) (lines : ℕ) : SameScreens t (t.deleteLines lines) := by
  unfold Term.deleteLines
  dsimp only
  split
  · exact scrollUpRelativeResetting ..
  · exact refl t

theorem clearLine (t : Term) (mode : LineClearMode) : SameScreens t (t.clearLine mode) := by
  unfold Term.clearLine
  dsimp only
  split
  · exact refl t
  · exact ⟨rfl, rfl, rfl, rfl, rfl⟩

theorem setMode (t : Term) (mode : Mode) : SameScreens t (t.setMode mode) := by
  cases mode <;> exact ⟨rfl, rfl, rfl, rfl, rfl⟩

theorem unsetMode (t : Term) (mode : Mode) : SameScreens t (t.unsetMode mode) := by
  cases mode <;> exact ⟨rfl, rfl, rfl, rfl, rfl⟩

theorem clearViewport (t : Term) : SameScreens t (t.modifyGrid Grid.clearViewport) :=
  of_limit (Grid.sameFrame_scrollUpResetting ..).maxScrollLimit

theorem clearScreen (t : Term) (mode : ClearMode) : SameScreens t (t.clearScreen mode) := by
  unfold Term.clearScreen
  dsimp only
  refine trans ?_ (markFullyDamaged _)
  cases mode with
  | above | below =>
    dsimp only
    split
    · exact ⟨rfl, rfl, rfl, rfl, rfl⟩
    · exact modifyRow ..
  | all =>
    refine trans ?_ ((flushGridScroll _).trans (sendEvent _ fun _ => rfl))
    split
    · exact of_limit rfl
    · exact clearViewport t
  | saved =>
    dsimp only
    split
    · exact of_limit rfl
    · exact refl t

theorem clearTabs (t : Term) (mode : TabulationClearMode) : SameScreens t (t.clearTabs mode) := by
  cases mode <;> exact ⟨rfl, rfl, rfl, rfl, rfl⟩

theorem reverseIndex (t : Term) : SameScreens t t.reverseIndex := by
  unfold Term.reverseIndex
  split
  · exact scrollDownRelative ..
  · exact ⟨rfl, rfl, rfl, rfl, rfl⟩

theorem updateTemplateStyle (t : Term) (update : Style → Style) :
    SameScreens t (t.updateTemplateStyle update) := by
  have htemplate : ∀ (u : Term) (style : Style), SameScreens u (u.setTemplateStyle style) :=
    fun u style => ⟨rfl, rfl, rfl, rfl, rfl⟩
  have herase : ∀ (u : Term) (bg : Color), SameScreens u (u.setEraseColor bg) :=
    fun u bg => ⟨rfl, rfl, rfl, rfl, rfl⟩
  have hsweep : ∀ u : Term,
      SameScreens u (if u.styles.needsSweep u.storedCells then u.sweepStyles else u) := by
    intro u
    split
    · exact ⟨rfl, rfl, rfl, rfl, rfl⟩
    · exact refl u
  unfold Term.updateTemplateStyle
  split
  · exact ⟨rfl, rfl, rfl, rfl, rfl⟩
  dsimp only
  split
  · exact refl t
  · refine trans ?_ (hsweep _)
    split
    · exact (htemplate _ _).trans (herase _ _)
    · exact htemplate _ _

theorem finishAttributes (t : Term) : SameScreens t t.finishAttributes := by
  unfold Term.finishAttributes
  split
  · rename_i style _
    obtain ⟨halt, hshown, hlimit, hinactive, hhistory⟩ :=
      updateTemplateStyle { t with pendingStyle := none } fun _ => style
    exact ⟨halt, hshown, hlimit, hinactive, hhistory⟩
  · exact refl t

theorem terminalAttribute (t : Term) (attr : Attr) : SameScreens t (t.terminalAttribute attr) := by
  unfold Term.terminalAttribute
  split
  · exact refl t
  · exact updateTemplateStyle t _

theorem setScrollingRegion (t : Term) (top : ℕ) (bottom : Option ℕ) :
    SameScreens t (t.setScrollingRegion top bottom) := by
  unfold Term.setScrollingRegion
  dsimp only
  split
  · exact refl t
  · refine trans ?_ (goto _ 0 0)
    exact ⟨rfl, rfl, rfl, rfl, rfl⟩

theorem deccolm (t : Term) : SameScreens t t.deccolm := by
  obtain ⟨halt, hshown, hlimit, hinactive, hhistory⟩ := setScrollingRegion t 1 none
  exact ⟨halt, hshown, hlimit, hinactive, hhistory⟩

theorem advancePastImage (t : Term) (columns rows : ℕ) :
    SameScreens t (t.advancePastImage columns rows) := by
  obtain ⟨halt, hshown, hlimit, hinactive, hhistory⟩ :=
    linefeeds (min (t.pastImage columns rows).2 t.screenLines) t
  exact ⟨halt, hshown, hlimit, hinactive, hhistory⟩

theorem scrollDisplay (t : Term) (scroll : Scroll) : SameScreens t (t.scrollDisplay scroll) := by
  have hscroll : SameScreens t ((t.modifyGrid (·.scrollDisplay scroll)).sendEvent .mouseCursorDirty) :=
    trans (of_limit rfl) (sendEvent _ fun _ => rfl)
  unfold Term.scrollDisplay
  dsimp only
  split
  · exact hscroll.trans (markFullyDamaged _)
  · exact hscroll

theorem scrollToPoint (t : Term) (point : Point) : SameScreens t (t.scrollToPoint point) := by
  unfold Term.scrollToPoint
  dsimp only
  split
  · exact scrollDisplay ..
  · split
    · exact scrollDisplay ..
    · exact refl t

theorem clearBuffer (t : Term) : SameScreens t t.clearBuffer := by
  have hbelow : ∀ (u : Term) (retained : ℤ), SameScreens u (u.clearBelow retained) := by
    intro u _
    unfold clearBelow
    split
    · exact of_limit rfl
    · exact refl u
  unfold Term.clearBuffer
  dsimp only
  refine trans ?_ (markFullyDamaged _)
  refine trans ?_ (sendEvent _ fun _ => rfl)
  refine trans ?_ (sendEvent _ fun _ => rfl)
  refine trans ?_ (flushGridScroll _)
  refine trans ?_ (of_limit rfl)
  refine trans ?_ (setCursor ..)
  exact trans (of_limit (Grid.sameFrame_scrollUpResetting ..).maxScrollLimit) (hbelow _ _)

theorem reportDamage (t : Term) : SameScreens t t.reportDamage.1 := by
  have hcursor : ∀ u : Term, SameScreens u { u with damage.lastCursor := u.cursor.point } :=
    fun u => ⟨rfl, rfl, rfl, rfl, rfl⟩
  have hreport : ∀ (u : Term) (previous : Point),
      SameScreens u (if u.damage.lastCursor ≠ previous then
        u.damageLine previous.line.toNat previous.column previous.column else u).damageCursor := by
    intro u _
    split <;> exact ⟨rfl, rfl, rfl, rfl, rfl⟩
  have hinsert : SameScreens t (if t.mode.insert then t.markFullyDamaged else t) := by
    split
    · exact markFullyDamaged t
    · exact refl t
  unfold Term.reportDamage
  dsimp only
  generalize (if t.mode.insert then t.markFullyDamaged else t) = u at hinsert ⊢
  split
  · exact hinsert.trans (hcursor _)
  · exact hinsert.trans ((hcursor _).trans (hreport _ _))

end SameScreens

/-- Whether an operation exchanges the grids. -/
def exchanges (t : Term) : Op → Bool
  | .swapAlt => true
  | .setPrivateMode .swapScreenAndSetRestoreCursor => !t.mode.altScreen
  | .unsetPrivateMode .swapScreenAndSetRestoreCursor => t.mode.altScreen
  | .resetState => t.mode.altScreen
  | .resetClientState => t.mode.altScreen
  | _ => false

/-- What an operation does to which screen is shown. The limits say which grid is which. -/
structure Exchanged (t : Term) (swapped : Bool) (t' : Term) : Prop where
  altScreen : t'.mode.altScreen = (t.mode.altScreen ^^ swapped)
  limit : t'.grid.maxScrollLimit =
    if swapped then t.inactiveGrid.maxScrollLimit else t.grid.maxScrollLimit
  inactiveLimit : t'.inactiveGrid.maxScrollLimit =
    if swapped then t.grid.maxScrollLimit else t.inactiveGrid.maxScrollLimit
  scrollingHistory : t'.scrollingHistory = t.scrollingHistory

theorem SameScreens.exchanged (h : SameScreens t t') : Exchanged t false t' :=
  ⟨by rw [h.altScreen, Bool.xor_false], h.limit, h.inactiveLimit, h.scrollingHistory⟩

theorem Exchanged.trans {swapped swapped' : Bool} (h : Exchanged t swapped t')
    (h' : Exchanged t' swapped' t'') : Exchanged t (swapped ^^ swapped') t'' := by
  refine ⟨?_, ?_, ?_, h'.scrollingHistory.trans h.scrollingHistory⟩
  · rw [h'.altScreen, h.altScreen, Bool.xor_assoc]
  · rw [h'.limit, h.limit, h.inactiveLimit]
    cases swapped <;> cases swapped' <;> rfl
  · rw [h'.inactiveLimit, h.limit, h.inactiveLimit]
    cases swapped <;> cases swapped' <;> rfl

theorem exchanged_swapAlt (t : Term) : Exchanged t true t.swapAlt := by
  have hswap : ∀ u : Term,
      Exchanged u true { u.swapGrids with mode.altScreen := !u.mode.altScreen } :=
    fun u => ⟨(Bool.xor_true _).symm, rfl, rfl, rfl⟩
  have hannounce : ∀ (u : Term) (alternate : Bool),
      Exchanged u false (u.flushGridScroll.sendEvent (.vividScreenSwap alternate)).markFullyDamaged := by
    intro u _
    obtain ⟨halt, hlimit, hinactive, hhistory⟩ := (SameScreens.flushGridScroll u).exchanged
    exact ⟨halt, hlimit, hinactive, hhistory⟩
  unfold swapAlt
  dsimp only
  refine Exchanged.trans (@Exchanged.trans t _ _ false true ?_ (hswap _)) (hannounce _ _)
  split
  · exact ⟨(Bool.xor_false _).symm, rfl, rfl, rfl⟩
  · exact (SameScreens.refl t).exchanged

theorem shown_swapAlt (t : Term) : shownAfter t.swapAlt.events = !t.mode.altScreen := by
  have hannounce : ∀ (u : Term) (alternate : Bool), shownAfter
      (u.flushGridScroll.sendEvent (.vividScreenSwap alternate)).markFullyDamaged.events =
        alternate := fun u alternate => shownAfter_append ..
  unfold swapAlt
  dsimp only
  rw [hannounce]
  split <;> rfl

/-- Leaving the alternate screen, if it is shown. -/
theorem exchanged_swapIfAlt (t : Term) (h : t'.mode.altScreen = false)
    (hgrid : ∀ u : Term, u = (if t.mode.altScreen then t.swapGrids else t) →
      t'.grid.maxScrollLimit = u.grid.maxScrollLimit ∧
        t'.inactiveGrid.maxScrollLimit = u.inactiveGrid.maxScrollLimit)
    (hhistory : t'.scrollingHistory = t.scrollingHistory) : Exchanged t t.mode.altScreen t' := by
  obtain ⟨hlimit, hinactive⟩ := hgrid _ rfl
  refine ⟨by rw [h, Bool.xor_self], ?_, ?_, hhistory⟩
  · rw [hlimit]
    split <;> rfl
  · rw [hinactive]
    split <;> rfl

theorem exchanged_resetState (t : Term) : Exchanged t t.mode.altScreen t.resetState := by
  refine exchanged_swapIfAlt t rfl ?_ ?_
  · rintro u rfl
    exact ⟨rfl, rfl⟩
  · unfold resetState
    dsimp only
    split <;> rfl

/-- `reset_state` tells nobody which screen it leaves. -/
theorem shown_resetState (t : Term) : shownAfter t.resetState.events = shownAfter t.events := by
  unfold resetState
  dsimp only
  split <;> exact (shownAfter_append ..).trans (shownAfter_append ..)

theorem exchanged_resetClientState (t : Term) :
    Exchanged t t.mode.altScreen t.resetClientState := by
  cases halt : t.mode.altScreen with
  | false =>
    unfold resetClientState
    simp only [halt, Bool.false_eq_true, if_false]
    exact ⟨by rw [halt]; rfl, rfl, rfl, rfl⟩
  | true =>
    unfold resetClientState
    simp only [halt, if_true]
    exact ⟨by rw [halt]; rfl, rfl, rfl, rfl⟩

theorem shown_resetClientState (t : Term) (h : shownAfter t.events = t.mode.altScreen) :
    shownAfter t.resetClientState.events = false := by
  cases halt : t.mode.altScreen with
  | false =>
    rw [halt] at h
    unfold resetClientState
    simp only [halt, Bool.false_eq_true, if_false]
    change shownAfter (((t.events ++ _) ++ _) ++ _) = false
    rw [shownAfter_append, shownAfter_append, shownAfter_append, h]
    rfl
  | true =>
    unfold resetClientState
    simp only [halt, if_true]
    change shownAfter ((((t.events ++ _) ++ _) ++ _) ++ _) = false
    rw [shownAfter_append, shownAfter_append, shownAfter_append, shownAfter_append]
    rfl

theorem sameScreens_setPrivateMode (t : Term) {mode : PrivateMode}
    (h : mode ≠ .swapScreenAndSetRestoreCursor) : SameScreens t (t.setPrivateMode mode) := by
  cases mode with
  | swapScreenAndSetRestoreCursor => exact (h rfl).elim
  | lineWrap => exact ⟨rfl, rfl, rfl, rfl, rfl⟩
  | origin =>
    obtain ⟨halt, hshown, hlimit, hinactive, hhistory⟩ :=
      SameScreens.goto { t with mode.origin := true } 0 0
    exact ⟨halt, hshown, hlimit, hinactive, hhistory⟩
  | columnMode => exact .deccolm t

theorem sameScreens_unsetPrivateMode (t : Term) {mode : PrivateMode}
    (h : mode ≠ .swapScreenAndSetRestoreCursor) : SameScreens t (t.unsetPrivateMode mode) := by
  cases mode with
  | swapScreenAndSetRestoreCursor => exact (h rfl).elim
  | lineWrap | origin => exact ⟨rfl, rfl, rfl, rfl, rfl⟩
  | columnMode => exact .deccolm t

theorem sameScreens_resize {lines columns : ℕ} (h : t.resize lines columns = some t') :
    SameScreens t t' := by
  unfold resize at h
  split at h
  · cases h
    exact .refl t
  · obtain ⟨_, hgrid, hrest⟩ := Option.bind_eq_some_iff.mp h
    obtain ⟨_, hinactive, hterm⟩ := Option.bind_eq_some_iff.mp hrest
    cases hterm
    exact ⟨rfl, rfl, Grid.limit_resizeGrid hgrid, Grid.limit_resizeGrid hinactive, rfl⟩

/-- Operations that exchange the grids, or change the limit of one. -/
def touchesScreens : Op → Bool
  | .swapAlt | .resetState | .resetClientState | .setOptions _ => true
  | .setPrivateMode .swapScreenAndSetRestoreCursor => true
  | .unsetPrivateMode .swapScreenAndSetRestoreCursor => true
  | _ => false

/-- All other operations leave the screens as they are. -/
theorem sameScreens_step {op : Op} (hop : touchesScreens op = false)
    (h : step env t op = some t') : SameScreens t t' := by
  cases op with
  | resize => exact sameScreens_resize h
  | input c => cases h; exact .input env t c
  | inputStr text => cases h; exact .inputStr env t text
  | repeatChar c count => cases h; exact .repeatChar env t c count
  | goto line column => cases h; exact .goto t line column
  | gotoLine line => cases h; exact .goto t line _
  | gotoCol column => cases h; exact .goto t _ column
  | moveUp | moveDown => cases h; exact .goto t _ _
  | moveDownAndCr | moveUpAndCr => cases h; exact .goto t _ 0
  | putTab count => cases h; exact .putTab env t count
  | backspace => cases h; exact .backspace t
  | linefeed => cases h; exact .linefeed t
  | newline => cases h; exact .newline t
  | scrollUp lines => cases h; exact .scrollUpRelativeResetting t _ lines true
  | scrollDown lines => cases h; exact .scrollDownRelative t _ lines
  | insertBlankLines lines => cases h; exact .insertBlankLines t lines
  | deleteLines lines => cases h; exact .deleteLines t lines
  | clearLine mode => cases h; exact .clearLine t mode
  | clearScreen mode => cases h; exact .clearScreen t mode
  | clearTabs mode => cases h; exact .clearTabs t mode
  | reverseIndex => cases h; exact .reverseIndex t
  | setHyperlink => cases h; exact .updateTemplateStyle t _
  | finishAttributes => cases h; exact .finishAttributes t
  | terminalAttribute attr => cases h; exact .terminalAttribute t attr
  | setPrivateMode =>
    cases h
    refine sameScreens_setPrivateMode t ?_
    rintro rfl
    cases hop
  | unsetPrivateMode =>
    cases h
    refine sameScreens_unsetPrivateMode t ?_
    rintro rfl
    cases hop
  | setMode mode => cases h; exact .setMode t mode
  | unsetMode mode => cases h; exact .unsetMode t mode
  | setScrollingRegion top bottom => cases h; exact .setScrollingRegion t top bottom
  | advancePastImage columns rows => cases h; exact .advancePastImage t columns rows
  | scrollDisplay scroll => cases h; exact .scrollDisplay t scroll
  | scrollToPoint point => cases h; exact .scrollToPoint t point
  | clearBuffer => cases h; exact .clearBuffer t
  | flushGridScroll => cases h; exact .flushGridScroll t
  | damage => cases h; exact .reportDamage t
  | resetState | resetClientState | swapAlt | setOptions => cases hop
  | _ =>
    cases h
    exact ⟨rfl, rfl, rfl, rfl, rfl⟩

/-- The mode bit says which grid is the visible one: the alternate one has no history, the
primary one what the options ask for. -/
structure Identified (t : Term) (alternate : Bool) : Prop where
  mode : t.mode.altScreen = alternate
  limit : t.grid.maxScrollLimit = if alternate then 0 else t.scrollingHistory
  inactiveLimit : t.inactiveGrid.maxScrollLimit = if alternate then t.scrollingHistory else 0

theorem identified_new (scrollingHistory lines columns : ℕ) :
    (Term.new scrollingHistory lines columns).Identified false := ⟨rfl, rfl, rfl⟩

variable {alternate : Bool}

theorem Identified.exchanged {swapped : Bool} (h : t.Identified alternate)
    (h' : Exchanged t swapped t') : t'.Identified (alternate ^^ swapped) := by
  refine ⟨by rw [h'.altScreen, h.mode], ?_, ?_⟩
  · rw [h'.limit, h.limit, h.inactiveLimit, h'.scrollingHistory]
    cases alternate <;> cases swapped <;> rfl
  · rw [h'.inactiveLimit, h.limit, h.inactiveLimit, h'.scrollingHistory]
    cases alternate <;> cases swapped <;> rfl

theorem Identified.setOptions (h : t.Identified alternate) (scrollingHistory : ℕ) :
    (t.setOptions scrollingHistory).Identified alternate := by
  obtain ⟨hmode, hlimit, hinactive⟩ := h
  unfold Term.setOptions
  dsimp only
  cases alternate with
  | false =>
    rw [if_neg (by rw [hmode]; exact Bool.false_ne_true)]
    exact ⟨hmode, rfl, hinactive⟩
  | true =>
    rw [if_pos hmode]
    exact ⟨hmode, hlimit, rfl⟩

theorem exchanged_setPrivateMode (t : Term) :
    Exchanged t (!t.mode.altScreen) (t.setPrivateMode .swapScreenAndSetRestoreCursor) := by
  unfold setPrivateMode
  cases halt : t.mode.altScreen with
  | false => exact exchanged_swapAlt t
  | true => exact (SameScreens.refl t).exchanged

theorem exchanged_unsetPrivateMode (t : Term) :
    Exchanged t t.mode.altScreen (t.unsetPrivateMode .swapScreenAndSetRestoreCursor) := by
  unfold unsetPrivateMode
  cases halt : t.mode.altScreen with
  | false => exact (SameScreens.refl t).exchanged
  | true => exact exchanged_swapAlt t

/-- In every state the mode bit says which grid is shown. -/
theorem identified_step {op : Op} (h : t.Identified alternate) (hstep : step env t op = some t') :
    t'.Identified (alternate ^^ t.exchanges op) := by
  by_cases hop : touchesScreens op = false
  · have hnone : t.exchanges op = false := by
      unfold exchanges
      split <;> first | rfl | cases hop
    rw [hnone]
    exact h.exchanged (sameScreens_step hop hstep).exchanged
  · unfold touchesScreens at hop
    split at hop
    · cases hstep
      exact h.exchanged (exchanged_swapAlt t)
    · cases hstep
      exact h.exchanged (exchanged_resetState t)
    · cases hstep
      exact h.exchanged (exchanged_resetClientState t)
    · cases hstep
      rw [show t.exchanges (.setOptions _) = false from rfl, Bool.xor_false]
      exact h.setOptions _
    · cases hstep
      exact h.exchanged (exchanged_setPrivateMode t)
    · cases hstep
      exact h.exchanged (exchanged_unsetPrivateMode t)
    · exact (hop rfl).elim

/-- The last screen swap sent is right. -/
def Announced (t : Term) : Prop := shownAfter t.events = t.mode.altScreen

theorem announced_swapAlt (t : Term) : t.swapAlt.Announced := by
  unfold Announced
  rw [shown_swapAlt, (exchanged_swapAlt t).altScreen, Bool.xor_true]

/-- Every step announces the screen it leaves, but for a `reset_state` that leaves the
alternate one. -/
theorem announced_step {op : Op} (h : t.Announced) (hstep : step env t op = some t') :
    t'.Announced ↔ (op = .resetState → t.mode.altScreen = false) := by
  by_cases hreset : op = .resetState
  · subst hreset
    cases hstep
    have halt := (exchanged_resetState t).altScreen
    unfold Announced at h
    change shownAfter t.resetState.events = t.resetState.mode.altScreen ↔ _
    rw [shown_resetState, h, halt, Bool.xor_self]
    exact ⟨fun hoff _ => hoff, fun hoff => hoff rfl⟩
  · refine iff_of_true ?_ fun heq => (hreset heq).elim
    by_cases hop : touchesScreens op = false
    · have hsame := sameScreens_step hop hstep
      unfold Announced at h ⊢
      rw [hsame.shown, hsame.altScreen, h]
    unfold touchesScreens at hop
    split at hop
    · cases hstep
      exact announced_swapAlt t
    · exact (hreset rfl).elim
    · cases hstep
      change shownAfter t.resetClientState.events = t.resetClientState.mode.altScreen
      rw [shown_resetClientState t h, (exchanged_resetClientState t).altScreen, Bool.xor_self]
    · cases hstep
      change (t.setOptions _).Announced
      unfold setOptions Announced at *
      dsimp only
      split <;> exact h
    · cases hstep
      change (t.setPrivateMode _).Announced
      unfold setPrivateMode
      dsimp only
      split
      · exact announced_swapAlt t
      · exact h
    · cases hstep
      change (t.unsetPrivateMode _).Announced
      unfold unsetPrivateMode
      dsimp only
      split
      · exact announced_swapAlt t
      · exact h
    · exact (hop rfl).elim

/-- A run in which the alternate screen is never shown when `reset_state` comes, and
whether its steps exchanged the grids an odd number of times. -/
inductive Heralded (env : Charmap) (t₀ : Term) : Term → Bool → Prop
  | start : Heralded env t₀ t₀ false
  | step {t t' : Term} {alternate : Bool} {op : Op} (h : Heralded env t₀ t alternate)
      (hop : op = .resetState → t.mode.altScreen = false) (hstep : step env t op = some t') :
      Heralded env t₀ t' (alternate ^^ t.exchanges op)

theorem Heralded.agrees {scrollingHistory lines columns : ℕ}
    (h : Heralded env (Term.new scrollingHistory lines columns) t alternate) :
    t.Announced ∧ t.Identified alternate := by
  induction h with
  | start => exact ⟨rfl, identified_new ..⟩
  | step _ hop hstep ih => exact ⟨(announced_step ih.1 hstep).mpr hop, identified_step ih.2 hstep⟩

/-- In every such run from a fresh terminal the last swap sent, the mode bit and the visible
grid agree; and the first step that is not of the kind is the first after which they do not. -/
theorem screens_agree {scrollingHistory lines columns : ℕ} {alternate : Bool}
    (h : Heralded env (Term.new scrollingHistory lines columns) t alternate) :
    shownAfter t.events = alternate ∧ t.Identified alternate ∧ ∀ op t', step env t op = some t' →
        (shownAfter t'.events = t'.mode.altScreen ↔
          (op = .resetState → t.mode.altScreen = false)) := by
  obtain ⟨hannounced, hidentified⟩ := h.agrees
  exact ⟨hannounced.trans hidentified.mode, hidentified, fun _ _ => announced_step hannounced⟩

/-- Ideographs take two cells, every other character takes one. -/
def narrow : Charmap where
  width c := if 0x4E00 ≤ c.toNat ∧ c.toNat ≤ 0x9FFF then some 2 else some 1
  map _ c := c
  width_printable c _ h := if_neg fun hwide => by omega
  width_ideograph c h h' := if_pos ⟨h, h'⟩
  map_ascii _ := rfl

theorem screens_agree_swapAlt :
    ∃ t, Heralded narrow (Term.new 10 4 2) t true ∧ shownAfter t.events = true ∧
      t.Identified true := by
  have hstep : step narrow (Term.new 10 4 2) .swapAlt = some (Term.new 10 4 2).swapAlt := rfl
  have hstart : Heralded narrow (Term.new 10 4 2) (Term.new 10 4 2) false := .start
  have hrun := hstart.step (fun h => by cases h) hstep
  obtain ⟨hshown, hidentified, _⟩ := screens_agree hrun
  exact ⟨_, hrun, hshown, hidentified⟩

/-- The alternate screen is announced, and `reset_state` goes back without a word. -/
theorem resetState_unannounced :
    ∃ t, Term.run narrow (Term.new 10 4 2) [.swapAlt, .resetState] = some t ∧
      shownAfter t.events = true ∧ t.mode.altScreen = false ∧ t.grid.maxScrollLimit = 10 :=
  ⟨_, rfl, by decide, rfl, rfl⟩

end Term

end Vivido.Terminal
