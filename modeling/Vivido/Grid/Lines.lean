import Vivido.Support.SwapLoop

/-!
What the grid's buffer is for: a list of lines, the last ones of which are the
screen, over a stack of cached rows. A step of an operation says which lines
remain, which enter blank and which fall out of the history. Only operations
that make room expose cached rows.
-/

namespace Vivido.Terminal

open SwapLoop

/-- Operations on a buffer of lines. -/
inductive LineOp (ρ ε : Type*) where
  | initializeRows (count : ℕ)
  | shrinkLines (count : ℕ)
  | growVisibleLines (next : ℕ)
  | shrinkVisibleLines (next : ℕ)
  | rotate (count : ℤ)
  | rotateDown (count : ℕ)
  | swap (a b : ℤ)
  | scrollUp (start stop count : ℕ)
  | scrollDown (start stop count : ℕ)
  | clearHistory
  | updateHistory (limit : ℕ)
  | write (line : ℤ) (update : ρ → ρ)
  | setErase (erase : ε)

/-- The lines, top line first, `screen` of them visible; `limit` bounds the rest.
Lines enter in the attributes `erase`. -/
structure Lines (ρ ε : Type*) where
  cached : List ρ
  rows : List ρ
  screen : ℕ
  limit : ℕ
  erase : ε

namespace Lines

variable {ρ ε : Type*}

def history (m : Lines ρ ε) : List ρ := m.rows.take (m.rows.length - m.screen)

def visible (m : Lines ρ ε) : List ρ := m.rows.drop (m.rows.length - m.screen)

/-- The position of a line among the rows. -/
def place (m : Lines ρ ε) (line : ℤ) : ℕ := (m.rows.length - m.screen + line).toNat

/-- The screen after `count` blank lines entered a region at its bottom. -/
def regionUp (m : Lines ρ ε) (blank : ρ) (start stop count : ℕ) : List ρ :=
  m.visible.take start ++ ((m.visible.take stop).drop start).drop count ++
    List.replicate (min count (stop - start)) blank ++ m.visible.drop stop

/-- The screen after `count` blank lines entered a region at its top. -/
def regionDown (m : Lines ρ ε) (blank : ρ) (start stop count : ℕ) : List ρ :=
  m.visible.take start ++ List.replicate (min count (stop - start)) blank ++
    ((m.visible.take stop).drop start).take (stop - start - count) ++ m.visible.drop stop

/-- The lines after `count` blank lines entered the region of the first `stop`
lines of the screen, pushing lines into the history. -/
def pushUp (m : Lines ρ ε) (blank : ρ) (stop count : ℕ) : List ρ :=
  (m.history ++ m.visible.take stop ++ List.replicate count blank ++ m.visible.drop stop).drop
    (m.history.length + count - m.limit)

/-- One operation on the lines. New cached rows are equal to `fresh`; what
scrolling leaves in the cached rows is not specified. -/
inductive Step (fresh : ρ) (blank : ε → ρ) : Lines ρ ε → LineOp ρ ε → Lines ρ ε → Prop
  | initializeRows {m : Lines ρ ε} {count added : ℕ} {cached exposed : List ρ}
      (h : List.replicate added fresh ++ m.cached = cached ++ exposed)
      (hcount : exposed.length = count) :
      Step fresh blank m (.initializeRows count)
        { m with cached := cached, rows := exposed ++ m.rows }
  | growVisibleLines {m : Lines ρ ε} {next added : ℕ} {cached exposed : List ρ}
      (h : List.replicate added fresh ++ m.cached = cached ++ exposed)
      (hnext : exposed.length = next - m.screen) :
      Step fresh blank m (.growVisibleLines next)
        { m with cached := cached, rows := exposed ++ m.rows, screen := next }
  | shrinkLines {m : Lines ρ ε} {count : ℕ} {cached : List ρ}
      (h : cached = m.cached ++ m.rows.take count ∨ cached = []) :
      Step fresh blank m (.shrinkLines count) { m with cached := cached, rows := m.rows.drop count }
  | shrinkVisibleLines {m : Lines ρ ε} {next : ℕ} {cached : List ρ}
      (h : cached = m.cached ++ m.rows.take (m.screen - next) ∨ cached = []) :
      Step fresh blank m (.shrinkVisibleLines next)
        { m with cached := cached, rows := m.rows.drop (m.screen - next), screen := next }
  | rotateDown {m : Lines ρ ε} {count : ℕ} {top bottom cached rows : List ρ}
      (h : m.cached ++ m.rows = top ++ bottom)
      (hcount : bottom.length = count % (m.cached ++ m.rows).length)
      (h' : bottom ++ top = cached ++ rows) (hrows : rows.length = m.rows.length) :
      Step fresh blank m (.rotateDown count) { m with cached := cached, rows := rows }
  | rotate {m : Lines ρ ε} {count : ℤ} {top bottom cached rows : List ρ}
      (h : m.cached ++ m.rows = top ++ bottom)
      (hcount : (bottom.length : ℤ) = count ∨ (top.length : ℤ) = -count)
      (h' : bottom ++ top = cached ++ rows) (hrows : rows.length = m.rows.length) :
      Step fresh blank m (.rotate count) { m with cached := cached, rows := rows }
  | swap {m : Lines ρ ε} {a b : ℤ} :
      Step fresh blank m (.swap a b) { m with rows := swapAt m.rows (m.place a) (m.place b) }
  | pushUp {m : Lines ρ ε} {stop count : ℕ} {cached : List ρ} :
      Step fresh blank m (.scrollUp 0 stop count)
        { m with cached := cached, rows := m.pushUp (blank m.erase) stop count }
  | regionUp {m : Lines ρ ε} {start stop count : ℕ} (h : 0 < start) :
      Step fresh blank m (.scrollUp start stop count)
        { m with rows := m.history ++ m.regionUp (blank m.erase) start stop count }
  | regionDown {m : Lines ρ ε} {start stop count : ℕ} {cached : List ρ} :
      Step fresh blank m (.scrollDown start stop count)
        { m with
          cached := cached
          rows := m.history ++ m.regionDown (blank m.erase) start stop count }
  | clearHistory {m : Lines ρ ε} :
      Step fresh blank m .clearHistory { m with cached := [], rows := m.visible }
  | updateHistory {m : Lines ρ ε} {limit : ℕ} {cached : List ρ}
      (h : cached = m.cached ++ m.rows.take (m.history.length - limit) ∨ cached = []) :
      Step fresh blank m (.updateHistory limit)
        { m with
          cached := cached
          rows := m.rows.drop (m.history.length - limit)
          limit := limit }
  | write {m : Lines ρ ε} {line : ℤ} {update : ρ → ρ} :
      Step fresh blank m (.write line update) { m with rows := m.rows.modify (m.place line) update }
  | setErase {m : Lines ρ ε} {erase : ε} :
      Step fresh blank m (.setErase erase) { m with erase := erase }

/-- A sequence of operations. -/
inductive Run (fresh : ρ) (blank : ε → ρ) : Lines ρ ε → List (LineOp ρ ε) → Lines ρ ε → Prop
  | nil {m : Lines ρ ε} : Run fresh blank m [] m
  | cons {m m' m'' : Lines ρ ε} {op : LineOp ρ ε} {ops : List (LineOp ρ ε)}
      (step : Step fresh blank m op m') (rest : Run fresh blank m' ops m'') :
      Run fresh blank m (op :: ops) m''

end Lines

/-- Operations that make cached rows readable. -/
def LineOp.exposes {ρ ε : Type*} : LineOp ρ ε → Bool
  | .initializeRows _ | .growVisibleLines _ | .rotate _ | .rotateDown _ => true
  | _ => false

namespace Lines

variable {ρ ε : Type*}

/-- Two states that agree on everything but the cached rows. -/
structure SameLines (m n : Lines ρ ε) : Prop where
  rows : m.rows = n.rows
  screen : m.screen = n.screen
  limit : m.limit = n.limit
  erase : m.erase = n.erase

variable {m n : Lines ρ ε}

theorem SameLines.history (h : SameLines m n) : m.history = n.history := by
  rw [Lines.history, Lines.history, h.rows, h.screen]

theorem SameLines.visible (h : SameLines m n) : m.visible = n.visible := by
  rw [Lines.visible, Lines.visible, h.rows, h.screen]

theorem SameLines.place (h : SameLines m n) (line : ℤ) : m.place line = n.place line := by
  rw [Lines.place, Lines.place, h.rows, h.screen]

/-- What is readable after a step does not depend on the cached rows before it,
unless the operation makes room. -/
theorem step_sameLines {fresh : ρ} {blank : ε → ρ} {m' n' : Lines ρ ε} {op : LineOp ρ ε}
    (hop : op.exposes = false) (h : SameLines m n) (hm : Step fresh blank m op m')
    (hn : Step fresh blank n op n') : SameLines m' n' := by
  have hhist := h.history
  have hvis := h.visible
  have hplace := h.place
  obtain ⟨hrows, hscreen, hlimit, herase⟩ := h
  cases op with
  | shrinkLines count =>
    cases hm
    cases hn
    exact ⟨congrArg (List.drop count) hrows, hscreen, hlimit, herase⟩
  | shrinkVisibleLines =>
    cases hm
    cases hn
    refine ⟨?_, rfl, hlimit, herase⟩
    dsimp only
    rw [hrows, hscreen]
  | swap =>
    cases hm
    cases hn
    refine ⟨?_, hscreen, hlimit, herase⟩
    dsimp only
    rw [hrows, hplace, hplace]
  | scrollUp =>
    cases hm with
    | pushUp =>
      cases hn with
      | pushUp =>
        refine ⟨?_, hscreen, hlimit, herase⟩
        dsimp only [pushUp]
        rw [hhist, hvis, hlimit, herase]
      | regionUp => omega
    | regionUp =>
      cases hn with
      | pushUp => omega
      | regionUp =>
        refine ⟨?_, hscreen, hlimit, herase⟩
        dsimp only [regionUp]
        rw [hhist, hvis, herase]
  | scrollDown =>
    cases hm
    cases hn
    refine ⟨?_, hscreen, hlimit, herase⟩
    dsimp only [regionDown]
    rw [hhist, hvis, herase]
  | clearHistory =>
    cases hm
    cases hn
    exact ⟨hvis, hscreen, hlimit, herase⟩
  | updateHistory =>
    cases hm
    cases hn
    refine ⟨?_, hscreen, rfl, herase⟩
    dsimp only
    rw [hrows, hhist]
  | write =>
    cases hm
    cases hn
    refine ⟨?_, hscreen, hlimit, herase⟩
    dsimp only
    rw [hrows, hplace]
  | setErase =>
    cases hm
    cases hn
    exact ⟨hrows, hscreen, hlimit, rfl⟩
  | _ => cases hop

end Lines

end Vivido.Terminal
