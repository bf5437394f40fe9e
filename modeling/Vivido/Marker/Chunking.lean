import Vivido.Marker.Scanner
import Vivido.Support.HoldBack

/-!
The marker scanner as a lexer that holds input back. The lexer decides at one
position at a time from the bytes that follow: ordinary, the start of a marker or
of a graphics command, or too few to tell. Each decision stands when more bytes
follow, and each turn of the scan loop is a run of it, so the way the stream is
cut makes no difference.
-/

namespace Vivido.Marker

open List Option

variable (p : Protocol)

/-- The first bytes are ordinary. -/
def pass (rest : List UInt8) (count : ℕ) : Verdict Bool Event :=
  ⟨false, (rest.take count).map .byte, count⟩

def mark (rest : List UInt8) (count : ℕ) (name : String) (passToTerminal : Bool) :
    Verdict Bool Event :=
  ⟨false, [.marker (rest.take count) name passToTerminal], count⟩

/-- The part of a candidate that is searched for its terminator. -/
def window (rest : List UInt8) : List UInt8 :=
  (rest.take p.maxMarkerBytes).drop apcMarker.opening.length

/-- At a candidate that opens as a marker does. -/
def nextMarker (rest : List UInt8) : Option (Verdict Bool Event) :=
  match findBytes apcMarker.terminator (window p rest) with
  | none =>
      if p.maxMarkerBytes < rest.length then some (pass rest apcMarker.opening.length) else none
  | some relativeEnd =>
      let terminator := apcMarker.opening.length + relativeEnd
      let stop := terminator + apcMarker.terminator.length
      match String.fromUTF8? ⟨(slice rest apcMarker.payloadSkip terminator).toArray⟩ with
      | some name => some (mark rest stop name apcMarker.passToTerminal)
      | none => some (pass rest stop)

/-- At an application program command. -/
def nextApc (rest : List UInt8) : Option (Verdict Bool Event) :=
  if apcMarker.opening.isPrefixOf rest then nextMarker p rest
  else if rest.isPrefixOf apcMarker.opening then none
  else if graphicsIntroducer.isPrefixOf rest then
    some ⟨true, graphicsIntroducer.map .graphics, graphicsIntroducer.length⟩
  else some (pass rest 1)

/-- At a candidate of the printable envelope. -/
def nextConpty (rest : List UInt8) : Option (Verdict Bool Event) :=
  match p.scan rest with
  | .complete consumed body => some (mark rest consumed body false)
  | .incomplete => none
  | .invalid => some (pass rest 1)

/-- The decision at one position, outside of a graphics command. -/
def nextText : List UInt8 → Option (Verdict Bool Event)
  | [] => none
  | first :: rest =>
      if first = conptyByte then nextConpty p (first :: rest)
      else if first = esc then
        rest.head?.bind fun second =>
          if second = apcByte then nextApc p (first :: rest) else some (pass (first :: rest) 1)
      else some (pass (first :: rest) 1)

/-- The decision at one position, inside a graphics command. -/
def nextGraphics : List UInt8 → Option (Verdict Bool Event)
  | [] => none
  | first :: rest =>
      if first = esc then
        rest.head?.bind fun second =>
          if second = stByte then some ⟨false, [.graphics esc, .graphics stByte], 2⟩
          else some ⟨false, [], 0⟩
      else if endsCommand first then some ⟨false, [], 0⟩
      else some ⟨true, [.graphics first], 1⟩

def next (graphics : Bool) (rest : List UInt8) : Option (Verdict Bool Event) :=
  if graphics then nextGraphics rest else nextText p rest

variable {needle bytes rest : List UInt8} {b : UInt8} {v : Verdict Bool Event} {found : ℕ}

theorem findBytes_cons :
    findBytes needle (b :: rest) =
      if needle.isPrefixOf (b :: rest) then some 0 else (findBytes needle rest).map (· + 1) := rfl

theorem findBytes_le
    (h : findBytes needle bytes = some found) : found + needle.length ≤ bytes.length := by
  induction bytes generalizing found with
  | nil =>
    unfold findBytes at h
    split at h
    · rename_i hneedle
      cases h
      rw [hneedle]
      simp
    · cases h
  | cons b bytes ih =>
    rw [findBytes_cons] at h
    split at h
    · rename_i hprefix
      cases h
      have hlen := (List.isPrefixOf_iff_prefix.mp hprefix).length_le
      omega
    · obtain ⟨_, hlater, rfl⟩ := Option.map_eq_some_iff.mp h
      have hle := ih hlater
      rw [List.length_cons]
      omega

/-- A first occurrence stays the first one when bytes follow. -/
theorem findBytes_append (more : List UInt8)
    (hneedle : needle ≠ []) (h : findBytes needle bytes = some found) :
    findBytes needle (bytes ++ more) = some found := by
  induction bytes generalizing found with
  | nil =>
    unfold findBytes at h
    rw [if_neg hneedle] at h
    cases h
  | cons b bytes ih =>
    rw [List.cons_append, findBytes_cons]
    rw [findBytes_cons] at h
    by_cases hprefix : needle <+: b :: bytes
    · rw [if_pos (List.isPrefixOf_iff_prefix.mpr hprefix)] at h
      have hmore : needle <+: b :: (bytes ++ more) :=
        hprefix.trans (List.prefix_append (b :: bytes) more)
      rw [if_pos (List.isPrefixOf_iff_prefix.mpr hmore)]
      exact h
    · rw [if_neg (by rwa [List.isPrefixOf_iff_prefix])] at h
      obtain ⟨_, hlater, rfl⟩ := Option.map_eq_some_iff.mp h
      have hle := findBytes_le hlater
      have hmore : ¬needle <+: b :: (bytes ++ more) := by
        intro hlonger
        apply hprefix
        refine List.prefix_of_prefix_length_le hlonger (List.prefix_append (b :: bytes) more) ?_
        rw [List.length_cons]
        omega
      rw [if_neg (by rwa [List.isPrefixOf_iff_prefix]), ih hlater]
      rfl

theorem slice_append {stop : ℕ} (start : ℕ) (more : List UInt8)
    (h : stop ≤ rest.length) : slice (rest ++ more) start stop = slice rest start stop := by
  unfold slice
  rw [List.take_append_of_le_length h]

theorem pass_append {count : ℕ} (more : List UInt8)
    (h : count ≤ rest.length) : pass (rest ++ more) count = pass rest count := by
  unfold pass
  rw [List.take_append_of_le_length h]

theorem mark_append {count : ℕ} (more : List UInt8) (name : String)
    (passToTerminal : Bool) (h : count ≤ rest.length) :
    mark (rest ++ more) count name passToTerminal = mark rest count name passToTerminal := by
  unfold mark
  rw [List.take_append_of_le_length h]

theorem length_window_le (rest : List UInt8) :
    (window p rest).length ≤ rest.length - apcMarker.opening.length := by
  unfold window
  rw [List.length_drop, List.length_take]
  omega

/-- A marker found in its window ends within the bytes at hand. -/
theorem stop_le (hlen : apcMarker.opening.length ≤ rest.length)
    (h : findBytes apcMarker.terminator (window p rest) = some found) :
    apcMarker.opening.length + found + apcMarker.terminator.length ≤ rest.length := by
  have hfound := findBytes_le h
  have hwindow := length_window_le p rest
  omega

theorem window_append (more : List UInt8)
    (h : p.maxMarkerBytes ≤ rest.length) : window p (rest ++ more) = window p rest := by
  unfold window
  rw [List.take_append_of_le_length h]

/-- Something found in the window is still in it when bytes follow. -/
theorem window_append_of_found {rest : List UInt8} (more : List UInt8)
    (h : findBytes apcMarker.terminator (window p rest) = some found) :
    ∃ added, window p (rest ++ more) = window p rest ++ added := by
  have hle := findBytes_le h
  have htaken : apcMarker.opening.length ≤ (rest.take p.maxMarkerBytes).length := by
    have hpos : 0 < apcMarker.terminator.length := by decide
    unfold window at hle
    rw [List.length_drop] at hle
    omega
  refine ⟨more.take (p.maxMarkerBytes - rest.length), ?_⟩
  unfold window
  rw [List.take_append, List.drop_append_of_le_length htaken]

theorem nextMarker_append (more : List UInt8)
    (hlen : apcMarker.opening.length ≤ rest.length) (h : nextMarker p rest = some v) :
    nextMarker p (rest ++ more) = some v := by
  unfold nextMarker at h ⊢
  cases hfound : findBytes apcMarker.terminator (window p rest) with
  | none =>
    rw [hfound] at h
    dsimp only at h
    split at h
    · rename_i hlong
      rw [window_append p more (Nat.le_of_lt hlong), hfound]
      dsimp only
      rw [if_pos (by rw [List.length_append]; omega), pass_append more hlen]
      exact h
    · cases h
  | some =>
    have hstop := stop_le p hlen hfound
    obtain ⟨added, hadded⟩ := window_append_of_found p more hfound
    rw [hfound] at h
    rw [hadded, findBytes_append added (by decide) hfound]
    dsimp only at h ⊢
    rw [slice_append _ more (by omega), pass_append more hstop]
    simp only [mark_append more _ _ hstop]
    exact h

theorem isPrefixOf_append (more : List UInt8)
    (h : needle.isPrefixOf bytes) : needle.isPrefixOf (bytes ++ more) := by
  rw [List.isPrefixOf_iff_prefix] at h ⊢
  exact h.trans (List.prefix_append bytes more)

/-- Bytes that already differ from a prefix keep differing. -/
theorem not_isPrefixOf_append (more : List UInt8)
    (h : ¬needle.isPrefixOf bytes) (hshort : ¬bytes.isPrefixOf needle) :
    ¬needle.isPrefixOf (bytes ++ more) ∧ ¬(bytes ++ more).isPrefixOf needle := by
  rw [List.isPrefixOf_iff_prefix] at h hshort
  constructor
  · rw [List.isPrefixOf_iff_prefix]
    intro hlonger
    rcases List.prefix_or_prefix_of_prefix hlonger (List.prefix_append bytes more) with hp | hp
    · exact h hp
    · exact hshort hp
  · rw [List.isPrefixOf_iff_prefix]
    intro hlonger
    exact hshort ((List.prefix_append bytes more).trans hlonger)

/-- An introducer differs from a marker's opening in its third byte. -/
theorem not_isPrefixOf_graphics (more : List UInt8)
    (hrest : [esc, apcByte] <+: rest) (hshort : ¬rest.isPrefixOf apcMarker.opening)
    (h : ¬graphicsIntroducer.isPrefixOf rest) : ¬graphicsIntroducer.isPrefixOf (rest ++ more) := by
  obtain ⟨tail, rfl⟩ := hrest
  cases tail with
  | nil => exact (hshort (by decide)).elim
  | cons =>
    intro hlonger
    apply h
    rw [List.isPrefixOf_iff_prefix] at hlonger ⊢
    refine List.prefix_of_prefix_length_le hlonger (List.prefix_append _ more) ?_
    simp [graphicsIntroducer]

theorem nextApc_append (more : List UInt8)
    (hrest : [esc, apcByte] <+: rest) (h : nextApc p rest = some v) :
    nextApc p (rest ++ more) = some v := by
  unfold nextApc at h ⊢
  by_cases hopen : apcMarker.opening.isPrefixOf rest
  · rw [if_pos hopen] at h
    rw [if_pos (isPrefixOf_append more hopen)]
    exact nextMarker_append p more (List.isPrefixOf_iff_prefix.mp hopen).length_le h
  rw [if_neg hopen] at h
  by_cases hshort : rest.isPrefixOf apcMarker.opening
  · rw [if_pos hshort] at h
    cases h
  rw [if_neg hshort] at h
  obtain ⟨hopen', hshort'⟩ := not_isPrefixOf_append more hopen hshort
  rw [if_neg hopen', if_neg hshort']
  by_cases hgraphics : graphicsIntroducer.isPrefixOf rest
  · rw [if_pos hgraphics] at h
    rw [if_pos (isPrefixOf_append more hgraphics)]
    exact h
  · rw [if_neg hgraphics] at h
    rw [if_neg (not_isPrefixOf_graphics more hrest hshort hgraphics), pass_append more
      (by have := hrest.length_le; simp at this; omega)]
    exact h

theorem nextConpty_append (more : List UInt8) (hrest : rest ≠ []) (h : nextConpty p rest = some v) :
    nextConpty p (rest ++ more) = some v := by
  unfold nextConpty at h ⊢
  cases hscan : p.scan rest with
  | complete =>
    rw [hscan] at h
    rw [p.complete_append more hscan]
    dsimp only
    rw [mark_append more _ _ (p.consumed_le hscan)]
    exact h
  | incomplete =>
    rw [hscan] at h
    cases h
  | invalid =>
    rw [hscan] at h
    rw [p.invalid_append more hscan]
    dsimp only
    rw [pass_append more (List.length_pos_iff.mpr hrest)]
    exact h

theorem nextText_append (more : List UInt8)
    (h : nextText p rest = some v) : nextText p (rest ++ more) = some v := by
  cases rest with
  | nil => cases h
  | cons first rest =>
    unfold nextText at h
    dsimp only at h
    rw [List.cons_append, nextText]
    by_cases hconpty : first = conptyByte
    · rw [if_pos hconpty] at h ⊢
      exact nextConpty_append p more (List.cons_ne_nil _ _) h
    rw [if_neg hconpty] at h ⊢
    by_cases hesc : first = esc
    · rw [if_pos hesc] at h ⊢
      cases rest with
      | nil => cases h
      | cons second rest =>
        simp only [List.head?_cons, bind_some, List.cons_append] at h ⊢
        by_cases hapc : second = apcByte
        · rw [if_pos hapc] at h ⊢
          exact nextApc_append p more (by rw [hesc, hapc]; exact ⟨rest, rfl⟩) h
        · rw [if_neg hapc] at h ⊢
          exact h
    · rw [if_neg hesc] at h ⊢
      exact h

/-- The most bytes the scanner holds back. -/
def maxHeld (p : Protocol) : ℕ :=
  max apcMarker.opening.length (max p.maxMarkerBytes p.incompleteBytes)

/-- What a decision outside of a graphics command can be: what it waits on is short. -/
inductive Decides (p : Protocol) (rest : List UInt8) : Option (Verdict Bool Event) → Prop where
  | wait (hshort : rest.length ≤ maxHeld p) : Decides p rest none
  | pass {count : ℕ} (hpos : 0 < count) (hle : count ≤ rest.length) :
      Decides p rest (some (pass rest count))
  | mark {count : ℕ} (name : String) (passToTerminal : Bool) (hpos : 0 < count)
      (hle : count ≤ rest.length) : Decides p rest (some (mark rest count name passToTerminal))
  | graphics (hopen : graphicsIntroducer <+: rest) :
      Decides p rest (some ⟨true, graphicsIntroducer.map .graphics, graphicsIntroducer.length⟩)

theorem nextMarker_decides (hlen : apcMarker.opening.length ≤ rest.length) :
    Decides p rest (nextMarker p rest) := by
  have hpos : 0 < apcMarker.opening.length := by decide
  unfold nextMarker
  split
  · split
    · exact .pass hpos hlen
    · exact .wait (by unfold maxHeld; omega)
  · rename_i found hfound
    have hstop := stop_le p hlen hfound
    dsimp only
    split
    · exact .mark _ _ (by omega) hstop
    · exact .pass (by omega) hstop

theorem nextApc_decides (hrest : [esc, apcByte] <+: rest) : Decides p rest (nextApc p rest) := by
  have hlen := hrest.length_le
  unfold nextApc
  split
  · rename_i hopen
    exact nextMarker_decides p (List.isPrefixOf_iff_prefix.mp hopen).length_le
  split
  · rename_i hshort
    have hle := (List.isPrefixOf_iff_prefix.mp hshort).length_le
    exact .wait (by unfold maxHeld; omega)
  · split
    · rename_i hgraphics
      exact .graphics (List.isPrefixOf_iff_prefix.mp hgraphics)
    · simp only [List.length_cons, List.length_nil] at hlen
      exact .pass Nat.one_pos (by omega)

theorem nextConpty_decides (hrest : rest ≠ []) : Decides p rest (nextConpty p rest) := by
  unfold nextConpty
  split
  · rename_i hscan
    exact .mark _ _ (p.consumed_pos hscan) (p.consumed_le hscan)
  · rename_i hscan
    have hle := p.incomplete_le hscan
    exact .wait (by unfold maxHeld; omega)
  · exact .pass Nat.one_pos (List.length_pos_iff.mpr hrest)

theorem nextText_decides : Decides p rest (nextText p rest) := by
  cases rest with
  | nil => exact .wait (Nat.zero_le _)
  | cons first rest =>
    have hone : 1 ≤ (first :: rest).length := by simp
    unfold nextText
    dsimp only
    split
    · exact nextConpty_decides p (List.cons_ne_nil _ _)
    split
    · rename_i hesc
      cases rest with
      | nil =>
        have hopening : 1 < apcMarker.opening.length := by decide
        exact .wait (by unfold maxHeld; rw [List.length_singleton]; omega)
      | cons second rest =>
        simp only [List.head?_cons, bind_some]
        split
        · rename_i hapc
          exact nextApc_decides p (by rw [hesc, hapc]; exact ⟨rest, rfl⟩)
        · exact .pass Nat.one_pos hone
    · exact .pass Nat.one_pos hone

theorem nextText_consumed (h : nextText p rest = some v) :
    0 < v.consumed ∧ v.consumed ≤ rest.length := by
  have hdecides := @nextText_decides p rest
  rw [h] at hdecides
  cases hdecides with
  | pass hpos hle | mark _ _ hpos hle => exact ⟨hpos, hle⟩
  | graphics hopen => exact ⟨by decide, hopen.length_le⟩

theorem nextGraphics_append (more : List UInt8)
    (h : nextGraphics rest = some v) : nextGraphics (rest ++ more) = some v := by
  cases rest with
  | nil => cases h
  | cons first rest =>
    cases rest with
    | nil =>
      unfold nextGraphics at h
      dsimp only at h
      rw [List.cons_append, nextGraphics]
      by_cases hesc : first = esc
      · rw [if_pos hesc] at h
        cases h
      · rw [if_neg hesc] at h ⊢
        exact h
    | cons => exact h

theorem nextGraphics_consumed (h : nextGraphics rest = some v) :
    (0 < v.consumed ∨ v.state = false) ∧ v.consumed ≤ rest.length := by
  cases rest with
  | nil => cases h
  | cons _ rest =>
    unfold nextGraphics at h
    dsimp only at h
    split at h
    · cases rest with
      | nil => cases h
      | cons =>
        simp only [List.head?_cons, bind_some] at h
        split at h
        · cases h
          exact ⟨Or.inl Nat.two_pos, by simp⟩
        · cases h
          exact ⟨Or.inr rfl, Nat.zero_le _⟩
    · split at h
      · cases h
        exact ⟨Or.inr rfl, Nat.zero_le _⟩
      · cases h
        exact ⟨Or.inl Nat.one_pos, by simp⟩

/-- The scanner as a lexer. -/
def lexer : Lexer UInt8 Bool Event where
  next := next p
  rank graphics := if graphics then 1 else 0
  consumed_le {graphics rest v} h := by
    cases graphics with
    | false => exact (nextText_consumed p h).2
    | true => exact (nextGraphics_consumed h).2
  progress {graphics rest v} h := by
    cases graphics with
    | false => exact Or.inl (nextText_consumed p h).1
    | true =>
      rcases (nextGraphics_consumed h).1 with hpos | hstate
      · exact Or.inl hpos
      · right
        rw [hstate]
        exact Nat.one_pos
  stable {graphics rest v} more _ h := by
    cases graphics with
    | false => exact nextText_append p more h
    | true => exact nextGraphics_append more h

/-- The run from one state on comes down to the run from another after the events. -/
def Leads (s : Bool) (rest : List UInt8) (es : List Event) (s' : Bool) (rest' : List UInt8) : Prop :=
  (lexer p).run s rest = { (lexer p).run s' rest' with
    events := es ++ ((lexer p).run s' rest').events }

variable {p}

theorem leads_refl (s : Bool) (rest : List UInt8) : Leads p s rest [] s rest := rfl

theorem Leads.trans {s s' s'' : Bool} {rest rest' rest'' : List UInt8} {es es' : List Event}
    (h : Leads p s rest es s' rest') (h' : Leads p s' rest' es' s'' rest'') :
    Leads p s rest (es ++ es') s'' rest'' := by
  unfold Leads at h h' ⊢
  rw [h, h', List.append_assoc]

theorem leads_next {s : Bool} (hrest : rest ≠ [])
    (h : next p s rest = some v) : Leads p s rest v.events v.state (rest.drop v.consumed) :=
  (lexer p).run_some hrest h

theorem leads_pass {rest : List UInt8} {count : ℕ} (hrest : rest ≠ [])
    (h : nextText p rest = some (pass rest count)) :
    Leads p false rest ((rest.take count).map .byte) false (rest.drop count) :=
  leads_next (s := false) (v := pass rest count) hrest h

/-- A graphics command goes on until its end is found. -/
def GraphicsEnd.shift : GraphicsEnd → GraphicsEnd
  | .closed stop => .closed (stop + 1)
  | .undecided stop => .undecided (stop + 1)
  | .running => .running

theorem graphicsEnd_cons {b : UInt8} {rest : List UInt8} (h : endsCommand b = false) :
    graphicsEnd (b :: rest) = (graphicsEnd rest).shift := by
  unfold graphicsEnd
  rw [List.findIdx?_cons, if_neg (by rw [h]; exact Bool.false_ne_true)]
  cases hfound : rest.findIdx? endsCommand with
  | none => rfl
  | some found =>
    simp only [map_some, List.getElem?_cons_succ]
    by_cases hesc : rest[found]? = some esc
    · rw [if_neg (not_not.mpr hesc), if_neg (not_not.mpr hesc)]
      cases rest[found + 1]? with
      | none => rfl
      | some =>
        dsimp only
        split <;> rfl
    · rw [if_pos hesc, if_pos hesc]
      rfl

/-- What the lexer makes of a graphics command that has begun. -/
def GraphicsSpec (p : Protocol) (buf : List UInt8) : GraphicsEnd → Prop
  | .running => (lexer p).run true buf = ⟨true, buf.map .graphics, []⟩
  | .undecided stop => stop ≤ buf.length ∧
      (lexer p).run true buf = ⟨true, (buf.take stop).map .graphics, buf.drop stop⟩
  | .closed stop => stop ≤ buf.length ∧
      Leads p true buf ((buf.take stop).map .graphics) false (buf.drop stop)

theorem graphicsSpec_shift {b : UInt8} {rest : List UInt8} (h : endsCommand b = false)
    (stop : GraphicsEnd) (hrest : GraphicsSpec p rest stop) :
    GraphicsSpec p (b :: rest) stop.shift := by
  have hesc : b ≠ esc := by
    rintro rfl
    exact absurd h (by decide)
  have hnext : next p true (b :: rest) = some ⟨true, [.graphics b], 1⟩ := by
    change nextGraphics (b :: rest) = _
    unfold nextGraphics
    dsimp only
    rw [if_neg hesc, if_neg (by rw [h]; exact Bool.false_ne_true)]
  have hlead := leads_next (List.cons_ne_nil b rest) hnext
  rw [List.drop_one, List.tail_cons] at hlead
  cases stop with
  | running =>
    change (lexer p).run true (b :: rest) = _
    rw [hlead, show (lexer p).run true rest = _ from hrest]
    rfl
  | undecided =>
    obtain ⟨hle, hrun⟩ := hrest
    refine ⟨by rw [List.length_cons]; omega, ?_⟩
    rw [hlead, hrun]
    rfl
  | closed =>
    obtain ⟨_, hrun⟩ := hrest
    exact ⟨by rw [List.length_cons]; omega, hlead.trans hrun⟩

theorem graphics_run (p : Protocol) (buf : List UInt8) : GraphicsSpec p buf (graphicsEnd buf) := by
  induction buf with
  | nil => exact (lexer p).run_nil true
  | cons b rest ih =>
    by_cases hend : endsCommand b = true
    · have hzero : (b :: rest).findIdx? endsCommand = some 0 := by
        rw [List.findIdx?_cons, if_pos hend]
      unfold graphicsEnd
      rw [hzero]
      dsimp only [List.getElem?_cons_zero]
      by_cases hesc : b = esc
      · rw [if_neg (by rw [hesc]; exact not_not.mpr rfl)]
        cases rest with
        | nil =>
          refine ⟨Nat.zero_le _, (lexer p).run_none ?_⟩
          change nextGraphics [b] = none
          unfold nextGraphics
          dsimp only
          rw [if_pos hesc]
          rfl
        | cons second rest =>
          simp only [Nat.zero_add, List.getElem?_cons_succ, List.getElem?_cons_zero]
          have hnext : next p true (b :: second :: rest) =
              if second = stByte then some ⟨false, [.graphics esc, .graphics stByte], 2⟩
              else some ⟨false, [], 0⟩ := by
            change nextGraphics (b :: second :: rest) = _
            unfold nextGraphics
            dsimp only
            rw [if_pos hesc]
            rfl
          by_cases hst : second = stByte
          · rw [if_pos hst] at hnext ⊢
            refine ⟨by simp, ?_⟩
            have hlead := leads_next (List.cons_ne_nil b _) hnext
            rw [hesc, hst] at hlead ⊢
            exact hlead
          · rw [if_neg hst] at hnext ⊢
            exact ⟨Nat.zero_le _, leads_next (List.cons_ne_nil b _) hnext⟩
      · rw [if_pos (by intro h; exact hesc (Option.some.inj h))]
        refine ⟨Nat.zero_le _, ?_⟩
        refine leads_next (v := ⟨false, [], 0⟩) (List.cons_ne_nil b rest) ?_
        change nextGraphics (b :: rest) = _
        unfold nextGraphics
        dsimp only
        rw [if_neg hesc, if_pos hend]
    · have hno : endsCommand b = false := by simpa using hend
      rw [graphicsEnd_cons hno]
      exact graphicsSpec_shift hno _ ih

variable {buf : List UInt8} {cursor start textStart : ℕ} {apcStart conptyStart : Option ℕ}

/-- The first position from `cursor` on where something starts, if any. -/
def First (starts : List UInt8 → Prop) (buf : List UInt8) (cursor : ℕ) : Option ℕ → Prop
  | none => ∀ i, cursor ≤ i → i < buf.length → ¬starts (buf.drop i)
  | some found => cursor ≤ found ∧ found < buf.length ∧ starts (buf.drop found) ∧
      ∀ i, cursor ≤ i → i < found → ¬starts (buf.drop i)

/-- What a search has to find. -/
def Searches (search : List UInt8 → Option ℕ) (starts : List UInt8 → Prop) : Prop :=
  ∀ buf, First starts buf 0 (search buf)

theorem searches_findBytes {needle : List UInt8} (hneedle : needle ≠ []) :
    Searches (findBytes needle) (needle <+: ·) := by
  intro buf
  induction buf with
  | nil =>
    unfold findBytes
    rw [if_neg hneedle]
    intro i _ hi
    cases hi
  | cons b rest ih =>
    rw [findBytes_cons]
    by_cases hprefix : needle <+: b :: rest
    · rw [if_pos (List.isPrefixOf_iff_prefix.mpr hprefix)]
      exact ⟨Nat.le_refl 0, by simp, hprefix, fun i _ hi => absurd hi (Nat.not_lt_zero i)⟩
    rw [if_neg (by rwa [List.isPrefixOf_iff_prefix])]
    cases hfound : findBytes needle rest with
    | none =>
      rw [hfound] at ih
      intro i _ hi
      cases i with
      | zero => exact hprefix
      | succ i => exact ih i (Nat.zero_le i) (by simpa using hi)
    | some =>
      rw [hfound] at ih
      obtain ⟨_, hlt, hstart, hbefore⟩ := ih
      refine ⟨Nat.zero_le _, by simpa using hlt, hstart, ?_⟩
      intro i _ hi
      dsimp only at hi
      cases i with
      | zero => exact hprefix
      | succ i => exact hbefore i (Nat.zero_le i) (by omega)

theorem searches_findApc : Searches findApc ([esc, apcByte] <+: ·) :=
  searches_findBytes (List.cons_ne_nil esc _)

theorem searches_findConpty : Searches findConpty fun rest => rest.head? = some conptyByte := by
  intro buf
  unfold findConpty
  cases hfound : buf.findIdx? (· == conptyByte) with
  | none =>
    intro i _ hi hstart
    have hbyte := List.findIdx?_eq_none_iff.mp hfound buf[i] (List.getElem_mem hi)
    rw [List.head?_drop, List.getElem?_eq_getElem hi] at hstart
    rw [Option.some.inj hstart] at hbyte
    exact absurd hbyte (by decide)
  | some =>
    obtain ⟨hlt, hbyte, hbefore⟩ := List.findIdx?_eq_some_iff_getElem.mp hfound
    refine ⟨Nat.zero_le _, hlt, ?_, ?_⟩
    · dsimp only
      rw [List.head?_drop, List.getElem?_eq_getElem hlt, beq_iff_eq.mp hbyte]
    · intro i _ hi hstart
      have hno := hbefore i hi
      rw [List.head?_drop, List.getElem?_eq_getElem (by omega)] at hstart
      rw [Option.some.inj hstart] at hno
      exact absurd hno (by decide)

/-- Searching again from the cursor, when needed, finds the first position from there. -/
theorem first_refresh {search : List UInt8 → Option ℕ} {starts : List UInt8 → Prop}
    (hsearch : Searches search starts) {before : ℕ} {found : Option ℕ}
    (hle : before ≤ cursor) (hcursor : cursor ≤ buf.length) (h : First starts buf before found) :
    First starts buf cursor (refresh found cursor search buf) := by
  unfold refresh
  cases found with
  | none =>
    intro i hi
    exact h i (by omega)
  | some found =>
    obtain ⟨_, hlt, hstart, hbefore⟩ := h
    by_cases hstale : found < cursor
    · rw [if_pos (by simpa using hstale)]
      have hagain := hsearch (buf.drop cursor)
      cases hnew : search (buf.drop cursor) with
      | none =>
        rw [hnew] at hagain
        intro i hi hlen
        have hno := hagain (i - cursor) (Nat.zero_le _) (by rw [List.length_drop]; omega)
        rwa [List.drop_drop, show cursor + (i - cursor) = i by omega] at hno
      | some =>
        rw [hnew] at hagain
        obtain ⟨_, hnext, hstart', hbefore'⟩ := hagain
        rw [List.length_drop] at hnext
        rw [List.drop_drop] at hstart'
        refine ⟨Nat.le_add_right _ _, by dsimp only; omega, hstart', ?_⟩
        intro i hi hlen
        dsimp only at hlen
        have hno := hbefore' (i - cursor) (Nat.zero_le _) (by omega)
        rwa [List.drop_drop, show cursor + (i - cursor) = i by omega] at hno
    · rw [if_neg (by simpa using hstale)]
      exact ⟨by omega, hlt, hstart, fun i hi => hbefore i (by omega)⟩

/-- A byte that starts no candidate and is not a last `ESC` is ordinary. -/
theorem nextText_pass (hrest : rest ≠ [])
    (hapc : ¬[esc, apcByte] <+: rest) (hconpty : rest.head? ≠ some conptyByte)
    (hlast : rest ≠ [esc]) : nextText p rest = some (pass rest 1) := by
  cases rest with
  | nil => exact (hrest rfl).elim
  | cons first rest =>
    unfold nextText
    dsimp only
    rw [if_neg (by rintro rfl; exact hconpty rfl)]
    by_cases hesc : first = esc
    · rw [if_pos hesc]
      subst hesc
      cases rest with
      | nil => exact (hlast rfl).elim
      | cons _ rest =>
        simp only [List.head?_cons, bind_some]
        rw [if_neg]
        rintro rfl
        exact hapc ⟨rest, rfl⟩
    · rw [if_neg hesc]

@[simp] theorem slice_self (start : ℕ) : slice buf start start = [] := by
  unfold slice
  rw [List.drop_eq_nil_of_le]
  rw [List.length_take]
  omega

/-- Ordinary bytes up to a position. -/
theorem leads_text {stop : ℕ} (hle : cursor ≤ stop) (hstop : stop ≤ buf.length)
    (h : ∀ i, cursor ≤ i → i < stop → nextText p (buf.drop i) = some (pass (buf.drop i) 1)) :
    Leads p false (buf.drop cursor) ((slice buf cursor stop).map .byte) false (buf.drop stop) := by
  obtain ⟨count, rfl⟩ := Nat.exists_eq_add_of_le hle
  induction count generalizing cursor with
  | zero =>
    rw [Nat.add_zero, slice_self]
    exact leads_refl false _
  | succ count ih =>
    have hlt : cursor < buf.length := by omega
    have hne : buf.drop cursor ≠ [] := by
      intro hnil
      have := List.drop_eq_nil_iff.mp hnil
      omega
    have hone := leads_pass hne (h cursor (Nat.le_refl _) (by omega))
    rw [List.drop_drop] at hone
    have hrest := @ih (cursor + 1) (by omega) (by omega)
      (fun i hi hi' => h i (by omega) (by omega))
    have hsplit : slice buf cursor (cursor + (count + 1)) =
        (buf.drop cursor).take 1 ++ slice buf (cursor + 1) (cursor + 1 + count) := by
      unfold slice
      rw [show cursor + 1 + count = cursor + (count + 1) by omega, List.drop_take, List.drop_take,
        show cursor + (count + 1) - cursor = 1 + count by omega,
        show cursor + (count + 1) - (cursor + 1) = count by omega, List.take_add, List.drop_drop]
    rw [hsplit, List.map_append, show cursor + (count + 1) = cursor + 1 + count by omega]
    exact hone.trans hrest

theorem slice_slice {middle stop : ℕ} (h : start ≤ middle)
    (h' : middle ≤ stop) : slice buf start middle ++ slice buf middle stop = slice buf start stop := by
  unfold slice
  rw [List.drop_take, List.drop_take, List.drop_take,
    show stop - start = (middle - start) + (stop - middle) by omega, List.take_add, List.drop_drop,
    show start + (middle - start) = middle by omega]

theorem slice_eq_take (start count : ℕ) :
    slice buf start (start + count) = (buf.drop start).take count := by
  unfold slice
  rw [List.drop_take, Nat.add_sub_cancel_left]

@[simp] theorem events_emitBytes (span : List UInt8) :
    events (emitBytes span) = span.map .byte := by
  unfold emitBytes
  split
  · rename_i hnil
    rw [hnil]
    rfl
  · simp [events, VividChunk.events]

@[simp] theorem events_emitGraphics (span : List UInt8) :
    events (emitGraphics span) = span.map .graphics := by
  unfold emitGraphics
  split
  · rename_i hnil
    rw [hnil]
    rfl
  · simp [events, VividChunk.events]

theorem events_append (out more : List VividChunk) :
    events (out ++ more) = events out ++ events more := List.flatMap_append

/-- What a turn of the loop does, in terms of the lexer at the cursor. The bytes from
`textStart` to the cursor are ordinary and still to be emitted. -/
def TurnSpec (p : Protocol) (buf : List UInt8) (cursor textStart : ℕ) : Turn → Prop
  | .done out consumed graphics => consumed ≤ buf.length ∧ ∃ es,
      (lexer p).run false (buf.drop cursor) = ⟨graphics, es, buf.drop consumed⟩ ∧
        events out = (slice buf textStart cursor).map .byte ++ es
  | .again out cursor' textStart' => cursor < cursor' ∧ cursor' ≤ buf.length ∧
      textStart' ≤ cursor' ∧ ∃ es,
        Leads p false (buf.drop cursor) es false (buf.drop cursor') ∧
          (slice buf textStart cursor).map .byte ++ es =
            events out ++ (slice buf textStart' cursor').map .byte

/-- At a candidate of the printable envelope the lexer asks the library. -/
theorem nextText_conpty (h : rest.head? = some conptyByte) :
    nextText p rest = nextConpty p rest := by
  cases rest with
  | nil => cases h
  | cons =>
    rw [List.head?_cons] at h
    unfold nextText
    dsimp only
    rw [if_pos (Option.some.inj h)]

theorem nextText_apc (h : [esc, apcByte] <+: rest) : nextText p rest = nextApc p rest := by
  obtain ⟨_, rfl⟩ := h
  rfl

/-- The part of a candidate that is searched, as the loop cuts it out. -/
theorem slice_window (start : ℕ) : slice buf (start + apcMarker.opening.length)
      (start + min (buf.length - start) p.maxMarkerBytes) = window p (buf.drop start) := by
  unfold slice window
  rw [List.drop_take, List.drop_take, List.drop_drop, Nat.add_sub_add_left,
    List.take_eq_take_iff, List.length_drop]
  omega

section Turn

variable (htext : textStart ≤ cursor)
  (hstart : cursor ≤ start) (hlt : start < buf.length)
  (hlead : Leads p false (buf.drop cursor) ((slice buf cursor start).map .byte) false
    (buf.drop start))

include hlt in
theorem drop_ne_nil : buf.drop start ≠ [] := by
  intro hnil
  have hle := List.drop_eq_nil_iff.mp hnil
  omega

include htext hstart hlead

/-- The lexer waits at the candidate. -/
theorem turn_wait (hlt : start < buf.length) (h : nextText p (buf.drop start) = none) :
    TurnSpec p buf cursor textStart (.done (emitBytes (slice buf textStart start)) start false) := by
  refine ⟨Nat.le_of_lt hlt, (slice buf cursor start).map .byte, ?_, ?_⟩
  · unfold Leads at hlead
    rw [hlead, (lexer p).run_none (s := false) h, List.append_nil]
  · rw [events_emitBytes, ← slice_slice htext hstart, List.map_append]

/-- The candidate is ordinary bytes. -/
theorem turn_pass (hlt : start < buf.length) {count : ℕ} (hcount : 0 < count)
    (hle : start + count ≤ buf.length)
    (h : nextText p (buf.drop start) = some (pass (buf.drop start) count)) :
    TurnSpec p buf cursor textStart (.again [] (start + count) textStart) := by
  have hpass := leads_pass (drop_ne_nil hlt) h
  rw [List.drop_drop] at hpass
  refine ⟨by omega, hle, by omega, _, hlead.trans hpass, ?_⟩
  rw [← slice_eq_take, ← List.map_append, ← List.map_append, slice_slice hstart (by omega),
    slice_slice htext (by omega)]
  rfl

theorem turn_mark (hlt : start < buf.length) {count : ℕ} (hcount : 0 < count)
    (hle : start + count ≤ buf.length) {name : String} {passToTerminal : Bool}
    (h : nextText p (buf.drop start) = some (mark (buf.drop start) count name passToTerminal)) :
    TurnSpec p buf cursor textStart (.again (emitBytes (slice buf textStart start) ++
        [.marker (slice buf start (start + count)) name passToTerminal])
        (start + count) (start + count)) := by
  have hmark := leads_next (s := false) (v := mark (buf.drop start) count name passToTerminal)
    (drop_ne_nil hlt) h
  rw [show (mark (buf.drop start) count name passToTerminal).consumed = count from rfl,
    List.drop_drop] at hmark
  refine ⟨by omega, hle, Nat.le_refl _, _, hlead.trans hmark, ?_⟩
  rw [slice_self, List.map_nil, List.append_nil, events_append, events_emitBytes, ← List.append_assoc,
    ← List.map_append, slice_slice htext hstart, slice_eq_take]
  rfl

/-- The candidate opens a graphics command. -/
theorem turn_graphics (hlt : start < buf.length) (hopen : graphicsIntroducer <+: buf.drop start)
    (h : nextText p (buf.drop start) =
      some ⟨true, graphicsIntroducer.map .graphics, graphicsIntroducer.length⟩) :
    TurnSpec p buf cursor textStart
      (match graphicsEnd (buf.drop (start + graphicsIntroducer.length)) with
        | .running => .done (emitBytes (slice buf textStart start) ++ emitGraphics (buf.drop start))
            buf.length true
        | .undecided stop => .done (emitBytes (slice buf textStart start) ++
            emitGraphics (slice buf start (start + graphicsIntroducer.length + stop)))
            (start + graphicsIntroducer.length + stop) true
        | .closed stop => .again (emitBytes (slice buf textStart start) ++
            emitGraphics (slice buf start (start + graphicsIntroducer.length + stop)))
            (start + graphicsIntroducer.length + stop)
            (start + graphicsIntroducer.length + stop)) := by
  have hle := hopen.length_le
  rw [List.length_drop] at hle
  have hintro : (buf.drop start).take graphicsIntroducer.length = graphicsIntroducer :=
    (List.prefix_iff_eq_take.mp hopen).symm
  have hnext := leads_next (s := false) (v := ⟨true, graphicsIntroducer.map .graphics,
    graphicsIntroducer.length⟩) (drop_ne_nil hlt) h
  rw [List.drop_drop] at hnext
  have hbegun := hlead.trans hnext
  have hspan : ∀ stop, slice buf start (start + graphicsIntroducer.length + stop) =
      graphicsIntroducer ++ (buf.drop (start + graphicsIntroducer.length)).take stop := by
    intro stop
    rw [Nat.add_assoc, slice_eq_take, List.take_add, hintro, List.drop_drop]
  have hwhole : buf.drop start =
      graphicsIntroducer ++ buf.drop (start + graphicsIntroducer.length) := by
    conv_lhs => rw [← List.take_append_drop graphicsIntroducer.length (buf.drop start)]
    rw [hintro, List.drop_drop]
  have hemitted : ∀ tail, events (emitBytes (slice buf textStart start) ++
      emitGraphics (graphicsIntroducer ++ tail)) = (slice buf textStart cursor).map .byte ++
        ((slice buf cursor start).map .byte ++ graphicsIntroducer.map .graphics ++
          tail.map .graphics) := by
    intro _
    rw [events_append, events_emitBytes, events_emitGraphics, ← slice_slice htext hstart]
    simp
  have hrun := graphics_run p (buf.drop (start + graphicsIntroducer.length))
  cases hend : graphicsEnd (buf.drop (start + graphicsIntroducer.length)) with
  | running =>
    rw [hend] at hrun
    unfold GraphicsSpec at hrun
    refine ⟨Nat.le_refl _, (slice buf cursor start).map .byte ++ graphicsIntroducer.map .graphics ++
      (buf.drop (start + graphicsIntroducer.length)).map .graphics, ?_, ?_⟩
    · unfold Leads at hbegun
      rw [hbegun, hrun, List.drop_length]
    · rw [hwhole, hemitted]
  | undecided stop =>
    rw [hend] at hrun
    obtain ⟨hstop, hrun⟩ := hrun
    rw [List.length_drop] at hstop
    refine ⟨by omega, (slice buf cursor start).map .byte ++ graphicsIntroducer.map .graphics ++
      ((buf.drop (start + graphicsIntroducer.length)).take stop).map .graphics, ?_, ?_⟩
    · unfold Leads at hbegun
      rw [hbegun, hrun, List.drop_drop]
    · rw [hspan, hemitted]
  | closed =>
    rw [hend] at hrun
    obtain ⟨hstop, hrun⟩ := hrun
    rw [List.length_drop] at hstop
    rw [List.drop_drop] at hrun
    have hpos : 0 < graphicsIntroducer.length := by decide
    refine ⟨by omega, by omega, Nat.le_refl _, _, hbegun.trans hrun, ?_⟩
    rw [slice_self, List.map_nil, List.append_nil, hspan, hemitted]

theorem turnConpty_spec (hlt : start < buf.length)
    (hhead : (buf.drop start).head? = some conptyByte) :
    TurnSpec p buf cursor textStart (turnConpty p buf start textStart) := by
  have hnext := nextText_conpty (p := p) hhead
  unfold nextConpty at hnext
  unfold turnConpty
  dsimp only
  cases hscan : p.scan (buf.drop start) with
  | complete =>
    rw [hscan] at hnext
    have hle := p.consumed_le hscan
    rw [List.length_drop] at hle
    exact turn_mark htext hstart hlead hlt (p.consumed_pos hscan) (by omega) hnext
  | incomplete =>
    rw [hscan] at hnext
    exact turn_wait htext hstart hlead hlt hnext
  | invalid =>
    rw [hscan] at hnext
    exact turn_pass htext hstart hlead hlt Nat.one_pos hlt hnext

theorem turnApc_spec (hlt : start < buf.length)
    (hopen : apcMarker.opening.isPrefixOf (buf.drop start)) :
    TurnSpec p buf cursor textStart (turnApc p buf start textStart apcMarker) := by
  have hlen := (List.isPrefixOf_iff_prefix.mp hopen).length_le
  rw [List.length_drop] at hlen
  have hnext : nextText p (buf.drop start) = nextMarker p (buf.drop start) := by
    rw [nextText_apc ((show [esc, apcByte] <+: apcMarker.opening by decide).trans
      (List.isPrefixOf_iff_prefix.mp hopen))]
    unfold nextApc
    rw [if_pos hopen]
  unfold nextMarker at hnext
  unfold turnApc
  dsimp only
  rw [slice_window]
  cases hfound : findBytes apcMarker.terminator (window p (buf.drop start)) with
  | none =>
    rw [hfound] at hnext
    dsimp only at hnext ⊢
    rw [List.length_drop] at hnext
    by_cases hlong : p.maxMarkerBytes < buf.length - start
    · rw [if_pos hlong] at hnext ⊢
      exact turn_pass htext hstart hlead hlt (by decide) (by omega) hnext
    · rw [if_neg hlong] at hnext ⊢
      exact turn_wait htext hstart hlead hlt hnext
  | some found =>
    have hstop := stop_le p (by rw [List.length_drop]; exact hlen) hfound
    rw [List.length_drop] at hstop
    have hpayload : slice buf (start + apcMarker.payloadSkip)
        (start + apcMarker.opening.length + found) =
        slice (buf.drop start) apcMarker.payloadSkip (apcMarker.opening.length + found) := by
      unfold slice
      rw [Nat.add_assoc, List.drop_take, List.drop_take, List.drop_drop, Nat.add_sub_add_left]
    rw [hfound] at hnext
    dsimp only at hnext ⊢
    rw [hpayload, Nat.add_assoc, Nat.add_assoc, ← Nat.add_assoc apcMarker.opening.length]
    have hpos : 0 < apcMarker.opening.length + found + apcMarker.terminator.length := by
      have : 0 < apcMarker.opening.length := by decide
      omega
    cases hname : String.fromUTF8? ⟨(slice (buf.drop start) apcMarker.payloadSkip
        (apcMarker.opening.length + found)).toArray⟩ with
    | none =>
      rw [hname] at hnext
      exact turn_pass htext hstart hlead hlt hpos (by omega) hnext
    | some name =>
      rw [hname] at hnext
      exact turn_mark htext hstart hlead hlt hpos (by omega) hnext

theorem turnOther_spec (hlt : start < buf.length) (happ : [esc, apcByte] <+: buf.drop start)
    (hopen : ¬apcMarker.opening.isPrefixOf (buf.drop start)) :
    TurnSpec p buf cursor textStart (turnOther buf start textStart apcMarker) := by
  have hnext := nextText_apc (p := p) happ
  unfold nextApc at hnext
  rw [if_neg hopen] at hnext
  unfold turnOther
  dsimp only
  by_cases hshort : (buf.drop start).isPrefixOf apcMarker.opening
  · rw [if_pos hshort] at hnext ⊢
    exact turn_wait htext hstart hlead hlt hnext
  · rw [if_neg hshort] at hnext ⊢
    by_cases hgraphics : graphicsIntroducer.isPrefixOf (buf.drop start)
    · rw [if_pos hgraphics] at hnext ⊢
      exact turn_graphics htext hstart hlead hlt (List.isPrefixOf_iff_prefix.mp hgraphics) hnext
    · rw [if_neg hgraphics] at hnext ⊢
      exact turn_pass htext hstart hlead hlt Nat.one_pos hlt hnext

end Turn

/-- The first candidate, if any: all before it is ordinary. -/
def CandidateSpec (p : Protocol) (buf : List UInt8) (cursor : ℕ) :
    Option (ℕ × Envelope) → Prop
  | none => ∀ i, cursor ≤ i → i < buf.length → buf.drop i ≠ [esc] →
      nextText p (buf.drop i) = some (pass (buf.drop i) 1)
  | some (start, envelope) => cursor ≤ start ∧ start < buf.length ∧
      (∀ i, cursor ≤ i → i < start → nextText p (buf.drop i) = some (pass (buf.drop i) 1)) ∧
      (envelope = apcMarker ∧ [esc, apcByte] <+: buf.drop start ∨
        envelope = conptyMarker ∧ (buf.drop start).head? = some conptyByte)

theorem candidate_spec (hapc : First ([esc, apcByte] <+: ·) buf cursor apcStart)
    (hconpty : First (fun rest => rest.head? = some conptyByte) buf cursor conptyStart) :
    CandidateSpec p buf cursor (candidate apcStart conptyStart) := by
  have hne : ∀ i, i < buf.length → buf.drop i ≠ [] := fun i hi => drop_ne_nil hi
  have hlast : ∀ {i start}, i < start → start < buf.length → buf.drop i ≠ [esc] := by
    intro i _ hi hstart h
    have hlen := congrArg List.length h
    rw [List.length_drop, List.length_singleton] at hlen
    omega
  cases apcStart with
  | none =>
    cases conptyStart with
    | none =>
      intro i hi hlen hesc
      exact nextText_pass (hne i hlen) (hapc i hi hlen) (hconpty i hi hlen) hesc
    | some =>
      obtain ⟨hfrom, hlt, hstart, hbefore⟩ := hconpty
      refine ⟨hfrom, hlt, ?_, Or.inr ⟨rfl, hstart⟩⟩
      intro i hi hlen
      have hilen := Nat.lt_trans hlen hlt
      exact nextText_pass (hne i hilen) (hapc i hi hilen) (hbefore i hi hlen) (hlast hlen hlt)
  | some apc =>
    obtain ⟨hfrom, hlt, hstart, hbefore⟩ := hapc
    cases conptyStart with
    | none =>
      refine ⟨hfrom, hlt, ?_, Or.inl ⟨rfl, hstart⟩⟩
      intro i hi hlen
      have hilen := Nat.lt_trans hlen hlt
      exact nextText_pass (hne i hilen) (hbefore i hi hlen) (hconpty i hi hilen) (hlast hlen hlt)
    | some conpty =>
      obtain ⟨hfrom', hlt', hstart', hbefore'⟩ := hconpty
      unfold candidate
      dsimp only
      by_cases horder : apc < conpty
      · rw [if_pos horder]
        refine ⟨hfrom, hlt, ?_, Or.inl ⟨rfl, hstart⟩⟩
        intro i hi hlen
        exact nextText_pass (hne i (by omega)) (hbefore i hi hlen) (hbefore' i hi (by omega))
          (hlast hlen hlt)
      · rw [if_neg horder]
        refine ⟨hfrom', hlt', ?_, Or.inr ⟨rfl, hstart'⟩⟩
        intro i hi hlen
        exact nextText_pass (hne i (by omega)) (hbefore i hi (by omega)) (hbefore' i hi hlen)
          (hlast hlen hlt')

/-- No candidate is left: all but a last `ESC` is ordinary. -/
theorem turn_rest (htext : textStart ≤ cursor)
    (hcursor : cursor ≤ buf.length) (h : CandidateSpec p buf cursor none) :
    TurnSpec p buf cursor textStart
      (let keep := if (buf.drop cursor).getLast? = some esc then 1 else 0
       .done (emitBytes (slice buf textStart (buf.length - keep))) (buf.length - keep) false) := by
  by_cases hlast : (buf.drop cursor).getLast? = some esc
  · rw [if_pos hlast]
    obtain ⟨init, hinit⟩ := List.getLast?_eq_some_iff.mp hlast
    have hlen := congrArg List.length hinit
    rw [List.length_drop, List.length_append, List.length_singleton] at hlen
    have hesc : buf.drop (buf.length - 1) = [esc] := by
      rw [show buf.length - 1 = cursor + init.length by omega, ← List.drop_drop, hinit,
        List.drop_left]
    have hlead := @leads_text p buf cursor (buf.length - 1)
      (by omega) (by omega) (by
        intro i hi hlt
        refine h i hi (by omega) ?_
        intro hone
        have := congrArg List.length hone
        rw [List.length_drop, List.length_singleton] at this
        omega)
    refine ⟨Nat.sub_le _ _, (slice buf cursor (buf.length - 1)).map .byte, ?_, ?_⟩
    · unfold Leads at hlead
      rw [hlead, hesc, @Lexer.run_none _ _ _ (lexer p) false [esc] rfl, List.append_nil]
    · rw [events_emitBytes, ← slice_slice htext (show cursor ≤ buf.length - 1 by omega),
        List.map_append]
  · rw [if_neg hlast]
    have hlead := @leads_text p buf cursor buf.length
      hcursor (Nat.le_refl _) (by
        intro i hi hlt
        refine h i hi hlt ?_
        intro hone
        apply hlast
        rw [← List.take_append_drop (i - cursor) (buf.drop cursor), List.drop_drop,
          Nat.add_sub_cancel' hi, hone, List.getLast?_append, List.getLast?_singleton]
        rfl)
    refine ⟨Nat.sub_le _ _, (slice buf cursor buf.length).map .byte, ?_, ?_⟩
    · unfold Leads at hlead
      rw [hlead, Nat.sub_zero, List.drop_length, (lexer p).run_nil, List.append_nil]
    · rw [events_emitBytes, Nat.sub_zero, ← slice_slice htext hcursor, List.map_append]

/-- One turn of the loop is a run of the lexer. -/
theorem turn_spec (htext : textStart ≤ cursor) (hcursor : cursor ≤ buf.length)
    (hapc : First ([esc, apcByte] <+: ·) buf cursor apcStart)
    (hconpty : First (fun rest => rest.head? = some conptyByte) buf cursor conptyStart) :
    TurnSpec p buf cursor textStart (turn p buf cursor textStart apcStart conptyStart) := by
  have hspec := candidate_spec (p := p) hapc hconpty
  unfold turn
  cases hcandidate : candidate apcStart conptyStart with
  | none =>
    rw [hcandidate] at hspec
    exact turn_rest htext hcursor hspec
  | some found =>
    obtain ⟨start, _⟩ := found
    rw [hcandidate] at hspec
    obtain ⟨hstart, hlt, hbefore, hkind⟩ := hspec
    have hlead := leads_text hstart (Nat.le_of_lt hlt) hbefore
    dsimp only
    rcases hkind with ⟨rfl, happ⟩ | ⟨rfl, hhead⟩
    · by_cases hopen : apcMarker.opening.isPrefixOf (buf.drop start)
      · rw [if_neg (fun h => h.2 hopen), if_neg (by decide)]
        exact turnApc_spec htext hstart hlead hlt hopen
      · rw [if_pos ⟨by decide, hopen⟩]
        exact turnOther_spec htext hstart hlead hlt happ hopen
    · rw [if_neg (fun h => h.1 rfl), if_pos (show conptyMarker.payloadSkip = 0 from rfl)]
      exact turnConpty_spec htext hstart hlead hlt hhead

/-- The loop ends, and is a run of the lexer. -/
theorem markerLoop_spec {fuel before : ℕ} (hfuel : buf.length - cursor < fuel)
    (htext : textStart ≤ cursor) (hcursor : cursor ≤ buf.length) (hbefore : before ≤ cursor)
    (hapc : First ([esc, apcByte] <+: ·) buf before apcStart)
    (hconpty : First (fun rest => rest.head? = some conptyByte) buf before conptyStart) :
    ∃ out consumed graphics,
      markerLoop p buf fuel cursor textStart apcStart conptyStart = some (out, consumed, graphics) ∧
        TurnSpec p buf cursor textStart (.done out consumed graphics) := by
  induction fuel generalizing before cursor textStart apcStart conptyStart with
  | zero => exact absurd hfuel (Nat.not_lt_zero _)
  | succ _ ih =>
    have hapc' := first_refresh searches_findApc hbefore hcursor hapc
    have hconpty' := first_refresh searches_findConpty hbefore hcursor hconpty
    have hturn := turn_spec (p := p) htext hcursor hapc' hconpty'
    unfold markerLoop
    dsimp only
    cases hresult : turn p buf cursor textStart (refresh apcStart cursor findApc buf)
        (refresh conptyStart cursor findConpty buf) with
    | done out consumed graphics =>
      rw [hresult] at hturn
      exact ⟨out, consumed, graphics, rfl, hturn⟩
    | again out cursor' textStart' =>
      rw [hresult] at hturn
      obtain ⟨hlt, hle, htext', es, hlead, hevents⟩ := hturn
      obtain ⟨more, consumed, graphics, hloop, hconsumed, es', hrun, hmore⟩ :=
        @ih cursor' textStart' _ _ cursor (by omega) htext' hle (Nat.le_of_lt hlt) hapc' hconpty'
      refine ⟨out ++ more, consumed, graphics, ?_, hconsumed, es ++ es', ?_, ?_⟩
      · dsimp only
        rw [hloop]
        rfl
      · unfold Leads at hlead
        rw [hlead, hrun]
      · rw [events_append, hmore, ← List.append_assoc, ← List.append_assoc, hevents]

/-- `scan_markers` is a run of the lexer. -/
theorem scanMarkers_spec (p : Protocol) (buf : List UInt8) :
    ∃ out consumed graphics, scanMarkers p buf = some (out, consumed, graphics) ∧
      consumed ≤ buf.length ∧
      (lexer p).run false buf = ⟨graphics, events out, buf.drop consumed⟩ := by
  obtain ⟨out, consumed, graphics, hloop, hle, _, hrun, hevents⟩ := @markerLoop_spec
    p buf 0 0 _ _ (buf.length + 1) 0 (by omega)
    (Nat.le_refl 0) (Nat.zero_le _) (Nat.le_refl 0)
    (searches_findApc buf) (searches_findConpty buf)
  refine ⟨out, consumed, graphics, hloop, hle, ?_⟩
  rw [List.drop_zero] at hrun
  rw [hrun, hevents]
  simp [slice]

/-- `scan` is a run of the lexer. -/
theorem scan_spec (p : Protocol) (graphics : Bool) (buf : List UInt8) :
    ∃ out consumed graphics', scan p graphics buf = some (out, consumed, graphics') ∧
      (lexer p).run graphics buf = ⟨graphics', events out, buf.drop consumed⟩ := by
  unfold scan
  cases graphics with
  | false =>
    obtain ⟨out, consumed, graphics', hscan, _, hrun⟩ := scanMarkers_spec p buf
    exact ⟨out, consumed, graphics', hscan, hrun⟩
  | true =>
    rw [if_pos rfl]
    have hspec := graphics_run p buf
    cases hend : graphicsEnd buf with
    | running =>
      rw [hend] at hspec
      refine ⟨_, _, _, rfl, ?_⟩
      rw [events_emitGraphics, List.drop_length]
      exact hspec
    | undecided =>
      rw [hend] at hspec
      refine ⟨_, _, _, rfl, ?_⟩
      rw [events_emitGraphics]
      exact hspec.2
    | closed stop =>
      rw [hend] at hspec
      obtain ⟨_, hlead⟩ := hspec
      obtain ⟨out, consumed, graphics', hscan, _, hrun⟩ := scanMarkers_spec p (buf.drop stop)
      refine ⟨emitGraphics (buf.take stop) ++ out, stop + consumed, graphics', ?_, ?_⟩
      · dsimp only
        rw [hscan]
        rfl
      · unfold Leads at hlead
        rw [hlead, hrun, events_append, events_emitGraphics, List.drop_drop]

/-- One read continues the run from what was held back. -/
theorem push_spec (p : Protocol) (s : VividMarkerScanner) (bytes : List UInt8) :
    ∃ s' out, push p s bytes = some (s', out) ∧
      (lexer p).run s.graphics (s.pending ++ bytes) = ⟨s'.graphics, events out, s'.pending⟩ := by
  obtain ⟨out, consumed, graphics, hscan, hrun⟩ := scan_spec p s.graphics (s.pending ++ bytes)
  refine ⟨⟨(s.pending ++ bytes).drop consumed, graphics⟩, out, ?_, hrun⟩
  unfold push
  by_cases hpending : s.pending = []
  · rw [if_pos hpending]
    rw [hpending, List.nil_append] at hscan ⊢
    rw [hscan]
    rfl
  · rw [if_neg hpending]
    dsimp only
    rw [hscan]
    rfl

/-- Successive reads are successive runs. -/
theorem feed_spec (p : Protocol) (s : VividMarkerScanner) (chunks : List (List UInt8)) :
    ∃ s' out, feed p s chunks = some (s', out) ∧ ∀ es,
      (lexer p).feed ⟨s.graphics, es, s.pending⟩ chunks =
        ⟨s'.graphics, es ++ events out, s'.pending⟩ := by
  induction chunks generalizing s with
  | nil =>
    refine ⟨s, [], rfl, ?_⟩
    intro es
    rw [show events [] = [] from rfl, List.append_nil]
    rfl
  | cons chunk _ ih =>
    obtain ⟨s', out, hpush, hrun⟩ := push_spec p s chunk
    obtain ⟨s'', more, hfeed, hrest⟩ := ih s'
    refine ⟨s'', out ++ more, ?_, ?_⟩
    · unfold feed
      rw [hpush, bind_some]
      dsimp only
      rw [hfeed]
      rfl
    · intro _
      unfold Lexer.feed
      dsimp only
      rw [hrun]
      dsimp only
      rw [hrest, events_append, List.append_assoc]

/-- The whole stream from a fresh scanner is one run. -/
theorem feed_run (p : Protocol) (chunks : List (List UInt8)) :
    ∃ s out, feed p {} chunks = some (s, out) ∧
      (lexer p).run false chunks.flatten = ⟨s.graphics, events out, s.pending⟩ := by
  obtain ⟨s, out, hfeed, hrun⟩ := feed_spec p {} chunks
  refine ⟨s, out, hfeed, ?_⟩
  rw [← List.nil_append chunks.flatten, ← (lexer p).feed_run, (lexer p).run_nil, hrun []]
  rfl

theorem render_byte (span : List UInt8) : (span.map Event.byte).flatMap Event.render = span := by
  rw [List.flatMap_map]
  exact List.flatMap_singleton' span

theorem render_graphics (span : List UInt8) :
    (span.map Event.graphics).flatMap Event.render = span := by
  rw [List.flatMap_map]
  exact List.flatMap_singleton' span

/-- Events stand for the bytes consumed. -/
theorem render_next {graphics : Bool} (h : next p graphics rest = some v) :
    v.events.flatMap Event.render = rest.take v.consumed := by
  cases graphics with
  | false =>
    have hdecides := @nextText_decides p rest
    rw [show nextText p rest = some v from h] at hdecides
    cases hdecides with
    | pass => exact render_byte _
    | mark => exact List.append_nil _
    | graphics hopen => exact (render_graphics _).trans (List.prefix_iff_eq_take.mp hopen)
  | true =>
    change nextGraphics rest = some v at h
    cases rest with
    | nil => cases h
    | cons first rest =>
      unfold nextGraphics at h
      dsimp only at h
      split at h
      · rename_i hesc
        obtain ⟨_, hsecond, hv⟩ := Option.bind_eq_some_iff.mp h
        obtain ⟨_, rfl⟩ := List.head?_eq_some_iff.mp hsecond
        split at hv
        · rename_i hst
          cases hv
          rw [hesc, hst]
          rfl
        · cases hv
          rfl
      · split at h
        · cases h
          rfl
        · cases h
          rfl

/-- What the scanner waits on is short. -/
theorem length_le_of_next_none {graphics : Bool}
    (h : next p graphics rest = none) : rest.length ≤ maxHeld p := by
  cases graphics with
  | false =>
    have hdecides := @nextText_decides p rest
    rw [show nextText p rest = none from h] at hdecides
    cases hdecides with
    | wait hshort => exact hshort
  | true =>
    change nextGraphics rest = none at h
    cases rest with
    | nil => exact Nat.zero_le _
    | cons _ rest =>
      unfold nextGraphics at h
      dsimp only at h
      split at h
      · cases rest with
        | nil =>
          have hopening : 1 ≤ apcMarker.opening.length := by decide
          exact Nat.le_trans hopening (Nat.le_max_left _ _)
        | cons =>
          simp only [List.head?_cons, bind_some] at h
          split at h <;> cases h
      · split at h <;> cases h

/-- **Chunking independence**: however a stream is cut into reads, the scanner ends in the
same state, reports the same bytes and markers in the same order as for the stream in one
read, passes on every byte but the few it holds back, and holds back a bounded number. -/
theorem feed_fragments (p : Protocol) (chunks : List (List UInt8)) :
    ∃ s out whole, feed p {} chunks = some (s, out) ∧ push p {} chunks.flatten = some (s, whole) ∧
      events out = events whole ∧ render (events out) ++ s.pending = chunks.flatten ∧
      s.pending.length ≤ maxHeld p := by
  obtain ⟨s, out, hfeed, hrun⟩ := feed_run p chunks
  obtain ⟨s', whole, hpush, hwhole⟩ := push_spec p {} chunks.flatten
  have hsame := hwhole.symm.trans hrun
  rw [Lexed.mk.injEq] at hsame
  obtain ⟨hgraphics, hevents, hpending⟩ := hsame
  have hs : s' = s := by
    cases s
    cases s'
    rw [VividMarkerScanner.mk.injEq]
    exact ⟨hpending, hgraphics⟩
  refine ⟨s, out, whole, hfeed, by rw [hpush, hs], hevents.symm, ?_, ?_⟩
  · have hrender := (lexer p).render_run Event.render render_next false chunks.flatten
    rw [hrun] at hrender
    exact hrender
  · rcases (lexer p).held_run false chunks.flatten with hnil | hwait
    · rw [hrun] at hnil
      dsimp only at hnil
      rw [hnil]
      exact Nat.zero_le _
    · rw [hrun] at hwait
      exact length_le_of_next_none hwait

end Vivido.Marker
