import Mathlib.Data.List.Basic
import Mathlib.Data.Nat.Notation

/-!
Lexers that hold input back. A lexer looks at the input it has not consumed and
either reports events for a prefix of it or waits for more. When its verdicts
survive more input, what it reports does not depend on how the input is cut;
when its events stand for the input consumed, nothing is lost; and what it
holds is as short as the inputs it waits on.
-/

namespace Vivido

open List

/-- What a lexer does with its input: its next state, the events it reports and how
much of the input they stand for. -/
structure Verdict (σ ε : Type*) where
  state : σ
  events : List ε
  consumed : ℕ

structure Lexer (α σ ε : Type*) where
  next : σ → List α → Option (Verdict σ ε)
  /-- Orders the verdicts that consume nothing. -/
  rank : σ → ℕ
  consumed_le : ∀ {s rest v}, next s rest = some v → v.consumed ≤ rest.length
  progress : ∀ {s rest v}, next s rest = some v → 0 < v.consumed ∨ rank v.state < rank s
  stable : ∀ {s rest v} (more : List α), rest ≠ [] → next s rest = some v →
    next s (rest ++ more) = some v

/-- What a run of a lexer leaves: its state, the events reported and the input held. -/
structure Lexed (α σ ε : Type*) where
  state : σ
  events : List ε
  held : List α

namespace Lexer

variable {α σ ε : Type*} (lexer : Lexer α σ ε)

/-- Run the lexer until it waits. -/
def run (s : σ) (rest : List α) : Lexed α σ ε :=
  if rest = [] then ⟨s, [], []⟩
  else
    match _h : lexer.next s rest with
    | none => ⟨s, [], rest⟩
    | some v =>
        let next := run v.state (rest.drop v.consumed)
        { next with events := v.events ++ next.events }
termination_by (rest.length, lexer.rank s)
decreasing_by
  have hle := lexer.consumed_le _h
  have hdone := lexer.progress _h
  rw [Prod.lex_def]
  simp only [length_drop]
  omega

theorem run_nil (s : σ) : lexer.run s [] = ⟨s, [], []⟩ := by
  unfold run
  rw [if_pos rfl]

theorem run_none {s : σ} {rest : List α} (h : lexer.next s rest = none) :
    lexer.run s rest = ⟨s, [], rest⟩ := by
  by_cases hrest : rest = []
  · rw [hrest, run_nil]
  unfold run
  rw [if_neg hrest]
  split
  · rfl
  · rename_i v hv
    rw [h] at hv
    cases hv

theorem run_some {s : σ} {rest : List α} {v : Verdict σ ε} (hrest : rest ≠ [])
    (h : lexer.next s rest = some v) :
    lexer.run s rest = { lexer.run v.state (rest.drop v.consumed) with
      events := v.events ++ (lexer.run v.state (rest.drop v.consumed)).events } := by
  conv_lhs => unfold run
  rw [if_neg hrest]
  split
  · rename_i hnone
    rw [h] at hnone
    cases hnone
  · rename_i w hw
    rw [h] at hw
    cases hw
    rfl

/-- Induction along the verdicts of a run. -/
theorem run_induction {motive : σ → List α → Prop} (nil : ∀ s, motive s [])
    (wait : ∀ s rest, rest ≠ [] → lexer.next s rest = none → motive s rest)
    (step : ∀ s rest v, rest ≠ [] → lexer.next s rest = some v →
      motive v.state (rest.drop v.consumed) → motive s rest) (s : σ) (rest : List α) :
    motive s rest := by
  induction s, rest using Lexer.run.induct lexer with
  | case1 s => exact nil s
  | case2 s rest hrest hnone => exact wait s rest hrest hnone
  | case3 s rest hrest v hv ih => exact step s rest v hrest hv ih

/-- More input continues the run from what was held. -/
theorem run_append (s : σ) (left right : List α) : lexer.run s (left ++ right) =
      { lexer.run (lexer.run s left).state ((lexer.run s left).held ++ right) with
        events := (lexer.run s left).events ++
          (lexer.run (lexer.run s left).state ((lexer.run s left).held ++ right)).events } := by
  induction s, left using lexer.run_induction with
  | nil =>
    rw [run_nil]
    rfl
  | wait _ _ _ hnone =>
    rw [lexer.run_none hnone]
    rfl
  | step _ left _ hleft hv ih =>
    have hle := lexer.consumed_le hv
    have hmore := lexer.stable right hleft hv
    have hne : left ++ right ≠ [] := by
      intro h
      exact hleft (List.append_eq_nil_iff.mp h).1
    rw [lexer.run_some hne hmore, lexer.run_some hleft hv, drop_append_of_le_length hle, ih]
    dsimp only
    rw [append_assoc]

/-- Successive reads, each appended to what the last one held. -/
def feed : Lexed α σ ε → List (List α) → Lexed α σ ε
  | done, [] => done
  | done, chunk :: chunks =>
      let next := lexer.run done.state (done.held ++ chunk)
      feed { next with events := done.events ++ next.events } chunks

/-- The cuts make no difference. -/
theorem feed_run (s : σ) (read : List α) (chunks : List (List α)) :
    lexer.feed (lexer.run s read) chunks = lexer.run s (read ++ chunks.flatten) := by
  induction chunks generalizing read with
  | nil => rw [flatten_nil, append_nil, feed]
  | cons _ _ ih =>
    rw [feed, ← lexer.run_append, ih, flatten_cons, append_assoc]

/-- Events that stand for the input consumed restore the input. -/
theorem render_run (render : ε → List α) (hrender : ∀ {s rest v}, lexer.next s rest = some v →
      v.events.flatMap render = rest.take v.consumed) (s : σ) (rest : List α) :
    (lexer.run s rest).events.flatMap render ++ (lexer.run s rest).held = rest := by
  induction s, rest using lexer.run_induction with
  | nil =>
    rw [run_nil]
    rfl
  | wait _ _ _ hnone =>
    rw [lexer.run_none hnone]
    rfl
  | step _ _ _ hrest hv ih =>
    rw [lexer.run_some hrest hv]
    dsimp only
    rw [flatMap_append, append_assoc, ih, hrender hv, take_append_drop]

theorem held_run (s : σ) (rest : List α) : (lexer.run s rest).held = [] ∨
      lexer.next (lexer.run s rest).state (lexer.run s rest).held = none := by
  induction s, rest using lexer.run_induction with
  | nil =>
    left
    rw [run_nil]
  | wait _ _ _ hnone =>
    right
    rw [lexer.run_none hnone]
    exact hnone
  | step _ _ _ hrest hv ih =>
    rw [lexer.run_some hrest hv]
    exact ih

end Lexer

end Vivido
