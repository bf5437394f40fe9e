import Mathlib.Data.List.Basic

/-!
The words of a line of input to a POSIX shell: blanks part them, a single quote
takes all up to the next one, a backslash the character after it. A line in
which anything else means something to the shell has no plain words, and neither
has one that ends inside a quote.
-/

namespace Vivido.Shell

open List

def isBlank (c : Char) : Bool := c = ' ' || c = '\t'

/-- Operators, expansions, patterns and double quotes, wherever they stand unquoted. -/
def isSpecial (c : Char) : Bool := "|&;<>()$`\"*?[\n".toList.contains c

/-- Comments, home directories and jobs, where they begin a word. -/
def isSpecialFirst (c : Char) : Bool := "#~%".toList.contains c

/-- What stands before the `=` of an assignment. -/
def isName : List Char → Bool
  | [] => false
  | c :: rest => (c.isAlpha || c = '_') && rest.all fun c => c.isAlphanum || c = '_'

/-- Where the reading of a line stands, with what there is of the word. -/
inductive Reading where
  | between
  | bare (word : List Char)
  | quoted (word : List Char)
  | escaped (word : List Char)

def words : Reading → List Char → Option (List (List Char))
  | .between, [] => some []
  | .bare word, [] => some [word]
  | .quoted _, [] | .escaped _, [] => none
  | .quoted word, c :: rest =>
    if c = '\'' then words (.bare word) rest else words (.quoted (word ++ [c])) rest
  | .escaped word, c :: rest => if c = '\n' then none else words (.bare (word ++ [c])) rest
  | .between, c :: rest =>
    if isBlank c then words .between rest
    else if c = '\'' then words (.quoted []) rest
    else if c = '\\' then words (.escaped []) rest
    else if isSpecial c || isSpecialFirst c then none
    else words (.bare [c]) rest
  | .bare word, c :: rest =>
    if isBlank c then (words .between rest).map (word :: ·)
    else if c = '\'' then words (.quoted word) rest
    else if c = '\\' then words (.escaped word) rest
    else if isSpecial c || (c = '=' && isName word) then none
    else words (.bare (word ++ [c])) rest

/-- The characters that mean something inside a word. -/
def meaningful : List Char := " \t'\\|&;<>()$`\"*?[\n".toList

def Literal (c : Char) : Prop := c ∉ meaningful

theorem Literal.means_nothing {c : Char} (h : Literal c) :
    ¬ isBlank c ∧ c ≠ '\'' ∧ c ≠ '\\' ∧ isSpecial c = false := by
  unfold Literal meaningful at h
  unfold isBlank isSpecial
  simp at h ⊢
  tauto

/-- Literal characters go on with a word that no assignment begins with. -/
theorem words_literal {word text : List Char} (hword : ∀ more, isName (word ++ more) = false)
    (htext : ∀ c ∈ text, Literal c) (rest : List Char) :
    words (.bare word) (text ++ rest) = words (.bare (word ++ text)) rest := by
  induction text generalizing word with
  | nil => rw [nil_append, append_nil]
  | cons c text ih =>
    obtain ⟨hc, htail⟩ := List.forall_mem_cons.mp htext
    obtain ⟨hblank, hquote, hescape, hspecial⟩ := hc.means_nothing
    have hname := hword []
    rw [append_nil] at hname
    have hnext : ∀ more, isName (word ++ [c] ++ more) = false := by
      intro _
      rw [append_assoc]
      exact hword _
    rw [cons_append, words, if_neg hblank, if_neg hquote, if_neg hescape,
      if_neg (by simp [hspecial, hname]), ih hnext htail, append_assoc]
    rfl

/-- Every single quote inside a quoted text is escaped outside of the quotes. -/
def escape (text : List Char) : List Char :=
  text.flatMap fun c => if c = '\'' then ['\'', '\\', '\'', '\''] else [c]

theorem words_escape (word text rest : List Char) :
    words (.quoted word) (escape text ++ rest) = words (.quoted (word ++ text)) rest := by
  induction text generalizing word with
  | nil => rw [append_nil, escape, flatMap_nil, nil_append]
  | cons c text ih =>
    have hword : word ++ c :: text = word ++ [c] ++ text := by simp
    unfold escape at ih ⊢
    rw [flatMap_cons, append_assoc, hword, ← ih]
    by_cases hquote : c = '\''
    · rw [if_pos hquote, hquote]
      simp [words, isBlank]
    · rw [if_neg hquote, singleton_append, words, if_neg hquote]

end Vivido.Shell
