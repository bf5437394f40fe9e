import Vivido.FileDrop.Manager
import Vivido.Support.ShellWords

/-!
What a shell reads where the path of a committed file is typed. The path goes in
bare if each of its characters is safe, and in single quotes otherwise.
-/

namespace Vivido.FileDrop

open List

variable {P : DropProtocol} {path : List Char}

/-- Of the first 128 characters the letters and digits are alphanumeric. -/
structure DropProtocol.AsciiAlphanumeric (P : DropProtocol) : Prop where
  ascii : ∀ c : Char, c.toNat < 128 → P.isAlphanumeric c = c.isAlphanum

/-- A character that goes in bare means nothing to the shell inside a word. -/
theorem literal_of_bare (hP : P.AsciiAlphanumeric) {c : Char}
    (h : P.isAlphanumeric c || "._-+=,:@%/".toList.contains c) : Shell.Literal c := by
  intro hmeaningful
  have hall : ∀ special ∈ Shell.meaningful, special.toNat < 128 ∧
      (special.isAlphanum || "._-+=,:@%/".toList.contains special) = false := by
    unfold Shell.meaningful
    simp
  obtain ⟨hascii, hnot⟩ := hall c hmeaningful
  rw [hP.ascii c hascii, hnot] at h
  cases h

/-- A shell reads the typed path as one word, and goes on behind it as at the start of a line. -/
theorem remote_paste_one_word (hP : P.AsciiAlphanumeric) (habsolute : path.head? = some '/')
    (more : List Char) : Shell.words .between (remotePasteText P path ++ more) =
      (Shell.words .between more).map (path :: ·) := by
  unfold remotePasteText
  split
  · change Shell.words .between ('\'' :: (Shell.escape path ++ ['\'', ' '] ++ more)) = _
    rw [append_assoc, Shell.words, if_neg (by decide), if_pos rfl, Shell.words_escape]
    simp [Shell.words, Shell.isBlank]
  · rename_i hbare
    obtain ⟨tail, rfl⟩ := List.head?_eq_some_iff.mp habsolute
    have hliteral : ∀ c ∈ tail, Shell.Literal c := by
      intro c hc
      apply literal_of_bare hP
      by_contra hnot
      apply hbare
      rw [any_eq_true]
      exact ⟨c, mem_cons_of_mem _ hc, by simpa using hnot⟩
    have hname : ∀ rest, Shell.isName (['/'] ++ rest) = false := fun _ => rfl
    have hread := Shell.words_literal hname hliteral (' ' :: more)
    rw [append_assoc, cons_append, singleton_append, Shell.words,
      if_neg (by decide), if_neg (by decide), if_neg (by decide), if_neg (by decide), hread]
    simp [Shell.words, Shell.isBlank]

theorem remote_paste_one_word_quoted :
    Shell.words .between (remotePasteText .plain "/a b'c".toList ++ "x".toList) =
      (Shell.words .between "x".toList).map ("/a b'c".toList :: ·) :=
  remote_paste_one_word ⟨fun _ _ => rfl⟩ rfl _

end Vivido.FileDrop
