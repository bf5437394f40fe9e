import Mathlib.Data.List.Basic
import Mathlib.Data.Nat.Notation

/-!
Encodings whose words tell where they begin. A symbol of such an encoding either
begins a word or does not, and no word begins another. So a text found anywhere in
a longer one stands between whole words, as it does in what was encoded. UTF-8 is
an encoding of this kind.
-/

namespace Vivido

open List

/-- Each word has a first symbol and others that begin no word, and words are told apart by the
symbols they begin with. -/
structure SelfSync {α β : Type*} (encode : α → List β) (begins : β → Prop) : Prop where
  word : ∀ a, ∃ first rest, encode a = first :: rest ∧ begins first ∧ ∀ x ∈ rest, ¬begins x
  unique : ∀ {a a' rest rest'}, encode a ++ rest = encode a' ++ rest' → a = a'

namespace SelfSync

variable {α β : Type*} {encode : α → List β} {begins : β → Prop}

theorem split_start (h : SelfSync encode begins) {needle : List α} {hay : List α} {back : List β}
    (heq : hay.flatMap encode = needle.flatMap encode ++ back) :
    ∃ after, hay = needle ++ after ∧ after.flatMap encode = back := by
  induction needle generalizing hay with
  | nil => exact ⟨hay, rfl, heq⟩
  | cons a _ ih =>
    cases hay with
    | nil =>
      obtain ⟨_, _, hword, -⟩ := h.word a
      rw [flatMap_cons, hword] at heq
      cases heq
    | cons =>
      rw [flatMap_cons, flatMap_cons, append_assoc] at heq
      obtain rfl := h.unique heq
      obtain ⟨after, rfl, hback⟩ := ih (append_cancel_left heq)
      exact ⟨after, rfl, hback⟩

/-- A text found in another one, as encoded, stands in it. -/
theorem split (h : SelfSync encode begins) {needle hay : List α} {front back : List β}
    (hne : needle ≠ []) (heq : hay.flatMap encode = front ++ needle.flatMap encode ++ back) :
    ∃ before after, hay = before ++ needle ++ after ∧ before.flatMap encode = front ∧
      after.flatMap encode = back := by
  obtain ⟨a, _, rfl⟩ := exists_cons_of_ne_nil hne
  obtain ⟨_, _, hword, hfirst, -⟩ := h.word a
  induction hay generalizing front with
  | nil =>
    rw [flatMap_cons, hword] at heq
    simp at heq
  | cons b _ ih =>
    cases front with
    | nil =>
      obtain ⟨after, hafter, hback⟩ := h.split_start heq
      exact ⟨[], after, hafter, rfl, hback⟩
    | cons =>
      obtain ⟨_, rest', hword', -, hrest'⟩ := h.word b
      rw [flatMap_cons, append_assoc] at heq
      rcases List.append_eq_append_iff.mp heq with ⟨more, hfront, hhay⟩ | ⟨more, hcut, hneedle⟩
      · rw [← append_assoc] at hhay
        obtain ⟨before, after, rfl, hbefore, hback⟩ := ih hhay
        refine ⟨b :: before, after, rfl, ?_, hback⟩
        rw [flatMap_cons, hbefore, hfront]
      · cases more with
        | nil =>
          rw [nil_append] at hneedle
          obtain ⟨before, after, rfl, hbefore, hback⟩ := @ih [] hneedle.symm
          refine ⟨b :: before, after, rfl, ?_, hback⟩
          rw [flatMap_cons, hbefore, append_nil, hcut, append_nil]
        | cons y =>
          -- The text would begin within a word.
          rw [hword', cons_append, List.cons.injEq] at hcut
          rw [flatMap_cons, hword, cons_append, cons_append, cons_append,
            List.cons.injEq] at hneedle
          have hy : y ∈ rest' := by
            rw [hcut.2]
            exact mem_append_right _ mem_cons_self
          exact (hrest' y hy (hneedle.1 ▸ hfirst)).elim

end SelfSync

/-! ### UTF-8 -/

/-- The bytes of a text. -/
def utf8 (text : List Char) : List UInt8 := text.flatMap String.utf8EncodeChar

theorem selfSync_utf8 : SelfSync String.utf8EncodeChar UInt8.IsUTF8FirstByte where
  word := by
    intro c
    obtain ⟨first, rest, hword⟩ := exists_cons_of_ne_nil (@String.utf8EncodeChar_ne_nil c)
    have hbegins := @UInt8.isUTF8FirstByte_getElem_utf8EncodeChar c
    simp only [hword] at hbegins
    refine ⟨first, rest, hword, ?_, fun x hx hbad => ?_⟩
    · exact (@hbegins 0 (Nat.zero_lt_succ _)).mpr rfl
    · obtain ⟨i, hi, rfl⟩ := getElem_of_mem hx
      exact absurd ((@hbegins (i + 1) (Nat.succ_lt_succ hi)).mp hbad) (Nat.succ_ne_zero i)
  unique := by
    intro a _ rest _ h
    have hbytes := congrArg List.toByteArray h
    rw [toByteArray_append, toByteArray_append] at hbytes
    have hfirst := @ByteArray.utf8DecodeChar?_utf8EncodeChar_append rest.toByteArray a
    rw [hbytes, ByteArray.utf8DecodeChar?_utf8EncodeChar_append, Option.some_inj] at hfirst
    exact hfirst.symm

theorem utf8_append (front back : List Char) : utf8 (front ++ back) = utf8 front ++ utf8 back :=
  flatMap_append

theorem utf8_ne_nil {text : List Char} (h : text ≠ []) : utf8 text ≠ [] := by
  obtain ⟨c, _, rfl⟩ := exists_cons_of_ne_nil h
  intro hnil
  exact @String.utf8EncodeChar_ne_nil c (List.append_eq_nil_iff.mp hnil).1

end Vivido
