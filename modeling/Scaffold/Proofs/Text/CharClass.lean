import Scaffold.Syntax.Lexer
import Mathlib.Data.List.Basic

/-!
# The classes of the characters of words

A character that begins an identifier continues one too, and is neither a blank, a punctuation
mark, a bracket nor a digit.  Among ASCII characters this is decided one by one (`of_isAscii`).
Beyond ASCII there are no marks and no digits, and neither a blank nor the byte order mark lies in a
range of the characters that begin words (`wordStartRanges_apart`).
-/

namespace Scaffold.Text

open Syntax

/-! ### ASCII and beyond -/

/-- What holds of all 128 characters holds of every ASCII character. -/
theorem of_isAscii {P : Char → Prop} (h : ∀ n : Fin 128, P (Char.ofNat n)) {c : Char}
    (hc : isAscii c = true) : P c := by
  have hlt : c.toNat < 128 := of_decide_eq_true hc
  have hP := h ⟨c.toNat, hlt⟩
  rwa [Char.ofNat_toNat] at hP

/-- A character beyond ASCII is none of those in a list of ASCII characters. -/
theorem not_mem_of_not_isAscii {c : Char} (hc : isAscii c = false) {cs : List Char}
    (hcs : cs.all isAscii = true) : c ∉ cs := by
  intro hmem
  rw [List.all_eq_true.1 hcs c hmem] at hc
  cases hc

/-- The byte order mark. -/
def byteOrderMark : Nat := 0xfeff

/-- Ranges beyond ASCII that hold the blanks of source text and the byte order mark. -/
def apartRanges : List CodeRange :=
  [⟨0x85, 0x85⟩, ⟨0xa0, 0xa0⟩, ⟨0x1680, 0x1680⟩, ⟨0x2000, 0x200f⟩, ⟨0x2028, 0x202f⟩,
    ⟨0x205f, 0x205f⟩, ⟨0x3000, 0x3000⟩, ⟨byteOrderMark, byteOrderMark⟩]

theorem exists_apartRange {c : Char} (hc : isAscii c = false)
    (h : Lexer.isSourceBlank c = true ∨ c.toNat = byteOrderMark) :
    ∃ b ∈ apartRanges, b.contains c.toNat = true := by
  have hge : ¬c.toNat < 128 := of_decide_eq_false hc
  simp only [Lexer.isSourceBlank, isBlank, byteOrderMark, Bool.or_eq_true, Bool.and_eq_true,
    decide_eq_true_eq] at h
  simp only [apartRanges, byteOrderMark, List.mem_cons, List.not_mem_nil, or_false, exists_eq_or_imp,
    exists_eq_left, CodeRange.contains, Bool.and_eq_true, decide_eq_true_eq]
  omega

/-- No range of the characters that begin words meets one of these ranges. -/
theorem wordStartRanges_apart :
    wordStartRanges.all (fun r =>
      apartRanges.all fun b => r.last < b.first || b.last < r.first) = true := by
  unfold wordStartRanges rangesOfText tableEntries CharTable.wordStart
  rw [List.all_toArray]
  simp only [List.flatMap_cons, List.flatMap_nil]
  -- the lines are made lists of characters, since reading a text character by character is slow
  repeat rw [String.toList_ofList]
  decide +kernel

theorem apart_of_inRanges {c : Char} (hc : isAscii c = false)
    (h : inRanges wordStartRanges c = true) :
    Lexer.isSourceBlank c = false ∧ c.toNat ≠ byteOrderMark := by
  have hapart : ¬(Lexer.isSourceBlank c = true ∨ c.toNat = byteOrderMark) := by
    intro hc'
    unfold inRanges at h
    obtain ⟨r, hr, hin⟩ := Array.any_eq_true'.1 h
    obtain ⟨b, hb, hin'⟩ := exists_apartRange hc hc'
    have hapart := List.all_eq_true.1 (Array.all_eq_true'.1 wordStartRanges_apart r hr) b hb
    simp only [CodeRange.contains, Bool.and_eq_true, Bool.or_eq_true, decide_eq_true_eq] at *
    omega
  rw [not_or, Bool.not_eq_true] at hapart
  exact hapart

/-! ### Characters of words -/

/-- The characters that no word begins with, and which mean something else in source text. -/
def apartFromWords : List Char :=
  Lexer.markChars ++ ['(', ')', '[', ']', '\x7b', '\x7d', '"'] ++ "0123456789".toList

/-- **The beginning of a word** is no blank, byte order mark, mark, bracket, quote or digit. -/
theorem isIdentStart_apart {c : Char} (h : isIdentStart c = true) :
    (Lexer.isSourceBlank c = false ∧ c.toNat ≠ byteOrderMark) ∧ c ∉ apartFromWords := by
  by_cases hc : isAscii c = true
  · revert h
    refine of_isAscii (P := fun c => isIdentStart c = true →
      (Lexer.isSourceBlank c = false ∧ c.toNat ≠ byteOrderMark) ∧ c ∉ apartFromWords) ?_ hc
    decide +kernel
  · rw [Bool.not_eq_true] at hc
    rw [isIdentStart, if_neg (by rw [hc]; decide)] at h
    exact ⟨apart_of_inRanges hc h, not_mem_of_not_isAscii hc (by decide +kernel)⟩

end Scaffold.Text
