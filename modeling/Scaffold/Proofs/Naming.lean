import Scaffold.Naming
import Scaffold.Proofs.Text.CharClass

/-!
# Names that are put together

Generated code puts names together from fixed pieces and names that come from elsewhere.  The
latter are identifiers, or have been checked to be shaped like one, so what comes out is a word
(`exists_word_append`).  Snake case keeps to the letters, digits and underscores of such a name
(`all_isNameChar_snakeCase`).
-/

namespace Scaffold.Naming

open Syntax Text

/-! ### Characters -/

/-- Whether a character may stand in a name that is shaped like an identifier. -/
def isNameChar (c : Char) : Bool := isAsciiLetter c || isAsciiDigit c || c = '_'

theorem isAscii_of_isNameChar {c : Char} (h : isNameChar c = true) : isAscii c = true := by
  have hcode {c : Char} : c.toNat = c.val.toNat := rfl
  simp only [isNameChar, isAsciiLetter, isAsciiDigit, Bool.or_eq_true, Bool.and_eq_true,
    decide_eq_true_eq, Char.le_def, UInt32.le_iff_toNat_le] at h
  simp only [isAscii, decide_eq_true_eq, hcode]
  rcases h with ((⟨-, h⟩ | ⟨-, h⟩) | ⟨-, h⟩) | rfl
  · exact Nat.lt_of_le_of_lt h (by decide)
  · exact Nat.lt_of_le_of_lt h (by decide)
  · exact Nat.lt_of_le_of_lt h (by decide)
  · decide

theorem isIdentContinue_of_isNameChar {c : Char} (h : isNameChar c = true) :
    isIdentContinue c = true := by
  rw [isIdentContinue, if_pos (isAscii_of_isNameChar h)]
  exact h

/-- The lower-case form of such a character is one of them. -/
theorem isNameChar_lowerOf {c : Char} (h : isNameChar c = true) :
    ∀ d ∈ lowerOf c, isNameChar d = true := by
  have hascii := isAscii_of_isNameChar h
  have hlower : isNameChar c = true → isNameChar c.toLower = true :=
    of_isAscii (P := fun c => isNameChar c = true → isNameChar c.toLower = true) (by decide) hascii
  rw [lowerOf, if_pos hascii]
  exact List.forall_mem_singleton.2 (hlower h)

/-- **What snake case is made of:** what underscores, the characters of a name and their lower-case
forms have in common. -/
theorem forall_mem_snakeChars {P : Char → Prop} (hunderscore : P '_')
    (hlower : ∀ c, P c → ∀ d ∈ lowerOf c, P d) (prev : Option Char) {cs : List Char}
    (h : ∀ c ∈ cs, P c) : ∀ d ∈ snakeChars prev cs, P d := by
  induction cs generalizing prev with
  | nil => exact List.forall_mem_nil _
  | cons c cs ih =>
    obtain ⟨hc, hcs⟩ := List.forall_mem_cons.1 h
    rw [snakeChars, List.forall_mem_append]
    refine ⟨?_, ih (some c) hcs⟩
    split_ifs
    · exact List.forall_mem_cons.2 ⟨hunderscore, hlower c hc⟩
    · exact hlower c hc
    · exact List.forall_mem_singleton.2 hc

/-! ### Names -/

theorem all_isNameChar_of_isIdentifier {name : String} (h : isIdentifier name = true) :
    name.toList.all isNameChar = true := by
  unfold isIdentifier at h
  split at h
  · rename_i c cs heq
    rw [Bool.and_eq_true] at h
    rw [heq, List.all_cons, Bool.and_eq_true]
    refine ⟨?_, h.2⟩
    rcases Bool.or_eq_true_iff.1 h.1 with hletter | hunderscore
    · rw [isNameChar, hletter]
      rfl
    · rw [isNameChar, hunderscore, Bool.or_true]
  · cases h

theorem isAscii_of_isIdentifier {name : String} (h : isIdentifier name = true) :
    ∀ c ∈ name.toList, isAscii c = true := fun c hc =>
  isAscii_of_isNameChar (List.all_eq_true.1 (all_isNameChar_of_isIdentifier h) c hc)

theorem all_isNameChar_snakeCase {name : String} (h : isIdentifier name = true) :
    (snakeCase name).toList.all isNameChar = true := by
  rw [snakeCase, String.toList_ofList, List.all_eq_true]
  exact forall_mem_snakeChars (by decide) (fun _ => isNameChar_lowerOf) none
    (List.all_eq_true.1 (all_isNameChar_of_isIdentifier h))

/-- A name that has been made an identifier is shaped like one. -/
theorem isIdentifier_of_ident {name context : String} {i : Ident}
    (h : ident name context = .ok i) : isIdentifier name = true := by
  unfold ident at h
  split_ifs at h with hname
  all_goals simpa using hname

/-- What is shaped like an identifier is a word. -/
theorem isWordText_of_isIdentifier {name : String} (h : isIdentifier name = true) :
    Ident.isWordText name = true := by
  have hall := all_isNameChar_of_isIdentifier h
  unfold isIdentifier at h
  unfold Ident.isWordText
  cases hname : name.toList with
  | nil =>
    rw [hname] at h
    cases h
  | cons c cs =>
    rw [hname] at h hall
    rw [List.all_cons, Bool.and_eq_true] at hall
    rw [Bool.and_eq_true] at h
    simp only [Bool.and_eq_true, isIdentStart, if_pos (isAscii_of_isNameChar hall.1)]
    refine ⟨h.1, List.all_eq_true.2 fun d hd => ?_⟩
    exact isIdentContinue_of_isNameChar (List.all_eq_true.1 hall.2 d hd)

/-! ### Words -/

/-- Every word is written as itself. -/
theorem word_eq {text : String} (h : Ident.isWordText text = true) :
    word text = .ok ⟨false, text⟩ := by
  have hplain : Ident.ofText? text = Ident.plain? text := by
    unfold Ident.ofText?
    split
    · rename_i cs heq
      simp only [Ident.isWordText, heq, List.all_cons, Bool.and_eq_true] at h
      exact absurd h.2.1 (by decide)
    · rfl
  rw [word, hplain, Ident.plain?, if_pos h]

/-- **A word with more characters** after it is a word. -/
theorem isWordText_append {text more : String} (h : Ident.isWordText text = true)
    (hmore : more.toList.all isNameChar = true) : Ident.isWordText (text ++ more) = true := by
  unfold Ident.isWordText at h ⊢
  rw [String.toList_append]
  split at h
  · rename_i c cs heq
    rw [Bool.and_eq_true] at h
    rw [heq, List.cons_append, Bool.and_eq_true, List.all_append, Bool.and_eq_true]
    refine ⟨h.1, h.2, List.all_eq_true.2 fun d hd => ?_⟩
    exact isIdentContinue_of_isNameChar (List.all_eq_true.1 hmore d hd)
  · cases h

theorem exists_word_append (text : String) {more : String} (h : Ident.isWordText text = true)
    (hmore : more.toList.all isNameChar = true) : ∃ i, word (text ++ more) = .ok i :=
  ⟨_, word_eq (isWordText_append h hmore)⟩

end Scaffold.Naming
