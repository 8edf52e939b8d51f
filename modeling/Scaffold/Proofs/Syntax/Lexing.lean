import Scaffold.Syntax.Ident
import Scaffold.Proofs.Text.CharClass

/-!
# Lexemes

How the lexer takes the lexemes of a text one after another: a word goes up to the first
character that cannot belong to it (`run_word`), a punctuation mark is one character and is joint
where another mark follows (`run_mark`), and one blank between two lexemes is passed over
(`run_blank`).

-/

namespace Scaffold.Syntax.Lexer

open Scaffold.Text

/-! ### Heads of texts -/

/-- Whether a text begins with a lexeme, neither with a blank nor with a comment. -/
def atCode (text : List Char) : Bool :=
  match text with
  | c :: _ => !isSourceBlank c && !startsWith "//" text && !startsWith "/*" text
  | [] => true

theorem startsWith_of_ne {lead : String} {l c : Char} {ls cs : List Char}
    (hlead : lead.toList = l :: ls) (hne : l ≠ c) : startsWith lead (c :: cs) = false := by
  rw [startsWith, hlead, List.isPrefixOf_cons_cons, beq_false_of_ne hne, Bool.false_and]

theorem atCode_of_ne_slash {c : Char} (hblank : isSourceBlank c = false) (hslash : c ≠ '/')
    (cs : List Char) : atCode (c :: cs) = true := by
  have hline : startsWith "//" (c :: cs) = false := startsWith_of_ne rfl hslash.symm
  have hblock : startsWith "/*" (c :: cs) = false := startsWith_of_ne rfl hslash.symm
  simp [atCode, hblank, hline, hblock]

/-- A text that begins with a longer lead begins with its beginning. -/
theorem startsWith_of_prefix {lead short : String} (hlead : short.toList <+: lead.toList)
    {text : List Char} (h : startsWith short text = false) : startsWith lead text = false := by
  rw [Bool.eq_false_iff] at h ⊢
  intro hlong
  rw [startsWith, List.isPrefixOf_iff_prefix] at hlong
  rw [startsWith, Ne, List.isPrefixOf_iff_prefix] at h
  exact h (hlead.trans hlong)

section AtCode

variable {text : List Char}

theorem comment_of_atCode (h : atCode text = true) :
    startsWith "//" text = false ∧ startsWith "/*" text = false := by
  cases text with
  | nil => exact ⟨rfl, rfl⟩
  | cons c cs =>
    simp only [atCode, Bool.and_eq_true, Bool.not_eq_true'] at h
    exact ⟨h.1.2, h.2⟩

theorem skipBlank_of_atCode (h : atCode text = true) (fuel : Nat) : skipBlank fuel text = text := by
  obtain ⟨hline, hblock⟩ := comment_of_atCode h
  have hempty : startsWith "/**/" text = false := startsWith_of_prefix (by decide) hblock
  cases fuel with
  | zero => rfl
  | succ fuel =>
    unfold skipBlank isPlainLineComment isPlainBlockComment
    rw [hline, hblock, hempty]
    cases text with
    | nil => rfl
    | cons c cs =>
      simp only [atCode, Bool.and_eq_true, Bool.not_eq_true'] at h
      simp [h.1.1]

theorem docComment_of_atCode (h : atCode text = true) : docComment text = none := by
  obtain ⟨hline, hblock⟩ := comment_of_atCode h
  have hinnerLine : startsWith "//!" text = false := startsWith_of_prefix (by decide) hline
  have houterLine : startsWith "///" text = false := startsWith_of_prefix (by decide) hline
  have hinnerBlock : startsWith "/*!" text = false := startsWith_of_prefix (by decide) hblock
  have houterBlock : startsWith "/**" text = false := startsWith_of_prefix (by decide) hblock
  simp [docComment, hinnerLine, hinnerBlock, houterLine, houterBlock]

/-- A blank before a lexeme is passed over. -/
theorem skipBlank_cons {c : Char} (hc : isSourceBlank c = true) (hslash : c ≠ '/')
    (h : atCode text = true) (fuel : Nat) : skipBlank (fuel + 1) (c :: text) = text := by
  have hline : startsWith "//" (c :: text) = false := startsWith_of_ne rfl hslash.symm
  have hblock : startsWith "/*" (c :: text) = false := startsWith_of_ne rfl hslash.symm
  have hempty : startsWith "/**/" (c :: text) = false := startsWith_of_prefix (by decide) hblock
  unfold skipBlank isPlainLineComment isPlainBlockComment
  rw [hline, hblock, hempty]
  simp [hc, skipBlank_of_atCode h]

end AtCode

/-! ### Rounds of the loop -/

/-- The characters that open and close groups. -/
def brackets : List Char := ['(', '[', '\x7b', ')', ']', '\x7d']

section Rounds

variable {fuel : Nat} {text rest : List Char} {opened : List (Delimiter × List Token)}
  {before : List Token}

theorem run_nil : run (fuel + 1) [] [] before = some before.reverse := by
  rw [run, skipBlank_of_atCode rfl]
  rfl

theorem run_blank (h : atCode text = true) :
    run (fuel + 2) (' ' :: text) opened before = run (fuel + 2) text opened before := by
  conv_rhs => rw [run, skipBlank_of_atCode h]
  rw [run, skipBlank_cons (by decide) (by decide) h]

/-- One lexeme that is no bracket. -/
theorem run_leaf {c : Char} {cs : List Char} {token : Token} (hcode : atCode (c :: cs) = true)
    (hbracket : c ∉ brackets)
    (hleaf : leaf (c :: cs) = some (token, rest)) :
    run (fuel + 1) (c :: cs) opened before = run fuel rest opened (token :: before) := by
  simp only [brackets, List.mem_cons, List.not_mem_nil, or_false, not_or] at hbracket
  obtain ⟨h1, h2, h3, h4, h5, h6⟩ := hbracket
  have herror : startsWith errorLiteral (c :: cs) = false :=
    startsWith_of_ne (l := '(') rfl (Ne.symm h1)
  have hopening : Delimiter.ofOpening? c = none := by simp [Delimiter.ofOpening?, h1, h2, h3]
  have hclosing : Delimiter.ofClosing? c = none := by simp [Delimiter.ofClosing?, h4, h5, h6]
  rw [run, skipBlank_of_atCode hcode, docComment_of_atCode hcode]
  simp [herror, hopening, hclosing, hleaf]

end Rounds

/-! ### Words -/

/-- The characters that make a literal of the word before them. -/
def quoteMarks : List Char := ['"', '\'', '#']

/-- Whether a word ends where the text `rest` begins. -/
def endsWord (rest : List Char) : Bool :=
  match rest with
  | c :: _ => !isIdentContinue c && !quoteMarks.contains c
  | [] => true

/-- The characters of a word. -/
theorem exists_of_isWordText {name : String} (h : Ident.isWordText name = true) :
    ∃ c cs, name.toList = c :: cs ∧ isIdentStart c = true ∧ cs.all isIdentContinue = true := by
  unfold Ident.isWordText at h
  split at h
  · rename_i c cs heq
    rw [Bool.and_eq_true] at h
    exact ⟨c, cs, heq, h⟩
  · cases h

theorem plainWord_append {name : String} (hname : Ident.isWordText name = true)
    {rest : List Char} (hrest : endsWord rest = true) :
    plainWord (name.toList ++ rest) = some (name.toList, rest) := by
  obtain ⟨c, cs, heq, hc, hcs⟩ := exists_of_isWordText hname
  have hall : ∀ d ∈ cs, isIdentContinue d = true := List.all_eq_true.1 hcs
  have htake : rest.takeWhile isIdentContinue = [] ∧ rest.dropWhile isIdentContinue = rest := by
    cases rest with
    | nil => exact ⟨rfl, rfl⟩
    | cons d ds =>
      simp only [endsWord, Bool.and_eq_true, Bool.not_eq_true'] at hrest
      simp [hrest.1]
  rw [heq, List.cons_append, plainWord, if_pos hc, List.takeWhile_append_of_pos hall,
    List.dropWhile_append_of_pos hall, htake.1, htake.2, List.append_nil]

theorem not_quoteMark_of_isIdentContinue {c : Char} (h : isIdentContinue c = true) :
    c ∉ quoteMarks := by
  intro hmem
  simp only [quoteMarks, List.mem_cons, List.not_mem_nil, or_false] at hmem
  rcases hmem with rfl | rfl | rfl <;> revert h <;> decide

theorem not_quoteMark_of_isIdentStart {c : Char} (h : isIdentStart c = true) :
    c ∉ quoteMarks := by
  intro hmem
  simp only [quoteMarks, List.mem_cons, List.not_mem_nil, or_false] at hmem
  rcases hmem with rfl | rfl | rfl <;> revert h <;> decide

/-- Letters and a mark that makes a literal of them are no beginning of a word that ends before
other characters. -/
theorem not_prefix_word {letters name rest : List Char} {mark : Char}
    (hletters : ∀ c ∈ letters, isIdentContinue c = true) (hmark : mark ∈ quoteMarks)
    (hname : ∀ c ∈ name, c ∉ quoteMarks) (hrest : endsWord rest = true) :
    ¬(letters ++ [mark]) <+: (name ++ rest) := by
  intro h
  induction name generalizing letters with
  | nil =>
    cases rest with
    | nil => simp at h
    | cons c cs =>
      simp only [endsWord, Bool.and_eq_true, Bool.not_eq_true', List.contains_eq_mem,
        decide_eq_false_iff_not] at hrest
      cases letters with
      | nil =>
        obtain ⟨rfl, -⟩ := List.cons_prefix_cons.1 h
        exact hrest.2 hmark
      | cons l ls =>
        obtain ⟨rfl, -⟩ := List.cons_prefix_cons.1 h
        have hl := hletters l (by simp)
        rw [hrest.1] at hl
        cases hl
  | cons n ns ih =>
    cases letters with
    | nil =>
      obtain ⟨rfl, -⟩ := List.cons_prefix_cons.1 h
      exact hname mark (by simp) hmark
    | cons l ls =>
      obtain ⟨rfl, htail⟩ := List.cons_prefix_cons.1 h
      exact ih (fun c hc => hletters c (by simp [hc])) (fun c hc => hname c (by simp [hc])) htail

/-- Whether letters and a mark that makes a literal of them stand at the beginning of `lead`. -/
def isQuoting (lead : String) : Bool :=
  (lead.toList.dropWhile isIdentContinue).head?.any quoteMarks.contains

/-- A word that ends before other characters does not begin a literal or a raw word. -/
theorem startsWith_eq_false_of_word {name : String} (hname : Ident.isWordText name = true)
    {rest : List Char} (hrest : endsWord rest = true) {lead : String}
    (hlead : isQuoting lead = true) : startsWith lead (name.toList ++ rest) = false := by
  obtain ⟨c, cs, heq, hc, hcs⟩ := exists_of_isWordText hname
  have hall : ∀ d ∈ name.toList, d ∉ quoteMarks := by
    rw [heq]
    intro d hd
    rcases List.mem_cons.1 hd with rfl | hd
    · exact not_quoteMark_of_isIdentStart hc
    · exact not_quoteMark_of_isIdentContinue (List.all_eq_true.1 hcs d hd)
  unfold isQuoting at hlead
  cases hdrop : lead.toList.dropWhile isIdentContinue with
  | nil =>
    rw [hdrop] at hlead
    cases hlead
  | cons mark more =>
    rw [hdrop] at hlead
    have hsplit : lead.toList = lead.toList.takeWhile isIdentContinue ++ mark :: more := by
      rw [← hdrop, List.takeWhile_append_dropWhile]
    rw [Bool.eq_false_iff, Ne, startsWith, List.isPrefixOf_iff_prefix]
    intro h
    rw [hsplit] at h
    have hshort : lead.toList.takeWhile isIdentContinue ++ [mark] <+: name.toList ++ rest :=
      ((List.prefix_append_right_inj _).2 ⟨more, rfl⟩).trans h
    exact not_prefix_word (fun d hd => List.all_eq_true.1 List.all_takeWhile d hd)
      (List.contains_iff_mem.1 hlead) hall hrest hshort

/-- Raw text has a quote after its number signs. -/
theorem rawQuoted_eq_none (kind : QuoteKind) {text : List Char}
    (h : startsWith "\"" (text.dropWhile (· = '#')) = false) : rawQuoted kind text = none := by
  unfold rawQuoted
  split
  · rename_i cs heq
    rw [heq] at h
    simp [startsWith] at h
  · rfl

theorem startsWith_of_signs {cs : List Char}
    (h : startsWith "\"" (cs.dropWhile (· = '#')) = true) :
    startsWith "\"" cs = true ∨ startsWith "#\"" cs = true ∨ startsWith "##" cs = true := by
  cases cs with
  | nil => exact .inl h
  | cons c cs =>
    by_cases hc : c = '#'
    · subst hc
      cases cs with
      | nil => simp [startsWith] at h
      | cons d ds =>
        by_cases hd : d = '#'
        · simp [startsWith, hd]
        · have hquote : '"' = d := by simpa [startsWith, hd] using h
          simp [startsWith, ← hquote]
    · have hquote : '"' = c := by simpa [startsWith, hc] using h
      simp [startsWith, ← hquote]

theorem stringLiteral_eq_none {text : List Char} (hquote : startsWith "\"" text = false)
    (hleads : ∀ lead ∈ literalLeads, startsWith lead text = false) : stringLiteral text = none := by
  have raw (kind : QuoteKind) {cs : List Char}
      (h : startsWith "\"" cs = false ∧ startsWith "#\"" cs = false ∧ startsWith "##" cs = false) :
      rawQuoted kind cs = none := by
    refine rawQuoted_eq_none _ ?_
    rw [Bool.eq_false_iff]
    intro hsigns
    have hcases := startsWith_of_signs hsigns
    rw [h.1, h.2.1, h.2.2] at hcases
    simp at hcases
  have rawMarked (kind : QuoteKind) {cs : List Char}
      (h : startsWith "\"" cs = false ∧ startsWith "#" cs = false) : rawQuoted kind cs = none :=
    raw kind ⟨h.1, startsWith_of_prefix (by decide) h.2, startsWith_of_prefix (by decide) h.2⟩
  simp only [literalLeads, List.mem_cons, List.not_mem_nil, or_false, forall_eq_or_imp,
    forall_eq] at hleads
  unfold stringLiteral
  split
  · simp [startsWith] at hquote
  · exact raw _ (by simp_all [startsWith])
  · simp [startsWith] at hleads
  · exact rawMarked _ (by simp_all [startsWith])
  · simp [startsWith] at hleads
  · exact rawMarked _ (by simp_all [startsWith])
  · rfl

/-- The characters that literals begin with where no letter does. -/
def literalMarks : List Char := ['"', '\''] ++ "0123456789".toList

theorem not_isAsciiDigit {c : Char} (h : c ∉ literalMarks) : isAsciiDigit c = false := by
  by_cases hc : isAscii c = true
  · revert h
    refine of_isAscii (P := fun c => c ∉ literalMarks → isAsciiDigit c = false) ?_ hc
    decide +kernel
  · simp only [isAscii, decide_eq_true_eq, isAsciiDigit, Bool.and_eq_false_iff,
      decide_eq_false_iff_not, Char.le_def] at *
    have h9 : ('9' : Char).toNat = 57 := rfl
    simp only [UInt32.le_iff_toNat_le]
    right
    show ¬ c.toNat ≤ 57
    omega

theorem ten_le_hexDigitValue {c : Char} (hhex : isHexDigit c = true)
    (hdigit : isAsciiDigit c = false) : 10 ≤ hexDigitValue c := by
  unfold isAsciiDigit at hdigit
  have hnot : ¬('0' ≤ c ∧ c ≤ '9') := by simpa using hdigit
  rw [isHexDigit, hdigit, Bool.false_or] at hhex
  unfold hexDigitValue
  rw [if_neg hnot]
  by_cases hlow : 'a' ≤ c ∧ c ≤ 'f'
  · rw [if_pos hlow]
    omega
  · have hup : 'A' ≤ c ∧ c ≤ 'F' := by simp_all
    rw [if_neg hlow, if_pos hup]
    omega

theorem intLiteral_eq_none {c : Char} {cs : List Char} (hdigit : isAsciiDigit c = false)
    (hzero : c ≠ '0') : intLiteral (c :: cs) = none := by
  have hhex : startsWith "0x" (c :: cs) = false := startsWith_of_ne rfl hzero.symm
  have hoct : startsWith "0o" (c :: cs) = false := startsWith_of_ne rfl hzero.symm
  have hbin : startsWith "0b" (c :: cs) = false := startsWith_of_ne rfl hzero.symm
  have hdigits : intDigits 10 false (c :: cs) = none := by
    by_cases h : isHexDigit c = true
    · have hten : ¬hexDigitValue c < 10 := by
        have hle := ten_le_hexDigitValue h hdigit
        omega
      simp [intDigits, hdigit, h, hten]
    · simp [intDigits, hdigit, h]
  unfold intLiteral
  rw [hhex, hoct, hbin]
  simp [hdigits]

/-- **No literal** begins with a character that is no digit or quote, where none of the letters
and marks that begin one stand there. -/
theorem literal_eq_none {c : Char} {cs : List Char} (hc : c ∉ literalMarks)
    (hleads : ∀ lead ∈ literalLeads, startsWith lead (c :: cs) = false) :
    literal (c :: cs) = none := by
  have hdigit := not_isAsciiDigit hc
  have hne (d : Char) (hd : d ∈ literalMarks) : c ≠ d := fun h => hc (h ▸ hd)
  have hquote : startsWith "\"" (c :: cs) = false := startsWith_of_ne rfl (hne _ (by decide)).symm
  have hbyte : startsWith "b'" (c :: cs) = false := hleads _ (by decide)
  have hint : intLiteral (c :: cs) = none := intLiteral_eq_none hdigit (hne _ (by decide))
  have hfloat : floatLiteral (c :: cs) = none := by simp [floatLiteral, hdigit]
  unfold literal literalEnd
  rw [stringLiteral_eq_none hquote hleads, hfloat, hint]
  dsimp only
  split
  · rename_i hchar
    split at hchar
    · rename_i heq
      rw [heq] at hbyte
      simp [startsWith] at hbyte
    · rename_i heq
      exact absurd (List.cons.inj heq).1 (hne '\'' (by decide))
    · cases hchar
  · rfl

/-! ### Words in the loop -/

theorem isIdentStart_ne {c d : Char} (hc : isIdentStart c = true) (hd : d ∈ apartFromWords) :
    c ≠ d := by
  rintro rfl
  exact (isIdentStart_apart hc).2 hd

theorem atMark_of_isIdentStart {c : Char} {cs : List Char} (hc : isIdentStart c = true) :
    atMark (c :: cs) = false := by
  have hmark : c ∉ markChars := fun h => (isIdentStart_apart hc).2 (by simp [apartFromWords, h])
  simp [atMark, hmark]

section Rounds

variable {fuel : Nat} {rest : List Char} {opened : List (Delimiter × List Token)}
  {before : List Token}

theorem atCode_word {name : String} (hname : Ident.isWordText name = true) (rest : List Char) :
    atCode (name.toList ++ rest) = true := by
  obtain ⟨c, cs, heq, hc, -⟩ := exists_of_isWordText hname
  rw [heq, List.cons_append]
  exact atCode_of_ne_slash (isIdentStart_apart hc).1.1 (isIdentStart_ne hc (by decide)) _

/-- **A word** that ends before other characters is one token. -/
theorem run_word {name : String} (hname : Ident.isWordText name = true)
    (hrest : endsWord rest = true) :
    run (fuel + 1) (name.toList ++ rest) opened before =
      run fuel rest opened (.word false name :: before) := by
  have hcode := atCode_word hname rest
  have hplain := plainWord_append hname hrest
  have hraw : startsWith "r#" (name.toList ++ rest) = false :=
    startsWith_eq_false_of_word hname hrest (by decide)
  have hleads : ∀ lead ∈ literalLeads, startsWith lead (name.toList ++ rest) = false := by
    have hquoting : ∀ lead ∈ literalLeads, isQuoting lead = true := by decide
    exact fun lead h => startsWith_eq_false_of_word hname hrest (hquoting lead h)
  have hany : literalLeads.any (startsWith · (name.toList ++ rest)) = false :=
    List.any_eq_false.2 fun lead h => by rw [hleads lead h]; decide
  have hword : word (name.toList ++ rest) = some (.word false name, rest) := by
    simp [word, hany, anyWord, hraw, hplain]
  obtain ⟨c, cs, heq, hc, -⟩ := exists_of_isWordText hname
  rw [heq, List.cons_append] at hcode hleads hword ⊢
  have hbracket : brackets ⊆ apartFromWords := by decide
  have hmarks : literalMarks ⊆ apartFromWords := by decide
  have hapart := (isIdentStart_apart hc).2
  have hliteral := literal_eq_none (fun h => hapart (hmarks h)) hleads
  have hpunct : punctuation (c :: (cs ++ rest)) = none := by
    unfold punctuation
    rw [atMark_of_isIdentStart hc]
    rfl
  refine run_leaf hcode (fun h => hapart (hbracket h)) ?_
  rw [leaf, hliteral, hpunct, hword]

/-- **A punctuation mark** is one token, joint where another mark follows it immediately. -/
theorem run_mark {c : Char} (hc : c ∈ markChars) (hquote : c ≠ '\'')
    (hline : startsWith "//" (c :: rest) = false) (hblock : startsWith "/*" (c :: rest) = false) :
    run (fuel + 1) (c :: rest) opened before =
      run fuel rest opened (.punct c (atMark rest) :: before) := by
  have hmarks : (markChars.filter (· ≠ '\'')).all (fun d => !isSourceBlank d &&
      !brackets.contains d && !literalMarks.contains d &&
      literalLeads.all fun lead => lead.toList.head? ≠ some d) = true := by
    decide
  have hmark := List.all_eq_true.1 hmarks c (List.mem_filter.2 ⟨hc, by simpa using hquote⟩)
  simp only [Bool.and_eq_true, Bool.not_eq_true', List.contains_eq_mem, decide_eq_false_iff_not,
    List.all_eq_true, decide_eq_true_eq] at hmark
  obtain ⟨⟨⟨hblank, hbracket⟩, hnumber⟩, hletter⟩ := hmark
  have hcode : atCode (c :: rest) = true := by simp [atCode, hblank, hline, hblock]
  have hat : atMark (c :: rest) = true := by simp [atMark, hc, hline, hblock]
  have hliteral : literal (c :: rest) = none := by
    refine literal_eq_none hnumber fun lead hlead => ?_
    cases hlist : lead.toList with
    | nil => exact absurd hlist (by revert lead; decide)
    | cons l ls =>
      refine startsWith_of_ne hlist fun h => hletter lead hlead ?_
      rw [hlist, h, List.head?_cons]
  refine run_leaf hcode hbracket ?_
  unfold leaf
  rw [hliteral]
  unfold punctuation
  rw [hat]
  simp

end Rounds

end Scaffold.Syntax.Lexer
