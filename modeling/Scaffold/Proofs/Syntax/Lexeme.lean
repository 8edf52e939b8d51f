import Scaffold.Proofs.Syntax.Lexing
import Scaffold.Proofs.Syntax.Names

/-!
# Words, lifetimes, numbers and brackets

How the lexer takes the remaining lexemes of a type one after another: a word with or without its
raw mark (`run_spelling`), a lifetime (`run_lifetime`), a whole number (`run_wholeNumber`), and the
brackets of a group (`run_opening`, `run_closing`).  A number ends where a blank, a bracket or one
of a few marks follows (`endsLexeme`); a word ends there too.
-/

namespace Scaffold.Syntax

open Scaffold.Text

namespace Lexer

/-! ### Words, raw or not -/

section Spelling

variable {raw : Bool} {name : String} {rest : List Char}

/-- A word with its raw mark ends where other characters follow. -/
theorem anyWord_append (h : Ident.isSpelling raw name = true) (hrest : endsWord rest = true) :
    anyWord ((Token.spelling raw name).toList ++ rest) = some (raw, name, rest) := by
  have hname := Ident.isWordText_of_isSpelling h
  have hplain := plainWord_append hname hrest
  cases raw with
  | false =>
    have hraw : startsWith "r#" (name.toList ++ rest) = false :=
      startsWith_eq_false_of_word hname hrest (by decide)
    simp [Token.spelling, anyWord, hraw, hplain]
  | true =>
    have hnever : name ∉ neverRaw := by
      rw [Ident.isSpelling, Bool.true_and, Bool.and_eq_true, Bool.not_eq_true',
        List.contains_eq_mem, decide_eq_false_iff_not] at h
      exact h.2
    have htext : (Token.spelling true name).toList ++ rest =
        'r' :: '#' :: (name.toList ++ rest) := by
      simp [Token.spelling]
    have hmark : startsWith "r#" ('r' :: '#' :: (name.toList ++ rest)) = true := rfl
    rw [htext, anyWord, if_pos hmark, List.drop_succ_cons, List.drop_succ_cons, List.drop_zero,
      hplain]
    simp [hnever]

/-- A word does not begin a literal. -/
theorem startsWith_spelling (h : Ident.isSpelling raw name = true) (hrest : endsWord rest = true) :
    ∀ lead ∈ literalLeads, startsWith lead ((Token.spelling raw name).toList ++ rest) = false := by
  have hname := Ident.isWordText_of_isSpelling h
  cases raw with
  | false =>
    have hquoting : ∀ lead ∈ literalLeads, isQuoting lead = true := by decide
    exact fun lead hlead => startsWith_eq_false_of_word hname hrest (hquoting lead hlead)
  | true =>
    obtain ⟨c, cs, heq, hc, -⟩ := exists_of_isWordText hname
    have hquote : ('"' : Char) ≠ c := (isIdentStart_ne hc (by decide)).symm
    have hsign : ('#' : Char) ≠ c := (isIdentStart_ne hc (by decide)).symm
    simp [literalLeads, startsWith, Token.spelling, heq, hquote, hsign,
      List.isPrefixOf_cons_cons]

/-- The first character of a word with its raw mark begins a word, and no apostrophe follows
it. -/
theorem exists_spelling (h : Ident.isSpelling raw name = true) :
    ∃ c cs, (Token.spelling raw name).toList = c :: cs ∧ isIdentStart c = true ∧ '\'' ∉ cs := by
  obtain ⟨c, cs, heq, hc, hcs⟩ := exists_of_isWordText (Ident.isWordText_of_isSpelling h)
  have hrest : '\'' ∉ cs := fun hmem =>
    absurd (List.all_eq_true.1 hcs _ hmem) (by decide)
  cases raw with
  | false => exact ⟨c, cs, heq, hc, hrest⟩
  | true =>
    have hne : ('\'' : Char) ≠ c := (isIdentStart_ne hc (by decide)).symm
    exact ⟨'r', '#' :: c :: cs, by simp [Token.spelling, heq], by decide, by simp [hne, hrest]⟩

end Spelling

/-! ### Numbers -/

/-- Whether a literal is a whole number in decimal digits. -/
def isWholeNumber (text : String) : Bool :=
  !text.isEmpty && text.toList.all isAsciiDigit

theorem exists_of_isWholeNumber {text : String} (h : isWholeNumber text = true) :
    ∃ c cs, text.toList = c :: cs ∧ isAsciiDigit c = true ∧ ∀ d ∈ cs, isAsciiDigit d = true := by
  rw [isWholeNumber, Bool.and_eq_true, Bool.not_eq_true'] at h
  cases htext : text.toList with
  | nil =>
    have hempty : text = "" := String.toList_inj.1 htext
    subst hempty
    cases h.1
  | cons c cs =>
    rw [htext, List.all_eq_true, List.forall_mem_cons] at h
    exact ⟨c, cs, rfl, h.2⟩

/-- The characters that end a number or a word. -/
def lexemeEnds : List Char := [' ', ':', '<', '>', ',', ';', ')', ']']

/-- Whether a number or a word ends where a text begins. -/
def endsLexeme (rest : List Char) : Bool :=
  match rest with
  | c :: _ => lexemeEnds.contains c
  | [] => true

theorem endsWord_of_endsLexeme {rest : List Char} (h : endsLexeme rest = true) :
    endsWord rest = true := by
  cases rest with
  | nil => rfl
  | cons c cs =>
    have hends : lexemeEnds.all (fun c => !isIdentContinue c && !quoteMarks.contains c) = true := by
      decide
    exact List.all_eq_true.1 hends c (List.contains_iff_mem.1 h)

section Numbers

variable {digits rest : List Char}

theorem dropSuffix_of_endsLexeme (h : endsLexeme rest = true) : dropSuffix rest = rest := by
  cases rest with
  | nil => rfl
  | cons c cs =>
    have hends : lexemeEnds.all (fun c => !isIdentStart c) = true := by decide
    have hc := List.all_eq_true.1 hends c (List.contains_iff_mem.1 h)
    rw [Bool.not_eq_true'] at hc
    simp [dropSuffix, plainWord, hc]

theorem atWordBreak_of_endsLexeme (h : endsLexeme rest = true) : atWordBreak rest = true := by
  cases rest with
  | nil => rfl
  | cons c cs =>
    have hends : lexemeEnds.all (fun c => !isIdentContinue c) = true := by decide
    exact List.all_eq_true.1 hends c (List.contains_iff_mem.1 h)

/-- No point and no exponent follows a whole number. -/
theorem floatDigits_eq_none (hdigits : ∀ c ∈ digits, isAsciiDigit c = true)
    (h : endsLexeme rest = true) : floatDigits false (digits ++ rest) = none := by
  induction digits with
  | nil =>
    cases rest with
    | nil => rfl
    | cons c cs =>
      have hends : lexemeEnds.all (fun c => c ≠ '.' && !isAsciiDigit c && c ≠ '_' && c ≠ 'e' &&
        c ≠ 'E') = true := by decide
      have hc := List.all_eq_true.1 hends c (List.contains_iff_mem.1 h)
      simp only [Bool.and_eq_true, Bool.not_eq_true', decide_eq_true_eq] at hc
      rw [List.nil_append, floatDigits]
      · simp [hc]
      · exact fun heq => hc.1.1.1.1 heq
  | cons d ds ih =>
    obtain ⟨hd, hds⟩ := List.forall_mem_cons.1 hdigits
    have hpoint : d ≠ '.' := by
      rintro rfl
      cases hd
    rw [List.cons_append, floatDigits]
    · rw [if_pos (.inl hd), ih hds]
    · exact fun heq => hpoint heq

theorem isAscii_of_isAsciiDigit {c : Char} (h : isAsciiDigit c = true) : isAscii c = true := by
  by_contra hc
  rw [Bool.not_eq_true] at hc
  have hmarks : literalMarks.all isAscii = true := by decide
  have hnot := not_isAsciiDigit (not_mem_of_not_isAscii hc hmarks)
  rw [h] at hnot
  cases hnot

/-- What a digit is worth, and what it is not. -/
theorem digit_apart {c : Char} (h : isAsciiDigit c = true) :
    hexDigitValue c < 10 ∧ isSourceBlank c = false ∧ c ≠ '/' ∧ c ∉ brackets :=
  of_isAscii (P := fun c => isAsciiDigit c = true →
    hexDigitValue c < 10 ∧ isSourceBlank c = false ∧ c ≠ '/' ∧ c ∉ brackets) (by decide +kernel)
    (isAscii_of_isAsciiDigit h) h

/-- The digits of a whole number, of which one has been seen. -/
theorem intDigits_append (hdigits : ∀ c ∈ digits, isAsciiDigit c = true)
    (h : endsLexeme rest = true) : intDigits 10 true (digits ++ rest) = some rest := by
  induction digits with
  | nil =>
    cases rest with
    | nil => rfl
    | cons c cs =>
      have hends : lexemeEnds.all (fun c => !isAsciiDigit c && !isHexDigit c && c ≠ '_') = true := by
        decide
      have hc := List.all_eq_true.1 hends c (List.contains_iff_mem.1 h)
      simp only [Bool.and_eq_true, Bool.not_eq_true', decide_eq_true_eq] at hc
      simp [intDigits, hc]
  | cons d ds ih =>
    obtain ⟨hd, hds⟩ := List.forall_mem_cons.1 hdigits
    rw [List.cons_append, intDigits, if_pos hd, if_pos (digit_apart hd).1, ih hds]

/-- **A whole number** ends where other characters follow. -/
theorem literalEnd_append {c : Char} (hc : isAsciiDigit c = true)
    (hdigits : ∀ c ∈ digits, isAsciiDigit c = true) (h : endsLexeme rest = true) :
    literalEnd (c :: digits ++ rest) = some rest := by
  have hne (d : Char) (hd : isAsciiDigit d = false) : c ≠ d := by
    rintro rfl
    rw [hc] at hd
    cases hd
  have hstring : stringLiteral (c :: (digits ++ rest)) = none := by
    unfold stringLiteral
    split
    all_goals first
      | rfl
      | rename_i heq
        exact absurd (List.cons.inj heq).1 (hne _ (by decide))
  have hfloat : floatLiteral (c :: (digits ++ rest)) = none := by
    rw [floatLiteral, if_pos hc, floatDigits_eq_none hdigits h]
    rfl
  have hbase (lead : String) (x : Char) (hlead : lead.toList = ['0', x])
      (hx : isAsciiDigit x = false) (hends : x ∉ lexemeEnds) :
      startsWith lead (c :: (digits ++ rest)) = false := by
    rw [Bool.eq_false_iff]
    intro hstart
    rw [startsWith, hlead, List.isPrefixOf_cons_cons, Bool.and_eq_true] at hstart
    cases digits with
    | nil =>
      cases rest with
      | nil => cases hstart.2
      | cons d ds =>
        have heq : x = d := by simpa using hstart.2
        exact hends (heq ▸ List.contains_iff_mem.1 h)
    | cons d ds =>
      have heq : x = d := by simpa using hstart.2
      have hd := hdigits d List.mem_cons_self
      rw [← heq, hx] at hd
      cases hd
  have hint : intLiteral (c :: (digits ++ rest)) = some rest := by
    have hten : intDigits 10 false (c :: (digits ++ rest)) = some rest := by
      rw [intDigits, if_pos hc, if_pos (digit_apart hc).1, intDigits_append hdigits h]
    unfold intLiteral
    rw [hbase "0x" 'x' rfl (by decide) (by decide), hbase "0o" 'o' rfl (by decide) (by decide),
      hbase "0b" 'b' rfl (by decide) (by decide)]
    simp [hten, closeNumber, dropSuffix_of_endsLexeme h, atWordBreak_of_endsLexeme h]
  rw [List.cons_append]
  unfold literalEnd
  rw [hstring, hfloat, hint]
  dsimp only
  split
  · rename_i hchar
    split at hchar
    · rename_i heq
      exact absurd (List.cons.inj heq).1 (hne _ (by decide))
    · rename_i heq
      exact absurd (List.cons.inj heq).1 (hne _ (by decide))
    · cases hchar
  · rfl

end Numbers

/-! ### Rounds of the loop -/

section Rounds

variable {fuel : Nat} {rest : List Char} {opened : List (Delimiter × List Token)}
  {before : List Token} {raw : Bool} {name : String}

/-- **A word,** raw or not, that ends before other characters is one token. -/
theorem run_spelling (h : Ident.isSpelling raw name = true) (hrest : endsWord rest = true) :
    run (fuel + 1) ((Token.spelling raw name).toList ++ rest) opened before =
      run fuel rest opened (.word raw name :: before) := by
  have hany := anyWord_append h hrest
  have hleads := startsWith_spelling h hrest
  have hnone : literalLeads.any (startsWith · ((Token.spelling raw name).toList ++ rest)) = false :=
    List.any_eq_false.2 fun lead hlead => by rw [hleads lead hlead]; decide
  obtain ⟨c, cs, heq, hc, -⟩ := exists_spelling h
  rw [heq, List.cons_append] at hany hleads hnone ⊢
  have hbracket : brackets ⊆ apartFromWords := by decide
  have hmarks : literalMarks ⊆ apartFromWords := by decide
  have hapart := (isIdentStart_apart hc).2
  have hcode : atCode (c :: (cs ++ rest)) = true :=
    atCode_of_ne_slash (isIdentStart_apart hc).1.1 (isIdentStart_ne hc (by decide)) _
  have hliteral := literal_eq_none (fun h => hapart (hmarks h)) hleads
  have hpunct : punctuation (c :: (cs ++ rest)) = none := by
    unfold punctuation
    rw [atMark_of_isIdentStart hc]
    rfl
  have hword : word (c :: (cs ++ rest)) = some (.word raw name, rest) := by
    simp [word, hnone, hany]
  refine run_leaf hcode (fun h => hapart (hbracket h)) ?_
  rw [leaf, hliteral, hpunct, hword]

/-- **A lifetime** that ends before other characters is one token. -/
theorem run_lifetime (h : Ident.isSpelling raw name = true) (hrest : endsWord rest = true) :
    run (fuel + 1) ('\'' :: ((Token.spelling raw name).toList ++ rest)) opened before =
      run fuel rest opened (.lifetime raw name :: before) := by
  have hany := anyWord_append h hrest
  have hleads := startsWith_spelling h hrest
  have hnone : literalLeads.any (startsWith · ((Token.spelling raw name).toList ++ rest)) = false :=
    List.any_eq_false.2 fun lead hlead => by rw [hleads lead hlead]; decide
  obtain ⟨c, cs, heq, hc, hcs⟩ := exists_spelling h
  rw [heq, List.cons_append] at hany hnone ⊢
  have hends : startsWith "'" rest = false ∧ startsWith "#" rest = false := by
    cases rest with
    | nil => exact ⟨rfl, rfl⟩
    | cons d ds =>
      simp only [endsWord, quoteMarks, Bool.and_eq_true, Bool.not_eq_true', List.contains_eq_mem,
        decide_eq_false_iff_not, List.mem_cons, List.not_mem_nil, or_false, not_or] at hrest
      exact ⟨startsWith_of_ne rfl (Ne.symm hrest.2.2.1), startsWith_of_ne rfl (Ne.symm hrest.2.2.2)⟩
  -- the second character after the apostrophe is no apostrophe, so this is no character literal
  have hclose : closeChar (cs ++ rest) = none := by
    cases cs with
    | nil =>
      cases rest with
      | nil => rfl
      | cons d ds =>
        have hd : d ≠ '\'' := by
          rintro rfl
          simp [startsWith] at hends
        unfold closeChar
        split
        · rename_i heq
          exact absurd (List.cons.inj heq).1 hd
        · rfl
    | cons d ds =>
      have hd : d ≠ '\'' := fun heq => hcs (heq ▸ List.mem_cons_self)
      unfold closeChar
      split
      · rename_i heq
        exact absurd (List.cons.inj heq).1 hd
      · rfl
  have hbody : charBody (c :: (cs ++ rest)) = none := by
    have hback : c ≠ '\\' := by
      rintro rfl
      revert hc
      decide
    unfold charBody
    split
    all_goals first
      | rfl
      | exact absurd (List.cons.inj (by assumption)).1 hback
      | (rename_i heq
         rw [← (List.cons.inj heq).2]
         exact hclose)
  have hliteral : literal ('\'' :: c :: (cs ++ rest)) = none := by
    have hint : intLiteral ('\'' :: c :: (cs ++ rest)) = none :=
      intLiteral_eq_none (by decide) (by decide)
    have hfloat : floatLiteral ('\'' :: c :: (cs ++ rest)) = none := rfl
    have hstring : stringLiteral ('\'' :: c :: (cs ++ rest)) = none := rfl
    simp [literal, literalEnd, hstring, hbody, hfloat, hint]
  have hmark : atMark ('\'' :: c :: (cs ++ rest)) = true := by
    have hline : startsWith "//" ('\'' :: c :: (cs ++ rest)) = false :=
      startsWith_of_ne (l := '/') rfl (by decide)
    have hblock : startsWith "/*" ('\'' :: c :: (cs ++ rest)) = false :=
      startsWith_of_ne (l := '/') rfl (by decide)
    have hmem : '\'' ∈ markChars := by decide
    simp [atMark, hline, hblock, hmem]
  have hpunct : punctuation ('\'' :: c :: (cs ++ rest)) = some (.lifetime raw name, rest) := by
    simp [punctuation, hmark, hany, hends, hnone]
  refine run_leaf (atCode_of_ne_slash (by decide) (by decide) _) (by decide) ?_
  rw [leaf, hliteral, hpunct]

/-- **A whole number** that ends before other characters is one token. -/
theorem run_wholeNumber {text : String} (h : isWholeNumber text = true)
    (hrest : endsLexeme rest = true) :
    run (fuel + 1) (text.toList ++ rest) opened before =
      run fuel rest opened (.literal text :: before) := by
  obtain ⟨c, cs, htext, hc, hcs⟩ := exists_of_isWholeNumber h
  rw [htext]
  have hend := literalEnd_append hc hcs hrest
  have hliteral : literal (c :: cs ++ rest) = some (.literal text, rest) := by
    rw [literal, hend, Option.map_some, List.length_append, Nat.add_sub_cancel, List.take_left',
      ← htext, String.ofList_toList]
    rfl
  obtain ⟨-, hblank, hslash, hbracket⟩ := digit_apart hc
  rw [List.cons_append] at hliteral ⊢
  refine run_leaf (atCode_of_ne_slash hblank hslash _) hbracket ?_
  rw [leaf, hliteral]

/-- **An opening bracket.** -/
theorem run_opening {delim : Delimiter} (hdelim : delim ≠ .brace)
    (hrest : startsWith "/" rest = false) :
    run (fuel + 1) (delim.opening ++ rest) opened before =
      run fuel rest ((delim, before) :: opened) [] := by
  have hround {c : Char} (hblank : isSourceBlank c = false) (hslash : c ≠ '/')
      (hopening : Delimiter.ofOpening? c = some delim) :
      run (fuel + 1) (c :: rest) opened before = run fuel rest ((delim, before) :: opened) [] := by
    have hcode := atCode_of_ne_slash hblank hslash rest
    have herror : startsWith errorLiteral (c :: rest) = false := by
      have hlong : startsWith "(/" (c :: rest) = false := by
        have hlead : "(/".toList = ['(', '/'] := rfl
        have hone : ['/'].isPrefixOf rest = false := hrest
        rw [startsWith, hlead, List.isPrefixOf_cons_cons, hone, Bool.and_false]
      exact startsWith_of_prefix (by decide) hlong
    rw [run, skipBlank_of_atCode hcode, docComment_of_atCode hcode]
    simp [herror, hopening]
  cases delim with
  | paren => exact hround (c := '(') (by decide) (by decide) rfl
  | bracket => exact hround (c := '[') (by decide) (by decide) rfl
  | brace => exact absurd rfl hdelim

/-- **A closing bracket.** -/
theorem run_closing (delim : Delimiter) (outer : List Token) :
    run (fuel + 1) (delim.closing :: rest) ((delim, outer) :: opened) before =
      run fuel rest opened (.group delim before.reverse :: outer) := by
  have hround {c : Char} (hblank : isSourceBlank c = false) (hslash : c ≠ '/') (hparen : '(' ≠ c)
      (hopening : Delimiter.ofOpening? c = none) (hclosing : Delimiter.ofClosing? c = some delim) :
      run (fuel + 1) (c :: rest) ((delim, outer) :: opened) before =
        run fuel rest opened (.group delim before.reverse :: outer) := by
    have hcode := atCode_of_ne_slash hblank hslash rest
    have herror : startsWith errorLiteral (c :: rest) = false :=
      startsWith_of_ne (l := '(') rfl hparen
    rw [run, skipBlank_of_atCode hcode, docComment_of_atCode hcode]
    simp [herror, hopening, hclosing]
  cases delim with
  | paren => exact hround (c := ')') (by decide) (by decide) (by decide) rfl rfl
  | bracket => exact hround (c := ']') (by decide) (by decide) (by decide) rfl rfl
  | brace => exact hround (c := '\x7d') (by decide) (by decide) (by decide) rfl rfl

end Rounds

end Lexer

end Scaffold.Syntax
