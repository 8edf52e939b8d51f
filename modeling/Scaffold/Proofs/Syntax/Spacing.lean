import Scaffold.Proofs.Syntax.Lexeme

/-!
# Blanks between tokens

A token list is written with a blank between neighbours, but many of these blanks may go: they
separate no letters.  What is left is read as the same tokens, except that marks may have become
joint (`lexChars_textOf`).

The text is a row of `Piece`s, a lexeme each and perhaps a blank.  `Spaced` says that the blanks
which are left keep words and numbers apart; it holds of the text of a token list
(`exists_pieces`) and remains when a blank is closed beside a mark that allows it
(`exists_pieces_of_narrows`).
-/

namespace Scaffold.Syntax

open Scaffold.Text

namespace Token

/-- The tokens `us` are the tokens `ts`, but more marks may be joint. -/
inductive Tightened : (ts us : List Token) → Prop where
  | nil : Tightened [] []
  | word {raw : Bool} {name : String} {ts us : List Token} : Tightened ts us →
    Tightened (.word raw name :: ts) (.word raw name :: us)
  | lifetime {raw : Bool} {name : String} {ts us : List Token} : Tightened ts us →
    Tightened (.lifetime raw name :: ts) (.lifetime raw name :: us)
  | literal {text : String} {ts us : List Token} : Tightened ts us →
    Tightened (.literal text :: ts) (.literal text :: us)
  | punct {mark : Char} {joint joint' : Bool} {ts us : List Token} :
    (joint = true → joint' = true) → Tightened ts us →
    Tightened (.punct mark joint :: ts) (.punct mark joint' :: us)
  | group {delim : Delimiter} {content content' ts us : List Token} : Tightened content content' →
    Tightened ts us → Tightened (.group delim content :: ts) (.group delim content' :: us)

/-- A punctuation mark that begins neither a lifetime nor a comment. -/
def isPlainMark (c : Char) : Bool :=
  Lexer.markChars.contains c && c != '\'' && c != '/'

theorem apart_of_isPlainMark {c : Char} (h : isPlainMark c = true) :
    c ∈ Lexer.markChars ∧ c ≠ '\'' ∧ c ≠ '/' := by
  simpa [isPlainMark, and_assoc] using h

/-- Tokens as types are made of them: words, lifetimes, whole numbers, marks, parentheses and
brackets.  A joint mark stands before another mark. -/
inductive Plain : List Token → Prop where
  | nil : Plain []
  | word {raw : Bool} {name : String} {ts : List Token} : Ident.isSpelling raw name = true →
    Plain ts → Plain (.word raw name :: ts)
  | lifetime {raw : Bool} {name : String} {ts : List Token} : Ident.isSpelling raw name = true →
    Plain ts → Plain (.lifetime raw name :: ts)
  | number {text : String} {ts : List Token} : Lexer.isWholeNumber text = true → Plain ts →
    Plain (.literal text :: ts)
  | mark {c : Char} {ts : List Token} : isPlainMark c = true → Plain ts →
    Plain (.punct c false :: ts)
  | joint {c d : Char} {joint : Bool} {ts : List Token} : isPlainMark c = true →
    Plain (.punct d joint :: ts) → Plain (.punct c true :: .punct d joint :: ts)
  | group {delim : Delimiter} {content ts : List Token} : delim ≠ .brace → Plain content →
    Plain ts → Plain (.group delim content :: ts)

theorem listChars_cons (t : Token) (ts : List Token) :
    listChars (t :: ts) =
      t.chars ++ (if !ts.isEmpty && !t.isJoint then [' '] else []) ++ listChars ts := by
  cases ts with
  | nil => simp [listChars]
  | cons u ts => cases h : t.isJoint <;> simp [listChars, h]

end Token

/-! ### Lexemes -/

/-- A token that is no group, or a bracket. -/
inductive Lexeme where
  | leaf (t : Token)
  | opening (delim : Delimiter)
  | closing (delim : Delimiter)

namespace Lexeme

/-- The text of a lexeme. -/
def chars : Lexeme → List Char
  | leaf t => t.chars
  | opening delim => delim.opening
  | closing delim => [delim.closing]

/-- Whether a letter that follows would belong to the lexeme. -/
def isWordy : Lexeme → Bool
  | leaf (.punct _ _) => false
  | leaf _ => true
  | _ => false

/-- Whether the lexeme is a joint mark. -/
def isJoint : Lexeme → Bool
  | leaf t => t.isJoint
  | _ => false

end Lexeme

mutual

/-- The lexemes of a token tree. -/
def Token.lexemes : Token → List Lexeme
  | .group delim content => .opening delim :: (Token.listLexemes content ++ [.closing delim])
  | t => [.leaf t]

/-- The lexemes of a list of trees. -/
def Token.listLexemes : List Token → List Lexeme
  | [] => []
  | t :: ts => t.lexemes ++ Token.listLexemes ts

end

/-- A lexeme of a text, and whether a blank follows it. -/
structure Piece where
  lexeme : Lexeme
  gap : Bool

namespace Piece

/-- The text of a piece. -/
def chars (p : Piece) : List Char :=
  p.lexeme.chars ++ if p.gap then [' '] else []

/-- The text of pieces. -/
def textOf (ps : List Piece) : List Char := ps.flatMap chars

@[simp] theorem textOf_nil : textOf [] = [] := rfl

@[simp] theorem textOf_cons (p : Piece) (ps : List Piece) :
    textOf (p :: ps) = p.lexeme.chars ++ ((if p.gap then [' '] else []) ++ textOf ps) := by
  simp [textOf, chars]

@[simp] theorem textOf_append (ps qs : List Piece) : textOf (ps ++ qs) = textOf ps ++ textOf qs :=
  List.flatMap_append

/-- **The blanks that are needed** are there: none after a joint mark, but one between a word and
what its letters would run into. -/
def Spaced : List Piece → Prop
  | [] => True
  | p :: ps =>
    (p.lexeme.isWordy = true → p.gap = false → Lexer.endsLexeme (textOf ps) = true) ∧
      (p.lexeme.isJoint = true → p.gap = false) ∧ Spaced ps

end Piece

open Lexer Piece

/-- **The text of a token list** is spaced, also before what ends a word. -/
theorem exists_pieces {ts : List Token} (h : Token.Plain ts) :
    ∃ ps : List Piece, ps.map Piece.lexeme = Token.listLexemes ts ∧
      textOf ps = Token.listChars ts ∧
      ∀ rest, Spaced rest → endsLexeme (textOf rest) = true → Spaced (ps ++ rest) := by
  -- one lexeme before those of the other tokens; a joint mark is not the last
  have leaf {t : Token} {ts : List Token} {ps : List Piece} (hlexemes : t.lexemes = [.leaf t])
      (hwordy : (Lexeme.leaf t).isWordy = true → t.isJoint = false)
      (hps : ps.map Piece.lexeme = Token.listLexemes ts) (htext : textOf ps = Token.listChars ts)
      (hspaced : ∀ rest, Spaced rest → endsLexeme (textOf rest) = true → Spaced (ps ++ rest)) :
      ∃ ps : List Piece, ps.map Piece.lexeme = Token.listLexemes (t :: ts) ∧
        textOf ps = Token.listChars (t :: ts) ∧
        ∀ rest, Spaced rest → endsLexeme (textOf rest) = true → Spaced (ps ++ rest) := by
    refine ⟨⟨.leaf t, !ts.isEmpty && !t.isJoint⟩ :: ps, ?_, ?_, fun rest hrest hends => ?_⟩
    · simp [Token.listLexemes, hlexemes, hps]
    · rw [textOf_cons, Token.listChars_cons, htext, List.append_assoc]
      rfl
    · refine ⟨fun hw hgap => ?_, fun hjoint => ?_, hspaced rest hrest hends⟩
      · -- nothing of the list follows, since a word is no joint mark
        have hempty : ts = [] := by simpa [hwordy hw] using hgap
        subst hempty
        obtain rfl : ps = [] := List.map_eq_nil_iff.1 hps
        exact hends
      · have hj : t.isJoint = true := hjoint
        simp [hj]
  induction h with
  | nil => exact ⟨[], rfl, rfl, fun rest hrest _ => hrest⟩
  | word _ _ ih =>
    obtain ⟨ps, hps, htext, hspaced⟩ := ih
    exact leaf rfl (fun _ => rfl) hps htext hspaced
  | lifetime _ _ ih =>
    obtain ⟨ps, hps, htext, hspaced⟩ := ih
    exact leaf rfl (fun _ => rfl) hps htext hspaced
  | number _ _ ih =>
    obtain ⟨ps, hps, htext, hspaced⟩ := ih
    exact leaf rfl (fun _ => rfl) hps htext hspaced
  | mark _ _ ih =>
    obtain ⟨ps, hps, htext, hspaced⟩ := ih
    exact leaf rfl (fun _ => rfl) hps htext hspaced
  | joint _ _ ih =>
    obtain ⟨ps, hps, htext, hspaced⟩ := ih
    exact leaf rfl (fun hw => by cases hw) hps htext hspaced
  | @group delim content ts hdelim _ _ ihContent ih =>
    obtain ⟨inner, hinner, hinnerText, hinnerSpaced⟩ := ihContent
    obtain ⟨ps, hps, htext, hspaced⟩ := ih
    have hchars : (Token.group delim content).chars =
        delim.opening ++ (Token.listChars content ++ [delim.closing]) := by
      simp [Token.chars, hdelim]
    have hclosing (rest : List Char) : endsLexeme (delim.closing :: rest) = true := by
      cases delim with
      | paren => rfl
      | bracket => rfl
      | brace => exact absurd rfl hdelim
    refine ⟨⟨.opening delim, false⟩ ::
      (inner ++ ⟨.closing delim, !ts.isEmpty⟩ :: ps), ?_, ?_, fun rest hrest hends => ?_⟩
    · simp [Token.listLexemes, Token.lexemes, hinner, hps]
    · rw [Token.listChars_cons, hchars]
      simp [hinnerText, htext, Lexeme.chars, Token.isJoint]
    · rw [List.cons_append, List.append_assoc, List.cons_append]
      refine ⟨nofun, nofun, hinnerSpaced _ ?_ ?_⟩
      · exact ⟨nofun, nofun, hspaced rest hrest hends⟩
      · exact hclosing _

theorem Piece.Spaced.suffix {ps qs : List Piece} (h : Spaced (ps ++ qs)) : Spaced qs := by
  induction ps with
  | nil => exact h
  | cons p ps ih => exact ih h.2.2

/-! ### Characters of lexemes -/

/-- The marks after which a blank may be closed. -/
def narrowAfter : List Char := [':', '<', '&']

/-- The marks before which a blank may be closed. -/
def narrowBefore : List Char := [':', '<', '>', ',', ';']

/-- What is known of the characters of a lexeme: the first begins no blank, comment or byte order
mark, and none is a blank; where letters may follow, none is a mark after which a blank may be
closed. -/
structure Lexeme.Sound (l : Lexeme) : Prop where
  head : ∃ c cs, l.chars = c :: cs ∧ isSourceBlank c = false ∧ c ≠ '/' ∧ c.toNat ≠ 0xfeff
  blank : ' ' ∉ l.chars
  apart : l.isWordy = true → ∀ c ∈ narrowAfter, c ∉ l.chars

/-- A word has no blank and no mark in it but the one that makes it raw. -/
theorem not_mem_spelling {raw : Bool} {name : String} (h : Ident.isSpelling raw name = true)
    {c : Char} (hstart : isIdentStart c = false) (hcontinue : isIdentContinue c = false)
    (hsign : c ≠ '#') : c ∉ (Token.spelling raw name).toList := by
  obtain ⟨d, ds, heq, hd, hds⟩ := exists_of_isWordText (Ident.isWordText_of_isSpelling h)
  have hname : c ∉ name.toList := by
    rw [heq]
    intro hmem
    rcases List.mem_cons.1 hmem with rfl | hmem
    · rw [hd] at hstart
      cases hstart
    · rw [List.all_eq_true.1 hds c hmem] at hcontinue
      cases hcontinue
  have hr : c ≠ 'r' := by
    rintro rfl
    revert hstart
    decide
  cases raw with
  | false => exact hname
  | true => simp [Token.spelling, hname, hsign, hr]

/-- The blank and the marks beside which one may be closed are in no word. -/
theorem not_mem_spelling_of_narrow {raw : Bool} {name : String}
    (h : Ident.isSpelling raw name = true) :
    ' ' ∉ (Token.spelling raw name).toList ∧
      ∀ c ∈ narrowAfter, c ∉ (Token.spelling raw name).toList := by
  have hmarks : (' ' :: narrowAfter).all (fun c => !isIdentStart c && !isIdentContinue c &&
    c != '#') = true := by decide
  have hmem : ∀ c ∈ ' ' :: narrowAfter, c ∉ (Token.spelling raw name).toList := by
    intro c hc
    have hmark := List.all_eq_true.1 hmarks c hc
    rw [Bool.and_eq_true, Bool.and_eq_true, Bool.not_eq_true', Bool.not_eq_true', bne_iff_ne] at hmark
    exact not_mem_spelling h hmark.1.1 hmark.1.2 hmark.2
  exact List.forall_mem_cons.1 hmem

theorem sound_word {raw : Bool} {name : String} (h : Ident.isSpelling raw name = true) :
    (Lexeme.leaf (.word raw name)).Sound := by
  obtain ⟨c, cs, heq, hc, -⟩ := exists_spelling h
  obtain ⟨hblank, hmarks⟩ := not_mem_spelling_of_narrow h
  have hapart := (isIdentStart_apart hc).1
  exact ⟨⟨c, cs, heq, hapart.1, isIdentStart_ne hc (by decide), hapart.2⟩, hblank, fun _ => hmarks⟩

theorem sound_lifetime {raw : Bool} {name : String} (h : Ident.isSpelling raw name = true) :
    (Lexeme.leaf (.lifetime raw name)).Sound := by
  obtain ⟨hblank, hmarks⟩ := not_mem_spelling_of_narrow h
  have happ : '\'' ∉ narrowAfter := by decide
  refine ⟨⟨'\'', _, rfl, by decide, by decide, by decide⟩, ?_, fun _ c hc hmem => ?_⟩
  · exact fun hmem => hblank ((List.mem_cons.1 hmem).resolve_left (by decide))
  · exact hmarks c hc ((List.mem_cons.1 hmem).resolve_left fun heq => happ (heq ▸ hc))

theorem sound_number {text : String} (h : isWholeNumber text = true) :
    (Lexeme.leaf (.literal text)).Sound := by
  obtain ⟨c, cs, htext, hc, hcs⟩ := exists_of_isWholeNumber h
  have hall : ∀ d ∈ text.toList, isAsciiDigit d = true := by
    rw [htext]
    exact List.forall_mem_cons.2 ⟨hc, hcs⟩
  have hno {d : Char} (hd : isAsciiDigit d = false) : d ∉ text.toList := by
    intro hmem
    rw [hall d hmem] at hd
    cases hd
  have hmarks : narrowAfter.all (fun d => !isAsciiDigit d) = true := by decide
  obtain ⟨-, hblank, hslash, -⟩ := digit_apart hc
  have hascii : c.toNat < 128 := of_decide_eq_true (isAscii_of_isAsciiDigit hc)
  refine ⟨⟨c, cs, htext, hblank, hslash, by omega⟩, hno (by decide), fun _ d hd => hno ?_⟩
  simpa using List.all_eq_true.1 hmarks d hd

theorem sound_mark {c : Char} {joint : Bool} (h : Token.isPlainMark c = true) :
    (Lexeme.leaf (.punct c joint)).Sound := by
  have hmarks : (markChars.filter fun c => c != '/').all (fun c => !isSourceBlank c && c != ' ' &&
    c.toNat != 0xfeff) = true := by decide
  obtain ⟨hmem, -, hslash⟩ := Token.apart_of_isPlainMark h
  have hmem : c ∈ markChars.filter fun c => c != '/' :=
    List.mem_filter.2 ⟨hmem, bne_iff_ne.2 hslash⟩
  have hmark := List.all_eq_true.1 hmarks c hmem
  simp only [Bool.and_eq_true, Bool.not_eq_true', bne_iff_ne] at hmark
  exact ⟨⟨c, [], rfl, hmark.1.1, hslash, hmark.2⟩,
    fun hmem => hmark.1.2 (List.mem_singleton.1 hmem).symm, nofun⟩

theorem sound_opening {delim : Delimiter} (h : delim ≠ .brace) : (Lexeme.opening delim).Sound := by
  cases delim with
  | paren => exact ⟨⟨'(', [], rfl, by decide, by decide, by decide⟩, by decide, nofun⟩
  | bracket => exact ⟨⟨'[', [], rfl, by decide, by decide, by decide⟩, by decide, nofun⟩
  | brace => exact absurd rfl h

theorem sound_closing (delim : Delimiter) : (Lexeme.closing delim).Sound := by
  cases delim with
  | paren => exact ⟨⟨')', [], rfl, by decide, by decide, by decide⟩, by decide, nofun⟩
  | bracket => exact ⟨⟨']', [], rfl, by decide, by decide, by decide⟩, by decide, nofun⟩
  | brace => exact ⟨⟨'\x7d', [], rfl, by decide, by decide, by decide⟩, by decide, nofun⟩

/-- **The lexemes of tokens** are sound. -/
theorem sound_of_plain {ts : List Token} (h : Token.Plain ts) :
    ∀ l ∈ Token.listLexemes ts, l.Sound := by
  induction h with
  | nil => exact fun l hl => by cases hl
  | word hspell _ ih => exact List.forall_mem_cons.2 ⟨sound_word hspell, ih⟩
  | lifetime hspell _ ih => exact List.forall_mem_cons.2 ⟨sound_lifetime hspell, ih⟩
  | number hnumber _ ih => exact List.forall_mem_cons.2 ⟨sound_number hnumber, ih⟩
  | mark hmark _ ih => exact List.forall_mem_cons.2 ⟨sound_mark hmark, ih⟩
  | joint hmark _ ih => exact List.forall_mem_cons.2 ⟨sound_mark hmark, ih⟩
  | group hdelim _ _ ihContent ih =>
    simp only [Token.listLexemes, Token.lexemes, List.cons_append, List.forall_mem_cons,
      List.forall_mem_append, List.append_assoc, List.nil_append]
    exact ⟨sound_opening hdelim, ihContent, sound_closing _, ih⟩

/-! ### Closing blanks -/

/-- The text `text'` is `text`, but some blanks after a mark of `narrowAfter` or before one of
`narrowBefore` are closed; `before` is the character before the text. -/
inductive Narrows : (before : Char) → (text text' : List Char) → Prop where
  | nil {before : Char} : Narrows before [] []
  | keep {before c : Char} {text text' : List Char} : Narrows c text text' →
    Narrows before (c :: text) (c :: text')
  | close {before : Char} {text text' : List Char} :
    (before ∈ narrowAfter ∨ ∃ c ∈ text.head?, c ∈ narrowBefore) → Narrows before text text' →
    Narrows before (' ' :: text) text'

/-- Characters that are no blanks stay. -/
theorem Narrows.append {before : Char} {cs text text' : List Char} (hcs : ' ' ∉ cs)
    (h : Narrows before (cs ++ text) text') :
    ∃ rest, text' = cs ++ rest ∧ Narrows (cs.getLastD before) text rest := by
  induction cs generalizing before text' with
  | nil => exact ⟨text', rfl, h⟩
  | cons c cs ih =>
    rw [List.mem_cons, not_or] at hcs
    cases h with
    | keep h =>
      obtain ⟨rest, rfl, hrest⟩ := ih hcs.2 h
      exact ⟨rest, rfl, by rwa [List.getLastD_cons]⟩
    | close => exact absurd rfl hcs.1

/-- The text after a word begins as before where the lexemes are the same. -/
theorem endsLexeme_textOf {ps qs : List Piece} (h : qs.map Piece.lexeme = ps.map Piece.lexeme)
    (hsound : ∀ p ∈ ps, p.lexeme.Sound) : endsLexeme (textOf qs) = endsLexeme (textOf ps) := by
  cases ps with
  | nil => rw [List.map_eq_nil_iff.1 h]
  | cons p ps =>
    obtain ⟨q, qs, rfl, hlexeme, -⟩ := List.map_eq_cons_iff.1 h
    obtain ⟨c, cs, hchars, -⟩ := (hsound p List.mem_cons_self).head
    simp only [textOf_cons, hlexeme, hchars, List.cons_append]
    rfl

/-- **Closing blanks** leaves the lexemes, and the blanks that are needed. -/
theorem exists_pieces_of_narrows {ps : List Piece} (hsound : ∀ p ∈ ps, p.lexeme.Sound)
    (hspaced : Spaced ps) {before : Char} {text : List Char} (h : Narrows before (textOf ps) text) :
    ∃ qs : List Piece, qs.map Piece.lexeme = ps.map Piece.lexeme ∧ textOf qs = text ∧
      Spaced qs := by
  induction ps generalizing before text with
  | nil =>
    cases h with
    | nil => exact ⟨[], rfl, rfl, trivial⟩
  | cons p ps ih =>
    obtain ⟨hp, hps⟩ := List.forall_mem_cons.1 hsound
    obtain ⟨hwordy, hjoint, hrest⟩ := hspaced
    rw [textOf_cons] at h
    obtain ⟨text, rfl, htail⟩ := h.append hp.blank
    -- the piece stays, or its blank is closed
    have step (gap : Bool) {b : Char} {text' : List Char} (h : Narrows b (textOf ps) text')
        (hgap : gap = true → p.gap = true)
        (hends : p.lexeme.isWordy = true → gap = false → endsLexeme (textOf ps) = true) :
        ∃ qs : List Piece, qs.map Piece.lexeme = p.lexeme :: ps.map Piece.lexeme ∧
          textOf qs = p.lexeme.chars ++ ((if gap then [' '] else []) ++ text') ∧ Spaced qs := by
      obtain ⟨qs, hqs, htext, hspaced⟩ := ih hps hrest h
      refine ⟨⟨p.lexeme, gap⟩ :: qs, by rw [List.map_cons, hqs], by rw [textOf_cons, htext], ?_, ?_,
        hspaced⟩
      · intro hw hg
        rw [endsLexeme_textOf hqs hps]
        exact hends hw hg
      · intro hj
        rw [Bool.eq_false_iff]
        intro hg
        have hclosed := hjoint hj
        rw [hgap hg] at hclosed
        cases hclosed
    cases hgap : p.gap with
    | false =>
      rw [hgap, if_neg (by decide), List.nil_append] at htail
      exact step false htail nofun fun hw _ => hwordy hw hgap
    | true =>
      rw [hgap, if_pos rfl, List.singleton_append] at htail
      cases htail with
      | keep htail => exact step true htail (fun _ => hgap) nofun
      | close hbeside htail =>
        refine step false htail nofun fun hw _ => ?_
        rcases hbeside with hafter | ⟨c, hc, hbefore⟩
        · -- the blank does not follow a mark, since the lexeme is a word or a number
          obtain ⟨c, cs, hchars, -⟩ := hp.head
          have hmem : p.lexeme.chars.getLastD before ∈ p.lexeme.chars := by
            rw [List.getLastD_eq_getLast?, List.getLast?_eq_some_getLast (by simp [hchars])]
            exact List.getLast_mem _
          exact absurd hmem (hp.apart hw _ hafter)
        · have hends : narrowBefore ⊆ lexemeEnds := by decide
          cases htext : textOf ps with
          | nil => rfl
          | cons d ds =>
            rw [htext] at hc
            obtain rfl : d = c := by simpa using hc
            exact List.contains_iff_mem.2 (hends hbefore)

/-! ### Reading the text -/

theorem atCode_textOf {ps : List Piece} (hsound : ∀ p ∈ ps, p.lexeme.Sound) :
    atCode (textOf ps) = true := by
  cases ps with
  | nil => rfl
  | cons p ps =>
    obtain ⟨c, cs, hchars, hblank, hslash, -⟩ := (hsound p List.mem_cons_self).head
    rw [textOf_cons, hchars, List.cons_append]
    exact atCode_of_ne_slash hblank hslash _

/-- The blank after a lexeme is passed over. -/
theorem run_gap (p : Piece) {ps : List Piece} (hsound : ∀ p ∈ ps, p.lexeme.Sound) {fuel : Nat}
    {opened : List (Delimiter × List Token)} {before : List Token} :
    run (fuel + 2) ((if p.gap then [' '] else []) ++ textOf ps) opened before =
      run (fuel + 2) (textOf ps) opened before := by
  cases p.gap with
  | false => rfl
  | true => exact run_blank (atCode_textOf hsound)

theorem atMark_cons {c : Char} (h : Token.isPlainMark c = true) (rest : List Char) :
    atMark (c :: rest) = true := by
  obtain ⟨hmem, -, hslash⟩ := Token.apart_of_isPlainMark h
  have hline : startsWith "//" (c :: rest) = false := startsWith_of_ne rfl hslash.symm
  have hblock : startsWith "/*" (c :: rest) = false := startsWith_of_ne rfl hslash.symm
  simp [atMark, hmem, hline, hblock]

theorem run_plainMark {c : Char} (h : Token.isPlainMark c = true) {fuel : Nat} {rest : List Char}
    {opened : List (Delimiter × List Token)} {before : List Token} :
    run (fuel + 1) (c :: rest) opened before =
      run fuel rest opened (.punct c (atMark rest) :: before) := by
  obtain ⟨hmem, happ, hslash⟩ := Token.apart_of_isPlainMark h
  exact run_mark hmem happ (startsWith_of_ne rfl hslash.symm) (startsWith_of_ne rfl hslash.symm)

/-- What follows a word or a number in a spaced text ends it. -/
theorem endsLexeme_of_spaced {p : Piece} {ps : List Piece} (h : Spaced (p :: ps))
    (hwordy : p.lexeme.isWordy = true) :
    endsLexeme ((if p.gap then [' '] else []) ++ textOf ps) = true := by
  cases hgap : p.gap with
  | false => exact h.1 hwordy hgap
  | true => rfl

/-- The pieces `ps` before `rest` are read as the tokens `ts`, of which more may be joint. -/
def ReadAs (ts : List Token) (ps rest : List Piece) : Prop :=
  ∃ us, Token.Tightened ts us ∧ ∀ fuel opened before,
    run (fuel + 2 + ps.length) (textOf (ps ++ rest)) opened before =
      run (fuel + 2) (textOf rest) opened (us.reverse ++ before)

/-- One round for a token that is no group, and then its blank. -/
theorem ReadAs.leaf {t t' : Token} {ts : List Token} {p : Piece} {ps rest : List Piece}
    (hp : p.lexeme = .leaf t) (hsound : ∀ q ∈ ps ++ rest, q.lexeme.Sound)
    (hround : ∀ fuel opened before,
      run (fuel + 1) (t.chars ++ ((if p.gap then [' '] else []) ++ textOf (ps ++ rest))) opened
          before =
        run fuel ((if p.gap then [' '] else []) ++ textOf (ps ++ rest)) opened (t' :: before))
    (htight : ∀ us, Token.Tightened ts us → Token.Tightened (t :: ts) (t' :: us))
    (h : ReadAs ts ps rest) : ReadAs (t :: ts) (p :: ps) rest := by
  obtain ⟨us, hus, hrun⟩ := h
  refine ⟨t' :: us, htight us hus, fun fuel opened before => ?_⟩
  have hfuel : fuel + 2 + (p :: ps).length = fuel + ps.length + 2 + 1 := by
    rw [List.length_cons]
    omega
  have hswap : fuel + ps.length + 2 = fuel + 2 + ps.length := by omega
  rw [List.cons_append, textOf_cons, hp, Lexeme.chars, hfuel, hround, run_gap p hsound, hswap, hrun]
  simp

/-- No comment begins after a bracket. -/
theorem startsWith_slash_textOf (gap : Bool) {ps : List Piece}
    (hsound : ∀ p ∈ ps, p.lexeme.Sound) :
    startsWith "/" ((if gap then [' '] else []) ++ textOf ps) = false := by
  cases gap with
  | true => exact startsWith_of_ne (l := '/') rfl (by decide)
  | false =>
    cases ps with
    | nil => rfl
    | cons p ps =>
      obtain ⟨c, cs, hchars, -, hslash, -⟩ := (hsound p List.mem_cons_self).head
      rw [textOf_cons, hchars]
      exact startsWith_of_ne (l := '/') rfl hslash.symm

/-- A round for each bracket, and those for the content between them. -/
theorem ReadAs.group {delim : Delimiter} (hdelim : delim ≠ .brace) {content ts : List Token}
    {first last : Piece} {inner ps rest : List Piece} (hfirst : first.lexeme = .opening delim)
    (hlast : last.lexeme = .closing delim)
    (hsound : ∀ q ∈ inner ++ last :: (ps ++ rest), q.lexeme.Sound)
    (hcontent : ReadAs content inner (last :: (ps ++ rest))) (h : ReadAs ts ps rest) :
    ReadAs (.group delim content :: ts) (first :: (inner ++ last :: ps)) rest := by
  obtain ⟨content', htight, hinner⟩ := hcontent
  obtain ⟨us, hus, hrun⟩ := h
  refine ⟨.group delim content' :: us, .group htight hus, fun fuel opened before => ?_⟩
  have hlength : fuel + 2 + (first :: (inner ++ last :: ps)).length =
      fuel + ps.length + 1 + inner.length + 2 + 1 := by
    simp only [List.length_cons, List.length_append]
    omega
  have hswap : fuel + ps.length + 1 + inner.length + 2 = fuel + ps.length + 1 + 2 + inner.length := by
    omega
  have hround : fuel + ps.length + 1 + 2 = fuel + ps.length + 2 + 1 := by omega
  have hrest : fuel + ps.length + 2 = fuel + 2 + ps.length := by omega
  have hsuffix : ∀ q ∈ ps ++ rest, q.lexeme.Sound := fun q hq =>
    hsound q (List.mem_append_right _ (List.mem_cons_of_mem _ hq))
  rw [List.cons_append, List.append_assoc, List.cons_append, textOf_cons, hlength, hfirst,
    Lexeme.chars, run_opening hdelim (startsWith_slash_textOf _ hsound), run_gap first hsound, hswap,
    hinner, textOf_cons, hlast, Lexeme.chars, List.singleton_append, List.append_nil, hround,
    run_closing, run_gap last hsuffix, hrest, hrun]
  simp

/-- **Reading spaced tokens** before other pieces. -/
theorem readAs_of_spaced {ts : List Token} (h : Token.Plain ts) {ps rest : List Piece}
    (hps : ps.map Piece.lexeme = Token.listLexemes ts) (hspaced : Spaced (ps ++ rest))
    (hsound : ∀ p ∈ ps ++ rest, p.lexeme.Sound) : ReadAs ts ps rest := by
  induction h generalizing ps rest with
  | nil =>
    obtain rfl : ps = [] := List.map_eq_nil_iff.1 hps
    exact ⟨[], .nil, fun _ _ _ => rfl⟩
  | @word raw name ts hname hts ih =>
    obtain ⟨p, ps, rfl, hp, hps⟩ := List.map_eq_cons_iff.1 hps
    obtain ⟨-, htail⟩ := List.forall_mem_cons.1 hsound
    have hends := endsLexeme_of_spaced hspaced (by rw [hp]; rfl)
    exact .leaf hp htail (fun _ _ _ => run_spelling hname (endsWord_of_endsLexeme hends))
      (fun _ => .word) (ih hps hspaced.2.2 htail)
  | @lifetime raw name ts hname hts ih =>
    obtain ⟨p, ps, rfl, hp, hps⟩ := List.map_eq_cons_iff.1 hps
    obtain ⟨-, htail⟩ := List.forall_mem_cons.1 hsound
    have hends := endsLexeme_of_spaced hspaced (by rw [hp]; rfl)
    exact .leaf hp htail (fun _ _ _ => run_lifetime hname (endsWord_of_endsLexeme hends))
      (fun _ => .lifetime) (ih hps hspaced.2.2 htail)
  | @number text ts hnumber hts ih =>
    obtain ⟨p, ps, rfl, hp, hps⟩ := List.map_eq_cons_iff.1 hps
    obtain ⟨-, htail⟩ := List.forall_mem_cons.1 hsound
    have hends := endsLexeme_of_spaced hspaced (by rw [hp]; rfl)
    exact .leaf hp htail (fun _ _ _ => run_wholeNumber hnumber hends) (fun _ => .literal)
      (ih hps hspaced.2.2 htail)
  | @mark c ts hmark hts ih =>
    obtain ⟨p, ps, rfl, hp, hps⟩ := List.map_eq_cons_iff.1 hps
    obtain ⟨-, htail⟩ := List.forall_mem_cons.1 hsound
    exact .leaf hp htail (fun _ _ _ => run_plainMark hmark) (fun _ => .punct nofun)
      (ih hps hspaced.2.2 htail)
  | @joint c d joint ts hmark hts ih =>
    obtain ⟨p, ps, rfl, hp, hps⟩ := List.map_eq_cons_iff.1 hps
    obtain ⟨-, htail⟩ := List.forall_mem_cons.1 hsound
    -- the next mark follows immediately
    have hnext : atMark ((if p.gap then [' '] else []) ++ textOf (ps ++ rest)) = true := by
      have hgap : p.gap = false := hspaced.2.1 (by rw [hp]; rfl)
      obtain ⟨q, qs, rfl, hq, -⟩ := List.map_eq_cons_iff.1 hps
      have hd : Token.isPlainMark d = true := by cases hts <;> assumption
      rw [hgap, List.cons_append, textOf_cons, hq]
      exact atMark_cons hd _
    exact .leaf hp htail (fun _ _ _ => run_plainMark hmark) (fun _ => .punct fun _ => hnext)
      (ih hps hspaced.2.2 htail)
  | @group delim content ts hdelim hcontent hts ihContent ih =>
    rw [Token.listLexemes, Token.lexemes, List.cons_append, List.append_assoc] at hps
    obtain ⟨first, ps, rfl, hfirst, hps⟩ := List.map_eq_cons_iff.1 hps
    obtain ⟨inner, ps, rfl, hinner, hps⟩ := List.map_eq_append_iff.1 hps
    obtain ⟨last, ps, rfl, hlast, hps⟩ := List.map_eq_cons_iff.1 hps
    obtain ⟨-, hsound⟩ := List.forall_mem_cons.1 hsound
    have hspaced := hspaced.2.2
    rw [List.append_eq, List.append_assoc, List.cons_append] at hspaced hsound
    have htail : ∀ q ∈ ps ++ rest, q.lexeme.Sound := fun q hq =>
      hsound q (List.mem_append_right _ (List.mem_cons_of_mem _ hq))
    exact .group hdelim hfirst hlast hsound (ihContent hinner hspaced hsound)
      (ih hps hspaced.suffix.2.2 htail)

/-- **Tokens that are written with fewer blanks** are read as they are, but more marks may be
joint. -/
theorem lexChars_textOf {ts : List Token} (h : Token.Plain ts) {ps : List Piece}
    (hps : ps.map Piece.lexeme = Token.listLexemes ts) (hspaced : Spaced ps) :
    ∃ us, lexChars (textOf ps) = some us ∧ Token.Tightened ts us := by
  have hsound : ∀ p ∈ ps, p.lexeme.Sound := fun p hp =>
    sound_of_plain h _ (hps ▸ List.mem_map_of_mem hp)
  rw [← List.append_nil ps] at hspaced hsound
  obtain ⟨us, htight, hrun⟩ := readAs_of_spaced h hps hspaced hsound
  rw [List.append_nil] at hsound
  refine ⟨us, ?_, htight⟩
  have hmark : dropMark (textOf ps) = textOf ps := by
    cases ps with
    | nil => rfl
    | cons p ps =>
      obtain ⟨c, cs, hchars, -, -, hne⟩ := (hsound p List.mem_cons_self).head
      rw [textOf_cons, hchars, List.cons_append, dropMark, if_neg hne]
  have hlength : ps.length ≤ (textOf ps).length := by
    clear hps hspaced hrun hmark
    induction ps with
    | nil => exact Nat.le_refl 0
    | cons p ps ih =>
      obtain ⟨c, cs, hchars, -⟩ := (hsound p List.mem_cons_self).head
      have htail := ih fun q hq => hsound q (List.mem_cons_of_mem _ hq)
      rw [textOf_cons, hchars]
      simp only [List.length_cons, List.length_append]
      omega
  have hfuel : (textOf ps).length + 2 = (textOf ps).length - ps.length + 2 + ps.length := by omega
  have hround := hrun ((textOf ps).length - ps.length) [] []
  rw [List.append_nil, List.append_nil, ← hfuel, textOf_nil, run_nil, List.reverse_reverse] at hround
  rw [lexChars, hmark, hround]

end Scaffold.Syntax
