import Scaffold.Syntax.Token
import Scaffold.Text.CharClass
import Scaffold.Text.Quoted

/-!
# From text to tokens

`lex` cuts a source text into token trees.  It is written over `List Char`: a lexeme function
takes the text that is left and returns what is left after the lexeme, or nothing where the
lexeme does not begin there.  Blanks and ordinary comments separate tokens; a documentation
comment stands for the attribute that it abbreviates.

The main loop keeps the groups that are still open on a stack, so nesting needs no recursion, and
each round takes at least one character, so the length of the text bounds the rounds.
-/

namespace Scaffold.Syntax.Lexer

open Scaffold.Text

/-! ### Blanks and comments -/

/-- Whether `text` begins with `lead`. -/
def startsWith (lead : String) (text : List Char) : Bool :=
  lead.toList.isPrefixOf text

/-- What is left of a line comment's text: the line end itself stays, a carriage return before
it does not. -/
def dropLine : List Char → List Char
  | [] => []
  | '\n' :: cs => '\n' :: cs
  | '\r' :: '\n' :: cs => '\n' :: cs
  | _ :: cs => dropLine cs

/-- The text of a line, without its end. -/
def takeLine : List Char → List Char
  | [] => []
  | '\n' :: _ => []
  | '\r' :: '\n' :: _ => []
  | c :: cs => c :: takeLine cs

/-- What follows the block comment whose `depth` openings have been read; comments nest. -/
def dropBlock (depth : Nat) : List Char → Option (List Char)
  | '/' :: '*' :: cs => dropBlock (depth + 1) cs
  | '*' :: '/' :: cs => if depth ≤ 1 then some cs else dropBlock (depth - 1) cs
  | _ :: cs => dropBlock depth cs
  | [] => none

/-- What follows the block comment at the head of `text`. -/
def blockComment (text : List Char) : Option (List Char) :=
  if startsWith "/*" text then dropBlock 1 (text.drop 2) else none

/-- A blank in source text: a white-space character or one of the two direction marks. -/
def isSourceBlank (c : Char) : Bool :=
  isBlank c || c.toNat = 0x200e || c.toNat = 0x200f

/-- Whether a line comment that documents nothing begins here. -/
def isPlainLineComment (text : List Char) : Bool :=
  startsWith "//" text && (!startsWith "///" text || startsWith "////" text) &&
    !startsWith "//!" text

/-- Whether a block comment that documents nothing begins here. -/
def isPlainBlockComment (text : List Char) : Bool :=
  startsWith "/*" text && (!startsWith "/**" text || startsWith "/***" text) &&
    !startsWith "/*!" text

/-- Drops blanks and plain comments, at most `fuel` of them; an unclosed comment stays. -/
def skipBlank : Nat → List Char → List Char
  | 0, text => text
  | fuel + 1, text =>
    if isPlainLineComment text then skipBlank fuel (dropLine text)
    else if startsWith "/**/" text then skipBlank fuel (text.drop 4)
    else if isPlainBlockComment text then
      match blockComment text with
      | some rest => skipBlank fuel rest
      | none => text
    else match text with
      | c :: cs => if isSourceBlank c then skipBlank fuel cs else text
      | [] => []

/-! ### Words and lifetimes -/

/-- An identifier without a raw mark, and the rest. -/
def plainWord : List Char → Option (List Char × List Char)
  | c :: cs =>
    if isIdentStart c then
      some (c :: cs.takeWhile isIdentContinue, cs.dropWhile isIdentContinue)
    else none
  | [] => none

/-- Words that have no raw form. -/
def neverRaw : List String := ["_", "super", "self", "Self", "crate"]

/-- A word with its raw mark. -/
def anyWord (text : List Char) : Option (Bool × String × List Char) :=
  if startsWith "r#" text then
    match plainWord (text.drop 2) with
    | some (name, rest) =>
      if neverRaw.contains (String.ofList name) then none
      else some (true, String.ofList name, rest)
    | none => none
  else
    (plainWord text).map fun (name, rest) => (false, String.ofList name, rest)

/-- The beginnings of literals that are no words even where the literal is malformed. -/
def literalLeads : List String :=
  ["r\"", "r#\"", "r##", "b\"", "b'", "br\"", "br#", "c\"", "cr\"", "cr#"]

/-- The word at the head of the text. -/
def word (text : List Char) : Option (Token × List Char) :=
  if literalLeads.any (startsWith · text) then none
  else (anyWord text).map fun (raw, name, rest) => (.word raw name, rest)

/-- What is left after the suffix of a literal. -/
def dropSuffix (text : List Char) : List Char :=
  match plainWord text with
  | some (_, rest) => rest
  | none => text

/-! ### Quoted literals -/

/-- What follows the blanks after a backslash at a line end: at least one character must. -/
def dropContinuation : List Char → Option (List Char)
  | '\r' :: '\n' :: cs => dropContinuation cs
  | '\r' :: _ => none
  | ' ' :: cs => dropContinuation cs
  | '\t' :: cs => dropContinuation cs
  | '\n' :: cs => dropContinuation cs
  | [] => none
  | cs => some cs

/-- What follows the digits of `\u`, and the code point: at most six digits in braces,
underscores allowed after the first. -/
def unicodeDigits : (count value : Nat) → List Char → Option (Nat × List Char)
  | count, value, c :: cs =>
    if isHexDigit c then
      if count = 6 then none else unicodeDigits (count + 1) (16 * value + hexDigitValue c) cs
    else if c = '_' ∧ 0 < count then unicodeDigits count value cs
    else if c = '\x7d' ∧ 0 < count then
      if value < 0xd800 ∨ (0xdfff < value ∧ value < 0x110000) then some (value, cs) else none
    else none
  | _, _, [] => none

/-- The escape `\u` after its letter. -/
def unicodeEscape : List Char → Option (Nat × List Char)
  | c :: cs => if c = '\x7b' then unicodeDigits 0 0 cs else none
  | [] => none

/-- The kinds of quoted text, which differ in the characters and escapes they allow. -/
inductive QuoteKind where
  | text
  | bytes
  | cText
  deriving DecidableEq

/-- Whether the two digits after `\x` are allowed. -/
def QuoteKind.allowsHex (kind : QuoteKind) (high low : Char) : Bool :=
  isHexDigit low &&
    match kind with
    | .text => '0' ≤ high && high ≤ '7'
    | .bytes => isHexDigit high
    | .cText => isHexDigit high && !(high = '0' && low = '0')

/-- Whether the one-letter escape of `c` is allowed. -/
def QuoteKind.allowsEscape (kind : QuoteKind) (c : Char) : Bool :=
  ['n', 'r', 't', '\\', '\'', '"'].contains c || (c = '0' && kind ≠ .cText)

/-- What follows the quoted text whose opening mark has been read, and the literal's suffix. -/
def quoted (kind : QuoteKind) : Nat → List Char → Option (List Char)
  | 0, _ => none
  | fuel + 1, text =>
    match text with
    | [] => none
    | '"' :: cs => some (dropSuffix cs)
    | '\r' :: '\n' :: cs => quoted kind fuel cs
    | '\r' :: _ => none
    | '\\' :: 'x' :: high :: low :: cs =>
      if kind.allowsHex high low then quoted kind fuel cs else none
    | '\\' :: 'u' :: cs =>
      if kind = .bytes then none
      else match unicodeEscape cs with
        | some (value, rest) =>
          if kind = .cText ∧ value = 0 then none else quoted kind fuel rest
        | none => none
    | '\\' :: '\n' :: cs => (dropContinuation cs).bind (quoted kind fuel)
    | '\\' :: '\r' :: '\n' :: cs => (dropContinuation cs).bind (quoted kind fuel)
    | '\\' :: c :: cs => if kind.allowsEscape c then quoted kind fuel cs else none
    | c :: cs =>
      if c = '\\' ∨ (kind = .bytes ∧ !isAscii c) ∨ (kind = .cText ∧ c.toNat = 0) then none
      else quoted kind fuel cs

/-- What follows raw quoted text: up to a quote with `marks` number signs after it. -/
def rawBody (kind : QuoteKind) (marks : Nat) : List Char → Option (List Char)
  | [] => none
  | '\r' :: '\n' :: cs => rawBody kind marks cs
  | '\r' :: _ => none
  | c :: cs =>
    if c = '"' ∧ (List.replicate marks '#').isPrefixOf cs then some (dropSuffix (cs.drop marks))
    else if (kind = .bytes ∧ !isAscii c) ∨ (kind = .cText ∧ c.toNat = 0) then none
    else rawBody kind marks cs

/-- Raw quoted text from its number signs on; at most 255 of them. -/
def rawQuoted (kind : QuoteKind) (text : List Char) : Option (List Char) :=
  let marks := (text.takeWhile (· = '#')).length
  match text.dropWhile (· = '#') with
  | '"' :: cs => if marks ≤ 255 then rawBody kind marks cs else none
  | _ => none

/-- A string literal of any kind. -/
def stringLiteral (text : List Char) : Option (List Char) :=
  match text with
  | '"' :: cs => quoted .text (cs.length + 1) cs
  | 'r' :: cs => rawQuoted .text cs
  | 'b' :: '"' :: cs => quoted .bytes (cs.length + 1) cs
  | 'b' :: 'r' :: cs => rawQuoted .bytes cs
  | 'c' :: '"' :: cs => quoted .cText (cs.length + 1) cs
  | 'c' :: 'r' :: cs => rawQuoted .cText cs
  | _ => none

/-- The closing apostrophe and the suffix. -/
def closeChar : List Char → Option (List Char)
  | '\'' :: cs => some (dropSuffix cs)
  | _ => none

/-- A character literal, after its apostrophe. -/
def charBody : List Char → Option (List Char)
  | '\\' :: 'x' :: high :: low :: cs =>
    if QuoteKind.text.allowsHex high low then closeChar cs else none
  | '\\' :: 'u' :: cs => (unicodeEscape cs).bind fun (_, rest) => closeChar rest
  | '\\' :: c :: cs => if QuoteKind.text.allowsEscape c then closeChar cs else none
  | '\\' :: [] => none
  | _ :: cs => closeChar cs
  | [] => none

/-- A byte literal, after its apostrophe; the byte itself is one byte long. -/
def byteBody : List Char → Option (List Char)
  | '\\' :: 'x' :: high :: low :: cs =>
    if QuoteKind.bytes.allowsHex high low then closeChar cs else none
  | '\\' :: c :: cs => if QuoteKind.bytes.allowsEscape c then closeChar cs else none
  | '\\' :: [] => none
  | c :: cs => if isAscii c then closeChar cs else none
  | [] => none

/-! ### Numbers -/

/-- Whether no identifier character follows. -/
def atWordBreak : List Char → Bool
  | c :: _ => !isIdentContinue c
  | [] => true

/-- Takes the suffix of a number and asks for a word break. -/
def closeNumber (text : List Char) : Option (List Char) :=
  let rest := dropSuffix text
  if atWordBreak rest then some rest else none

/-- The exponent of a floating-point number, after its letter: `none` where it has no digit. -/
def exponent : (signed digits : Bool) → List Char → Option (List Char)
  | signed, digits, c :: cs =>
    if c = '+' ∨ c = '-' then
      if digits then some (c :: cs) else if signed then none else exponent true digits cs
    else if isAsciiDigit c then exponent signed true cs
    else if c = '_' then exponent signed digits cs
    else if digits then some (c :: cs) else none
  | _, digits, [] => if digits then some [] else none

/-- The digits of a floating-point number: a point that no point or name follows, an exponent,
or both.  Where an exponent has no digits, its letter begins the suffix. -/
def floatDigits : (point : Bool) → List Char → Option (List Char)
  | point, '.' :: cs =>
    if point then some ('.' :: cs)
    else match cs with
      | c :: _ => if c = '.' || isIdentStart c then none else floatDigits true cs
      | [] => some []
  | point, c :: cs =>
    if isAsciiDigit c ∨ c = '_' then floatDigits point cs
    else if c = 'e' ∨ c = 'E' then
      match exponent false false cs with
      | some rest => some rest
      | none => if point then some (c :: cs) else none
    else if point then some (c :: cs) else none
  | point, [] => if point then some [] else none

/-- A floating-point literal. -/
def floatLiteral (text : List Char) : Option (List Char) :=
  match text with
  | c :: cs => if isAsciiDigit c then (floatDigits false cs).bind closeNumber else none
  | [] => none

/-- The digits of an integer; `seen` tells whether there was one already. -/
def intDigits (base : Nat) : (seen : Bool) → List Char → Option (List Char)
  | seen, c :: cs =>
    if isAsciiDigit c then
      if hexDigitValue c < base then intDigits base true cs else none
    else if isHexDigit c then
      if hexDigitValue c < base then intDigits base true cs
      else if seen then some (c :: cs) else none
    else if c = '_' then
      if !seen && base == 10 then none else intDigits base seen cs
    else if seen then some (c :: cs) else none
  | seen, [] => if seen then some [] else none

/-- An integer literal. -/
def intLiteral (text : List Char) : Option (List Char) :=
  let digits :=
    if startsWith "0x" text then intDigits 16 false (text.drop 2)
    else if startsWith "0o" text then intDigits 8 false (text.drop 2)
    else if startsWith "0b" text then intDigits 2 false (text.drop 2)
    else intDigits 10 false text
  digits.bind closeNumber

/-- What follows the literal at the head of the text. -/
def literalEnd (text : List Char) : Option (List Char) :=
  match stringLiteral text with
  | some rest => some rest
  | none =>
    let char :=
      match text with
      | 'b' :: '\'' :: cs => byteBody cs
      | '\'' :: cs => charBody cs
      | _ => none
    match char with
    | some rest => some rest
    | none =>
      match floatLiteral text with
      | some rest => some rest
      | none => intLiteral text

/-- The literal at the head of the text. -/
def literal (text : List Char) : Option (Token × List Char) :=
  (literalEnd text).map fun rest =>
    (.literal (String.ofList (text.take (text.length - rest.length))), rest)

/-! ### Punctuation -/

/-- The characters that are punctuation marks; the apostrophe belongs to lifetimes. -/
def markChars : List Char := "~!@#$%^&*-=+|;:,<.>/?'".toList

/-- Whether a punctuation mark stands at the head; the slash of a comment is none. -/
def atMark (text : List Char) : Bool :=
  match text with
  | c :: _ => markChars.contains c && !startsWith "//" text && !startsWith "/*" text
  | [] => false

/-- A punctuation mark or a lifetime.  An apostrophe whose word begins a literal stands alone
before it. -/
def punctuation (text : List Char) : Option (Token × List Char) :=
  if !atMark text then none
  else match text with
    | '\'' :: cs =>
      match anyWord cs with
      | some (raw, name, rest) =>
        if startsWith "'" rest || (startsWith "#" rest && !raw) then none
        else if literalLeads.any (startsWith · cs) then some (.punct '\'' true, cs)
        else some (.lifetime raw name, rest)
      | none => none
    | c :: cs => some (.punct c (atMark cs), cs)
    | [] => none

/-- The one text in parentheses that is a literal. -/
def errorLiteral : String := "(/*ERROR*/)"

/-- A token that is no group. -/
def leaf (text : List Char) : Option (Token × List Char) :=
  match literal text with
  | some found => some found
  | none =>
    match punctuation text with
    | some found => some found
    | none =>
      match word text with
      | some found => some found
      | none =>
        if startsWith errorLiteral text then
          some (.literal errorLiteral, text.drop errorLiteral.length)
        else none

/-! ### Documentation comments -/

/-- Whether every carriage return stands before a line end. -/
def returnsPaired : List Char → Bool
  | '\r' :: '\n' :: cs => returnsPaired cs
  | '\r' :: _ => false
  | _ :: cs => returnsPaired cs
  | [] => true

/-- The text of a documentation comment, whether it documents what encloses it, and the rest. -/
def docComment (text : List Char) : Option (List Char × Bool × List Char) :=
  let line (inner : Bool) := some (takeLine (text.drop 3), inner, dropLine (text.drop 3))
  let block (inner : Bool) := (blockComment text).map fun rest =>
    let whole := text.take (text.length - rest.length)
    ((whole.drop 3).take (whole.length - 5), inner, rest)
  if startsWith "//!" text then line true
  else if startsWith "/*!" text then block true
  else if startsWith "///" text then if startsWith "////" text then none else line false
  else if startsWith "/**" text then if startsWith "/***" text then none else block false
  else none

/-- The attribute that a documentation comment abbreviates. -/
def docAttribute (comment : List Char) (inner : Bool) : List Token :=
  [.punct '#' false] ++ (if inner then [.punct '!' false] else []) ++
    [.group .bracket
      [.word false "doc", .punct '=' false, .literal (Quoted.literalText (String.ofList comment))]]

/-! ### The loop -/

/-- Reads the rest of the text.  `opened` holds the delimiters of the groups that are open, each
with what was read before it; `done` is what was read in the innermost, last token first. -/
def run : Nat → List Char → List (Delimiter × List Token) → List Token → Option (List Token)
  | 0, _, _, _ => none
  | fuel + 1, text, opened, done =>
    let text := skipBlank fuel text
    match docComment text with
    | some (comment, inner, rest) =>
      if returnsPaired comment then
        run fuel rest opened ((docAttribute comment inner).reverse ++ done)
      else none
    | none =>
      match text with
      | [] => if opened.isEmpty then some done.reverse else none
      | c :: cs =>
        if startsWith errorLiteral text then
          run fuel (text.drop errorLiteral.length) opened (.literal errorLiteral :: done)
        else match Delimiter.ofOpening? c with
          | some delim => run fuel cs ((delim, done) :: opened) []
          | none =>
            match Delimiter.ofClosing? c with
            | some delim =>
              match opened with
              | (expected, outer) :: opened =>
                if delim = expected then
                  run fuel cs opened (.group delim done.reverse :: outer)
                else none
              | [] => none
            | none =>
              match leaf text with
              | some (token, rest) => run fuel rest opened (token :: done)
              | none => none

/-- Drops a byte order mark. -/
def dropMark : List Char → List Char
  | c :: cs => if c.toNat = 0xfeff then cs else c :: cs
  | [] => []

end Lexer

/-- **The tokens of a source text**, or nothing where the text is not made of tokens. -/
def lexChars (text : List Char) : Option (List Token) :=
  Lexer.run (text.length + 2) (Lexer.dropMark text) [] []

/-- The tokens of a source text. -/
def lex (text : String) : Option (List Token) :=
  lexChars text.toList

end Scaffold.Syntax
