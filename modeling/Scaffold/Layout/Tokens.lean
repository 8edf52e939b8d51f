import Scaffold.Layout.Basic

/-!
# Tokens that are no tree

The content of a macro call is not parsed, so its layout goes by the tokens alone: blanks between
them except where the neighbours tell that they belong together, as in `a.b`, `f(x)` or `$x:ty`.
The content of most attributes is laid out the same way, more sparingly.
-/

namespace Scaffold.Layout

open Syntax

/-! ### Single tokens -/

/-- The text that opens a group. -/
def openText : Delimiter → String
  | .paren => "("
  | .bracket => "["
  | .brace => "\x7b"

/-- The text that closes a group. -/
def closeText : Delimiter → String
  | .paren => ")"
  | .bracket => "]"
  | .brace => "\x7d"

/-- A token as the layout sees it; a lifetime is an apostrophe with a word after it. -/
inductive Lexeme where
  | ident (raw : Bool) (name : String)
  | mark (c : Char) (joint : Bool)
  | literal (text : String)
  | group (delim : Delimiter) (content : List Token)

/-- The lexemes of a token. -/
def lexemes : Token → List Lexeme
  | .word raw name => [.ident raw name]
  | .lifetime raw name => [.mark '\'' true, .ident raw name]
  | .punct c joint => [.mark c joint]
  | .literal text => [.literal text]
  | .group delim content => [.group delim content]

/-! ### Spacing in macros -/

/-- The keywords that stand apart from what follows them. -/
def spacedWords : List String :=
  ["as", "async", "await", "box", "break", "const", "continue", "crate", "dyn", "else", "enum",
    "extern", "fn", "for", "if", "impl", "in", "let", "loop", "macro", "match", "mod", "move",
    "mut", "pub", "ref", "return", "static", "struct", "trait", "type", "unsafe", "use", "where",
    "while", "yield"]

/-- What stands before a token, as far as it matters for the blank between them. -/
inductive Before where
  | start | dollar | dollarIdent | dollarIdentColon | dollarParen | dollarParenSep
  | pound | poundBang | dot | colon | colons | ident | identBang | closed | other
  deriving DecidableEq

/-- Whether a blank may stand before a lexeme, and what it is for the next.  `matcher` tells that
the tokens are a pattern, in which a point is no field access. -/
def spacing (matcher : Bool) (before : Before) (t : Lexeme) : Bool × Before :=
  match before, t with
  | .dollar, .ident _ _ => (false, if matcher then .dollarIdent else .ident)
  | .dollarIdent, .mark ':' false => (false, .dollarIdentColon)
  | .dollarIdentColon, .ident _ _ => (false, .other)
  | .dollarParen, .mark '+' false => (false, .other)
  | .dollarParen, .mark '*' false => (false, .other)
  | .dollarParen, .mark '?' false => (false, .other)
  | .dollarParen, .ident _ _ => (false, .dollarParenSep)
  | .dollarParen, .literal _ => (false, .dollarParenSep)
  | .dollarParen, .mark _ true => (false, .dollarParen)
  | .dollarParen, .mark _ false => (false, .dollarParenSep)
  | .dollarParenSep, .mark '+' _ => (false, .other)
  | .dollarParenSep, .mark '*' _ => (false, .other)
  | .pound, .mark '!' _ => (false, .poundBang)
  | .dollar, .group .paren _ => (false, .dollarParen)
  | .pound, .group .bracket _ => (false, .other)
  | .poundBang, .group .bracket _ => (false, .other)
  | .ident, .group .paren _ => (false, .closed)
  | .ident, .group .bracket _ => (false, .closed)
  | .ident, .mark '!' false => (false, .identBang)
  | .identBang, .group .paren _ => (false, .other)
  | .identBang, .group .bracket _ => (false, .other)
  | .colon, .mark ':' _ => (false, .colons)
  | _, .group .paren _ => (true, .closed)
  | _, .group .bracket _ => (true, .closed)
  | _, .group .brace _ => (true, .other)
  | _, .ident raw name =>
    if raw || !spacedWords.contains name then (before ≠ .dot && before ≠ .colons, .ident)
    else (true, .other)
  | _, .literal text =>
    (before ≠ .dot, if text.toList.getLast? = some '.' then .other else .ident)
  | _, .mark c joint =>
    if c = ',' ∨ c = ';' then (false, .other)
    else if c = '.' ∧ !matcher then (before ≠ .ident && before ≠ .closed, .dot)
    else if c = ':' ∧ joint then (before ≠ .ident, .colon)
    else if c = '$' then (true, .dollar)
    else if c = '#' then (true, .pound)
    else (true, .other)

/-- The break before a lexeme, given whether it follows the one before it immediately. -/
def gapBefore (attached spaced : Bool) (t : Lexeme) : List Doc :=
  if attached then []
  else if spaced then space
  else match t with
    | .mark '.' _ => softBreak
    | _ => []

/-- Whether what follows a lexeme is attached to it. -/
def attaches : Lexeme → Bool
  | .mark c joint => joint || c = '$'
  | _ => false

mutual

/-- A lexeme's token in a macro. -/
def macroToken (matcher : Bool) (before : Before) (attached : Bool) :
    Token → List Doc × Before × Bool
  | .word raw name =>
    let t : Lexeme := .ident raw name
    let (spaced, next) := spacing matcher before t
    (gapBefore attached spaced t ++ word (Token.spelling raw name), next, false)
  | .lifetime raw name =>
    let quote : Lexeme := .mark '\'' true
    let (spaced, next) := spacing matcher before quote
    let (_, next) := spacing matcher next (.ident raw name)
    (gapBefore attached spaced quote ++ word "'" ++ word (Token.spelling raw name), next, false)
  | .punct c joint =>
    let t : Lexeme := .mark c joint
    let (spaced, next) := spacing matcher before t
    (gapBefore attached spaced t ++ word (String.singleton c), next, attaches t)
  | .literal text =>
    let t : Lexeme := .literal text
    let (spaced, next) := spacing matcher before t
    (gapBefore attached spaced t ++ word text, next, false)
  | .group delim content =>
    let t : Lexeme := .group delim content
    let (spaced, next) := spacing matcher before t
    let pad := if delim = .brace && !content.isEmpty then space else []
    (gapBefore attached spaced t ++ word (openText delim) ++ pad ++
      macroTokens matcher .start true content ++ pad ++ word (closeText delim), next, false)

/-- Tokens in a macro. -/
def macroTokens (matcher : Bool) (before : Before) (attached : Bool) : List Token → List Doc
  | [] => []
  | t :: ts =>
    let (ds, next, attached) := macroToken matcher before attached t
    ds ++ macroTokens matcher next attached ts

end

/-! ### Macro calls -/

/-- The tokens of a macro call between its delimiters. -/
def macroBody (gap : List Doc) (content : List Token) : List Doc :=
  if content.isEmpty then []
  else cbox indent (gap ++ ibox 0 (macroTokens false .start true content) ++ shiftLast (-indent) gap)

/-- The delimited tokens of a macro call. -/
def macroGroup : List Token → List Doc
  | [.group delim content] =>
    let lead := if delim = .brace then " \x7b" else openText delim
    word lead ++ macroBody (if delim = .brace then hardBreak else softBreak) content ++
      word (closeText delim)
  | _ => []

/-- How far a rule of a macro has been read. -/
inductive RuleState where
  | start | matcher | equal | greater | expander
  deriving DecidableEq

/-- The rules of a macro: patterns, arrows and expansions, each ended by a semicolon whether or not
it has one.  Nothing where they are no rules, but the last may be incomplete. -/
def macroRules? : RuleState → List Token → Option (List Doc)
  | .start, .group delim content :: rest => do
    let pattern :=
      if content.isEmpty then []
      else cbox indent (softBreak ++ ibox 0 (macroTokens true .start true content) ++
        shiftLast (-indent) softBreak)
    pure (word (openText delim) ++ pattern ++ word (closeText delim) ++
      (← macroRules? .matcher rest))
  | .matcher, .punct '=' true :: rest => do pure (word " =" ++ (← macroRules? .equal rest))
  | .equal, .punct '>' false :: rest => do pure (word ">" ++ (← macroRules? .greater rest))
  | .greater, .group _ content :: rest => do
    let body :=
      if content.isEmpty then []
      else cbox indent (hardBreak ++ ibox 0 (macroTokens false .start true content) ++
        shiftLast (-indent) hardBreak)
    pure (word " \x7b" ++ neverBreak ++ body ++ word "\x7d" ++ (← macroRules? .expander rest))
  | .expander, .punct ';' false :: rest => do
    pure (word ";" ++ hardBreak ++ (← macroRules? .start rest))
  | .start, [] => some []
  | .expander, [] => some (word ";" ++ hardBreak)
  | _, [] => some hardBreak
  | _, _ => none

/-! ### Content of attributes -/

/-- What stands before a token of an attribute. -/
inductive AttrBefore where
  | word
  | punct
  | trailingComma
  deriving DecidableEq

mutual

/-- A token of an attribute; `gap` is the break between words at this depth, and `final` tells
that no token follows in the group. -/
def attrToken (gap : List Doc) (before : AttrBefore) (final : Bool) :
    Token → List Doc × AttrBefore
  | .word raw name =>
    ((if before = .word then gap else []) ++ word (Token.spelling raw name), .word)
  | .lifetime raw name => (word "'" ++ word (Token.spelling raw name), .word)
  | .literal text => ((if before = .word then gap else []) ++ word text, .word)
  | .punct c _ =>
    let lead := if before = .word && c = '=' then word " " else []
    if c = ',' && final then (lead ++ comma true, .trailingComma)
    else
      let tail := if c = '=' then word " " else if c = ',' then gap else []
      (lead ++ word (String.singleton c) ++ tail, .punct)
  | .group .paren content =>
    let (inner, last) := attrTokens space .punct content
    let close := if last = .trailingComma then [] else softBreak
    (word "(" ++ cbox indent (shiftLast (-indent) (softBreak ++ inner ++ close)) ++ word ")", .punct)
  | .group delim content =>
    let (inner, _) := attrTokens space .punct content
    (word (openText delim) ++ inner ++ word (closeText delim), .punct)

/-- Tokens of an attribute. -/
def attrTokens (gap : List Doc) (before : AttrBefore) : List Token → List Doc × AttrBefore
  | [] => ([], before)
  | t :: ts =>
    let (ds, next) := attrToken gap before ts.isEmpty t
    let (rest, last) := attrTokens gap next ts
    (ds ++ rest, last)

end

end Scaffold.Layout
