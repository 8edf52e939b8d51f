import Scaffold.Syntax.Lexer
import Scaffold.Syntax.Printer

/-!
# Templates

A template is a text with holes, each a name after a dollar sign.  Filling it puts tokens in the
place of the holes: a hole stands for any number of tokens, and never joins with its neighbours.
-/

namespace Scaffold.Template

open Syntax

/-- What fills the holes, by their names. -/
abbrev Filling := List (String × List Token)

mutual

/-- Fills the holes inside one token. -/
def fillToken (filling : Filling) : Token → Token
  | .group delim content => .group delim (fillTokens filling content)
  | t => t

/-- Fills the holes in a list of tokens.  A mark before a hole is not joint. -/
def fillTokens (filling : Filling) : List Token → List Token
  | [] => []
  | [t] => [fillToken filling t]
  | t :: u :: ts =>
    match t, u with
    | .punct '$' _, .word false name =>
      (filling.lookup name).getD [] ++ fillTokens filling ts
    | .punct c _, .punct '$' _ => .punct c false :: fillTokens filling (u :: ts)
    | _, _ => fillToken filling t :: fillTokens filling (u :: ts)

end

/-- **Fills a template.** -/
def fill (text : String) (filling : Filling) : List Token :=
  fillTokens filling ((lex text).getD [])

/-- Tokens in braces. -/
def braces (content : List Token) : List Token := [.group .brace content]

/-- Tokens in parentheses. -/
def parens (content : List Token) : List Token := [.group .paren content]

/-- Tokens with commas between them. -/
def commaSeparated : List (List Token) → List Token
  | [] => []
  | [ts] => ts
  | ts :: rest => ts ++ .punct ',' false :: commaSeparated rest

end Scaffold.Template
