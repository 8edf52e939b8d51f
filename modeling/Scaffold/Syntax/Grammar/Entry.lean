import Scaffold.Syntax.Grammar.Statement
import Scaffold.Syntax.Lexer

/-!
# Reading whole texts

`Grammar.ofDepth n` reads texts whose syntax is nested at most `n` deep; the nesting of a token
list is at most a multiple of its size, so `Grammar.forTokens` reads all there is to read.

A file may begin with a byte order mark and with a line `#!…` for the system that runs it.  That
line is told from an inner attribute by what follows `#!` after blanks and comments: a bracket
makes it an attribute.
-/

namespace Scaffold.Syntax

open Scaffold.Syntax.Parser

/-- The grammar one level deeper than `g`. -/
def Grammar.step (g : Grammar) : Grammar where
  type := Parser.type g
  expr := Parser.expr g
  exprEarly := Parser.exprEarly g
  unary := Parser.unary g
  operand := Parser.operand g
  pattern := Parser.pattern g
  block := Parser.block g
  item := Parser.item g
  fields := Parser.namedFields g
  bound := Parser.singleBound g
  useTree := Parser.useTree g

/-- The grammar of texts nested at most `depth` deep. -/
def Grammar.ofDepth : (depth : Nat) → Grammar
  | 0 => .empty
  | depth + 1 => (Grammar.ofDepth depth).step

/-- The grammar that reads every text made of these tokens. -/
def Grammar.forTokens (ts : List Token) : Grammar :=
  Grammar.ofDepth (4 * Token.listSize ts + 8)

/-- Reads all of `ts` with a parser of the grammar. -/
def readTokens (p : Grammar → Parser Node) (ts : List Token) : Option Node :=
  match (p (.forTokens ts)).run ts with
  | some (n, []) => some n
  | _ => none

/-- Reads all of a text with a parser of the grammar. -/
def readText (p : Grammar → Parser Node) (text : String) : Option Node :=
  (lex text).bind (readTokens p)

/-- The type that a text spells. -/
def readType (text : String) : Option Node :=
  readText (fun g => g.type true) text

/-- The identifier that a text spells, raw or not. -/
def readIdent (text : String) : Option Node :=
  readText (fun _ => ident) text

/-- The path that a text spells, with arguments as in a type. -/
def readPath (text : String) : Option Node :=
  readText (fun g => Parser.path g false) text

/-- The expression that a text spells. -/
def readExpr (text : String) : Option Node :=
  readText (fun g => g.expr true) text

/-- What an attribute that the tokens spell holds. -/
def readMeta (text : String) : Option Node :=
  readText attributeContent text

/-- The struct that a text spells. -/
def readStruct (text : String) : Option Node :=
  readText (fun g => do
    let attrs ← outerAttributes g
    let vis ← visibility?
    structItem g attrs vis) text

/-- The items of a file. -/
def fileItems (g : Grammar) : Parser Node := do
  let inner ← innerAttributes g
  pure (.node .file [inner, .list (← manyToEnd g.item)])

/-- The file that a token list spells. -/
def readFileTokens (ts : List Token) : Option Node :=
  readTokens fileItems ts

/-- Skips blanks and comments that document nothing. -/
def skipToCode (text : List Char) : List Char :=
  Lexer.skipBlank text.length text

/-- Drops a first line that begins with `#!` and is no attribute. -/
def dropInterpreterLine (text : List Char) : List Char :=
  match text with
  | '#' :: '!' :: line =>
    match skipToCode line with
    | '[' :: _ => text
    | _ => line.dropWhile (· ≠ '\n')
  | _ => text

/-- **The file that a text spells.** -/
def readFile (text : String) : Option Node :=
  (lexChars (dropInterpreterLine (Lexer.dropMark text.toList))).bind readFileTokens

end Scaffold.Syntax
