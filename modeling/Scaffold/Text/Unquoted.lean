import Scaffold.Text.CharClass

/-!
# What a string literal denotes

`literalValue?` reads the text that a string literal denotes, plain or raw.  In a plain literal an
escape stands for a character, a line end is a line feed however it is written, and a backslash
before a line end drops it with the blanks that follow.
-/

namespace Scaffold.Text.Unquoted

/-- Drops the blanks after a backslash at a line end. -/
def dropIndent : List Char → List Char
  | c :: cs => if c = ' ' || c = '\t' || c = '\n' || c = '\r' then dropIndent cs else c :: cs
  | [] => []

/-- The code point of an escape in braces, and what follows it. -/
def bracedCode (value : Nat) : List Char → Nat × List Char
  | c :: cs =>
    if c = '\x7d' then (value, cs)
    else if c = '_' then bracedCode value cs
    else bracedCode (16 * value + hexDigitValue c) cs
  | [] => (value, [])

/-- The character that a letter after a backslash stands for. -/
def simpleEscape (c : Char) : Char :=
  if c = 'n' then '\n' else if c = 'r' then '\r' else if c = 't' then '\t'
  else if c = '0' then Char.ofNat 0 else c

/-- The text up to the closing quote. -/
def body : Nat → List Char → List Char
  | 0, _ => []
  | fuel + 1, text =>
    match text with
    | [] => []
    | '"' :: _ => []
    | '\r' :: '\n' :: cs => '\n' :: body fuel cs
    | '\\' :: 'x' :: high :: low :: cs =>
      Char.ofNat (16 * hexDigitValue high + hexDigitValue low) :: body fuel cs
    | '\\' :: 'u' :: _ :: cs =>
      let (value, rest) := bracedCode 0 cs
      Char.ofNat value :: body fuel rest
    | '\\' :: '\n' :: cs => body fuel (dropIndent cs)
    | '\\' :: '\r' :: cs => body fuel (dropIndent cs)
    | '\\' :: c :: cs => simpleEscape c :: body fuel cs
    | c :: cs => c :: body fuel cs

/-- The text of a raw literal after its `r`: what stands between the quotes. -/
def rawBody (text : List Char) : List Char :=
  let marks := (text.takeWhile (· = '#')).length
  let inner := (text.drop (marks + 1)).reverse
  -- a suffix has no quote in it
  ((inner.dropWhile (· ≠ '"')).drop 1).reverse

/-- **The text that a string literal denotes**; literals of other kinds denote none. -/
def literalValue? (literal : String) : Option String :=
  match literal.toList with
  | '"' :: cs => some (String.ofList (body (cs.length + 1) cs))
  | 'r' :: cs => some (String.ofList (rawBody cs))
  | _ => none

end Scaffold.Text.Unquoted
