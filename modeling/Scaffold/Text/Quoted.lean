import Scaffold.Text.CharClass

/-!
# Quoted text

How a text is shown between double quotes.  Backslash, the double quote, tab, line feed, carriage
return and NUL have escapes of their own; a character that is not printable, or that would attach
to the quote, is written by its code point in braces; all else stands for itself.

`shown` is the form for diagnostics, `literalText` the form for a string literal in source text,
which writes NUL so that no digit after it can be taken for a part of the escape.
-/

namespace Scaffold.Text.Quoted

/-- The lower-case hexadecimal digits of `n`. -/
def hexDigits (n : Nat) : List Char :=
  Nat.toDigits 16 n

/-- The escape of a character by its code point. -/
def codeEscape (c : Char) : List Char :=
  ['\\', 'u', '\x7b'] ++ hexDigits c.toNat ++ ['\x7d']

/-- **One character between double quotes.** -/
def escapeChar (c : Char) : List Char :=
  if c.toNat = 0 then ['\\', '0']
  else if c = '\t' then ['\\', 't']
  else if c = '\n' then ['\\', 'n']
  else if c = '\r' then ['\\', 'r']
  else if c = '\\' then ['\\', '\\']
  else if c = '"' then ['\\', '"']
  else if isGraphemeExtend c || !isPrintable c then codeEscape c
  else [c]

/-- The form of a text in diagnostics. -/
def shown (text : String) : String :=
  String.ofList (['"'] ++ text.toList.flatMap escapeChar ++ ['"'])

/-- The characters of a string literal's body; NUL before an octal digit needs a longer escape. -/
def literalBody : List Char → List Char
  | [] => []
  | c :: cs =>
    if c.toNat = 0 then
      (match cs with
        | d :: _ => if '0' ≤ d ∧ d ≤ '7' then ['\\', 'x', '0', '0'] else ['\\', '0']
        | [] => ['\\', '0']) ++ literalBody cs
    else escapeChar c ++ literalBody cs

/-- The string literal that denotes `text`. -/
def literalText (text : String) : String :=
  String.ofList (['"'] ++ literalBody text.toList ++ ['"'])

end Scaffold.Text.Quoted
