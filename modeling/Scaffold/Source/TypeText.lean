import Scaffold.Syntax.Token

/-!
# The compact text of tokens

`compactText` writes tokens on one line and closes the gaps that separate tokens around `::`,
angle brackets, commas, semicolons and after `&`: `Vec < :: uuid :: Uuid >` becomes
`Vec<::uuid::Uuid>`.  Gaps are closed in the text and not between tokens, so a literal that
contains such a gap loses it too.
-/

namespace Scaffold.Source

open Syntax

/-- Replaces every occurrence of `old` from the left; `skip` characters belong to an occurrence
that has been replaced. -/
def replaceFrom (old new : List Char) : (skip : Nat) → List Char → List Char
  | _, [] => []
  | skip + 1, _ :: cs => replaceFrom old new skip cs
  | 0, c :: cs =>
    if old.isPrefixOf (c :: cs) then new ++ replaceFrom old new (old.length - 1) cs
    else c :: replaceFrom old new 0 cs

/-- Replaces every occurrence of `old`, which is not empty. -/
def replaceAll (old new : String) (text : List Char) : List Char :=
  replaceFrom old.toList new.toList 0 text

/-- The gaps that are closed, in order, and what they become. -/
def gaps : List (String × String) :=
  [(" :: ", "::"), (":: ", "::"), (" <", "<"), ("< ", "<"), (" >", ">"), (" ,", ","), ("& ", "&"),
    (" ;", ";")]

/-- Closes the gaps of a text. -/
def closeGaps (text : List Char) : List Char :=
  gaps.foldl (fun text gap => replaceAll gap.1 gap.2 text) text

/-- **The compact text of tokens.** -/
def compactText (ts : List Token) : String :=
  String.ofList (closeGaps (Token.listChars ts))

end Scaffold.Source
