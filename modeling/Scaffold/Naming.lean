import Scaffold.Failure
import Scaffold.Syntax.Ident
import Scaffold.Text.Segments

/-!
# Naming conventions

Schema documents name members in Pascal case (`OrderId`), generated code in snake case
(`order_id`).  Acronyms stay together: `HTTPServer` becomes `http_server`.  The path of a module
becomes part of an identifier by its slug, in which an underscore inside a segment is doubled so
that it differs from the one between segments.
-/

namespace Scaffold.Naming

open Syntax

/-! ### Snake case -/

/-- Whether an underscore belongs between the upper-case character after `prev` and `prev`;
`next` is the character after it. -/
def isBoundary (prev next : Option Char) : Bool :=
  match prev with
  | none => false
  | some p =>
    if p = '_' then false
    else if Text.isLower p || Text.isAsciiDigit p then true
    else if Text.isUpper p then next.any Text.isLower
    else false

/-- Snake case of the characters that follow `prev`. -/
def snakeChars : (prev : Option Char) → List Char → List Char
  | _, [] => []
  | prev, c :: cs =>
    (if Text.isUpper c then
      (if isBoundary prev cs.head? then ['_'] else []) ++ Text.lowerOf c
    else [c]) ++ snakeChars (some c) cs

/-- **Snake case** of a name in Pascal or camel case. -/
def snakeCase (name : String) : String :=
  String.ofList (snakeChars none name.toList)

/-! ### Slugs -/

/-- Doubles the underscores of a segment. -/
def doubleUnderscores (segment : List Char) : List Char :=
  segment.flatMap fun c => if c = '_' then ['_', '_'] else [c]

/-- **The slug of a module path:** its segments, underscores doubled, joined by underscores. -/
def slug (space : String) : String :=
  "_".intercalate (((Text.splitColons space.toList).filter (!·.isEmpty)).map
    fun segment => String.ofList (doubleUnderscores segment))

/-! ### Identifiers -/

/-- Whether a name is shaped like an identifier: ASCII letters, digits and underscores, no digit
first. -/
def isIdentifier (name : String) : Bool :=
  match name.toList with
  | c :: cs =>
    (Text.isAsciiLetter c || c = '_') &&
      cs.all fun d => Text.isAsciiLetter d || Text.isAsciiDigit d || d = '_'
  | [] => false

/-- **The identifier for a name,** raw where the name is a keyword.  `context` names what the
name belongs to. -/
def ident (name context : String) : Except Failure Ident :=
  if !isIdentifier name then .error (.invalidIdentifier name context)
  else if !isKeyword name then .ok ⟨false, name⟩
  else if Ident.neverRaw.contains name then .error (.invalidIdentifier name context)
  else .ok ⟨true, name⟩

/-- The identifier that is written as `text`; one that was put together from names that were not
checked may break down. -/
def word (text : String) : Except Breakdown Ident :=
  match Ident.ofText? text with
  | some i => .ok i
  | none => .error (.name text)

end Scaffold.Naming
