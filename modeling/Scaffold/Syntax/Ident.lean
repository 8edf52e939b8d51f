import Scaffold.Syntax.Keyword
import Scaffold.Syntax.Node
import Scaffold.Text.CharClass

/-!
# Identifiers

An identifier is a word, written raw where it would otherwise be a keyword.  `Ident.ofText?`
makes one from any text and fails exactly where no word is spelled that way.
-/

namespace Scaffold.Syntax

/-- An identifier. -/
structure Ident where
  raw : Bool
  name : String
  deriving DecidableEq, Inhabited, Repr

namespace Ident

/-- The identifier as a token. -/
def token (i : Ident) : Token := .word i.raw i.name

/-- The identifier as a node. -/
def node (i : Ident) : Node := .word i.raw i.name

/-- The identifier as it is written. -/
def text (i : Ident) : String := Token.spelling i.raw i.name

/-- Whether a text is shaped like a word: a letter or underscore, then letters, digits and
underscores, of any script. -/
def isWordText (text : String) : Bool :=
  match text.toList with
  | c :: cs => Text.isIdentStart c && cs.all Text.isIdentContinue
  | [] => false

/-- Words that have no raw form. -/
def neverRaw : List String := ["_", "super", "self", "Self", "crate"]

/-- The plain word `text`; it may be a keyword. -/
def plain? (text : String) : Option Ident :=
  if isWordText text then some ⟨false, text⟩ else none

/-- The raw word `r#text`. -/
def raw? (text : String) : Option Ident :=
  if isWordText text && !neverRaw.contains text then some ⟨true, text⟩ else none

/-- The identifier that is written as `text`. -/
def ofText? (text : String) : Option Ident :=
  match text.toList with
  | 'r' :: '#' :: cs => raw? (String.ofList cs)
  | _ => plain? text

end Ident

end Scaffold.Syntax
