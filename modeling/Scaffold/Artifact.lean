import Scaffold.Layout.File
import Scaffold.Syntax.Grammar.Entry

/-!
# Artifacts

An artifact is a generated source file.  Its tokens are read as a file before they are laid out,
so what does not form a file never becomes an artifact.
-/

namespace Scaffold

open Syntax

/-- A generated source file. -/
structure Artifact where
  /-- The name of the file; no two artifacts of a run share it. -/
  id : String
  text : String
  deriving DecidableEq, Inhabited, Repr

namespace Artifact

/-- The first line of every artifact. -/
def header : String := "// @generated by stencil. Do not edit."

/-- The text of an artifact with a body. -/
def textOf (body : String) : String :=
  if body.isEmpty then header ++ "\n" else header ++ "\n\n" ++ body

/-- **The artifact that tokens make.** -/
def ofTokens (id : String) (tokens : List Token) : Except Stop Artifact :=
  match readFileTokens tokens with
  | some file => do
    let body ← Stop.ofBreakdown (Layout.fileText file)
    pure ⟨id, textOf body⟩
  | none => .error (.failure (.malformed id))

end Artifact

/-- The type that a text spells, as generated code names it; `context` tells where it stands. -/
def namedType (text context : String) : Except Failure Node :=
  match readType text with
  | some type => .ok type
  | none => .error (.invalidType text context)

end Scaffold
