import Scaffold.Syntax.Grammar.Entry

/-!
# Checking marked structs

A struct can be a handler if generated code can construct it: it has no parameters, and its fields
have names.  The mark itself takes no arguments.
-/

namespace Scaffold.Handler

open Syntax

/-- Why a struct cannot be a handler. -/
inductive MarkFault where
  | hasArguments
  | isGeneric
  | unnamedFields
  deriving DecidableEq, Inhabited, Repr

/-- The text of a fault. -/
def MarkFault.message : MarkFault → String
  | .hasArguments => "#[handler] does not take arguments"
  | .isGeneric => "#[handler] structs cannot be generic"
  | .unnamedFields => "#[handler] structs need named fields"

/-- Whether a struct has parameters. -/
def isGeneric (item : Node) : Bool := !((item.part 4).part 1).elems.isEmpty

/-- Whether a struct has named fields. -/
def hasNamedFields (item : Node) : Bool := (item.part 6).isKind .fieldsNamed

/-- **Checks a marked struct;** `arguments` are those of the mark. -/
def checkMarked (arguments : List Token) (item : Node) : Except MarkFault Unit :=
  if !arguments.isEmpty then .error .hasArguments
  else if isGeneric item then .error .isGeneric
  else if !hasNamedFields item then .error .unnamedFields
  else .ok ()

end Scaffold.Handler
