import Scaffold.Text.Lowercase

/-!
# Sample handlers

Two handlers and what their functions do: one works on texts member by member, the other on
numbers, where a function also sees the rest of the value.
-/

namespace Scaffold.Sample

/-- What a handler gives: the results of its functions, each followed by a semicolon. -/
def handled (results : List String) : String :=
  " ".intercalate (results.map (· ++ ";"))

/-- A handler of texts.  Beside its members it has fields that are filled with defaults. -/
structure Labelled where
  name : String
  code : String
  /-- The number of the value; the default is the nil one. -/
  id : Nat := 0
  enabled : Bool := false

/-- The handler with the given members. -/
def Labelled.new (name code : String) : Labelled := { name := name, code := code }

/-- Handles the members: the name in lower case, the code three times. -/
def Labelled.handle (l : Labelled) : String :=
  handled [Text.lowercase l.name, l.code ++ l.code ++ l.code]

/-- A handler of numbers. -/
structure Pair where
  left : Int32
  right : Int32

/-- Handles the members: the left one, and the sum of both.  Sums wrap. -/
def Pair.handle (p : Pair) : String :=
  handled ["left=" ++ toString p.left.toInt, "right=" ++ toString (p.right + p.left).toInt]

end Scaffold.Sample
