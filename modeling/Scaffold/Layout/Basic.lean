import Scaffold.Layout.Doc
import Scaffold.Syntax.Node

/-!
# Layouts of syntax trees

The layouts of types, expressions, patterns and items refer to one another.  Each is written
against a record of all of them, `Layouts`, which is closed over the depth of the tree in
`Scaffold.Layout.File`.
-/

namespace Scaffold.Layout

open Syntax

/-- The step by which lines are indented. -/
def indent : Int := 4

/-- The layouts that refer to one another. -/
structure Layouts where
  type : Node → List Doc
  /-- An expression; the flag tells that it begins a statement. -/
  expr : (leading : Bool) → Node → List Doc
  /-- What stands before a call, field, index or `?`. -/
  head : (leading : Bool) → Node → List Doc
  /-- What stands after `else`. -/
  alternative : Node → List Doc
  pattern : Node → List Doc
  /-- Arguments in angle brackets, directly after a name. -/
  arguments : Node → List Doc
  /-- A bound of a type. -/
  bound : Node → List Doc
  /-- A statement; the flag tells that it is the last of its block. -/
  statement : (last : Bool) → Node → List Doc
  item : Node → List Doc
  useTree : Node → List Doc

/-- The layouts that write nothing. -/
def Layouts.empty : Layouts where
  type := fun _ => []
  expr := fun _ _ => []
  head := fun _ _ => []
  alternative := fun _ => []
  pattern := fun _ => []
  arguments := fun _ => []
  bound := fun _ => []
  statement := fun _ _ => []
  item := fun _ => []
  useTree := fun _ => []

/-! ### Lists -/

/-- The layouts of elements one after another; the flag tells the last element. -/
def each {α : Type} (f : (last : Bool) → α → List Doc) : List α → List Doc
  | [] => []
  | [a] => f true a
  | a :: as => f false a ++ each f as

/-- Elements with `sep` between them. -/
def separated {α : Type} (sep : List Doc) (f : α → List Doc) : List α → List Doc
  | [] => []
  | [a] => f a
  | a :: as => f a ++ sep ++ separated sep f as

/-- Elements in brackets, one a line where they do not fit on one.  A sole element whose comma
tells it apart (`(a,)`) keeps it. -/
def bracketed {α : Type} (opening closing : String) (keepComma : Bool) (f : α → List Doc)
    (elems : List α) : List Doc :=
  let inner :=
    match elems with
    | [a] => f a ++ (if keepComma then word "," ++ softBreak else comma true)
    | _ => each (fun last a => f a ++ comma last) elems
  word opening ++ cbox indent (shiftLast (-indent) (softBreak ++ inner)) ++ word closing

/-! ### Leaves -/

/-- The spelling of a leaf. -/
def leafText : Node → String
  | .word raw name => Token.spelling raw name
  | .lifetime raw name => "'" ++ Token.spelling raw name
  | .op marks => marks
  | .literal text => text
  | .node .list [.op "-", .literal text] => "-" ++ text
  | _ => ""

/-- A leaf. -/
def leaf (n : Node) : List Doc := word (leafText n)

/-- `text`, where the part is there. -/
def ifThere (n : Node) (text : String) : List Doc :=
  if n.isSome then word text else []

end Scaffold.Layout
