/-!
# Documents

A document is what a JSON or TOML text denotes, as far as settings can tell: truth values, texts,
lists and tables, and scalars of other kinds, of which only the spelling is kept.
-/

namespace Scaffold

/-- A document. -/
inductive Document where
  | null
  | bool (b : Bool)
  /-- A number, or another scalar that is no text. -/
  | scalar (spelling : String)
  | text (s : String)
  | list (items : List Document)
  /-- Entries under distinct names. -/
  | table (entries : List (String × Document))
  deriving Inhabited

namespace Document

/-- The text that a document is. -/
def text? : Document → Option String
  | .text s => some s
  | _ => none

/-- The truth value that a document is. -/
def bool? : Document → Option Bool
  | .bool b => some b
  | _ => none

/-- The texts in a list. -/
def texts? : Document → Option (List String)
  | .list items => items.mapM text?
  | _ => none

/-- The texts in a table, with their names. -/
def textTable? : Document → Option (List (String × String))
  | .table entries => entries.mapM fun e => (text? e.2).map (e.1, ·)
  | _ => none

/-- What the formats of documents differ in where a value of a given kind is asked for. -/
structure Conventions where
  /-- Whether a document stands for no value. -/
  isUnit : Document → Bool
  /-- Whether the list of a record's fields may go on after the last of them. -/
  allowsExcess : Bool

/-- The conventions of JSON. -/
def Conventions.json : Conventions where
  isUnit
    | .null => true
    | _ => false
  allowsExcess := false

/-- The conventions of TOML, which writes no value as an empty table or list. -/
def Conventions.toml : Conventions where
  isUnit
    | .list [] | .table [] => true
    | _ => false
  allowsExcess := true

/-! ### Records -/

/-- Whether a document may be a record of `arity` fields: a table, or a list of their values that
may end early. -/
def isRecord (c : Conventions) (arity : Nat) : Document → Bool
  | .table _ => true
  | .list items => c.allowsExcess || items.length ≤ arity
  | _ => false

/-- The value that a record gives to the field at `index`, whose name is `name`. -/
def field? (index : Nat) (name : String) : Document → Option Document
  | .table entries => entries.lookup name
  | .list items => items[index]?
  | _ => none

/-- Reads a field; one that is left out has its default. -/
def readField {α : Type} (d : Document) (index : Nat) (name : String)
    (read : Document → Option α) (default : α) : Option α :=
  match d.field? index name with
  | some value => read value
  | none => some default

end Document

end Scaffold
