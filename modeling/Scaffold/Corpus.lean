/-!
# The corpus of a run

A corpus holds the units of a run, one per source file, and a unit the nodes that generation
looks at: declarations of types, and calls with explicit type arguments.  Nodes refer to types by
text and scope; what such a reference means is for a host to say (`Scaffold.Host`).
-/

namespace Scaffold

/-- What a declaration declares. -/
inductive DeclarationKind where
  | struct
  | enum
  deriving DecidableEq, Inhabited, Repr

/-- A type declaration. -/
structure Declaration where
  name : String
  /-- The path of the module around it. -/
  space : String
  kind : DeclarationKind
  /-- The last segment of the path of every attribute. -/
  markers : List String
  /-- A struct with named fields and no parameters: generated code may construct it. -/
  extensible : Bool
  deriving DecidableEq, Inhabited, Repr

/-- The path of the declared type. -/
def Declaration.path (d : Declaration) : String := d.space ++ "::" ++ d.name

/-- A type as it is written somewhere, and the module in which it is written. -/
structure TypeRef where
  text : String
  scope : String
  deriving DecidableEq, Inhabited, Repr

/-- A call through a path with explicit type arguments: `stencil::Mappings::register::<A, B>()`. -/
structure Call where
  /-- The segments before the method. -/
  receiver : List String
  method : String
  args : List TypeRef
  /-- The module in which the call is written. -/
  scope : String
  deriving DecidableEq, Inhabited, Repr

/-- A node of a unit. -/
inductive CorpusNode where
  | declaration (d : Declaration)
  | call (c : Call)
  deriving DecidableEq, Inhabited, Repr

/-- One source file: its number in the corpus, where it came from, and its nodes in order. -/
structure SourceUnit where
  id : Nat
  origin : String
  nodes : List CorpusNode
  deriving DecidableEq, Inhabited, Repr

/-- The units of a run in a fixed order; each is numbered by its place. -/
structure Corpus where
  units : List SourceUnit := []
  deriving DecidableEq, Inhabited, Repr

namespace Corpus

/-- Adds a unit at the end. -/
def push (corpus : Corpus) (origin : String) (nodes : List CorpusNode) : Corpus :=
  ⟨corpus.units ++ [⟨corpus.units.length, origin, nodes⟩]⟩

end Corpus

end Scaffold
