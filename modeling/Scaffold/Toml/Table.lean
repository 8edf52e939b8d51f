import Scaffold.Document

/-!
# Tables of TOML

A TOML text says where things stand: a header opens a table, a doubled header one more table of a
series, and an assignment puts a value at a dotted key.  Tables that are only led through come
about on the way.  No key is set twice, a table is opened by a header once, one that dotted keys
have made is opened by none, and a value is closed: nothing is added to it later.
-/

namespace Scaffold.Toml

/-- How a table has come about. -/
inductive TableOrigin where
  /-- A header leads through it. -/
  | implied
  /-- A dotted key leads through it. -/
  | dotted
  /-- A header opens it. -/
  | opened
  deriving DecidableEq, Inhabited, Repr

/-- What stands under a key. -/
inductive Node where
  | value (d : Document)
  | table (origin : TableOrigin) (entries : List (String × Node))
  /-- The tables that doubled headers open, in order. -/
  | series (tables : List (List (String × Node)))
  deriving Inhabited

/-- The entries of a table that is being filled. -/
abbrev Entries := List (String × Node)

mutual
/-- The document that a node stands for. -/
def Node.toDocument : Node → Document
  | .value d => d
  | .table _ entries => .table (documentEntries entries)
  | .series tables => .list (documentTables tables)

/-- The documents that entries stand for. -/
def documentEntries : List (String × Node) → List (String × Document)
  | [] => []
  | (key, node) :: entries => (key, node.toDocument) :: documentEntries entries

/-- The documents that the tables of a series stand for. -/
def documentTables : List (List (String × Node)) → List Document
  | [] => []
  | entries :: tables => .table (documentEntries entries) :: documentTables tables
end

namespace Entries

/-- Sets what stands under a key. -/
def set (entries : Entries) (key : String) (node : Node) : Entries :=
  if (entries.lookup key).isSome then
    entries.map fun e => if e.1 = key then (key, node) else e
  else entries ++ [(key, node)]

/-- Changes the table at the end of a path by `f`, which is told how that table has come about.
Tables that are missing come about as `origin` says. -/
def change (dotted : Bool) (f : TableOrigin → Entries → Option Entries) :
    (path : List String) → TableOrigin → Entries → Option Entries
  | [], origin, entries => f origin entries
  | key :: path, _, entries =>
    match entries.lookup key with
    | none => do
      let origin : TableOrigin := if dotted then .dotted else .implied
      let inner ← change dotted f path origin []
      some (entries.set key (.table origin inner))
    | some (.value _) => none
    | some (.series tables) => do
      let inner ← change dotted f path .opened (← tables.getLast?)
      some (entries.set key (.series (tables.dropLast ++ [inner])))
    | some (.table origin inner) =>
      if dotted ∧ origin = .opened then none
      else do
        let inner ← change dotted f path origin inner
        some (entries.set key (.table origin inner))

end Entries

/-- A dotted key: the keys that it leads through, and the last. -/
structure Key where
  path : List String
  last : String
  deriving DecidableEq, Inhabited, Repr

/-- A value put at a key. -/
structure Assignment where
  key : Key
  value : Document
  deriving Inhabited

/-- Puts a value into a table. -/
def Entries.assign (entries : Entries) (a : Assignment) : Option Entries :=
  Entries.change true
    (fun origin entries =>
      if (origin == .dotted) == a.key.path.isEmpty then none
      else if (entries.lookup a.key.last).isSome then none
      else some (entries.set a.key.last (.value a.value)))
    a.key.path .opened entries

/-- What opens a section. -/
inductive Header where
  /-- The beginning of the text. -/
  | start
  /-- A table. -/
  | table (key : Key)
  /-- One more table of a series. -/
  | element (key : Key)
  deriving DecidableEq, Inhabited, Repr

/-- A header and the assignments under it. -/
structure Section where
  header : Header := .start
  assignments : List Assignment := []
  deriving Inhabited

/-- Adds a section to the table of the whole text. -/
def Entries.addSection (root : Entries) (s : Section) : Option Entries :=
  let fill (entries : Entries) : Option Entries := s.assignments.foldlM Entries.assign entries
  match s.header with
  | .start => fill root
  | .table key =>
    Entries.change false
      (fun _ entries =>
        match entries.lookup key.last with
        | none => do some (entries.set key.last (.table .opened (← fill [])))
        | some (.table .implied inner) => do
          some (entries.set key.last (.table .opened (← fill inner)))
        | some _ => none)
      key.path .opened root
  | .element key =>
    Entries.change false
      (fun _ entries =>
        match entries.lookup key.last with
        | none => do some (entries.set key.last (.series [← fill []]))
        | some (.series tables) => do
          some (entries.set key.last (.series (tables ++ [← fill []])))
        | some _ => none)
      key.path .opened root

/-- **The document that sections make.** -/
def ofSections (sections : List Section) : Option Document := do
  let root ← sections.foldlM Entries.addSection []
  some (.table (documentEntries root))

end Scaffold.Toml
