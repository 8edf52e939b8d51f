import Scaffold.Source.Symbols
import Scaffold.Source.TypeText
import Scaffold.Syntax.Grammar.Entry
import Scaffold.Syntax.Ident
import Scaffold.Syntax.Printer

/-!
# Types as a crate names them

A type is written in some module and refers to others as that module sees them.  Its canonical
form names every type of the crate by its path from `crate` and every type outside by its path
after `::`, so it means the same wherever it is written.

Only the arguments of the last segment survive, as those are the arguments of the type itself.
-/

namespace Scaffold.Source

open Syntax

namespace SymbolTable

/-! ### Rewriting paths -/

/-- The word for a segment of a path: raw where it would be a keyword. -/
def segmentWord (name : String) : Except Breakdown Node :=
  let word :=
    if ["crate", "self", "super", "Self"].contains name then some ⟨false, name⟩
    else if (readIdent name).isSome then Ident.plain? name
    else Ident.raw? name
  match word with
  | some i => .ok i.node
  | none => .error (.name name)

/-- The segments of a path as parts: the arguments belong to the last one. -/
def pathParts (args : Node) : List Node → List Node
  | [] => []
  | [word] => [.node .segment [word, args]]
  | word :: words => .node .segment [word, .none] :: .op "::" :: pathParts args words

/-- The names of the segments of a path. -/
def segmentNames (segments : Node) : List String :=
  segments.elems.map fun segment => (segment.part 0).name

/-- The use path that the parts of a path spell. -/
def usePathOf (lead segments : Node) : UsePath :=
  ⟨segmentNames segments, lead.isSome⟩

/-- The path of what a path names, from the crate or from outside it; a path that names nothing
known, or a module, stays as it is. -/
def canonicalPath (t : SymbolTable) (scope : ModulePath) (lead segments : Node) :
    Except Breakdown Node := do
  let args := (segments.elems.getLast?.map (·.part 1)).getD .none
  let rebuilt (lead : Node) (names : List String) : Except Breakdown Node := do
    let words ← names.mapM segmentWord
    pure (.node .path [lead, .node .separated (pathParts args words)])
  match t.resolvePath (usePathOf lead segments) scope with
  | some (.type path) => rebuilt .none path
  | some (.external names) => rebuilt (.op "::") names
  | _ => pure (.node .path [lead, segments])

mutual

/-- **The canonical form of a type** that is written in the module `scope`. -/
def canonical (t : SymbolTable) (scope : ModulePath) : Node → Except Breakdown Node
  | .node kind children => do
    let children ← canonicalParts t scope children
    match kind, children with
    | .typePath, [.node .path [lead, segments]] =>
      pure (.node .typePath [← canonicalPath t scope lead segments])
    | _, _ => pure (.node kind children)
  | .group delim children => do pure (.group delim (← canonicalParts t scope children))
  | n => pure n

/-- The canonical form of every part. -/
def canonicalParts (t : SymbolTable) (scope : ModulePath) :
    List Node → Except Breakdown (List Node)
  | [] => pure []
  | n :: ns => do
    let n ← canonical t scope n
    let ns ← canonicalParts t scope ns
    pure (n :: ns)

end

/-- The text of the canonical form of a type. -/
def typeText (t : SymbolTable) (scope : ModulePath) (type : Node) : Except Breakdown String := do
  pure (compactText (← t.canonical scope type).tokens)

/-- **The members of a type:** fields as they are declared, then accessors. -/
def membersOf (t : SymbolTable) (path : ModulePath) : Except Breakdown (List TypeMember) :=
  match t.types.lookup path with
  | none => pure []
  | some entry => entry.members.mapM fun m => do
    pure ⟨m.name, ← t.typeText m.scope m.type, m.visibility, m.kind, m.kind = .field⟩

/-! ### Resolving type texts -/

/-- The names of types that belong to no crate. -/
def primitives : List String :=
  ["bool", "char", "str", "i8", "i16", "i32", "i64", "i128", "isize", "u8", "u16", "u32", "u64",
    "u128", "usize", "f32", "f64"]

/-- The path of a type that is a plain path without arguments. -/
def plainPath? (type : Node) : Option UsePath :=
  match type with
  | .node .typePath [.node .path [lead, segments]] =>
    if segments.elems.all fun segment => (segment.part 1).isNone then
      some (usePathOf lead segments)
    else none
  | _ => none

/-- **The type that a text names in a scope:** a struct or enumeration of the crate, or a
primitive type whose name means nothing else there. -/
def resolveType (t : SymbolTable) (text : String) (scope : ModulePath) : Option TypeInfo := do
  let path ← (readType text).bind plainPath?
  match t.resolvePath path scope, path.segments with
  | some (.type found), _ => t.typeInfo found
  | none, [name] =>
    if primitives.contains name then some ⟨name, name, "", .primitive⟩ else none
  | _, _ => none

end SymbolTable

end Scaffold.Source
