import Scaffold.Source.Tree
import Scaffold.Store

/-!
# Lookups with a memory

Resolving a reference walks the symbol table, and the references of one unit repeat.  So a unit asks
through a context, which keeps each answer under the scope and the text of the reference, also the
answer that there is no such type.  The other questions go to the table directly.
-/

namespace Scaffold.Source

/-- **What one unit asks through.** -/
structure UnitContext where
  symbols : SymbolTable
  /-- The answers so far, under the scope and the text of what was asked for. -/
  resolved : Store (String × String) (Option TypeInfo) := .empty

/-- What an answer is kept under. -/
def keyOf (ref : TypeRef) : String × String := (ref.scope, ref.text)

namespace UnitContext

/-- **The type that a reference names:** the answer that is kept, or else that of the table, which
is kept from then on. -/
def resolveType (ref : TypeRef) : StateM UnitContext (Option TypeInfo) := do
  let context ← get
  match context.resolved.get? (keyOf ref) with
  | some answer => pure answer
  | none =>
    let answer := context.symbols.resolveType ref.text (Text.segments ref.scope)
    set { context with resolved := context.resolved.insert (keyOf ref) answer }
    pure answer

/-- The answers of a context as it is. -/
def lookup (context : UnitContext) : Lookup where
  resolveType ref := (resolveType ref context).1
  declaredType d := context.symbols.typeInfo (Text.segments d.path)
  resolvesReceiver receiver scope :=
    context.symbols.resolvesReceiver receiver (Text.segments scope)

end UnitContext

/-- Opens a context for a unit; nothing is kept in it yet. -/
def SourceTree.openContext (tree : SourceTree) (_unit : SourceUnit) : UnitContext :=
  { symbols := tree.symbols }

end Scaffold.Source
