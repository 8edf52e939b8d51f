import Scaffold.Resolve
import Scaffold.Source.Facts

/-!
# Source trees

A source tree is a crate that has been read: its corpus, and the symbol table by which references
in the corpus are resolved.  It is the host of its own corpus.
-/

namespace Scaffold.Source

open Syntax

/-- A source file: its module, where it came from, and its text. -/
structure SourceFile where
  /-- The path of the module that the file defines. -/
  space : String
  origin : String
  text : String
  deriving DecidableEq, Inhabited, Repr

/-- A crate that has been read. -/
structure SourceTree where
  corpus : Corpus := {}
  symbols : SymbolTable := {}
  deriving Inhabited

namespace SourceTree

/-- Adds a file: the origin is returned where its text cannot be read. -/
def addFile (tree : SourceTree) (file : SourceFile) : Except String SourceTree :=
  match readFile file.text with
  | none => .error file.origin
  | some node =>
    let facts := fileFacts (Text.segments file.space) node
    .ok
      { corpus := tree.corpus.push file.origin (facts.filterMap Fact.corpusNode?)
        symbols := tree.symbols.addAll facts }

/-- **The tree of source files,** one unit for each, or the origin of the first file that cannot
be read. -/
def ofFiles (files : List SourceFile) : Except String SourceTree := do
  let tree ← files.foldlM addFile {}
  pure { tree with symbols := tree.symbols.attach }

/-- The lookup of any unit. -/
def lookup (tree : SourceTree) : Lookup where
  resolveType ref := tree.symbols.resolveType ref.text (Text.segments ref.scope)
  declaredType d := tree.symbols.typeInfo (Text.segments d.path)
  resolvesReceiver receiver scope := tree.symbols.resolvesReceiver receiver (Text.segments scope)

/-- The tree as the host of its corpus. -/
def host (tree : SourceTree) : Host where
  lookup _ := tree.lookup
  membersOf info := tree.symbols.membersOf (Text.segments info.path)

end SourceTree

end Scaffold.Source
