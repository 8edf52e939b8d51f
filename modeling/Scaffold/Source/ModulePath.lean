import Scaffold.Files.Path

/-!
# Module paths of files

A source file defines the module that its path from the root of the crate names: `a/b.rs` and
`a/b/mod.rs` define `crate::a::b`, and `lib.rs` and `main.rs` at the root define the crate itself.
-/

namespace Scaffold.Source

open Files

/-- The names on the way to a file, the last without its extension.  Steps up are left out, and so
is a name of dots alone that an extension leaves behind. -/
def namesOnWay (path : String) : List String :=
  let steps := (pieces path).filter isStep
  let named := steps.dropLast ++ (steps.getLast?.map stem).toList
  named.filter fun name => isStep name && name ≠ ".."

/-- The modules, outermost first, in which the file at the end of `names` puts what it declares. -/
def modulesOf (names : List String) : List String :=
  if names.getLast? = some "mod" ∨ names = ["lib"] ∨ names = ["main"] then names.dropLast
  else names

/-- **The path of the module that a file defines,** given its path from the root of the crate. -/
def modulePath (path : String) : String :=
  "::".intercalate ("crate" :: modulesOf (namesOnWay path))

end Scaffold.Source
