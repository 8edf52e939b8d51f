import Scaffold.Text.CharClass

/-!
# Paths

A path is a text whose pieces stand between slashes.  An empty piece and a dot lead nowhere, two
dots lead up, and any other piece names an entry of a directory.  A path that begins with a slash
starts at the root, any other at the working directory.
-/

namespace Scaffold.Files

/-- The pieces of a path between its slashes. -/
def pieces (path : String) : List String :=
  (Text.splitAtChar '/' path.toList).map String.ofList

/-- Whether a path starts at the root. -/
def isAbsolute (path : String) : Bool := path.toList.head? = some '/'

/-- Whether a piece leads elsewhere. -/
def isStep (piece : String) : Bool := piece ≠ "" && piece ≠ "."

/-- **The path `path` as seen from the directory `base`.** -/
def join (base path : String) : String :=
  if isAbsolute path then path
  else if base.toList.getLast?.all (· = '/') then base ++ path
  else base ++ "/" ++ path

/-- The path at the end of the way `way` from the directory `base`. -/
def pathBelow (base : String) (way : List String) : String := join base ("/".intercalate way)

/-- The directory that holds what a path leads to: the path without its last step.  The root and
the empty path are in no directory. -/
def parent? (path : String) : Option String :=
  match pieces path with
  | [] => none
  | first :: rest =>
    match rest.reverse.dropWhile (!isStep ·) with
    | [] => if first.isEmpty then none else some ""
    | _ :: before =>
      let kept := (before.dropWhile (!isStep ·)).reverse
      some (if first.isEmpty && kept.isEmpty then "/" else "/".intercalate (first :: kept))

/-! ### Names of files -/

/-- The name of a file cut at its last dot.  A name has no extension where nothing stands before
the dot, and two dots are no name. -/
def splitName (name : String) : String × Option String :=
  let backward := name.toList.reverse
  let stem := (backward.dropWhile (· ≠ '.')).drop 1
  if name = ".." ∨ stem.isEmpty then (name, none)
  else (String.ofList stem.reverse, some (String.ofList (backward.takeWhile (· ≠ '.')).reverse))

/-- The name without its extension. -/
def stem (name : String) : String := (splitName name).1

/-- The extension of a name. -/
def extension? (name : String) : Option String := (splitName name).2

end Scaffold.Files
