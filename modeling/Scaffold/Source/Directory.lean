import Scaffold.Source.ModulePath
import Scaffold.Source.Tree
import Scaffold.Workspace

/-!
# Crates in directories

A crate is read from the directory that holds its sources: every file with the extension `rs`, in
the order of their ways from the root.  The directory `bin` at the root is left out, since each
program there is a crate of its own.
-/

namespace Scaffold.Source

open Files

/-- Why sources cannot be read. -/
inductive SourceFault where
  /-- The text of a file is no source text. -/
  | malformed (origin : String)
  | notADirectory (path : String)
  | io (path : String) (fault : IoFault)
  deriving DecidableEq, Inhabited, Repr

/-- The text of a fault. -/
def SourceFault.message : SourceFault → String
  | .malformed origin => "failed to parse " ++ origin
  | .notADirectory path => "source root " ++ path ++ " is not a directory"
  | .io path _ => "failed to read " ++ path

/-- Whether the file at the end of a way belongs to the crate. -/
def isOfCrate (way : List String) : Bool :=
  (way.getLast?.bind extension?) = some "rs" && !(way.head? = some "bin" && 1 < way.length)

/-- The files of the crate, given the ways to all files below its root in any order: their own
ways, each compared name by name. -/
def crateFiles (ways : List (List String)) : List (List String) :=
  (ways.filter isOfCrate).mergeSort fun a b => !decide (b < a)

/-- Reads the file at the end of a way from the root. -/
def readSource {m : Type → Type} [Monad m] [Workspace m] (root : String) (way : List String) :
    ExceptT SourceFault m SourceFile := do
  let path := pathBelow root way
  match ← (Workspace.readText path : m (Except IoFault String)) with
  | .ok text => pure ⟨modulePath ("/".intercalate way), path, text⟩
  | .error fault => throw (.io path fault)

/-- **The tree of the crate in a directory.** -/
def SourceTree.ofDirectory {m : Type → Type} [Monad m] [Workspace m] (root : String) :
    ExceptT SourceFault m SourceTree := do
  if !(← (Workspace.isDirectory root : m Bool)) then throw (.notADirectory root)
  else
    let ways ← (Workspace.filesBelow root : m (List (List String)))
    let files ← (crateFiles ways).mapM (readSource root)
    match SourceTree.ofFiles files with
    | .ok tree => pure tree
    | .error origin => throw (.malformed origin)

end Scaffold.Source
