import Scaffold.Diagnostics.Event
import Scaffold.Files.System

/-!
# Workspaces

A workspace is where a run works: it has files, an output that texts are printed to, and a record
of events.  What works in one is written for any monad that has these operations; a `Session`
keeps the whole workspace as a value, so what a run does can be computed and reasoned about.
-/

namespace Scaffold

open Files Diagnostics

/-- Computations in a workspace. -/
class Workspace (m : Type → Type) where
  /-- Whether a path leads to a directory. -/
  isDirectory : (path : String) → m Bool
  /-- The text in a file. -/
  readText : (path : String) → m (Except IoFault String)
  /-- The ways to all files below a directory, in any order. -/
  filesBelow : (path : String) → m (List (List String))
  /-- Makes a directory and those above it. -/
  makeDirectories : (path : String) → m (Option IoFault)
  /-- Writes a text to a file. -/
  writeText : (path content : String) → m (Option IoFault)
  /-- Prints a text. -/
  print : (text : String) → m Unit
  /-- Reports an event. -/
  emit : Event → m Unit

/-- Prints a line. -/
def Workspace.printLine {m : Type → Type} [Workspace m] (line : String) : m Unit :=
  Workspace.print (line ++ "\n")

/-- **A workspace as a value.** -/
structure Session where
  files : FileSystem := {}
  /-- What has been printed. -/
  output : String := ""
  /-- What has happened, in order. -/
  events : List Event := []
  deriving Inhabited

/-- Carries out an operation that changes files, or else has a fault. -/
def Session.change (s : Session) : Except IoFault FileSystem → Option IoFault × Session
  | .ok files => (none, { s with files := files })
  | .error fault => (some fault, s)

instance : Workspace (StateM Session) where
  isDirectory path := fun s => (s.files.isDirectory path, s)
  readText path := fun s => (s.files.readText path, s)
  filesBelow path := fun s => (s.files.filesBelow path, s)
  makeDirectories path := fun s =>
    let (fault, files) := s.files.makeDirectories path
    (fault, { s with files := files })
  writeText path content := fun s => s.change (s.files.write path (.text content))
  print text := fun s => ((), { s with output := s.output ++ text })
  emit e := fun s => ((), { s with events := s.events ++ [e] })

end Scaffold
