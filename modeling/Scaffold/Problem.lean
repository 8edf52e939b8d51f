import Scaffold.Source.Directory

/-!
# Problems

A problem ends a run.  It is told from the outermost cause to the innermost: what could not be
done, and then why.
-/

namespace Scaffold

open Files

/-- One cause of a problem. -/
inductive Cause where
  /-- A remark on what was being done. -/
  | note (text : String)
  | failure (f : Failure)
  | source (fault : Source.SourceFault)
  /-- A text is no manifest. -/
  | malformedManifest
  | io (fault : IoFault)
  deriving DecidableEq, Inhabited, Repr

/-- What ends a run, with the outermost cause first. -/
structure Problem where
  causes : List Cause
  deriving DecidableEq, Inhabited, Repr

/-- The text of a fault of files. -/
def Files.IoFault.message : IoFault → String
  | .notFound => "no such file or directory"
  | .notADirectory => "not a directory"
  | .isADirectory => "is a directory"
  | .alreadyExists => "file exists"
  | .invalidData => "the content is not text"
  | .invalidInput => "invalid path"
  | .invalidFilename => "file name too long"

/-- The text of a cause. -/
def Cause.message : Cause → String
  | .note text => text
  | .failure f => f.message
  | .source fault => fault.message
  | .malformedManifest => "not a manifest"
  | .io fault => fault.message

/-- The causes of a problem on lines of their own. -/
def Problem.message (p : Problem) : String :=
  "\nCaused by: ".intercalate (p.causes.map Cause.message)

/-- What a run stops for. -/
inductive Halt where
  | problem (p : Problem)
  | breakdown (b : Breakdown)
  deriving DecidableEq, Inhabited, Repr

/-- A run in a workspace, which may be stopped.  What it has done by then remains. -/
abbrev Run (m : Type → Type) (α : Type) : Type := ExceptT Halt m α

namespace Run

variable {m : Type → Type} [Monad m] {α : Type}

/-- Stops for a problem. -/
def stop (causes : List Cause) : Run m α := throw (.problem ⟨causes⟩)

/-- What has been computed, or else a problem: that of a failure has the remarks first. -/
def ofStop (notes : List String) : Except Stop α → Run m α
  | .ok a => pure a
  | .error (.failure f) => stop (notes.map .note ++ [.failure f])
  | .error (.breakdown b) => throw (.breakdown b)

/-- What has been computed, or else the problem of a failure, with the remarks first. -/
def ofFailure (notes : List String) : Except Failure α → Run m α
  | .ok a => pure a
  | .error f => stop (notes.map .note ++ [.failure f])

variable [Workspace m]

/-- Reads a file; `note` is the remark if that fails. -/
def readText (note path : String) : Run m String := do
  match ← (Workspace.readText path : m (Except IoFault String)) with
  | .ok text => pure text
  | .error fault => stop [.note note, .io fault]

/-- Reads a crate; `notes` are the remarks if that fails. -/
def readCrate (notes : List String) (root : String) : Run m Source.SourceTree := do
  match ← (Source.SourceTree.ofDirectory root : ExceptT Source.SourceFault m _).run with
  | .ok tree => pure tree
  | .error (.io path fault) => stop (notes.map .note ++ [.source (.io path fault), .io fault])
  | .error fault => stop (notes.map .note ++ [.source fault])

/-- Prints a line. -/
def printLine (line : String) : Run m Unit := (Workspace.printLine line : m Unit)

/-- Reports an event. -/
def emit (e : Diagnostics.Event) : Run m Unit := (Workspace.emit e : m Unit)

/-- Carries out a change of files; `note` is the remark if that fails. -/
def change (note : String) (act : m (Option IoFault)) : Run m Unit := do
  match ← act with
  | none => pure ()
  | some fault => stop [.note note, .io fault]

end Run

end Scaffold
