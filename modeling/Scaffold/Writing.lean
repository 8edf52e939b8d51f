import Scaffold.Artifact
import Scaffold.Problem

/-!
# Writing artifacts

Artifacts are written into one directory, each under its identifier.  A file that has the text of
its artifact already is left alone, so that nothing that depends on it is made anew.
-/

namespace Scaffold

open Diagnostics

/-- Whether an identifier names a file in a directory: a plain name that does not begin with a
dot. -/
def Artifact.isPlainName (id : String) : Bool :=
  !id.isEmpty && !id.toList.any (fun c => c = '/' || c = '\\') && id.toList.head? ≠ some '.'

/-- What has become of artifacts: the paths of their files. -/
structure Written where
  written : List String := []
  /-- The files that had the text already. -/
  unchanged : List String := []
  deriving DecidableEq, Inhabited, Repr

namespace Written

/-- The part of the program that reports what is written. -/
def target : String := "stencil_build::output"

variable {m : Type → Type} [Monad m] [Workspace m]

/-- Writes one artifact into a directory. -/
def add (directory : String) (w : Written) (a : Artifact) : Run m Written := do
  if !Artifact.isPlainName a.id then
    Run.stop [.note ("Artifact id is not a plain file name: " ++ Text.Quoted.shown a.id)]
  else
    let path := Files.join directory a.id
    match ← (Workspace.readText path : m (Except Files.IoFault String)) with
    | .ok text =>
      if text = a.text then
        Run.emit ⟨.debug, target, some "artifact unchanged", [("path", .text path)]⟩
        pure { w with unchanged := w.unchanged ++ [path] }
      else write path
    | .error _ => write path
where
  /-- Writes the text of the artifact. -/
  write (path : String) : Run m Written := do
    Run.change ("Failed to write artifact: " ++ path) (Workspace.writeText path a.text)
    Run.emit ⟨.debug, target, some "wrote artifact",
      [("path", .text path), ("bytes", .int a.text.utf8ByteSize)]⟩
    pure { w with written := w.written ++ [path] }

end Written

/-- **Writes artifacts** into a directory, which is made if it is missing. -/
def writeArtifacts {m : Type → Type} [Monad m] [Workspace m] (directory : String)
    (artifacts : List Artifact) : Run m Written := do
  Run.change ("Failed to create output directory: " ++ directory)
    (Workspace.makeDirectories directory)
  artifacts.foldlM (Written.add directory) {}

end Scaffold
