import Scaffold.Command

/-!
# The program

The outer layer: commands are carried out on the files of the machine, texts are printed, and
events go to the error output, the more the more detail is asked for.
-/

namespace Scaffold

open Diagnostics

/-- What a fault of the machine comes to. -/
def Files.IoFault.ofError : IO.Error → Files.IoFault
  | .noFileOrDirectory .. => .notFound
  | .alreadyExists .. => .alreadyExists
  | .inappropriateType .. => .isADirectory
  | .invalidArgument .. => .invalidInput
  | .userError _ => .invalidData
  | _ => .notFound

/-- Work on the machine, with the level from which on events are reported. -/
abbrev Machine := ReaderT Level IO

/-- The fault of an action, if it has one. -/
def Machine.faultOf (act : IO Unit) : Machine (Option Files.IoFault) := fun _ => do
  try
    act
    pure none
  catch e => pure (some (Files.IoFault.ofError e))

/-- Whether a path leads to a directory. -/
def Machine.isDirectory (path : String) : IO Bool := do
  try (← IO.FS.realPath path).isDir
  catch _ => pure false

/-- The names in a directory, each with whether it is a directory itself. -/
def Machine.names (path : String) : IO (List (String × Bool)) := do
  try
    let found ← (← IO.FS.realPath path).readDir
    found.toList.mapM fun e => do
      pure (e.fileName, ← Machine.isDirectory (Files.join path e.fileName))
  catch _ => pure []

/-- The ways to all files below a directory, through at most `depth` directories. -/
def Machine.waysBelow : (depth : Nat) → (path : String) → IO (List (List String))
  | 0, _ => pure []
  | depth + 1, path => do
    let ways ← (← Machine.names path).mapM fun (name, isDirectory) => do
      if isDirectory then
        pure ((← Machine.waysBelow depth (Files.join path name)).map (name :: ·))
      else pure [[name]]
    pure ways.flatten

/-- More directories than a path can lead through. -/
def Machine.maxDepth : Nat := 4096

instance : Workspace Machine where
  isDirectory path := fun _ => Machine.isDirectory path
  readText path := fun _ => do
    try pure (.ok (← IO.FS.readFile path))
    catch e => pure (.error (Files.IoFault.ofError e))
  filesBelow path := fun _ => Machine.waysBelow Machine.maxDepth path
  makeDirectories path := Machine.faultOf (IO.FS.createDirAll path)
  writeText path content := Machine.faultOf (IO.FS.writeFile path content)
  print text := fun _ => IO.print text
  emit e := fun threshold => do
    if e.level.reachedFrom threshold then
      IO.eprintln ("[" ++ e.level.name ++ "] " ++ e.record.message)

/-- The level from which on events are reported. -/
def Command.threshold (arguments : List String) : Level :=
  match Command.ofArguments arguments with
  | .ok (_, 0) => .warn
  | .ok (_, 1) => .debug
  | _ => .trace

end Scaffold

open Scaffold in
/-- Does what the arguments ask for, and ends with the number that tells how it went. -/
def main (arguments : List String) : IO UInt32 := do
  let outcome ← (Command.execute arguments : Machine Command.Outcome).run
    (Command.threshold arguments)
  match outcome with
  | .done => pure ()
  | .misused => IO.eprintln Command.usage
  | .stopped (.problem p) => IO.eprintln ("Error: " ++ p.message)
  | .stopped (.breakdown _) => IO.eprintln "Error: the code cannot be written out"
  pure outcome.exitCode.toUInt32
