import Scaffold.Files.Path

/-!
# File systems

A file system tells which entry is at each location.  A location is a list of names, as seen from
the working directory; it may begin with steps that lead out of it, or with the root.  What such
steps lead to is a directory.
-/

namespace Scaffold.Files

/-- Why an operation on files fails. -/
inductive IoFault where
  | notFound
  | notADirectory
  | isADirectory
  | alreadyExists
  /-- The content of a file is no text. -/
  | invalidData
  /-- A path holds a character that no path may hold. -/
  | invalidInput
  /-- A name or a path is too long. -/
  | invalidFilename
  deriving DecidableEq, Inhabited, Repr

/-- What is at a location. -/
inductive Entry where
  | directory
  | text (content : String)
  /-- A file whose content is no text. -/
  | binary
  deriving DecidableEq, Inhabited, Repr

/-- Where something is. -/
abbrev Location := List String

namespace Location

/-- Whether a step leads out of the working directory. -/
def leadsOut (step : String) : Bool := step = ".." || step = "/"

/-- Whether a location is the working directory or outside of it by its steps alone. -/
def isGiven (place : Location) : Bool := place.all leadsOut

/-- One directory up; nothing is above the root. -/
def above (place : Location) : Location :=
  if place.head? = some "/" ∧ place.length = 1 then place
  else if place.isGiven then place ++ [".."]
  else place.dropLast

/-- Where a path starts. -/
def start (path : String) : Location := if isAbsolute path then ["/"] else []

/-- The way from a directory to a place below it. -/
def below? (directory place : Location) : Option (List String) :=
  if directory.isPrefixOf place then
    match place.drop directory.length with
    | [] => none
    | name :: names => if leadsOut name then none else some (name :: names)
  else none

end Location

/-- The files and directories that are there. -/
structure FileSystem where
  entries : List (Location × Entry) := []
  deriving Inhabited

namespace FileSystem

/-- What is at a location. -/
def entry? (fs : FileSystem) (place : Location) : Option Entry :=
  if place.isGiven then some .directory else fs.entries.lookup place

/-- Puts an entry at a location, in place of what is there. -/
def put (fs : FileSystem) (place : Location) (e : Entry) : FileSystem where
  entries := (place, e) :: fs.entries.filter (·.1 != place)

/-! ### Following paths -/

/-- Whether a name is longer than a directory can hold. -/
def isLongName (name : String) : Bool := 255 < name.utf8ByteSize

/-- Whether a path is longer than one that can be followed. -/
def isLongPath (path : String) : Bool := 4096 ≤ path.utf8ByteSize

/-- The fault of a path that cannot lead anywhere. -/
def pathFault? (path : String) : Option IoFault :=
  if path.toList.any (·.toNat = 0) then some .invalidInput
  else if path.isEmpty then some .notFound
  else if isLongPath path then some .invalidFilename
  else none

/-- Follows one piece of a path. -/
def step (fs : FileSystem) (place : Location) (piece : String) : Except IoFault Location :=
  if fs.entry? place ≠ some .directory then .error .notADirectory
  else if !isStep piece then .ok place
  else if piece = ".." then .ok place.above
  else if isLongName piece then .error .invalidFilename
  else if (fs.entry? (place ++ [piece])).isNone then .error .notFound
  else .ok (place ++ [piece])

/-- **The location of the entry that a path leads to.** -/
def locate (fs : FileSystem) (path : String) : Except IoFault Location :=
  match pathFault? path with
  | some fault => .error fault
  | none => (pieces path).foldlM fs.step (Location.start path)

/-- Whether a path leads to a directory. -/
def isDirectory (fs : FileSystem) (path : String) : Bool :=
  match fs.locate path with
  | .ok place => fs.entry? place = some .directory
  | .error _ => false

/-! ### Reading -/

/-- The text in a file. -/
def readText (fs : FileSystem) (path : String) : Except IoFault String := do
  match fs.entry? (← fs.locate path) with
  | some (.text content) => .ok content
  | some .binary => .error .invalidData
  | some .directory => .error .isADirectory
  | none => .error .notFound

/-- Whether a way from a directory is listed: it ends in a file, and all directories on it can be
followed.  A directory whose path is too long is not known as one, and passes for a file. -/
def isListed (path : String) (way : List String) (e : Entry) : Bool :=
  (e ≠ .directory || isLongPath (pathBelow path way)) &&
    (way.length = 1 || !isLongPath (pathBelow path way.dropLast))

/-- The ways to all files below a directory, in no particular order. -/
def filesBelow (fs : FileSystem) (path : String) : List (List String) :=
  match fs.locate path with
  | .ok place =>
    fs.entries.filterMap fun (there, e) => (place.below? there).filter (isListed path · e)
  | .error _ => []

/-! ### Writing -/

/-- Makes the directories that `rest` leads through from `place`, one after another.  A dot at the
end asks for a directory that is there already. -/
def makeAlong (fs : FileSystem) (place : Location) : (rest : List String) →
    Option IoFault × FileSystem
  | [] => (none, fs)
  | piece :: rest =>
    if !isStep piece then fs.makeAlong place rest
    else if piece = ".." then fs.makeAlong place.above rest
    else if isLongName piece then (some .invalidFilename, fs)
    else
      let next := place ++ [piece]
      match fs.entry? next with
      | some .directory => fs.makeAlong next rest
      | some _ => (some (if rest.all (· = "") then .alreadyExists else .notADirectory), fs)
      | none =>
        if rest.contains "." && !rest.any isStep then (some .notFound, fs)
        else (fs.put next .directory).makeAlong next rest

/-- **Makes a directory** and those above it, as far as they are missing.  Directories made before
a fault remain. -/
def makeDirectories (fs : FileSystem) (path : String) : Option IoFault × FileSystem :=
  if !(pieces path).any isStep then (none, fs)
  else match pathFault? path with
    | some fault => (some fault, fs)
    | none => fs.makeAlong (Location.start path) (pieces path)

/-- **Writes a file,** whose directory has to be there. -/
def write (fs : FileSystem) (path : String) (content : Entry) : Except IoFault FileSystem :=
  match pathFault? path with
  | some fault => .error fault
  | none => do
    let directory ← (pieces path).dropLast.foldlM fs.step (Location.start path)
    let name := (pieces path).getLastD ""
    if fs.entry? directory ≠ some .directory then .error .notADirectory
    else if !isStep name || name = ".." then .error .isADirectory
    else if isLongName name then .error .invalidFilename
    else if fs.entry? (directory ++ [name]) = some .directory then .error .isADirectory
    else .ok (fs.put (directory ++ [name]) content)

end FileSystem

end Scaffold.Files
