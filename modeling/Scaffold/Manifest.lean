import Scaffold.Problem
import Scaffold.Settings.Document
import Scaffold.Toml.Reader

/-!
# Manifests

A manifest names the inputs of a run, and may hold settings.  It is written in TOML: the section
`inputs` has the paths of a schema and of the sources, and `generator` the settings.
-/

namespace Scaffold

/-- What a run reads. -/
structure Inputs where
  /-- The path of a schema document, for the entities. -/
  schema : Option String := none
  /-- The root of the sources, for mappings and handlers. -/
  sources : Option String := none
  deriving DecidableEq, Inhabited, Repr

namespace Inputs

/-- Whether there is nothing to read. -/
def isEmpty (i : Inputs) : Bool := i.schema.isNone && i.sources.isNone

/-- The paths of the inputs. -/
def paths (i : Inputs) : List String := i.schema.toList ++ i.sources.toList

/-- The inputs as seen from a directory.  An empty path stays as it is. -/
def rootedAt (i : Inputs) (base : String) : Inputs :=
  let root (path : String) : String := if path.isEmpty then path else Files.join base path
  ⟨i.schema.map root, i.sources.map root⟩

/-- Reads inputs. -/
def ofDocument? (c : Document.Conventions) (d : Document) : Option Inputs :=
  if !d.isRecord c 2 then none
  else do
    let schema ← d.readField 0 "schema" (fun path => path.text?.map some) none
    let sources ← d.readField 1 "sources" (fun path => path.text?.map some) none
    pure ⟨schema, sources⟩

end Inputs

/-- A manifest. -/
structure Manifest where
  inputs : Inputs := {}
  settings : Settings := {}
  deriving Inhabited

namespace Manifest

/-- **The manifest that a text writes.** -/
def read (text : String) : Option Manifest := do
  let d ← Toml.read text
  let inputs ← d.readField 0 "inputs" (Inputs.ofDocument? .toml) {}
  let settings ← d.readField 1 "generator" (Settings.ofDocument? .toml) {}
  pure ⟨inputs, settings⟩

/-- Whether a manifest can be run; the causes tell why not. -/
def validate (manifest : Manifest) : Except Problem Unit :=
  if manifest.inputs.isEmpty then
    .error ⟨[.note "Manifest names no inputs; set [inputs] schema or sources"]⟩
  else if manifest.inputs.paths.contains "" then
    .error ⟨[.note "Input paths cannot be empty"]⟩
  else match manifest.settings.validate with
    | .ok _ => .ok ()
    | .error f => .error ⟨[.note "Invalid [generator] section", .failure f]⟩

variable {m : Type → Type} [Monad m] [Workspace m]

/-- The manifest of a text, for a run. -/
def ofText (text : String) : Run m Manifest :=
  match read text with
  | some manifest => pure manifest
  | none => Run.stop [.note "Failed to parse manifest", .malformedManifest]

/-- **The manifest in a file,** with the paths of its inputs as seen from where the file is. -/
def load (path : String) : Run m Manifest := do
  let text ← Run.readText ("Failed to read manifest: " ++ path) path
  let manifest ← ofText text
  match Files.parent? path with
  | some base => pure { manifest with inputs := manifest.inputs.rootedAt base }
  | none => pure manifest

end Manifest

end Scaffold
