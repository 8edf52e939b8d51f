import Scaffold.Project
import Scaffold.Writing

/-!
# Builds

A build is set up by calls, each of which sets some of its parts anew, and then carried out: the
project is generated and its artifacts are written.  The build tool is told by directives which
files the artifacts depend on.
-/

namespace Scaffold

open Diagnostics

/-- How a project is built. -/
structure Build where
  inputs : Inputs := {}
  settings : Settings := {}
  /-- The manifest that inputs and settings come from. -/
  manifest : Option String := none
  /-- Where artifacts go. -/
  outDir : Option String := none
  /-- Whether directives are printed. -/
  directs : Bool := true
  /-- Whether a failure of an entity or a candidate fails the build. -/
  deniesFailures : Bool := false
  deriving Inhabited

/-- A call that sets up a build. -/
inductive BuildCall where
  | manifest (path : String)
  | schema (path : String)
  | sources (path : String)
  | settings (s : Settings)
  | outDir (path : String)
  | directs (on : Bool)
  | deniesFailures (on : Bool)
  deriving Inhabited

namespace Build

/-- The part of the program that reports what is built. -/
def target : String := "stencil_build::builder"

/-- The directives of a build: one for each file that it depends on. -/
def directives (b : Build) : List String :=
  (b.manifest.toList ++ b.inputs.paths).map ("cargo:rerun-if-changed=" ++ ·)

variable {m : Type → Type} [Monad m] [Workspace m]

/-- Sets up a build by a manifest, in place of all inputs and settings. -/
def setManifest (b : Build) (path : String) : Run m Build := do
  let manifest ← Manifest.load path
  match manifest.validate with
  | .ok _ =>
    pure { b with
      inputs := manifest.inputs, settings := manifest.settings, manifest := some path }
  | .error p => Run.stop (.note ("Invalid manifest: " ++ path) :: p.causes)

/-- **Sets up a build** by one more call. -/
def apply (b : Build) : BuildCall → Run m Build
  | .manifest path => b.setManifest path
  | .schema path => pure { b with inputs := { b.inputs with schema := some path } }
  | .sources path => pure { b with inputs := { b.inputs with sources := some path } }
  | .settings s => pure { b with settings := s }
  | .outDir path => pure { b with outDir := some path }
  | .directs on => pure { b with directs := on }
  | .deniesFailures on => pure { b with deniesFailures := on }

/-- **Carries out a build.**  Artifacts go where `outDirVariable` says if the build does not. -/
def carryOut (b : Build) (outDirVariable : Option String) : Run m Generation := do
  if b.inputs.isEmpty then
    Run.stop [.note "No inputs configured; call schema(), sources() or manifest()"]
  else match b.outDir.or outDirVariable with
    | none =>
      Run.stop [.note "OUT_DIR is not set; call out_dir() outside of build scripts"]
    | some directory => do
      if b.directs then b.directives.forM Run.printLine
      let g ← Project.generate b.inputs b.settings
      let w ← writeArtifacts directory g.artifacts
      Run.emit ⟨.info, target, some "artifacts written",
        [("written", .int w.written.length), ("unchanged", .int w.unchanged.length),
          ("out_dir", .text directory)]⟩
      if b.deniesFailures && !g.isClean then
        Run.stop [.note (toString g.failures.length ++
          " entities or candidates failed to generate")]
      else pure g

end Build

end Scaffold
