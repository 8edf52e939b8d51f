import Scaffold.Generation
import Scaffold.Manifest
import Scaffold.Schema

/-!
# Projects

A project is generated from all its inputs at once: the entities of its schema, and the mappings
and handlers of its sources.  The artifacts of all generators share one registry.
-/

namespace Scaffold

open Diagnostics

namespace Project

/-- The part of the program that reports the events of a run. -/
def target : String := "stencil_build::pipeline"

/-- An event of a run. -/
def event (level : Level) (message : String) (fields : List (String × FieldValue)) : Event :=
  ⟨level, target, some message, fields⟩

/-- What the generators have made so far. -/
structure Collection where
  registry : Registry := .empty
  failures : List Failure := []

namespace Collection

variable {m : Type → Type} [Monad m] [Workspace m]

/-- Adds an artifact of a generator. -/
def addArtifact (generator : String) (c : Collection) (a : Artifact) : Run m Collection := do
  Run.emit (event .debug "generated" [("generator", .text generator), ("artifact", .text a.id)])
  let registry ← Run.ofFailure [generator ++ " generator output collides"] (c.registry.insert a)
  pure { c with registry := registry }

/-- **Adds what a generator has made,** and warns of each failure. -/
def add (c : Collection) (generator : String) (g : Generation) : Run m Collection := do
  g.failures.forM fun f =>
    Run.emit (event .warn f.message [("generator", .text generator), ("code", .int f.code)])
  g.artifacts.foldlM (addArtifact generator) { c with failures := c.failures ++ g.failures }

end Collection

variable {m : Type → Type} [Monad m] [Workspace m]

/-- Adds what is made of the entities in a schema document. -/
def addSchema (s : Settings) (c : Collection) (path : String) : Run m Collection := do
  let text ← Run.readText ("Failed to read schema: " ++ path) path
  let entities ← Run.ofFailure ["Failed to parse schema: " ++ path] (Schema.read text)
  Run.emit (event .debug "loaded schema"
    [("entities", .int entities.length), ("schema", .text path)])
  c.add "api" (← Run.ofStop ["API generation failed"] (Generation.api s entities))

/-- Adds what is made of the sources below a root. -/
def addSources (s : Settings) (c : Collection) (root : String) : Run m Collection := do
  let tree ← Run.readCrate ["Failed to load sources: " ++ root] root
  Run.emit (event .debug "loaded sources"
    [("files", .int tree.corpus.units.length), ("sources", .text root)])
  let mappings := Generation.mappings s tree.host tree.corpus
  let c ← c.add "mapping" (← Run.ofStop ["Mapping generation failed"] mappings)
  let handlers := Generation.handlers s tree.host tree.corpus
  c.add "handler" (← Run.ofStop ["Handler generation failed"] handlers)

/-- **Generates everything** for the inputs of a project. -/
def generate (inputs : Inputs) (s : Settings) : Run m Generation := do
  Run.ofFailure ["Invalid generator configuration"] s.validate
  let c ← inputs.schema.toList.foldlM (addSchema s) {}
  let c ← inputs.sources.toList.foldlM (addSources s) c
  Run.emit (event .info "generation finished"
    [("artifacts", .int c.registry.size), ("failures", .int c.failures.length)])
  pure ⟨c.registry.artifacts, c.failures⟩

end Project

end Scaffold
