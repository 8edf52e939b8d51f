import Scaffold.Entity.Artifact
import Scaffold.Handler.Artifact
import Scaffold.Mapping.Artifact
import Scaffold.Registry
import Scaffold.Resolve

/-!
# Generations

A generation is what a generator makes: artifacts, and the failures of what was left out.  Every
generator checks the settings first.  A failure that reaches no further than one entity or one
candidate is collected, where the settings allow it; any other stops the generator.
-/

namespace Scaffold

/-- What a generator makes. -/
structure Generation where
  /-- The artifacts, in the order in which they were made. -/
  artifacts : List Artifact
  /-- The failures of what was left out. -/
  failures : List Failure := []
  deriving Inhabited

namespace Generation

/-- The artifact with an identifier. -/
def artifact? (g : Generation) (id : String) : Option Artifact :=
  g.artifacts.find? (·.id == id)

/-- Whether nothing was left out. -/
def isClean (g : Generation) : Bool := g.failures.isEmpty

/-! ### Entities -/

/-- What has been made of the entities so far. -/
structure ApiProgress where
  registry : Registry := .empty
  /-- The entities that have artifacts. -/
  made : List Entity := []
  failures : List Failure := []

/-- Makes the artifact of one entity, or leaves it out where the settings allow it. -/
def ApiProgress.add (s : Settings) (p : ApiProgress) (e : Entity) : Except Stop ApiProgress :=
  match e.artifact s with
  | .ok a => do
    let registry ← Stop.ofFailure (p.registry.insert a)
    pure { p with registry := registry, made := p.made ++ [e] }
  | .error (.failure f) =>
    if f.scope = .entity ∧ s.api.onInvalidEntity = .skip then
      pure { p with failures := p.failures ++ [f] }
    else .error (.failure f)
  | .error stop => .error stop

/-- **Repositories, models and controllers** for entities, and the bootstrap after them. -/
def api (s : Settings) (entities : List Entity) : Except Stop Generation := do
  Stop.ofFailure s.validate
  let progress ← entities.foldlM (ApiProgress.add s) {}
  let bootstrap ← bootstrapArtifact s progress.made
  let registry ← Stop.ofFailure (progress.registry.insert bootstrap)
  pure ⟨registry.artifacts, progress.failures⟩

/-! ### Mappings -/

/-- The artifact of mappings that have been resolved. -/
def ofMappings (ms : List Mapping) : Except Stop Generation := do
  let plan := MappingPlan.ofMappings ms
  let artifact ← plan.artifact
  pure ⟨[artifact], plan.failures⟩

/-- **Mappings** for every call in the corpus that registers one. -/
def mappings (s : Settings) (host : Host) (corpus : Corpus) : Except Stop Generation := do
  Stop.ofFailure s.validate
  let resolved ← Stop.ofBreakdown (host.resolveMappings (corpus.scan s.mapping.accepts))
  let made ← ofMappings resolved.items
  pure { made with failures := resolved.failures ++ made.failures }

/-! ### Handlers -/

/-- What has been made of the handlers so far. -/
structure HandlerProgress where
  registry : Registry := .empty
  failures : List Failure := []

/-- Makes the artifact of one handler, or leaves it out. -/
def HandlerProgress.add (p : HandlerProgress) (h : Handler) : Except Stop HandlerProgress :=
  match h.artifact with
  | .ok a => do
    let registry ← Stop.ofFailure (p.registry.insert a)
    pure { p with registry := registry }
  | .error (.failure f) =>
    if f.scope ≠ .run then pure { p with failures := p.failures ++ [f] }
    else .error (.failure f)
  | .error stop => .error stop

/-- **Handlers** for every marked declaration in the corpus. -/
def handlers (s : Settings) (host : Host) (corpus : Corpus) : Except Stop Generation := do
  Stop.ofFailure s.validate
  let resolved ← Stop.ofBreakdown (host.resolveHandlers (corpus.scan s.handler.accepts))
  let start : HandlerProgress := { failures := resolved.failures }
  let progress ← resolved.items.foldlM HandlerProgress.add start
  pure ⟨progress.registry.artifacts, progress.failures⟩

end Generation

end Scaffold
