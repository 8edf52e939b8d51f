import Scaffold.Artifact
import Scaffold.Mapping
import Scaffold.Naming

/-!
# Plans for mappings

A plan arranges mappings as they are written: a module for each namespace of sources, in it a
trait for each destination, and for each trait the mappings that implement it.  A mapping is
refused if the module of its namespace is already that of another one, or if its trait is already
that of another destination; what is refused leaves the plan as it was.
-/

namespace Scaffold

open Syntax

/-- How a member is carried over. -/
structure Assignment where
  source : Ident
  sourceAccess : MemberKind
  dest : Ident
  destName : String
  destAccess : MemberKind
  deriving DecidableEq, Inhabited

/-- A mapping as generated code has it. -/
structure PlannedMapping where
  /-- The path of the module around the source. -/
  space : String
  /-- The name of the module that generated code is put into. -/
  module_ : Ident
  source : Node
  dest : Node
  /-- The full path of the destination. -/
  destPath : String
  /-- The name of the destination alone. -/
  display : String
  assignments : List Assignment
  deriving Inhabited

/-- A trait: the mappings from one namespace to one destination. -/
structure MappingTarget where
  display : String
  destPath : String
  dest : Node
  /-- The mappings that implement it, in order. -/
  impls : List PlannedMapping
  deriving Inhabited

/-- A module: the mappings from one namespace. -/
structure MappingSpace where
  name : String
  module_ : Ident
  targets : List MappingTarget
  deriving Inhabited

/-! ### Single mappings -/

/-- How a pair of members is carried over. -/
def Assignment.of (context : String) (pair : MemberPair) : Except Failure Assignment := do
  let source ← Naming.ident pair.source context
  let dest ← Naming.ident pair.dest context
  pure ⟨source, pair.sourceAccess, dest, pair.dest, pair.destAccess⟩

/-- **The plan for one mapping.** -/
def PlannedMapping.of (m : Mapping) : Except Failure PlannedMapping := do
  let context := m.source ++ " -> " ++ m.dest
  let source ← namedType m.source context
  let dest ← namedType m.dest context
  let _ ← Naming.ident m.display context
  let module_ ← Naming.ident ("mapping_extensions_" ++ Naming.slug m.space) context
  let assignments ← m.pairs.mapM (Assignment.of context)
  pure ⟨m.space, module_, source, dest, m.dest, m.display, assignments⟩

/-! ### Arranging mappings -/

/-- Adds a mapping to the traits of its namespace. -/
def MappingTarget.place (p : PlannedMapping) :
    List MappingTarget → Except Failure (List MappingTarget)
  | [] => .ok [⟨p.display, p.destPath, p.dest, [p]⟩]
  | t :: ts =>
    if t.display = p.display then
      if t.destPath = p.destPath then .ok ({ t with impls := t.impls ++ [p] } :: ts)
      else .error (.conflictingMapping p.space p.display p.destPath t.destPath)
    else (place p ts).map (t :: ·)

/-- Adds a mapping to the module of its namespace, where there is one already. -/
def MappingSpace.extend (p : PlannedMapping) :
    List MappingSpace → Except Failure (List MappingSpace)
  | [] => .ok []
  | s :: ss =>
    if s.name = p.space then
      (MappingTarget.place p s.targets).map fun targets => { s with targets := targets } :: ss
    else (extend p ss).map (s :: ·)

/-- Adds a mapping to the modules. -/
def MappingSpace.place (p : PlannedMapping) (spaces : List MappingSpace) :
    Except Failure (List MappingSpace) :=
  if spaces.any (·.name = p.space) then extend p spaces
  else
    match spaces.find? (·.module_ = p.module_) with
    | some taken => .error (.conflictingNamespace p.space taken.name p.module_.text)
    | none =>
      (MappingTarget.place p []).map fun targets => spaces ++ [⟨p.space, p.module_, targets⟩]

/-- The modules, and the failures of the mappings that were refused, in order. -/
structure MappingPlan where
  spaces : List MappingSpace := []
  failures : List Failure := []
  deriving Inhabited

namespace MappingPlan

/-- Adds a mapping, or notes why it is refused. -/
def add (plan : MappingPlan) (m : Mapping) : MappingPlan :=
  match PlannedMapping.of m >>= fun p => MappingSpace.place p plan.spaces with
  | .ok spaces => { plan with spaces := spaces }
  | .error f => { plan with failures := plan.failures ++ [f] }

/-- **The plan of all mappings.** -/
def ofMappings (ms : List Mapping) : MappingPlan := ms.foldl add {}

end MappingPlan

end Scaffold
