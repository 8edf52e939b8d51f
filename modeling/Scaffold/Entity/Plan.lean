import Scaffold.Artifact
import Scaffold.Entity
import Scaffold.Settings

/-!
# Plans for entities

A plan holds what is needed to write the code for an entity: its fields under the names and types
that generated code uses for them.  `EntityPlan.of` makes one of every entity that can be
generated and names the first fault of every other.
-/

namespace Scaffold

open Syntax

/-- A member as generated code has it. -/
structure PlannedField where
  ident : Ident
  type : Node
  isKey : Bool
  deriving Inhabited

/-- An entity as generated code has it. -/
structure EntityPlan where
  name : String
  fields : List PlannedField
  deriving Inhabited

namespace EntityPlan

/-- The fields of the key, in order. -/
def keys (p : EntityPlan) : List PlannedField := p.fields.filter (·.isKey)

/-- The other fields, in order. -/
def values (p : EntityPlan) : List PlannedField := p.fields.filter (!·.isKey)

/-- The fields of members whose names in snake case differ from those of `seen` and from one
another. -/
def fieldsOf (s : Settings) (entity : String) : (seen : List String) → List EntityMember →
    Except Failure (List PlannedField)
  | _, [] => .ok []
  | seen, m :: ms => do
    let name := Naming.snakeCase m.name
    if seen.contains name then .error (.duplicateMember entity m.name)
    else
      let ident ← Naming.ident name entity
      let type ← namedType (s.api.resolveTypeName m.typeName) entity
      let rest ← fieldsOf s entity (name :: seen) ms
      pure (⟨ident, type, m.isKey⟩ :: rest)

/-- **The plan for an entity.** -/
def of (s : Settings) (e : Entity) : Except Failure EntityPlan := do
  e.validate
  let fields ← fieldsOf s e.name [] e.members
  if fields.any (·.isKey) then pure ⟨e.name, fields⟩ else .error (.noKeys e.name)

end EntityPlan

end Scaffold
