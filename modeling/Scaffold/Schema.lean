import Scaffold.Entity
import Scaffold.Json.Reader

/-!
# Schema documents

A schema is a JSON array of entities, each with a name and `props`; a property has a name, a
`type`, and may be a `key`.  A blank text is a schema without entities.  Whether the entities can
be generated is not asked here.
-/

namespace Scaffold.Schema

open Json

/-- What has been read of a property. -/
structure PartialMember where
  name : Option String := none
  typeName : Option String := none
  isKey : Option Bool := none

/-- What has been read of an entity. -/
structure PartialEntity where
  name : Option String := none
  members : Option (List EntityMember) := none

/-- Reads a property. -/
def member : Reader EntityMember :=
  Reader.record
    [⟨"name", (·.name.isSome), fun m => do pure { m with name := some (← Reader.string) }⟩,
      ⟨"type", (·.typeName.isSome), fun m => do
        pure { m with typeName := some (← Reader.string) }⟩,
      ⟨"key", (·.isKey.isSome), fun m => do pure { m with isKey := some (← Reader.bool) }⟩]
    ({} : PartialMember)
    fun m => do pure { name := ← m.name, typeName := ← m.typeName, isKey := m.isKey.getD false }

/-- Reads an entity. -/
def entity : Reader Entity :=
  Reader.record
    [⟨"name", (·.name.isSome), fun e => do pure { e with name := some (← Reader.string) }⟩,
      ⟨"props", (·.members.isSome), fun e => do
        pure { e with members := some (← Reader.array member) }⟩]
    ({} : PartialEntity)
    fun e => do pure { name := ← e.name, members := e.members.getD [] }

/-- **The entities of a schema document.** -/
def read (text : String) : Except Failure (List Entity) :=
  if (Text.trimBlank text.toList).isEmpty then .ok []
  else match Reader.whole (Reader.array entity) text with
    | .ok entities => .ok entities
    | .error fault => .error (.schema fault)

end Scaffold.Schema
