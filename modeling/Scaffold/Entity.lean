import Scaffold.Naming

/-!
# Entities

An entity is what a schema describes: a name and members, some of which form its key.
`Entity.validate` checks what does not depend on what is generated from it.
-/

namespace Scaffold

/-- Whether a member is read, written, or both by generated code. -/
inductive MemberRole where
  | readable
  | writable
  | both
  deriving DecidableEq, Inhabited, Repr

/-- A member of an entity. -/
structure EntityMember where
  /-- The name as the schema writes it. -/
  name : String
  /-- The type as the schema writes it. -/
  typeName : String
  /-- Whether it is part of the key. -/
  isKey : Bool := false
  /-- How generated code uses it. -/
  role : MemberRole := .both
  deriving DecidableEq, Inhabited, Repr

/-- An entity. -/
structure Entity where
  name : String
  members : List EntityMember
  deriving DecidableEq, Inhabited, Repr

namespace Entity

/-- The members of the key, in order. -/
def keys (e : Entity) : List EntityMember := e.members.filter (·.isKey)

/-- Checks member names: each is an identifier, and none is one of `seen` or of those before. -/
def validateMembers (entity : String) : (seen : List String) → List EntityMember →
    Except Failure Unit
  | _, [] => .ok ()
  | seen, m :: ms =>
    if !Naming.isIdentifier m.name then .error (.invalidIdentifier m.name entity)
    else if seen.contains m.name then .error (.duplicateMember entity m.name)
    else validateMembers entity (m.name :: seen) ms

/-- **Checks an entity:** its name, then that it has members, then their names in order. -/
def validate (e : Entity) : Except Failure Unit :=
  if !Naming.isIdentifier e.name then .error (.invalidIdentifier e.name "entity name")
  else if e.members.isEmpty then .error (.noMembers e.name)
  else validateMembers e.name [] e.members

end Entity

end Scaffold
