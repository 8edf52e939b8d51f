import Scaffold.Corpus
import Scaffold.Entity

/-!
# What a host knows

A host answers questions about the types of a corpus.  Questions about how a unit refers to
things go to a lookup of that unit; the members of a type do not depend on who asks.  A host that
spells out the types of members stops where a name in them cannot be spelled (`Breakdown`).
-/

namespace Scaffold

/-- What a type is. -/
inductive TypeKind where
  | struct
  | enum
  | primitive
  deriving DecidableEq, Inhabited, Repr

/-- A named type. -/
structure TypeInfo where
  /-- The name alone. -/
  name : String
  /-- The full path. -/
  path : String
  /-- The path of the module that holds the type. -/
  space : String
  kind : TypeKind
  deriving DecidableEq, Inhabited, Repr

/-- Who may use a member. -/
inductive Visibility where
  /-- Everyone. -/
  | exposed
  /-- A part of the crate. -/
  | restricted
  /-- The module alone. -/
  | hidden
  deriving DecidableEq, Inhabited, Repr

/-- What a member is. -/
inductive MemberKind where
  /-- A field. -/
  | field
  /-- A method that returns the value. -/
  | getter
  /-- A method that sets the value; it is listed under the name of what it sets. -/
  | setter
  deriving DecidableEq, Inhabited, Repr

/-- A member of a type. -/
structure TypeMember where
  name : String
  /-- The canonical text of its type. -/
  typeName : String
  visibility : Visibility
  kind : MemberKind
  /-- Whether the type itself stores it. -/
  stored : Bool
  deriving DecidableEq, Inhabited, Repr

namespace TypeMember

/-- What code outside the type may do with the member: nothing, unless it is public. -/
def role (m : TypeMember) : Option MemberRole :=
  if m.visibility = .exposed then
    some (match m.kind with
      | .field => .both
      | .getter => .readable
      | .setter => .writable)
  else none

/-- Whether code outside the type may read the member. -/
def isReadable (m : TypeMember) : Bool :=
  m.role = some .readable || m.role = some .both

/-- Whether code outside the type may write the member. -/
def isWritable (m : TypeMember) : Bool :=
  m.role = some .writable || m.role = some .both

end TypeMember

/-- The questions that one unit asks. -/
structure Lookup where
  /-- The type that a reference names. -/
  resolveType : TypeRef → Option TypeInfo
  /-- The type that a declaration declares. -/
  declaredType : Declaration → Option TypeInfo
  /-- Whether a receiver names something that can be reached from a scope. -/
  resolvesReceiver : List String → (scope : String) → Bool

/-- A host. -/
structure Host where
  /-- The lookup of a unit. -/
  lookup : SourceUnit → Lookup
  /-- The members of a type in order. -/
  membersOf : TypeInfo → Except Breakdown (List TypeMember)

end Scaffold
