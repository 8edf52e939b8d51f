import Scaffold.Pairing

/-!
# Mappings

A mapping makes a value of one type from a value of another, member by member.
-/

namespace Scaffold

/-- A mapping from one type to another. -/
structure Mapping where
  /-- The path of the module around the source. -/
  space : String
  /-- The full path of the source. -/
  source : String
  /-- The full path of the destination. -/
  dest : String
  /-- The name of the destination alone, from which generated names are made. -/
  display : String
  pairs : List MemberPair
  deriving DecidableEq, Inhabited, Repr

end Scaffold
