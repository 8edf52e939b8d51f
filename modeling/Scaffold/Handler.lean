/-!
# Handlers

A handler is a marked struct whose restricted members take part in handling: for each of them
there is a function to be written by hand, and the handler's own function calls them in order.
-/

namespace Scaffold

/-- A member of a handler that takes part in handling. -/
structure HandlerMember where
  label : String
  typeName : String
  deriving DecidableEq, Inhabited, Repr

/-- A handler: a marked struct with restricted members. -/
structure Handler where
  className : String
  /-- The path of the module around it. -/
  space : String
  /-- The full path of the struct. -/
  typePath : String
  members : List HandlerMember
  /-- Whether the struct has fields beside the members, to be filled with defaults. -/
  fillsRemaining : Bool
  deriving DecidableEq, Inhabited, Repr

end Scaffold
