import Scaffold.Artifact
import Scaffold.Handler
import Scaffold.Naming
import Scaffold.Template
import Scaffold.Text.Quoted

/-!
# Artifacts for handlers

For each handler there is an artifact with a base trait, which has a function for each member,
and the handler's constructor and `handle`.  The latter joins what the functions give, each
followed by a semicolon.
-/

namespace Scaffold

open Syntax Template

/-- A member of a handler as generated code has it. -/
structure PlannedMember where
  label : String
  ident : Ident
  type : Node
  deriving Inhabited

namespace Handler

/-- The identifier of a handler's artifact. -/
def artifactId (h : Handler) : String :=
  Naming.snakeCase h.className ++ "_handler.generated.rs"

/-- A member as generated code has it. -/
def plannedMember (h : Handler) (m : HandlerMember) : Except Failure PlannedMember := do
  let ident ← Naming.ident m.label h.typePath
  let type ← namedType m.typeName h.typePath
  pure ⟨m.label, ident, type⟩

/-- The text into which what the functions give is put. -/
def pattern (members : List PlannedMember) : String :=
  " ".intercalate (members.map fun m => "\x7bhandled_" ++ m.label ++ "\x7d;")

/-- What the template refers to for one member. -/
def memberFilling (base : Ident) (m : PlannedMember) : Except Breakdown Filling := do
  let handler ← Naming.word ("handle_" ++ m.label)
  let value ← Naming.word ("value_" ++ m.label)
  let handled ← Naming.word ("handled_" ++ m.label)
  pure [("base", [base.token]), ("handler", [handler.token]), ("value", [value.token]),
    ("handled", [handled.token]), ("field", [m.ident.token]), ("type", m.type.tokens)]

/-- The code for a handler. -/
def tokens (h : Handler) (self : Node) (base : Ident) (members : List PlannedMember) :
    Except Breakdown (List Token) := do
  let fillings ← members.mapM (memberFilling base)
  let each (text : String) : List Token := fillings.flatMap (fill text)
  let rest := if h.fillsRemaining then fill "..::core::default::Default::default()" [] else []
  let f : Filling :=
    [("base", [base.token]), ("self", self.tokens),
      ("args", commaSeparated (fillings.map (fill "$value: $type"))),
      ("pattern", [.literal (Text.Quoted.literalText (pattern members))])]
  pure (fill "#[allow(clippy::ptr_arg)] pub trait $base" f ++
      braces (each "fn $handler(&self, value: &$type) -> ::std::string::String;") ++
    fill "impl $self" f ++
      braces (fill "#[allow(clippy::too_many_arguments)] pub fn new($args) -> Self" f ++
          braces (fill "Self" f ++ braces (each "$field: $value," ++ rest)) ++
        fill "pub fn handle(&self) -> ::std::string::String" f ++
          braces (each "let $handled = <Self as $base>::$handler(self, &self.$field);" ++
            fill "::std::format!($pattern)" f)))

/-- **The artifact of a handler.** -/
def artifact (h : Handler) : Except Stop Artifact := do
  let self ← Stop.ofFailure (namedType h.typePath h.typePath)
  let base ← Stop.ofBreakdown (Naming.word (h.className ++ "Base"))
  let members ← Stop.ofFailure (h.members.mapM h.plannedMember)
  let tokens ← Stop.ofBreakdown (h.tokens self base members)
  Artifact.ofTokens h.artifactId tokens

end Handler

end Scaffold
