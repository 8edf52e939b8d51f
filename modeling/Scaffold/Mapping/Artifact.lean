import Scaffold.Mapping.Plan
import Scaffold.Template

/-!
# The artifact for mappings

All mappings of a run go into one artifact, which is made even if there are none.
-/

namespace Scaffold

open Syntax Template

/-- The identifier of the artifact for mappings. -/
def mappingsId : String := "mappings.generated.rs"

/-- The assignment that carries a member over. -/
def Assignment.tokens (a : Assignment) : Except Breakdown (List Token) := do
  let f : Filling := [("source", [a.source.token]), ("dest", [a.dest.token])]
  let value :=
    match a.sourceAccess with
    | .getter => fill "self.$source()" f
    | _ => fill "::core::clone::Clone::clone(&self.$source)" f
  match a.destAccess with
  | .setter =>
    let setter ← Naming.word ("set_" ++ a.destName)
    pure (fill "mapped.$setter($value);" [("setter", [setter.token]), ("value", value)])
  | _ => pure (fill "mapped.$dest = $value;" (("value", value) :: f))

namespace MappingTarget

/-- The trait of a destination. -/
def traitName (t : MappingTarget) : Except Breakdown Ident :=
  Naming.word ("MapTo" ++ t.display)

/-- The function of that trait. -/
def methodName (t : MappingTarget) : Except Breakdown Ident :=
  Naming.word ("map_to_" ++ Naming.snakeCase t.display)

/-- The implementation of a trait by a mapping. -/
def implTokens (f : Filling) (p : PlannedMapping) : Except Breakdown (List Token) := do
  let assignments ← p.assignments.mapM Assignment.tokens
  let callback := "additional_mappings"
  let f : Filling := ("callback", [.word false callback]) :: ("source", p.source.tokens) :: f
  pure (fill "impl $trait for $source" f ++
    braces (fill "fn $method($params,) -> $dest" f ++
      braces (fill "let mut mapped = <$dest as ::core::default::Default>::default();" f ++
        assignments.flatten ++
        fill "if let ::core::option::Option::Some($callback) = $callback" f ++
          braces (fill "$callback(self, &mut mapped);" f) ++
        fill "mapped" f)))

/-- A trait and what implements it. -/
def tokens (t : MappingTarget) : Except Breakdown (List Token) := do
  let trait_ ← t.traitName
  let method ← t.methodName
  let dest := t.dest.tokens
  let params := fill
    "&self, additional_mappings: ::core::option::Option<&dyn Fn(&Self, &mut $dest)>"
    [("dest", dest)]
  let f : Filling :=
    [("trait", [trait_.token]), ("method", [method.token]), ("dest", dest), ("params", params)]
  let impls ← t.impls.mapM (implTokens f)
  pure (fill "pub trait $trait" f ++ braces (fill "fn $method($params,) -> $dest;" f) ++
    impls.flatten)

end MappingTarget

/-- A module and its traits. -/
def MappingSpace.tokens (s : MappingSpace) : Except Breakdown (List Token) := do
  let targets ← s.targets.mapM MappingTarget.tokens
  pure (fill "pub mod $name" [("name", [s.module_.token])] ++ braces targets.flatten)

/-- **The artifact of a plan.** -/
def MappingPlan.artifact (plan : MappingPlan) : Except Stop Artifact := do
  let spaces ← Stop.ofBreakdown (plan.spaces.mapM MappingSpace.tokens)
  Artifact.ofTokens mappingsId spaces.flatten

end Scaffold
