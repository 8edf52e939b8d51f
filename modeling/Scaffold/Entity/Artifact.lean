import Scaffold.Entity.Plan
import Scaffold.Template
import Scaffold.Text.Quoted

/-!
# Artifacts for entities

For each entity there is an artifact with a repository, a model and a controller; a last one, the
bootstrap, registers the repositories of all.  A key of one member is that member, a key of
several is the tuple of them in order.
-/

namespace Scaffold

open Syntax Template

namespace EntityPlan

/-- A key, or a tuple of the parts of one. -/
def tupleOf (parts : List (List Token)) : List Token :=
  match parts with
  | [part] => part
  | _ => parens (commaSeparated parts)

/-- What the templates for an entity refer to. -/
def filling (p : EntityPlan) (s : Settings) (rt : Node) (repository model controller : Ident) :
    Filling :=
  let copyOf (f : PlannedField) : List Token :=
    fill "::core::clone::Clone::clone(&model.$field)" [("field", [f.ident.token])]
  let route := s.api.routePrefix ++ Naming.snakeCase p.name
  [("repository", [repository.token]), ("model", [model.token]),
    ("controller", [controller.token]), ("rt", rt.tokens),
    ("route", [.literal (Text.Quoted.literalText route)]),
    ("key", tupleOf (p.keys.map (·.type.tokens))),
    ("given", tupleOf (p.keys.map fun f => [f.ident.token])),
    ("own", tupleOf (p.keys.map copyOf)),
    ("args", commaSeparated (p.keys.map fun f =>
      f.ident.token :: .punct ':' false :: f.type.tokens)),
    ("existing", [.word false (if p.values.isEmpty then "_existing" else "existing")])]

/-- The repository: a store of models by their keys. -/
def repositoryCode (f : Filling) : List Token :=
  fill "#[derive(Default)] pub struct $repository" f ++
    braces (fill "entries: $rt::KeyedStore<$key, $model>," f) ++
  fill "impl $repository" f ++
    braces (fill "pub fn new() -> Self" f ++ braces (fill "Self::default()" f)) ++
  fill "impl ::core::ops::Deref for $repository" f ++
    braces (fill "type Target = $rt::KeyedStore<$key, $model>;" f ++
      fill "fn deref(&self) -> &Self::Target" f ++ braces (fill "&self.entries" f))

/-- The attribute that derives traits, where there are any. -/
def deriveCode (derives : List Node) : List Token :=
  if derives.isEmpty then []
  else fill "#[derive($derives)]" [("derives", commaSeparated (derives.map (·.tokens)))]

/-- The model: a struct of the fields. -/
def modelCode (p : EntityPlan) (derives : List Node) (f : Filling) : List Token :=
  deriveCode derives ++ fill "pub struct $model" f ++
    braces (p.fields.flatMap fun field =>
      fill "pub $name: $type," [("name", [field.ident.token]), ("type", field.type.tokens)])

/-- The assignments by which an update takes over what is no key. -/
def updateCode (p : EntityPlan) (f : Filling) : List Token :=
  p.values.flatMap fun field =>
    fill "$existing.$field = ::core::clone::Clone::clone(&model.$field);"
      (("field", [field.ident.token]) :: f)

/-- The controller: operations on the repository. -/
def controllerCode (p : EntityPlan) (f : Filling) : List Token :=
  fill "pub struct $controller" f ++ braces (fill "repository: ::std::sync::Arc<$repository>," f) ++
  fill "impl $controller" f ++
    braces (fill "pub const ROUTE: &str = $route;" f ++
      fill "pub fn new(repository: ::std::sync::Arc<$repository>) -> Self" f ++
        braces (fill "Self" f ++ braces (fill "repository" f)) ++
      fill "pub fn get(&self, $args) -> ::core::option::Option<$model>" f ++
        braces (fill "self.repository.get(&$given)" f) ++
      fill "pub fn get_all(&self) -> ::std::vec::Vec<$model>" f ++
        braces (fill "self.repository.values()" f) ++
      fill "pub fn post(&self, model: $model) -> $model" f ++
        braces (fill "self.repository.insert($own, ::core::clone::Clone::clone(&model)); model" f) ++
      fill "pub fn patch(&self, model: $model) -> ::core::result::Result<$model, $rt::NotFound>" f ++
        braces (fill "self.repository.update($update).ok_or($rt::NotFound)"
          (("update", fill "&$own, |$existing|" f ++ braces (updateCode p f)) :: f)) ++
      fill "pub fn delete(&self, $args)" f ++
        braces (fill "self.repository.remove(&$given);" f))

/-- The code for an entity. -/
def tokens (p : EntityPlan) (s : Settings) (rt : Node) (derives : List Node) :
    Except Breakdown (List Token) := do
  let repository ← Naming.word (p.name ++ "Repository")
  let model ← Naming.word (p.name ++ "Model")
  let controller ← Naming.word (p.name ++ "Controller")
  let f := p.filling s rt repository model controller
  pure (repositoryCode f ++ modelCode p derives f ++ controllerCode p f)

end EntityPlan

/-- The identifier of an entity's artifact. -/
def Entity.artifactId (e : Entity) : String :=
  Naming.snakeCase e.name ++ "_api.generated.rs"

/-- **The artifact of an entity:** repository, model and controller. -/
def Entity.artifact (s : Settings) (e : Entity) : Except Stop Artifact := do
  let plan ← Stop.ofFailure (EntityPlan.of s e)
  let rt ← Stop.ofFailure s.runtime
  let derives ← Stop.ofFailure s.api.derivePaths
  let tokens ← Stop.ofBreakdown (plan.tokens s rt derives)
  Artifact.ofTokens e.artifactId tokens

/-- The identifier of the bootstrap. -/
def bootstrapId : String := "repositories.generated.rs"

/-- **The bootstrap:** a function that registers a repository for each entity, in order. -/
def bootstrapArtifact (s : Settings) (entities : List Entity) : Except Stop Artifact := do
  let rt ← Stop.ofFailure s.runtime
  let repositories ← Stop.ofBreakdown
    (entities.mapM fun e => Naming.word (e.name ++ "Repository"))
  let f : Filling := [("rt", rt.tokens)]
  let registrations := repositories.flatMap fun r =>
    fill "services.add_singleton($repository::new());" [("repository", [r.token])]
  Artifact.ofTokens bootstrapId
    (fill "pub fn add_generated_repositories(services: &mut $rt::ServiceRegistry,)" f ++
      fill "-> &mut $rt::ServiceRegistry" f ++ braces (registrations ++ fill "services" f))

end Scaffold
