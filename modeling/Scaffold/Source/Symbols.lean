import Scaffold.Host
import Scaffold.Source.UseTree

/-!
# The symbol table of a crate

The table holds the modules of a crate with what their use declarations bring into scope, and
its types with their members.  Names are looked up among the modules and types of a module, then
its imports, then its globs; `maxDepth` bounds how many imports and globs are followed one after
another, so that cycles of them come to an end.

Accessors wait in the table until all types are known, since an implementation may stand in
another file than its type; `attach` then gives each to the type that its implementation names.
-/

namespace Scaffold.Source

open Syntax

/-- The path of a module or type, from the crate on. -/
abbrev ModulePath := List String

/-- The target of a use declaration. -/
structure UsePath where
  segments : List String
  /-- Whether `::` stands before the path, which then begins outside the crate. -/
  rooted : Bool
  deriving DecidableEq, Inhabited, Repr

/-- What a path names. -/
inductive Resolution where
  | module_ (path : ModulePath)
  | type (path : ModulePath)
  /-- Something outside the crate. -/
  | external (segments : List String)
  deriving DecidableEq, Inhabited, Repr

/-- A member of a type as it is written. -/
structure MemberEntry where
  name : String
  type : Node
  visibility : Visibility
  kind : MemberKind
  /-- The module in which its type is written. -/
  scope : ModulePath
  deriving Inhabited

/-- What the use declarations of a module bring into scope. -/
structure ModuleEntry where
  /-- The imports; of two under one name the later is in force. -/
  imports : List (String × UsePath) := []
  globs : List UsePath := []
  deriving Inhabited

/-- A type. -/
structure TypeEntry where
  name : String
  space : ModulePath
  kind : TypeKind
  members : List MemberEntry
  deriving Inhabited

/-- Accessors of the type that an implementation names. -/
structure PendingImpl where
  target : UsePath
  scope : ModulePath
  members : List MemberEntry
  deriving Inhabited

/-- The symbol table. -/
structure SymbolTable where
  modules : List (ModulePath × ModuleEntry) := []
  types : List (ModulePath × TypeEntry) := []
  pending : List PendingImpl := []
  deriving Inhabited

/-! ### Association lists -/

/-- Sets the value of a key; a key that is there keeps its place. -/
def setKey {κ α : Type} [BEq κ] (key : κ) (value : α) : List (κ × α) → List (κ × α)
  | [] => [(key, value)]
  | (k, v) :: rest => if k == key then (key, value) :: rest else (k, v) :: setKey key value rest

/-- Changes the value of a key, which is `default` where the key is not there. -/
def alterKey {κ α : Type} [BEq κ] (key : κ) (default : α) (f : α → α) (table : List (κ × α)) :
    List (κ × α) :=
  setKey key (f ((table.lookup key).getD default)) table

namespace SymbolTable

/-! ### Filling the table -/

/-- The ancestors of a module and the module itself, the outermost first.  The text of the path is
cut from the left for this, and empty pieces at the beginning do not count. -/
def withAncestors (path : ModulePath) : List ModulePath :=
  let names := (Text.splitColons (Text.ofSegments path).toList).map String.ofList
  (List.range names.length).map fun i =>
    Text.segments (Text.ofSegments ((names.take (i + 1)).dropWhile (· = "")))

/-- Registers a module and its ancestors. -/
def addModule (t : SymbolTable) (path : ModulePath) : SymbolTable :=
  { t with modules := (withAncestors path).foldl (fun ms p => alterKey p {} id ms) t.modules }

/-- Adds a type; one of the same path is replaced. -/
def addType (t : SymbolTable) (space : ModulePath) (name : String) (kind : TypeKind)
    (members : List MemberEntry) : SymbolTable :=
  let t := t.addModule space
  { t with types := setKey (space ++ [name]) ⟨name, space, kind, members⟩ t.types }

/-- Adds an import to a module. -/
def addImport (t : SymbolTable) (space : ModulePath) (bound : String) (path : UsePath) :
    SymbolTable :=
  let bind (m : ModuleEntry) : ModuleEntry := { m with imports := setKey bound path m.imports }
  { t with modules := alterKey space {} bind t.modules }

/-- Adds a glob to a module. -/
def addGlob (t : SymbolTable) (space : ModulePath) (path : UsePath) : SymbolTable :=
  let open_ (m : ModuleEntry) : ModuleEntry := { m with globs := m.globs ++ [path] }
  { t with modules := alterKey space {} open_ t.modules }

/-- Keeps accessors until all types are known. -/
def addImpl (t : SymbolTable) (impl : PendingImpl) : SymbolTable :=
  { t with pending := t.pending ++ [impl] }

/-! ### Resolving paths -/

/-- Whether a module has this path. -/
def hasModule (t : SymbolTable) (path : ModulePath) : Bool :=
  (t.modules.lookup path).isSome

/-- Whether a type has this path. -/
def hasType (t : SymbolTable) (path : ModulePath) : Bool :=
  (t.types.lookup path).isSome

/-- The module around a module. -/
def parent? (path : ModulePath) : Option ModulePath :=
  if path.length ≤ 1 then none else some path.dropLast

/-- What the segment `name` names in what the segments before it name. -/
def stepInto (inModule : ModulePath → String → Option Resolution) (name : String) :
    Resolution → Option Resolution
  | .module_ path => if name = "super" then (parent? path).map .module_ else inModule path name
  | .external segments => some (.external (segments ++ [name]))
  | .type _ => none

/-- What the segments name below `start`. -/
def stepAll (inModule : ModulePath → String → Option Resolution) :
    Resolution → List String → Option Resolution
  | start, [] => some start
  | start, name :: rest => (stepInto inModule name start).bind (stepAll inModule · rest)

/-- What a path names in a scope, given what names mean in modules.  A path whose first name
means nothing there begins outside the crate, unless it is a single name and not the target of a
use declaration. -/
def resolveWith (inModule : ModulePath → String → Option Resolution) (path : UsePath)
    (scope : ModulePath) (inUse : Bool) : Option Resolution :=
  if path.rooted then some (.external path.segments)
  else match path.segments with
    | [] => none
    | "crate" :: rest => stepAll inModule (.module_ ["crate"]) rest
    | "self" :: rest => stepAll inModule (.module_ scope) rest
    | "super" :: rest => (parent? scope).bind fun p => stepAll inModule (.module_ p) rest
    | name :: rest =>
      match inModule scope name with
      | some start => stepAll inModule start rest
      | none => if rest.isEmpty && !inUse then none else some (.external path.segments)

/-- The most imports and globs that are followed one after another. -/
def maxDepth : Nat := 16

/-- **What a name means in a module,** with at most `depth` imports and globs followed. -/
def resolveName (t : SymbolTable) : (depth : Nat) → ModulePath → String → Option Resolution
  | depth, space, name =>
    let path := space ++ [name]
    if t.hasModule path then some (.module_ path)
    else if t.hasType path then some (.type path)
    else match t.modules.lookup space with
      | none => none
      | some entry =>
        match entry.imports.lookup name, depth with
        | some target, 0 =>
          -- an import of a crate under its own name is no cycle
          if target = ⟨[name], false⟩ then some (.external [name]) else none
        | some target, depth + 1 =>
          if target = ⟨[name], false⟩ then some (.external [name])
          else resolveWith (resolveName t depth) target space true
        | none, 0 => none
        | none, depth + 1 =>
          entry.globs.findSome? fun glob =>
            match resolveWith (resolveName t depth) glob space true with
            | some (.module_ source) =>
              if source = space then none else resolveName t depth source name
            | _ => none

/-- **What a path names in a scope.** -/
def resolvePath (t : SymbolTable) (path : UsePath) (scope : ModulePath) : Option Resolution :=
  resolveWith (t.resolveName maxDepth) path scope false

/-- Whether a module has a glob of something outside the crate. -/
def hasExternalGlob (t : SymbolTable) (space : ModulePath) : Bool :=
  match t.modules.lookup space with
  | none => false
  | some entry =>
    entry.globs.any fun glob =>
      match resolveWith (t.resolveName (maxDepth - 1)) glob space true with
      | some (.external _) => true
      | _ => false

/-- Whether a receiver names something that can be reached from a scope.  Where the scope has a
glob of something outside the crate, any receiver may. -/
def resolvesReceiver (t : SymbolTable) (receiver : List String) (scope : ModulePath) : Bool :=
  !receiver.isEmpty &&
    ((t.resolvePath ⟨receiver, false⟩ scope).isSome || t.hasExternalGlob scope)

/-! ### Attaching accessors -/

/-- Gives the accessors of an implementation to the type that it names, if it names one. -/
def attachOne (t : SymbolTable) (impl : PendingImpl) : SymbolTable :=
  match t.resolvePath impl.target impl.scope with
  | some (.type path) =>
    match t.types.lookup path with
    | some entry =>
      { t with types := setKey path { entry with members := entry.members ++ impl.members } t.types }
    | none => t
  | _ => t

/-- **Attaches the accessors that were kept,** in the order in which they came. -/
def attach (t : SymbolTable) : SymbolTable :=
  t.pending.foldl attachOne { t with pending := [] }

/-- The type of a path. -/
def typeInfo (t : SymbolTable) (path : ModulePath) : Option TypeInfo :=
  (t.types.lookup path).map fun entry =>
    ⟨entry.name, Text.ofSegments path, Text.ofSegments entry.space, entry.kind⟩

end SymbolTable

end Scaffold.Source
