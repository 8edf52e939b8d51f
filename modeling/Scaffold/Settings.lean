import Scaffold.Naming
import Scaffold.Syntax.Grammar.Entry

/-!
# Settings

What the generators can be told: the path of the library that generated code refers to, how
entities are generated, which calls register a mapping, and which attributes mark a handler.
`Settings.validate` names the first thing that makes settings unusable.
-/

namespace Scaffold

open Syntax

/-- What becomes of an entity that cannot be generated. -/
inductive InvalidEntityPolicy where
  /-- The run fails. -/
  | abort
  /-- The entity is left out and reported. -/
  | skip
  deriving DecidableEq, Inhabited, Repr

/-- Aliases of types, in the order of their names; each name stands once. -/
structure AliasTable where
  entries : List (String × String)
  sorted : entries.Pairwise (·.1 < ·.1)
  deriving DecidableEq, Repr

namespace AliasTable

/-- The table without aliases. -/
def empty : AliasTable := ⟨[], List.Pairwise.nil⟩

instance : Inhabited AliasTable := ⟨empty⟩

/-- Sets the target of a name in a list in order. -/
def insertEntry (name target : String) : List (String × String) → List (String × String)
  | [] => [(name, target)]
  | e :: es =>
    if name < e.1 then (name, target) :: e :: es
    else if name = e.1 then (name, target) :: es
    else e :: insertEntry name target es

theorem mem_insertEntry {name target : String} {x : String × String} :
    ∀ {es : List (String × String)}, x ∈ insertEntry name target es → x = (name, target) ∨ x ∈ es
  | [], h => by simpa [insertEntry] using h
  | e :: es, h => by
    unfold insertEntry at h
    split at h
    · simpa using h
    · split at h
      · rcases List.mem_cons.1 h with h | h
        · exact .inl h
        · exact .inr (List.mem_cons_of_mem _ h)
      · rcases List.mem_cons.1 h with h | h
        · exact .inr (h ▸ List.mem_cons_self)
        · rcases mem_insertEntry h with h | h
          · exact .inl h
          · exact .inr (List.mem_cons_of_mem _ h)

/-- Setting a target keeps the order. -/
theorem sorted_insertEntry {name target : String} :
    ∀ {es : List (String × String)}, es.Pairwise (·.1 < ·.1) →
      (insertEntry name target es).Pairwise (·.1 < ·.1)
  | [], _ => by simp [insertEntry]
  | e :: es, h => by
    have ⟨head, tail⟩ := List.pairwise_cons.1 h
    unfold insertEntry
    split
    next lt =>
      refine List.pairwise_cons.2 ⟨fun x hx => ?_, h⟩
      rcases List.mem_cons.1 hx with rfl | hx
      · exact lt
      · exact String.lt_trans lt (head x hx)
    next notLt =>
      split
      next eq => exact List.pairwise_cons.2 ⟨fun x hx => eq ▸ head x hx, tail⟩
      next ne =>
        refine List.pairwise_cons.2 ⟨fun x hx => ?_, sorted_insertEntry tail⟩
        rcases mem_insertEntry hx with rfl | hx
        · exact Std.lt_of_le_of_ne (String.not_lt.1 notLt) (Ne.symm ne)
        · exact head x hx

/-- Sets the target of a name. -/
def insert (t : AliasTable) (name target : String) : AliasTable :=
  ⟨insertEntry name target t.entries, sorted_insertEntry t.sorted⟩

/-- The table of the given entries; of two under one name the later is in force. -/
def ofEntries (entries : List (String × String)) : AliasTable :=
  entries.foldl (fun t e => t.insert e.1 e.2) empty

/-- The target of a name. -/
def target? (t : AliasTable) (name : String) : Option String := t.entries.lookup name

end AliasTable

/-- How entities are generated. -/
structure ApiSettings where
  /-- The traits that generated models derive. -/
  derives : List String := ["Debug", "Clone", "PartialEq", "Default"]
  onInvalidEntity : InvalidEntityPolicy := .abort
  /-- What stands before the name in a controller's route. -/
  routePrefix : String := "/"
  types : AliasTable := .empty
  deriving DecidableEq, Inhabited, Repr

/-- Which calls register a mapping. -/
structure MappingSettings where
  method : String := "register"
  /-- The receivers, alone or behind the qualifier. -/
  receivers : List String := ["Mappings"]
  qualifier : String := "stencil"
  deriving DecidableEq, Inhabited, Repr

/-- Which declarations are handlers. -/
structure HandlerSettings where
  markers : List String := ["handler"]
  deriving DecidableEq, Inhabited, Repr

/-- The settings of a run. -/
structure Settings where
  /-- The path of the library that generated code refers to. -/
  runtimePath : String := "::stencil"
  api : ApiSettings := {}
  mapping : MappingSettings := {}
  handler : HandlerSettings := {}
  deriving DecidableEq, Inhabited, Repr

/-- The aliases that are there without being set. -/
def builtinAliases : List (String × String) :=
  [("int", "i32"), ("long", "i64"), ("short", "i16"), ("byte", "u8"), ("string", "String"),
    ("bool", "bool"), ("float", "f32"), ("double", "f64"), ("decimal", "f64"), ("char", "char")]

/-- The type that a schema's type name stands for; a set alias goes before a built-in one. -/
def ApiSettings.resolveTypeName (api : ApiSettings) (name : String) : String :=
  match api.types.target? name with
  | some target => target
  | none => (builtinAliases.lookup name).getD name

/-- The paths of the traits to derive. -/
def ApiSettings.derivePaths (api : ApiSettings) : Except Failure (List Node) :=
  api.derives.mapM fun text =>
    match readPath text with
    | some path => .ok path
    | none => .error (.settings (.deriveNotPath text))

namespace Settings

/-- The path of the library that generated code refers to. -/
def runtime (s : Settings) : Except Failure Node :=
  match readPath s.runtimePath with
  | some path => .ok path
  | none => .error (.settings (.runtimeNotPath s.runtimePath))

/-- Checks that a condition holds. -/
def require (holds : Bool) (fault : SettingsFault) : Except Failure Unit :=
  if holds then .ok () else .error (.settings fault)

/-- **Checks the settings.**  The first fault in the order of the fields is the one that is
reported. -/
def validate (s : Settings) : Except Failure Unit := do
  let _ ← s.runtime
  let _ ← s.api.derivePaths
  require (s.api.derives.any fun d => (Text.segments d).getLast? = some "Clone") .cloneNotDerived
  for (name, target) in s.api.types.entries do
    require (readType target).isSome (.aliasNotType name target)
  require (Naming.isIdentifier s.mapping.method) (.methodNotIdentifier s.mapping.method)
  require (!s.mapping.receivers.isEmpty) .noReceivers
  for receiver in s.mapping.receivers do
    require (Naming.isIdentifier receiver) (.receiverNotIdentifier receiver)
  require (!s.handler.markers.isEmpty) .noMarkers

end Settings

end Scaffold
