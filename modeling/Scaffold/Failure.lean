/-!
# Failures

What can go wrong while code is generated.  A failure says how far it reaches: a faulty entity or
candidate can be left out of a run, but a failure of the run leaves nothing consistent to write.
-/

namespace Scaffold

/-- How far a failure reaches. -/
inductive FailureScope where
  /-- One schema entity cannot be generated. -/
  | entity
  /-- One declaration or call that was found cannot be generated. -/
  | candidate
  /-- The run cannot produce a consistent set of artifacts. -/
  | run
  deriving DecidableEq, Inhabited, Repr

/-- What is wrong with a text that should hold a JSON document of a given shape. -/
inductive JsonFault where
  /-- The text ended too early. -/
  | eof
  /-- The text is not JSON. -/
  | syntaxFault
  /-- The document has another shape. -/
  | data
  deriving DecidableEq, Inhabited, Repr

/-- What makes settings unusable. -/
inductive SettingsFault where
  | runtimeNotPath (text : String)
  | deriveNotPath (text : String)
  | cloneNotDerived
  | aliasNotType (name target : String)
  | methodNotIdentifier (text : String)
  | noReceivers
  | receiverNotIdentifier (text : String)
  | noMarkers
  deriving DecidableEq, Inhabited, Repr

/-- A failure of generation. -/
inductive Failure where
  /-- An entity has no key members. -/
  | noKeys (entity : String)
  /-- An entity has no members at all. -/
  | noMembers (entity : String)
  /-- Two members of an entity share a name. -/
  | duplicateMember (entity member : String)
  /-- A name cannot be made an identifier. -/
  | invalidIdentifier (name context : String)
  /-- A name is no type or path. -/
  | invalidType (name context : String)
  /-- A type argument of a registration is no concrete named type. -/
  | invalidTypeArgument (argument origin : String)
  /-- The receiver of a registration names nothing that is in scope. -/
  | unresolvableReceiver (receiver origin : String)
  /-- A marked declaration is not known to the host. -/
  | unresolvedDeclaration (name origin : String)
  /-- Two destinations with one display name are mapped from one namespace. -/
  | conflictingMapping (space display dest existing : String)
  /-- Two namespaces share the name of their module. -/
  | conflictingNamespace (space existing module_ : String)
  /-- The generated tokens form no file. -/
  | malformed (artifact : String)
  /-- Two artifacts share an identifier. -/
  | duplicateArtifact (artifact : String)
  /-- A schema document could not be read. -/
  | schema (fault : JsonFault)
  /-- The settings are unusable. -/
  | settings (fault : SettingsFault)
  deriving DecidableEq, Inhabited, Repr

/-- The text of a settings fault. -/
def SettingsFault.message : SettingsFault → String
  | .runtimeNotPath text => "runtime_path `" ++ text ++ "` is not a path"
  | .deriveNotPath text => "derive `" ++ text ++ "` is not a path"
  | .cloneNotDerived => "api.derives must include Clone"
  | .aliasNotType name target => "api.types." ++ name ++ " = `" ++ target ++ "` is not a type"
  | .methodNotIdentifier text => "mapping.method `" ++ text ++ "` is not an identifier"
  | .noReceivers => "mapping.receivers cannot be empty"
  | .receiverNotIdentifier text => "mapping receiver `" ++ text ++ "` is not an identifier"
  | .noMarkers => "handler.markers cannot be empty"

namespace Failure

/-- A stable number for diagnostics. -/
def code : Failure → Nat
  | .noKeys _ => 1
  | .noMembers _ => 2
  | .duplicateMember .. => 3
  | .invalidIdentifier .. => 4
  | .invalidType .. => 5
  | .invalidTypeArgument .. => 6
  | .unresolvableReceiver .. => 7
  | .unresolvedDeclaration .. => 8
  | .conflictingMapping .. => 9
  | .malformed _ => 10
  | .duplicateArtifact _ => 11
  | .schema _ => 12
  | .settings _ => 13
  | .conflictingNamespace .. => 14

/-- How far the failure reaches. -/
def scope : Failure → FailureScope
  | .noKeys _ | .noMembers _ | .duplicateMember .. | .invalidIdentifier .. | .invalidType .. =>
    .entity
  | .invalidTypeArgument .. | .unresolvableReceiver .. | .unresolvedDeclaration ..
  | .conflictingMapping .. | .conflictingNamespace .. => .candidate
  | .malformed _ | .duplicateArtifact _ | .schema _ | .settings _ => .run

/-- The text of the failure.  For text that is malformed it names the artifact alone, and for a
schema the kind of fault, since the details depend on the reader. -/
def message : Failure → String
  | .noKeys entity => "entity `" ++ entity ++ "` has no keys"
  | .noMembers entity => "entity `" ++ entity ++ "` has no members"
  | .duplicateMember entity member =>
    "entity `" ++ entity ++ "` declares member `" ++ member ++ "` more than once"
  | .invalidIdentifier name context =>
    "`" ++ name ++ "` is not a valid identifier (in " ++ context ++ ")"
  | .invalidType name context => "`" ++ name ++ "` is not a valid type (in " ++ context ++ ")"
  | .invalidTypeArgument argument origin =>
    "invalid type argument `" ++ argument ++ "` in " ++ origin
  | .unresolvableReceiver receiver origin =>
    "unresolvable receiver `" ++ receiver ++ "` in " ++ origin
  | .unresolvedDeclaration name origin =>
    "declaration `" ++ name ++ "` in " ++ origin ++ " could not be resolved"
  | .conflictingMapping space display dest existing =>
    "`" ++ dest ++ "` conflicts with `" ++ existing ++ "` as mapping target `" ++ display ++
      "` in `" ++ space ++ "`"
  | .conflictingNamespace space existing module_ =>
    "namespace `" ++ space ++ "` and `" ++ existing ++ "` would share mapping module `" ++
      module_ ++ "`"
  | .malformed artifact => "generated artifact `" ++ artifact ++ "` is not valid source text"
  | .duplicateArtifact artifact => "artifact `" ++ artifact ++ "` was generated more than once"
  | .schema _ => "schema error"
  | .settings fault => "configuration error: " ++ fault.message

end Failure

/-! ### Breakdowns -/

/-- What cannot be carried out at all.  Nothing is left of the computation that comes upon it. -/
inductive Breakdown where
  /-- A text that was to be an identifier cannot be one. -/
  | name (text : String)
  /-- The code has a part that is kept as mere tokens, for which there is no layout. -/
  | layout
  deriving DecidableEq, Inhabited, Repr

/-- Why generation stops: a failure that is reported, or a breakdown. -/
inductive Stop where
  | failure (f : Failure)
  | breakdown (b : Breakdown)
  deriving DecidableEq, Inhabited, Repr

/-- A computation that may fail, where breakdowns may come up. -/
def Stop.ofFailure {α : Type} : Except Failure α → Except Stop α
  | .ok a => .ok a
  | .error f => .error (.failure f)

/-- A computation that may break down, where failures may come up. -/
def Stop.ofBreakdown {α : Type} : Except Breakdown α → Except Stop α
  | .ok a => .ok a
  | .error b => .error (.breakdown b)

end Scaffold
