import Scaffold.Handler
import Scaffold.Mapping
import Scaffold.Scan

/-!
# Resolving candidates

A host turns candidates into descriptions of handlers and mappings.  Consecutive candidates of
one unit share a lookup, which is opened when the first of them comes up and is not used for any
other unit (`visitUnits`).  Each candidate gives an item, a failure, or nothing; of the items with
one identity only the first is kept.

Lookups may be opened in any monad, so that a caller can see which are; a host opens its own
lookups and notes nothing.
-/

namespace Scaffold

/-- What has been resolved: items without repeats, and a failure for each candidate that has
one, both in the order of the candidates. -/
structure Resolved (α : Type) where
  items : List α
  failures : List Failure
  deriving Inhabited

/-- What one candidate gives. -/
inductive Finding (α : Type) where
  | nothing
  | item (a : α)
  | failure (f : Failure)
  deriving Inhabited

namespace Finding

variable {α : Type}

/-- The item, where there is one. -/
def item? : Finding α → Option α
  | .item a => some a
  | _ => none

/-- The failure, where there is one. -/
def failure? : Finding α → Option Failure
  | .failure f => some f
  | _ => none

end Finding

/-- Collects findings; of the items with one key the first is kept. -/
def Resolved.collect {α κ : Type} [BEq κ] (key : α → κ) (findings : List (Finding α)) :
    Resolved α where
  items := distinctBy key [] (findings.filterMap Finding.item?)
  failures := findings.filterMap Finding.failure?

/-! ### Lookups -/

/-- Cuts candidates into the longest runs of one unit each. -/
def unitRuns : List Candidate → List (SourceUnit × List Candidate)
  | [] => []
  | c :: cs =>
    match unitRuns cs with
    | (unit, run) :: runs =>
      if unit.id = c.unit.id then (c.unit, c :: run) :: runs
      else (c.unit, [c]) :: (unit, run) :: runs
    | [] => [(c.unit, [c])]

section Visit

variable {m : Type → Type} [Monad m]

/-- Goes through candidates with one lookup at a time.  The lookup at hand serves candidates of the
unit it was opened for; where one of another unit comes up, a lookup is opened for that unit. -/
def visitUnits {β : Type} (opens : SourceUnit → m Lookup) (visit : Lookup → Candidate → m β) :
    (current : Option (Nat × Lookup)) → List Candidate → m (List β)
  | _, [] => pure []
  | current, c :: cs => do
    let lookup ← match current with
      | some (id, lookup) => if id = c.unit.id then pure lookup else opens c.unit
      | none => opens c.unit
    let b ← visit lookup c
    let bs ← visitUnits opens visit (some (c.unit.id, lookup)) cs
    pure (b :: bs)

variable [MonadLiftT (Except Breakdown) m]

/-- The findings of all candidates, with lookups as they are opened. -/
def findingsBy {α : Type} (opens : SourceUnit → m Lookup)
    (find : Lookup → Candidate → Except Breakdown (Finding α)) (candidates : List Candidate) :
    m (List (Finding α)) :=
  visitUnits opens (fun lookup c => liftM (find lookup c)) none candidates

/-- What is resolved with lookups as they are opened; of the items with one key the first is kept. -/
def resolveBy {α κ : Type} [BEq κ] (key : α → κ)
    (find : Lookup → Candidate → Except Breakdown (Finding α)) (opens : SourceUnit → m Lookup)
    (candidates : List Candidate) : m (Resolved α) := do
  pure (.collect key (← findingsBy opens find candidates))

end Visit

/-- The findings of all candidates, with the lookups of the host. -/
def Host.findings {α : Type} (host : Host)
    (find : Lookup → Candidate → Except Breakdown (Finding α)) (candidates : List Candidate) :
    Except Breakdown (List (Finding α)) :=
  findingsBy (fun unit => pure (host.lookup unit)) find candidates

/-! ### Handlers -/

/-- The handler that a type with these members is: its restricted fields are the members of the
handler.  Without such fields there is no handler. -/
def Handler.ofType? (info : TypeInfo) (members : List TypeMember) : Option Handler :=
  let fields := members.filter fun m => m.kind = .field && m.stored
  let (eligible, remaining) := fields.partition (·.visibility = .restricted)
  if eligible.isEmpty then none
  else some
    { className := info.name
      space := info.space
      typePath := info.path
      members := eligible.map fun m => ⟨m.name, m.typeName⟩
      fillsRemaining := !remaining.isEmpty }

/-- The handler that a candidate declares. -/
def Host.findHandler (host : Host) (lookup : Lookup) (c : Candidate) :
    Except Breakdown (Finding Handler) :=
  match c.node with
  | .call _ => pure .nothing
  | .declaration d =>
    match lookup.declaredType d with
    | none => pure (.failure (.unresolvedDeclaration d.path c.unit.origin))
    | some info => do
      match Handler.ofType? info (← host.membersOf info) with
      | some handler => pure (.item handler)
      | none => pure .nothing

/-- The handlers among the candidates, with lookups as they are opened. -/
def Host.resolveHandlersBy {m : Type → Type} [Monad m] [MonadLiftT (Except Breakdown) m]
    (host : Host) (opens : SourceUnit → m Lookup) (candidates : List Candidate) :
    m (Resolved Handler) :=
  resolveBy (·.typePath) host.findHandler opens candidates

/-- **The handlers among the candidates.**  A type is a handler once. -/
def Host.resolveHandlers (host : Host) (candidates : List Candidate) :
    Except Breakdown (Resolved Handler) :=
  host.resolveHandlersBy (fun unit => pure (host.lookup unit)) candidates

/-! ### Mappings -/

/-- The struct or enumeration that a reference names. -/
def Lookup.namedType (lookup : Lookup) (origin : String) (ref : TypeRef) :
    Except Failure TypeInfo :=
  match lookup.resolveType ref with
  | some info =>
    if info.kind = .primitive then .error (.invalidTypeArgument ref.text origin) else .ok info
  | none => .error (.invalidTypeArgument ref.text origin)

/-- The types that a call maps to one another. -/
def Lookup.mappedTypes (lookup : Lookup) (origin : String) (c : Call) :
    Except Failure (TypeInfo × TypeInfo) :=
  if !lookup.resolvesReceiver c.receiver c.scope then
    .error (.unresolvableReceiver (Text.ofSegments c.receiver) origin)
  else match c.args with
    | [source, dest] => do
      let source ← lookup.namedType origin source
      let dest ← lookup.namedType origin dest
      pure (source, dest)
    | args => .error (.invalidTypeArgument (", ".intercalate (args.map (·.text))) origin)

/-- The mapping that a candidate registers. -/
def Host.findMapping (host : Host) (lookup : Lookup) (c : Candidate) :
    Except Breakdown (Finding Mapping) :=
  match c.node with
  | .declaration _ => pure .nothing
  | .call call =>
    match lookup.mappedTypes c.unit.origin call with
    | .error f => pure (.failure f)
    | .ok (source, dest) => do
      let sourceMembers ← host.membersOf source
      let destMembers ← host.membersOf dest
      pure (.item
        { space := source.space
          source := source.path
          dest := dest.path
          display := dest.name
          pairs := matchMembers sourceMembers destMembers })

/-- The mappings among the candidates, with lookups as they are opened. -/
def Host.resolveMappingsBy {m : Type → Type} [Monad m] [MonadLiftT (Except Breakdown) m]
    (host : Host) (opens : SourceUnit → m Lookup) (candidates : List Candidate) :
    m (Resolved Mapping) :=
  resolveBy (fun m => (m.source, m.dest)) host.findMapping opens candidates

/-- **The mappings among the candidates.**  A source is mapped to a destination once. -/
def Host.resolveMappings (host : Host) (candidates : List Candidate) :
    Except Breakdown (Resolved Mapping) :=
  host.resolveMappingsBy (fun unit => pure (host.lookup unit)) candidates

end Scaffold
