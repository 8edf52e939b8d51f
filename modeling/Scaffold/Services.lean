import Scaffold.Text.Quoted

/-!
# Service registries

A registry holds one service of each type.  Types are given by codes of which each has a name and
stands for the type of its services.
-/

namespace Scaffold

/-- Codes of service types. -/
class ServiceTypes (τ : Type) where
  /-- The services of a type. -/
  service : τ → Type
  /-- The name of a type. -/
  name : τ → String

/-- There is no service of a type. -/
structure MissingService where
  typeName : String
  deriving DecidableEq, Inhabited, Repr

/-- The text of the fault. -/
def MissingService.message (m : MissingService) : String :=
  "no service registered for " ++ m.typeName

/-- The services of a program. -/
structure ServiceRegistry (τ : Type) [ServiceTypes τ] where
  entries : List ((t : τ) × ServiceTypes.service t) := []

namespace ServiceRegistry

variable {τ : Type} [ServiceTypes τ]

instance : Inhabited (ServiceRegistry τ) := ⟨{}⟩

/-- The number of services. -/
def size (r : ServiceRegistry τ) : Nat := r.entries.length

/-- Whether there are no services. -/
def isEmpty (r : ServiceRegistry τ) : Bool := r.entries.isEmpty

/-- The text that shows a registry: the names of its types in order. -/
def shown (r : ServiceRegistry τ) : String :=
  let names := (r.entries.map fun e => ServiceTypes.name e.1).mergeSort (· ≤ ·)
  "ServiceRegistry \x7b services: [" ++ ", ".intercalate (names.map Text.Quoted.shown) ++ "] \x7d"

variable [DecidableEq τ]

/-- The service of a type in a list of services. -/
def find (t : τ) : List ((t : τ) × ServiceTypes.service t) → Option (ServiceTypes.service t)
  | [] => none
  | ⟨u, service⟩ :: es => if h : u = t then some (h ▸ service) else find t es

/-- The service of a type. -/
def get? (r : ServiceRegistry τ) (t : τ) : Option (ServiceTypes.service t) := find t r.entries

/-- The service of a type, which has to be there. -/
def resolve (r : ServiceRegistry τ) (t : τ) : Except MissingService (ServiceTypes.service t) :=
  match r.get? t with
  | some service => .ok service
  | none => .error ⟨ServiceTypes.name t⟩

/-- Whether there is a service of a type. -/
def contains (r : ServiceRegistry τ) (t : τ) : Bool := (r.get? t).isSome

/-- **Adds a service,** in place of another of its type. -/
def add (r : ServiceRegistry τ) (t : τ) (service : ServiceTypes.service t) : ServiceRegistry τ :=
  ⟨⟨t, service⟩ :: r.entries.filter (·.1 ≠ t)⟩

end ServiceRegistry

/-! ### Plain services -/

/-- Codes of plain data types. -/
inductive PlainType where
  | int32
  | nat64
  | bool
  | text
  | int32List
  deriving DecidableEq, Inhabited, Repr

instance : ServiceTypes PlainType where
  service
    | .int32 => Int32
    | .nat64 => UInt64
    | .bool => Bool
    | .text => String
    | .int32List => List Int32
  name
    | .int32 => "i32"
    | .nat64 => "u64"
    | .bool => "bool"
    | .text => "alloc::string::String"
    | .int32List => "alloc::vec::Vec<i32>"

end Scaffold
