import Scaffold.Sample.Controllers
import Scaffold.Services
import Scaffold.Store.Call

/-!
# Sample repositories

Repositories of the sample models lie in memory and are shared: the services of the program hold
where each of them is, and a controller that is made from the services works on the repository
that is there.  So all controllers of one kind of model work on the same store.
-/

namespace Scaffold.Sample

open Controller (Answer)

/-- The kinds of repositories. -/
inductive Repository where
  | users
  | orderLines
  deriving DecidableEq

namespace Repository

/-- The models in a repository. -/
abbrev Model : Repository → Type
  | users => User
  | orderLines => OrderLine

/-- The keys of the models. -/
abbrev Key : Repository → Type
  | users => Int32
  | orderLines => Int64 × Int16

instance : (r : Repository) → Keyed r.Model r.Key
  | users => inferInstanceAs (Keyed User Int32)
  | orderLines => inferInstanceAs (Keyed OrderLine (Int64 × Int16))

instance : (r : Repository) → DecidableEq r.Key
  | users => inferInstanceAs (DecidableEq Int32)
  | orderLines => inferInstanceAs (DecidableEq (Int64 × Int16))

/-- What a repository is. -/
abbrev Contents (r : Repository) : Type := Store r.Key r.Model

end Repository

/-! ### Memory -/

/-- Where a repository is, among those of its kind. -/
abbrev Address : Type := Nat

/-- The repositories in memory. -/
structure Memory where
  users : List Repository.users.Contents := []
  orderLines : List Repository.orderLines.Contents := []

namespace Memory

/-- The repositories of a kind. -/
def kind (memory : Memory) : (r : Repository) → List r.Contents
  | .users => memory.users
  | .orderLines => memory.orderLines

/-- The memory with other repositories of a kind. -/
def setKind (memory : Memory) : (r : Repository) → List r.Contents → Memory
  | .users, contents => { memory with users := contents }
  | .orderLines, contents => { memory with orderLines := contents }

/-- The repository at an address. -/
def read (memory : Memory) (r : Repository) (a : Address) : r.Contents :=
  (memory.kind r).getD a .empty

/-- Changes the repository at an address. -/
def write (memory : Memory) (r : Repository) (a : Address) (contents : r.Contents) : Memory :=
  memory.setKind r ((memory.kind r).set a contents)

/-- Makes a new repository. -/
def allocate (memory : Memory) (r : Repository) : Address × Memory :=
  ((memory.kind r).length, memory.setKind r (memory.kind r ++ [.empty]))

end Memory

/-! ### Services -/

instance : ServiceTypes Repository where
  service _ := Address
  name
    | .users => "api_demo::users::UserRepository"
    | .orderLines => "api_demo::orders::OrderLineRepository"

/-- Adds a new repository to services. -/
def addRepository (s : ServiceRegistry Repository × Memory) (r : Repository) :
    ServiceRegistry Repository × Memory :=
  let (a, memory) := s.2.allocate r
  (s.1.add r a, memory)

/-- **The services of the program,** which hold a repository of each kind. -/
def services : ServiceRegistry Repository × Memory :=
  addRepository (addRepository ({}, {}) .users) .orderLines

/-! ### Controllers -/

/-- A controller of the models in a repository. -/
structure RepositoryController (r : Repository) where
  repository : Address
  deriving DecidableEq

/-- A new controller of the repository that services hold. -/
def RepositoryController.new (s : ServiceRegistry Repository) (r : Repository) :
    Except MissingService (RepositoryController r) := do
  pure ⟨← s.resolve r⟩

/-- A call of some controller. -/
structure IssuedCall where
  kind : Repository
  controller : RepositoryController kind
  call : Controller.Call kind.Model kind.Key

namespace IssuedCall

/-- What a call answers. -/
abbrev Reply (γ : Type → Type) : Type := (r : Repository) × Answer r.Model (γ r.Model)

/-- Carries out a call on the repository of its controller. -/
def run (memory : Memory) (c : IssuedCall) : Reply List × Memory :=
  let (answer, contents) := c.call.run (memory.read c.kind c.controller.repository)
  (⟨c.kind, answer⟩, memory.write c.kind c.controller.repository contents)

/-- **Carries out calls** one after another. -/
def runAll (memory : Memory) : List IssuedCall → List (Reply List) × Memory
  | [] => ([], memory)
  | c :: cs =>
    let (reply, memory) := c.run memory
    let (replies, memory) := runAll memory cs
    (reply :: replies, memory)

end IssuedCall

end Scaffold.Sample
