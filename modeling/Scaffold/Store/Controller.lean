import Scaffold.Store

/-!
# Controllers

A controller works on a store of models, each under the key that the model itself holds.  Posting
puts a model in place of any other of its key; patching takes over all but the key, and only where
there is a model to change.
-/

namespace Scaffold

/-- How models hold their keys, and how one is changed into another of the same key. -/
class Keyed (μ : Type) (κ : outParam Type) where
  /-- The key. -/
  key : μ → κ
  /-- The first model with all that is no key taken over from the second. -/
  takeOver : μ → μ → μ

/-- There is no model under the key. -/
structure NotFound where
  deriving DecidableEq, Inhabited, Repr

/-- The text of the fault. -/
def NotFound.message (_ : NotFound) : String := "entity not found"

namespace Controller

variable {μ κ : Type} [Keyed μ κ] [DecidableEq κ]

/-- The model under a key. -/
def get (s : Store κ μ) (key : κ) : Option μ := s.get? key

/-- All models. -/
def getAll (s : Store κ μ) : List μ := s.values

/-- Puts a model under its key, and gives it back. -/
def post (s : Store κ μ) (m : μ) : μ × Store κ μ :=
  (m, s.insert (Keyed.key m) m)

/-- Takes a model over into the one under its key. -/
def patch (s : Store κ μ) (m : μ) : Except NotFound μ × Store κ μ :=
  match s.update (Keyed.key m) (Keyed.takeOver · m) with
  | some (changed, s) => (.ok changed, s)
  | none => (.error ⟨⟩, s)

/-- Removes the model under a key. -/
def delete (s : Store κ μ) (key : κ) : Store κ μ := s.erase key

end Controller

end Scaffold
