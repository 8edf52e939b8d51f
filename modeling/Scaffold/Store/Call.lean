import Scaffold.Store.Controller

/-!
# Calls of controllers

What is asked of a controller and what it answers, as data.  `Call.run` carries a call out on the
store that the controller works on.
-/

namespace Scaffold.Controller

/-- A call of a controller of models `μ` with keys `κ`. -/
inductive Call (μ κ : Type) where
  | get (key : κ)
  | getAll
  | post (m : μ)
  | patch (m : μ)
  | delete (key : κ)

/-- The answer to a call; several models come in a collection `γ`. -/
inductive Answer (μ γ : Type) where
  | found (m : Option μ)
  | all (models : γ)
  | posted (m : μ)
  | patched (outcome : Except NotFound μ)
  | deleted

/-- The answer with its models in another collection. -/
def Answer.map {μ γ δ : Type} (f : γ → δ) : Answer μ γ → Answer μ δ
  | .found m => .found m
  | .all models => .all (f models)
  | .posted m => .posted m
  | .patched outcome => .patched outcome
  | .deleted => .deleted

/-- **Carries out a call** on a store. -/
def Call.run {μ κ : Type} [Keyed μ κ] [DecidableEq κ] (s : Store κ μ) :
    Call μ κ → Answer μ (List μ) × Store κ μ
  | .get key => (.found (Controller.get s key), s)
  | .getAll => (.all (Controller.getAll s), s)
  | .post m => (.posted (Controller.post s m).1, (Controller.post s m).2)
  | .patch m => (.patched (Controller.patch s m).1, (Controller.patch s m).2)
  | .delete key => (.deleted, Controller.delete s key)

end Scaffold.Controller
