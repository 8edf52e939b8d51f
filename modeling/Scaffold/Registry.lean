import Scaffold.Artifact

/-!
# Registries

A registry collects the artifacts of a run in the order in which they are made, and keeps beside
them the set of the identifiers that are taken.  No two artifacts share an identifier: one whose
identifier is taken already is refused, and the registry stays as it was.
-/

namespace Scaffold

/-- The artifacts of a run. -/
structure Registry where
  artifacts : List Artifact
  /-- The identifiers that are taken: a set, so their order says nothing. -/
  taken : List String
  mem_taken : ∀ id, id ∈ taken ↔ id ∈ artifacts.map (·.id)
  nodup : (artifacts.map (·.id)).Nodup

namespace Registry

/-- The registry without artifacts. -/
def empty : Registry := ⟨[], [], fun _ => Iff.rfl, List.nodup_nil⟩

instance : Inhabited Registry := ⟨empty⟩

/-- The identifiers of the artifacts, in order. -/
def ids (r : Registry) : List String := r.artifacts.map (·.id)

/-- Whether an artifact has the identifier. -/
def contains (r : Registry) (id : String) : Bool := r.ids.contains id

/-- The artifact with an identifier. -/
def get? (r : Registry) (id : String) : Option Artifact := r.artifacts.find? (·.id == id)

/-- The number of artifacts. -/
def size (r : Registry) : Nat := r.artifacts.length

/-- **Adds an artifact** after the others, unless its identifier is taken. -/
def insert (r : Registry) (a : Artifact) : Except Failure Registry :=
  if h : a.id ∈ r.taken then .error (.duplicateArtifact a.id)
  else .ok {
    artifacts := r.artifacts ++ [a]
    taken := a.id :: r.taken
    mem_taken := by
      intro id
      simp [r.mem_taken, or_comm]
    nodup := by
      rw [List.map_append, List.nodup_append]
      refine ⟨r.nodup, by simp, fun x hx y hy e => h ?_⟩
      have hy : y = a.id := by simpa using hy
      rw [r.mem_taken, ← hy, ← e]
      exact hx }

/-- Offers an artifact to a registry: it is added, or else refused for a failure. -/
def offer (a : Artifact) : StateM Registry (Except Failure Unit) := fun r =>
  match r.insert a with
  | .ok next => (.ok (), next)
  | .error f => (.error f, r)

end Registry

end Scaffold
