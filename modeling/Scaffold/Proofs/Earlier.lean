/-!
# What comes earlier in a list

Where something happens again and again, what one occurrence does may depend on all that happened
before it.  `withEarlier` lists the occurrences, each with those before it, so that a rule for one
of them is a rule for the whole list.
-/

namespace Scaffold

variable {α : Type}

/-- The elements of a list in their order, each with the list of those before it. -/
def withEarlier (as : List α) : List (List α × α) :=
  as.zipIdx.map fun (a, i) => (as.take i, a)

theorem withEarlier_concat (as : List α) (a : α) :
    withEarlier (as ++ [a]) = withEarlier as ++ [(as, a)] := by
  have hbefore : ∀ p ∈ as.zipIdx, ((as ++ [a]).take p.2, p.1) = (as.take p.2, p.1) := by
    intro p hp
    have hlt : p.2 < as.length := List.snd_lt_of_mem_zipIdx hp
    rw [List.take_append_of_le_length (Nat.le_of_lt hlt)]
  unfold withEarlier
  rw [List.zipIdx_append, List.map_append, List.map_congr_left hbefore]
  simp

end Scaffold
