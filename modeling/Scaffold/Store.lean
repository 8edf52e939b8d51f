/-!
# Keyed stores

A store holds one value under each of its keys.  The order of the keys carries no meaning; here it
is that of their first insertion.
-/

namespace Scaffold

/-- A store. -/
structure Store (κ α : Type) where
  entries : List (κ × α)
  nodup : (entries.map (·.1)).Nodup

namespace Store

variable {κ α : Type}

/-- The store without values. -/
def empty : Store κ α := ⟨[], List.nodup_nil⟩

instance : Inhabited (Store κ α) := ⟨empty⟩

/-- The keys. -/
def keys (s : Store κ α) : List κ := s.entries.map (·.1)

/-- The values. -/
def values (s : Store κ α) : List α := s.entries.map (·.2)

/-- The number of values. -/
def size (s : Store κ α) : Nat := s.entries.length

/-- Whether there are no values. -/
def isEmpty (s : Store κ α) : Bool := s.entries.isEmpty

/-- The text that shows a store: its size alone. -/
def shown (s : Store κ α) : String :=
  "KeyedStore \x7b len: " ++ toString s.size ++ " \x7d"

variable [DecidableEq κ]

/-- The value under a key. -/
def get? (s : Store κ α) (key : κ) : Option α :=
  (s.entries.find? (·.1 = key)).map (·.2)

/-- Whether there is a value under a key. -/
def contains (s : Store κ α) (key : κ) : Bool := (s.get? key).isSome

/-- Puts a value under a key in a list of entries. -/
def putEntry (key : κ) (value : α) : List (κ × α) → List (κ × α)
  | [] => [(key, value)]
  | e :: es => if e.1 = key then (key, value) :: es else e :: putEntry key value es

theorem map_fst_putEntry (key : κ) (value : α) (es : List (κ × α)) :
    (putEntry key value es).map (·.1) =
      if key ∈ es.map (·.1) then es.map (·.1) else es.map (·.1) ++ [key] := by
  induction es with
  | nil => simp [putEntry]
  | cons e es ih =>
    by_cases h : e.1 = key
    · simp [putEntry, h]
    · have h' : key ≠ e.1 := fun k => h k.symm
      rw [putEntry, if_neg h, List.map_cons, ih]
      by_cases m : key ∈ es.map (·.1)
      · rw [if_pos m, if_pos (by simpa [h'] using m), List.map_cons]
      · rw [if_neg m, if_neg (by simpa [h'] using m), List.map_cons, List.cons_append]

/-- **Puts a value under a key,** in place of one that was there. -/
def insert (s : Store κ α) (key : κ) (value : α) : Store κ α where
  entries := putEntry key value s.entries
  nodup := by
    rw [map_fst_putEntry]
    split
    next => exact s.nodup
    next h =>
      rw [List.nodup_append]
      exact ⟨s.nodup, by simp, fun x hx y hy e => h (by
        have : y = key := by simpa using hy
        rw [← this, ← e]
        exact hx)⟩

/-- **Removes the value under a key.** -/
def erase (s : Store κ α) (key : κ) : Store κ α where
  entries := s.entries.filter (·.1 ≠ key)
  nodup := s.nodup.sublist (List.filter_sublist.map _)

/-- **Changes the value under a key,** where there is one, and gives the new one. -/
def update (s : Store κ α) (key : κ) (f : α → α) : Option (α × Store κ α) :=
  (s.get? key).map fun value => (f value, s.insert key (f value))

end Store

end Scaffold
