import Scaffold.Proofs.Stopping
import Scaffold.Syntax.Ident

/-!
# Computations that spell names

Where code is put together from names that come from elsewhere, a name that is no word breaks the
computation down.  `Spells names x` says that this is all that can happen to `x`: it ends where
every one of the names may be a segment of a path, and otherwise breaks down over one that may not.
The rules below follow the way in which computations are put together.
-/

namespace Scaffold

open Syntax

/-- Whether a text may be a segment of a path: a word, but not the underscore. -/
def Syntax.Ident.isSegment (name : String) : Bool := isWordText name && name != "_"

/-- A computation that spells names. -/
structure Spells {α : Type} (names : List String) (x : Except Breakdown α) : Prop where
  ok : ∀ a, x = .ok a → ∀ name ∈ names, Ident.isSegment name = true
  error : ∀ b, x = .error b → ∃ name ∈ names, Ident.isSegment name = false ∧ b = .name name

namespace Spells

variable {α β : Type} {x : Except Breakdown α} {names more : List String}

theorem pure (a : α) : Spells [] (Except.ok a : Except Breakdown α) where
  ok _ _ := by simp
  error _ h := by cases h

/-- Where the first part ends, the second one spells names of its own. -/
theorem bind {f : α → Except Breakdown β} (hx : Spells names x)
    (hf : ∀ a, x = .ok a → Spells more (f a)) : Spells (names ++ more) (x >>= f) := by
  cases x with
  | error b =>
    obtain ⟨name, hname, hseg, rfl⟩ := hx.error b rfl
    constructor
    · intro a ha
      cases ha
    · intro b hb
      obtain rfl := Except.error.inj hb
      exact ⟨name, List.mem_append_left _ hname, hseg, rfl⟩
  | ok a =>
    have hnames := hx.ok a rfl
    have hrest : Spells more (f a) := hf a rfl
    constructor
    · intro b hb name hname
      rcases List.mem_append.1 hname with hname | hname
      · exact hnames name hname
      · exact hrest.ok b hb name hname
    · intro b hb
      obtain ⟨name, hname, hseg⟩ := hrest.error b hb
      exact ⟨name, List.mem_append_right _ hname, hseg⟩

/-- What follows spells no names. -/
theorem bind_pure {f : α → Except Breakdown β} (hx : Spells names x)
    (hf : ∀ a, x = .ok a → Spells [] (f a)) : Spells names (x >>= f) := by
  have h := hx.bind hf
  rwa [List.append_nil] at h

/-- One computation for each element. -/
theorem mapM {as : List α} {f : α → Except Breakdown β} {names : α → List String}
    (h : ∀ a ∈ as, Spells (names a) (f a)) : Spells (as.flatMap names) (as.mapM f) := by
  induction as with
  | nil => exact pure []
  | cons a as ih =>
    obtain ⟨ha, has⟩ := List.forall_mem_cons.1 h
    rw [List.mapM_cons, List.flatMap_cons]
    exact ha.bind fun b _ => (ih has).bind_pure fun bs _ => pure (b :: bs)

/-- **The computation breaks down** exactly where a name may be no segment. -/
theorem error_iff (h : Spells names x) :
    (∃ b, x = .error b) ↔ ∃ name ∈ names, Ident.isSegment name = false := by
  constructor
  · rintro ⟨b, hb⟩
    obtain ⟨name, hname, hseg, -⟩ := h.error b hb
    exact ⟨name, hname, hseg⟩
  · rintro ⟨name, hname, hseg⟩
    cases x with
    | error b => exact ⟨b, rfl⟩
    | ok a =>
      rw [h.ok a rfl name hname] at hseg
      cases hseg

end Spells

end Scaffold
