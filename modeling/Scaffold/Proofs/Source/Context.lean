import Scaffold.Proofs.Store
import Scaffold.Source.Context

/-!
# What a context remembers

After any references have been asked for, a context remembers exactly these, each with the answer of
the symbol table for its scope and text (`UnitContext.Remembers`).  One more question keeps this so,
whether its answer is remembered or not (`Remembers.resolveType`), hence so do all questions of a
unit (`Remembers.run_mapM`).  What is remembered therefore never shows: every answer is that of the
table, and a context answers as any other does (`SourceTree.contexts_answer`).
-/

namespace Scaffold.Source

namespace UnitContext

/-- The context after references have been asked for one after another. -/
def after (context : UnitContext) (asked : List TypeRef) : UnitContext :=
  ((asked.mapM resolveType).run context).2

/-- **Whether a context remembers what has been asked,** and nothing else. -/
structure Remembers (context : UnitContext) (table : SymbolTable) (asked : List TypeRef) :
    Prop where
  symbols : context.symbols = table
  resolved : ∀ key, context.resolved.get? key =
    if key ∈ asked.map keyOf then some (table.resolveType key.2 (Text.segments key.1)) else none

namespace Remembers

variable {context : UnitContext} {table : SymbolTable} {asked : List TypeRef}

/-- A context that has just been opened remembers nothing. -/
theorem opened (table : SymbolTable) : Remembers { symbols := table } table [] :=
  ⟨rfl, fun _ => rfl⟩

/-- **One question** is answered as by the table, and is remembered with the others. -/
theorem resolveType (h : context.Remembers table asked) (ref : TypeRef) :
    (UnitContext.resolveType ref context).1 =
        table.resolveType ref.text (Text.segments ref.scope) ∧
      (UnitContext.resolveType ref context).2.Remembers table (asked ++ [ref]) := by
  -- an answer that is kept is given, and another is looked up and kept
  have hkept (answer : Option TypeInfo)
      (hanswer : context.resolved.get? (keyOf ref) = some answer) :
      (UnitContext.resolveType ref).run context = (answer, context) := by
    simp only [UnitContext.resolveType, bind_pure_comp, StateT.run_bind, StateT.run_get, pure_bind,
      hanswer, StateT.run_pure]
    rfl
  have hlooked (hnone : context.resolved.get? (keyOf ref) = none) :
      (UnitContext.resolveType ref).run context =
        (context.symbols.resolveType ref.text (Text.segments ref.scope),
          ⟨context.symbols, context.resolved.insert (keyOf ref)
            (context.symbols.resolveType ref.text (Text.segments ref.scope))⟩) := by
    simp only [UnitContext.resolveType, bind_pure_comp, StateT.run_bind, StateT.run_get, pure_bind,
      hnone, StateT.run_map, StateT.run_set, map_pure]
    rfl
  have hmem (key : String × String) :
      key ∈ (asked ++ [ref]).map keyOf ↔ key ∈ asked.map keyOf ∨ key = keyOf ref := by simp
  have hkey := h.resolved (keyOf ref)
  show ((UnitContext.resolveType ref).run context).1 = _ ∧
    ((UnitContext.resolveType ref).run context).2.Remembers table (asked ++ [ref])
  split_ifs at hkey with hasked
  · -- the question has been asked before
    rw [hkept _ hkey]
    refine ⟨rfl, h.symbols, ?_⟩
    intro key
    have hsame : key ∈ (asked ++ [ref]).map keyOf ↔ key ∈ asked.map keyOf := by
      rw [hmem]
      constructor
      · rintro (hkey | rfl)
        · exact hkey
        · exact hasked
      · exact Or.inl
    simp only [hsame]
    exact h.resolved key
  · rw [hlooked hkey, h.symbols]
    refine ⟨rfl, rfl, ?_⟩
    intro key
    rw [Store.get?_insert]
    by_cases hnew : key = keyOf ref
    · subst hnew
      rw [if_pos rfl, if_pos ((hmem _).2 (.inr rfl))]
      rfl
    · rw [if_neg hnew, h.resolved key]
      simp only [hmem, hnew, or_false]

/-- **All questions of a unit** are answered as by the table. -/
theorem run_mapM (h : context.Remembers table asked) (refs : List TypeRef) :
    ((refs.mapM UnitContext.resolveType).run context).1 =
        refs.map (fun ref => table.resolveType ref.text (Text.segments ref.scope)) ∧
      (context.after refs).Remembers table (asked ++ refs) := by
  induction refs generalizing context asked with
  | nil =>
    rw [List.append_nil]
    exact ⟨rfl, h⟩
  | cons ref refs ih =>
    obtain ⟨hanswer, hnext⟩ := h.resolveType ref
    obtain ⟨hanswers, hafter⟩ := ih hnext
    rw [List.append_assoc, List.singleton_append] at hafter
    have hrun : ((ref :: refs).mapM UnitContext.resolveType).run context =
        ((UnitContext.resolveType ref context).1 ::
            ((refs.mapM UnitContext.resolveType).run (UnitContext.resolveType ref context).2).1,
          (UnitContext.resolveType ref context).2.after refs) := by
      rw [List.mapM_cons]
      rfl
    have hlast : context.after (ref :: refs) =
        (UnitContext.resolveType ref context).2.after refs := by
      rw [UnitContext.after, hrun]
    refine ⟨?_, hlast ▸ hafter⟩
    rw [hrun, List.map_cons, hanswer, hanswers]

/-- What a context remembers does not change its answers. -/
theorem lookup_eq {tree : SourceTree} (h : context.Remembers tree.symbols asked) :
    context.lookup = tree.lookup := by
  have htypes : context.lookup.resolveType = tree.lookup.resolveType := by
    funext ref
    exact (h.resolveType ref).1
  have hsymbols := h.symbols
  unfold UnitContext.lookup SourceTree.lookup at htypes ⊢
  rw [hsymbols]
  congr 1

end Remembers

end UnitContext

/-- **What a context remembers never shows.**  Whatever references a unit asks for through it, each
answer is that of the symbol table; the context then holds the answers to what has been asked for
and no others, and it answers as the context of any other unit does, whatever that has been asked
for. -/
theorem SourceTree.contexts_answer (tree : SourceTree) (unit : SourceUnit) (asked : List TypeRef) :
    ((asked.mapM UnitContext.resolveType).run (tree.openContext unit)).1 =
        asked.map (fun ref => tree.symbols.resolveType ref.text (Text.segments ref.scope)) ∧
      (∀ key, ((tree.openContext unit).after asked).resolved.get? key =
        if key ∈ asked.map keyOf then
          some (tree.symbols.resolveType key.2 (Text.segments key.1))
        else none) ∧
      ((tree.openContext unit).after asked).lookup = tree.lookup ∧
      ∀ (other : SourceUnit) (before : List TypeRef),
        ((tree.openContext other).after before).lookup =
          ((tree.openContext unit).after asked).lookup := by
  have hopened (unit : SourceUnit) : (tree.openContext unit).Remembers tree.symbols [] :=
    .opened tree.symbols
  obtain ⟨hanswers, hafter⟩ := (hopened unit).run_mapM asked
  refine ⟨hanswers, hafter.resolved, hafter.lookup_eq, ?_⟩
  intro other before
  obtain ⟨-, hother⟩ := (hopened other).run_mapM before
  rw [hafter.lookup_eq, hother.lookup_eq]

end Scaffold.Source
