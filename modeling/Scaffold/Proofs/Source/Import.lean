import Scaffold.Proofs.Source.Table

/-!
# Imports from outside the crate

An import that begins with a name that means nothing in its module begins outside the crate, and
what it binds stands for the path as it is written.  The name that it binds may itself be the
first of its path, as in `use anyhow::anyhow`.  Such a path is looked up through its own import
again, once for each import that may still be followed, and every lookup but the innermost adds
the segments after the first: `resolvePath_import` says that the path comes out as it was written
exactly where this does not happen.

An import of a single segment under its own name is told apart before it is followed, and so is
not affected.
-/

namespace Scaffold.Source

open Syntax

namespace SymbolTable

/-! ### Paths outside the crate -/

/-- Outside the crate every further segment belongs to the path. -/
theorem stepAll_external (inModule : ModulePath → String → Option Resolution)
    (segments names : List String) :
    stepAll inModule (.external segments) names = some (.external (segments ++ names)) := by
  induction names generalizing segments with
  | nil => simp [stepAll]
  | cons name names ih => simp [stepAll, stepInto, ih]

/-- The words that begin a path at a module of the crate. -/
def anchors : List String := ["crate", "self", "super"]

/-- A path that begins with a name asks its scope for the name. -/
theorem resolveWith_name (inModule : ModulePath → String → Option Resolution) {name : String}
    (hname : name ∉ anchors) (rest : List String) (space : ModulePath) (inUse : Bool) :
    resolveWith inModule ⟨name :: rest, false⟩ space inUse =
      match inModule space name with
      | some start => stepAll inModule start rest
      | none => if rest.isEmpty && !inUse then none else some (.external (name :: rest)) := by
  simp only [anchors, List.mem_cons, List.not_mem_nil, or_false, not_or] at hname
  obtain ⟨hcrate, hself, hsuper⟩ := hname
  unfold resolveWith
  rw [if_neg Bool.false_ne_true]
  split
  · rename_i heq
    cases heq
  · rename_i heq
    exact absurd (List.cons.inj heq).1 hcrate
  · rename_i heq
    exact absurd (List.cons.inj heq).1 hself
  · rename_i heq
    exact absurd (List.cons.inj heq).1 hsuper
  · rename_i heq
    obtain ⟨rfl, rfl⟩ := List.cons.inj heq
    rfl

/-! ### Names in a module -/

section Names

variable {t : SymbolTable} {space : ModulePath} {name : String}

/-- A name that is neither a module nor a type nor imported means nothing in a module without
globs. -/
theorem resolveName_unbound (hm : t.hasModule (space ++ [name]) = false)
    (ht : t.hasType (space ++ [name]) = false) (hi : t.importOf space name = none)
    (hg : t.globsOf space = []) (depth : Nat) : t.resolveName depth space name = none := by
  unfold importOf at hi
  unfold globsOf at hg
  unfold resolveName
  simp only [hm, ht, Bool.false_eq_true, ↓reduceIte]
  cases hl : t.modules.lookup space with
  | none => rfl
  | some entry =>
    have himports : entry.imports.lookup name = none := by simpa [hl] using hi
    have hglobs : entry.globs = [] := by simpa [hl] using hg
    cases depth <;> simp [himports, hglobs]

/-- A name that is neither a module nor a type stands for the target of its import. -/
theorem resolveName_imported (hm : t.hasModule (space ++ [name]) = false)
    (ht : t.hasType (space ++ [name]) = false) {target : UsePath}
    (hi : t.importOf space name = some target) (depth : Nat) :
    t.resolveName depth space name =
      if target = ⟨[name], false⟩ then some (.external [name])
      else match depth with
        | 0 => none
        | depth + 1 => resolveWith (t.resolveName depth) target space true := by
  obtain ⟨entry, hl, himport⟩ := Option.bind_eq_some_iff.1 hi
  cases depth <;> (unfold resolveName; simp [hm, ht, hl, himport])

/-! ### Imports whose first segment is their own name -/

/-- An import whose path begins with its own name: each import that is followed, but for the
innermost, adds the segments after the first again. -/
theorem resolveName_ownImport (hname : name ∉ anchors)
    (hm : t.hasModule (space ++ [name]) = false) (ht : t.hasType (space ++ [name]) = false)
    {rest : List String} (hi : t.importOf space name = some ⟨name :: rest, false⟩)
    (hrest : rest ≠ []) (depth : Nat) :
    t.resolveName (depth + 1) space name =
      some (.external (name :: rest ++ (List.replicate depth rest).flatten)) := by
  have hne : (⟨name :: rest, false⟩ : UsePath) ≠ ⟨[name], false⟩ := by simp [hrest]
  induction depth with
  | zero =>
    have hinner : t.resolveName 0 space name = none := by
      rw [resolveName_imported hm ht hi, if_neg hne]
    rw [resolveName_imported hm ht hi, if_neg hne]
    simp [resolveWith_name _ hname, hinner]
  | succ depth ih =>
    rw [resolveName_imported hm ht hi, if_neg hne]
    simp only [resolveWith_name _ hname, ih, stepAll_external]
    rw [List.append_assoc, List.replicate_succ', List.flatten_append, List.flatten_singleton]

/-- An import whose path begins with another name that means nothing in the module. -/
theorem resolveName_foreignImport {first : String} (hfirst : first ∉ anchors)
    (hm : t.hasModule (space ++ [name]) = false) (ht : t.hasType (space ++ [name]) = false)
    {rest : List String} (hi : t.importOf space name = some ⟨first :: rest, false⟩)
    (hne : name ≠ first) (depth : Nat)
    (hinner : t.resolveName depth space first = none) :
    t.resolveName (depth + 1) space name = some (.external (first :: rest)) := by
  have htarget : (⟨first :: rest, false⟩ : UsePath) ≠ ⟨[name], false⟩ := by
    simp [Ne.symm hne]
  rw [resolveName_imported hm ht hi, if_neg htarget]
  simp [resolveWith_name _ hfirst, hinner]

end Names

/-! ### Imports of a crate -/

end SymbolTable

/-- The name that a binding binds. -/
def Binding.bound? : Binding → Option String
  | .name bound _ => some bound
  | .glob _ => none

/-- **An import from outside the crate** that is the only one of its name and of the first segment
of its path, in a module without globs in which neither means anything else.  The path comes out
as it is written exactly where the import does not look itself up again; where it does, each of
the imports that may be followed after it adds the segments after the first once more. -/
theorem resolvePath_import {files : List SourceFile} {tree : SourceTree}
    (htree : SourceTree.ofFiles files = .ok tree) {space : ModulePath} {bound first : String}
    {rest : List String} (huse : ⟨space, false, .name bound (first :: rest)⟩ ∈ crateUses files)
    (hbound : bound ∉ SymbolTable.anchors) (hfirst : first ∉ SymbolTable.anchors)
    (hfree : ∀ name ∈ [bound, first], tree.symbols.hasModule (space ++ [name]) = false ∧
      tree.symbols.hasType (space ++ [name]) = false)
    (hglob : ∀ use ∈ crateUses files, use.space = space → use.binding.bound?.isSome)
    (honly : ∀ use ∈ crateUses files, use.space = space →
      use.binding.bound? = some bound ∨ use.binding.bound? = some first →
        use = ⟨space, false, .name bound (first :: rest)⟩)
    (tail : List String) :
    tree.symbols.resolvePath ⟨bound :: tail, false⟩ space =
        some (.external (first :: rest ++
          (if bound = first then (List.replicate (SymbolTable.maxDepth - 1) rest).flatten else []) ++
          tail)) ∧
      (tree.symbols.resolvePath ⟨bound :: tail, false⟩ space =
          some (.external (first :: rest ++ tail)) ↔ bound ≠ first ∨ rest = []) := by
  have himport : tree.symbols.importOf space bound = some ⟨first :: rest, false⟩ := by
    refine importOf_eq_some htree huse fun rooted path hpath => ?_
    obtain ⟨-, rfl, heq⟩ := Use.mk.inj (honly _ hpath rfl (.inl rfl))
    exact congrArg (UsePath.mk · false) (Binding.name.inj heq).2
  have hglobs : tree.symbols.globsOf space = [] := by
    refine globsOf_eq_nil htree fun rooted path hpath => ?_
    exact absurd (hglob _ hpath rfl) (by simp [Binding.bound?])
  have hvalue : tree.symbols.resolveName SymbolTable.maxDepth space bound =
      some (.external (first :: rest ++
        (if bound = first then (List.replicate (SymbolTable.maxDepth - 1) rest).flatten
          else []))) := by
    obtain ⟨hmodule, htype⟩ := hfree bound (by simp)
    by_cases hown : bound = first
    · subst hown
      rw [if_pos rfl]
      by_cases hrest : rest = []
      · subst hrest
        rw [SymbolTable.resolveName_imported hmodule htype himport, if_pos rfl]
        simp
      · exact SymbolTable.resolveName_ownImport hbound hmodule htype himport hrest _
    · have hnone : tree.symbols.importOf space first = none := by
        refine importOf_eq_none htree fun rooted path hpath => hown ?_
        obtain ⟨-, -, heq⟩ := Use.mk.inj (honly _ hpath rfl (.inr rfl))
        exact (Binding.name.inj heq).1.symm
      obtain ⟨hmodule', htype'⟩ := hfree first (by simp)
      rw [if_neg hown, List.append_nil]
      exact SymbolTable.resolveName_foreignImport hfirst hmodule htype himport hown _
        (SymbolTable.resolveName_unbound hmodule' htype' hnone hglobs _)
  have hpath : tree.symbols.resolvePath ⟨bound :: tail, false⟩ space =
      some (.external (first :: rest ++
        (if bound = first then (List.replicate (SymbolTable.maxDepth - 1) rest).flatten
          else []) ++ tail)) := by
    rw [SymbolTable.resolvePath, SymbolTable.resolveWith_name _ hbound, hvalue]
    exact SymbolTable.stepAll_external ..
  refine ⟨hpath, ?_⟩
  rw [hpath]
  by_cases hown : bound = first
  · have hcopies : (List.replicate (SymbolTable.maxDepth - 1) rest).flatten = [] ↔ rest = [] := by
      simp [SymbolTable.maxDepth]
    rw [if_pos hown, Option.some_inj, Resolution.external.injEq, List.append_cancel_right_eq,
      List.append_right_eq_self, hcopies]
    simp [hown]
  · simp [hown]

/-- A crate whose module `api` names a type from outside under another name. -/
def renamingCrate : List SourceFile :=
  [⟨"crate", "lib.rs", "mod api; use log;"⟩,
    ⟨"crate::api", "api.rs", "use uuid::{Uuid as Id, Builder}; pub struct Thing { id: Id }"⟩]

theorem resolvePath_import_renamed :
    ∃ tree, SourceTree.ofFiles renamingCrate = .ok tree ∧
      tree.symbols.resolvePath ⟨["Id", "nil"], false⟩ ["crate", "api"] =
        some (.external ["uuid", "Uuid", "nil"]) := by
  have huses : crateUses renamingCrate =
      [⟨["crate"], false, .name "log" ["log"]⟩,
        ⟨["crate", "api"], false, .name "Id" ["uuid", "Uuid"]⟩,
        ⟨["crate", "api"], false, .name "Builder" ["uuid", "Builder"]⟩] := by
    decide +kernel
  have hfree : (SourceTree.ofFiles renamingCrate).toOption.map (fun tree =>
      decide (∀ name ∈ ["Id", "uuid"], tree.symbols.hasModule (["crate", "api"] ++ [name]) = false ∧
        tree.symbols.hasType (["crate", "api"] ++ [name]) = false)) = some true := by
    decide +kernel
  cases htree : SourceTree.ofFiles renamingCrate with
  | error origin => rw [htree] at hfree; cases hfree
  | ok tree =>
    rw [htree] at hfree
    refine ⟨tree, rfl, ?_⟩
    have huse : (⟨["crate", "api"], false, .name "Id" ["uuid", "Uuid"]⟩ : Use) ∈
        crateUses renamingCrate := by
      rw [huses]; decide
    have hpath := resolvePath_import htree huse (by decide) (by decide)
      (of_decide_eq_true (Option.some.inj hfree)) (by rw [huses]; decide) (by rw [huses]; decide)
      ["nil"]
    exact hpath.2.2 (.inl (by decide))

/-- An import that binds the first name of its own path does not stand for the path. -/
theorem resolvePath_import_own_name :
    ((SourceTree.ofFiles [⟨"crate", "lib.rs", "use anyhow::anyhow;"⟩]).toOption.bind fun tree =>
        tree.symbols.resolvePath ⟨["anyhow"], false⟩ ["crate"]) ≠
      some (.external ["anyhow", "anyhow"]) := by
  decide +kernel

end Scaffold.Source
