import Scaffold.Source.Facts

/-!
# What use trees denote

A use tree denotes its leaves, each at the end of the path that leads to it from the root
(`UseTree.leaves`), and a leaf binds what it says there (`UseLeaf.binding?`).  A tree binds exactly
that, leaf by leaf (`UseTree.bindings_eq_leaves`).

The same is found by a walk that keeps one path for all trees and notes what it comes upon
(`UseTree.walk`).  A segment is added to the path before the tree below it and removed after it, so
the path is at the end what it was at the beginning (`UseTree.run_walk`), and what stands behind a
tree in a group is bound below the same path as the tree.
-/

namespace Scaffold.Source

open Syntax

/-! ### Leaves -/

/-- A leaf of a use tree. -/
inductive UseLeaf where
  | name (word : String)
  | rename (word bound : String)
  | glob
  deriving DecidableEq, Inhabited, Repr

/-- **What a leaf binds,** where `path` leads to it.  A name is the last segment of what it binds;
`self` stands for the path itself, which has no last segment at the root; nothing is bound under
`_`. -/
def UseLeaf.binding? (path : List String) : UseLeaf → Option Binding
  | .name "self" => path.getLast?.map (.name · path)
  | .name word => some (.name word (path ++ [word]))
  | .rename _ "_" => none
  | .rename "self" bound => some (.name bound path)
  | .rename word bound => some (.name bound (path ++ [word]))
  | .glob => some (.glob path)

namespace UseTree

mutual

/-- **The leaves of a tree** in order, each with the way to it from the root. -/
def leaves : UseTree → List (List String × UseLeaf)
  | .path word tree => (leaves tree).map fun (way, leaf) => (word :: way, leaf)
  | .name word => [([], .name word)]
  | .rename word bound => [([], .rename word bound)]
  | .glob => [([], .glob)]
  | .group trees => groupLeaves trees

/-- The leaves of several trees. -/
def groupLeaves : List UseTree → List (List String × UseLeaf)
  | [] => []
  | tree :: trees => leaves tree ++ groupLeaves trees

end

/-- What leaves bind below a path. -/
def bindingsAt (path : List String) (leaves : List (List String × UseLeaf)) : List Binding :=
  leaves.filterMap fun (way, leaf) => leaf.binding? (path ++ way)

theorem bindingsAt_append (path : List String) (ls ms : List (List String × UseLeaf)) :
    bindingsAt path (ls ++ ms) = bindingsAt path ls ++ bindingsAt path ms :=
  List.filterMap_append

theorem bindingsAt_root (path : List String) (leaf : UseLeaf) :
    bindingsAt path [([], leaf)] = (leaf.binding? path).toList := by
  simp only [bindingsAt, List.filterMap_cons, List.filterMap_nil, List.append_nil]
  cases leaf.binding? path <;> rfl

/-- Leaves one segment further on. -/
theorem bindingsAt_below (path : List String) (word : String)
    (ls : List (List String × UseLeaf)) :
    bindingsAt path (ls.map fun (way, leaf) => (word :: way, leaf)) =
      bindingsAt (path ++ [word]) ls := by
  unfold bindingsAt
  rw [List.filterMap_map]
  congr 1
  funext ⟨way, leaf⟩
  simp

theorem bindName_eq (path : List String) (word : String) :
    bindName path word = ((UseLeaf.name word).binding? path).toList := by
  unfold bindName
  by_cases h : word = "self"
  · subst h
    rw [if_pos rfl]
    cases hlast : path.getLast? <;> simp [UseLeaf.binding?, hlast]
  · simp [UseLeaf.binding?, h]

theorem bindAlias_eq (path : List String) (word bound : String) :
    bindAlias path word bound = ((UseLeaf.rename word bound).binding? path).toList := by
  unfold bindAlias
  by_cases hbound : bound = "_"
  · simp [UseLeaf.binding?, hbound]
  · by_cases hword : word = "self"
    · simp [UseLeaf.binding?, hbound, hword]
    · simp [UseLeaf.binding?, hbound, hword]

mutual

/-- **A tree binds what its leaves bind.** -/
theorem bindings_eq_leaves (path : List String) :
    ∀ tree : UseTree, bindings path tree = bindingsAt path tree.leaves
  | .path word tree => by
    rw [bindings, leaves, bindingsAt_below, bindings_eq_leaves]
  | .name word => by
    rw [bindings, leaves, bindName_eq, bindingsAt_root]
  | .rename word bound => by
    rw [bindings, leaves, bindAlias_eq, bindingsAt_root]
  | .glob => by
    rw [bindings, leaves, bindingsAt_root]
    rfl
  | .group trees => by
    rw [bindings, leaves, groupBindings_eq_leaves]

theorem groupBindings_eq_leaves (path : List String) :
    ∀ trees : List UseTree, groupBindings path trees = bindingsAt path (groupLeaves trees)
  | [] => rfl
  | tree :: trees => by
    rw [groupBindings, groupLeaves, bindingsAt_append, bindings_eq_leaves,
      groupBindings_eq_leaves]

end

/-! ### Walking with one path -/

end UseTree

/-- What a walk through use trees keeps: the path to where it is, and what has been found. -/
structure UseWalk where
  path : List String
  found : List Binding := []
  deriving DecidableEq, Inhabited, Repr

namespace UseTree

mutual

/-- **Walks through a tree.** -/
def walk : UseTree → StateM UseWalk Unit
  | .path word tree => do
    modify fun w => { w with path := w.path ++ [word] }
    walk tree
    modify fun w => { w with path := w.path.dropLast }
  | .name word => modify fun w => { w with found := w.found ++ bindName w.path word }
  | .rename word bound => modify fun w => { w with found := w.found ++ bindAlias w.path word bound }
  | .glob => modify fun w => { w with found := w.found ++ [.glob w.path] }
  | .group trees => walkGroup trees

/-- Walks through several trees. -/
def walkGroup : List UseTree → StateM UseWalk Unit
  | [] => pure ()
  | tree :: trees => do
    walk tree
    walkGroup trees

end

mutual

/-- **A walk finds what the tree binds,** and leaves the path as it was. -/
theorem run_walk (path : List String) (found : List Binding) :
    ∀ tree : UseTree, (walk tree).run ⟨path, found⟩ = ((), ⟨path, found ++ bindings path tree⟩)
  | .path word tree => by
    have hbelow := run_walk (path ++ [word]) found tree
    show ((do walk tree; modify fun w => { w with path := w.path.dropLast }) :
      StateM UseWalk Unit).run ⟨path ++ [word], found⟩ = _
    rw [StateT.run_bind, hbelow, bindings]
    show ((), UseWalk.mk (path ++ [word]).dropLast _) = _
    rw [List.dropLast_concat]
  | .name word => rfl
  | .rename word bound => rfl
  | .glob => rfl
  | .group trees => run_walkGroup path found trees

theorem run_walkGroup (path : List String) (found : List Binding) :
    ∀ trees : List UseTree,
      (walkGroup trees).run ⟨path, found⟩ = ((), ⟨path, found ++ groupBindings path trees⟩)
  | [] => by
    rw [groupBindings, List.append_nil]
    rfl
  | tree :: trees => by
    -- the second walk starts below the same path, since the first one has left it
    have hfirst := run_walk path found tree
    have hrest := run_walkGroup path (found ++ bindings path tree) trees
    rw [walkGroup, StateT.run_bind, hfirst, groupBindings, ← List.append_assoc]
    exact hrest

end

/-- **A use tree denotes its leaves.**  Walking through it with a path adds, after what was found
before, what each leaf binds at the end of its own way below that path, in the order of the leaves,
and the path is left as it was.  That is what the tree binds, and a use declaration states just what
the leaves of its tree bind below the root. -/
theorem walk_denotes_leaves (tree : UseTree) (path : List String) (found : List Binding) :
    (walk tree).run ⟨path, found⟩ = ((), ⟨path, found ++ bindingsAt path tree.leaves⟩) ∧
      bindings path tree = bindingsAt path tree.leaves ∧
      ∀ place children, let item := Node.node .itemUse children
        factsOf place item = (bindingsAt [] (ofNode (item.part 4)).leaves).map
          (.binding place.scope (item.part 3).isSome) := by
  refine ⟨?_, bindings_eq_leaves path tree, ?_⟩
  · rw [← bindings_eq_leaves]
    exact run_walk path found tree
  · intro place children item
    rw [← bindings_eq_leaves]
    rfl

/-- `self` in a group is the module itself, and what stands behind a path begins anew. -/
example : bindingsAt [] (UseTree.path "crate" (.path "shop" (.group
      [.name "self", .path "stock" .glob, .rename "Shelf" "Rack"]))).leaves =
    [.name "shop" ["crate", "shop"], .glob ["crate", "shop", "stock"],
      .name "Rack" ["crate", "shop", "Shelf"]] := by
  decide

end UseTree

end Scaffold.Source
