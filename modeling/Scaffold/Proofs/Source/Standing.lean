import Scaffold.Proofs.Source.Facts

/-!
# The nodes of a tree and where they stand

`Standing place n spot m` says that the node `m` stands in the tree `n` at `spot`, where the tree
itself stands at `place`: modules lead from one scope to another, blocks shut what is in them off
from the module, and the parts of a declaration are not looked at.  The facts of a tree are those
that the nodes standing in it state (`mem_factsOf_iff`).
-/

namespace Scaffold.Syntax

/-! ### Induction on the parts of a tree -/

mutual

/-- What passes from the parts of a node to the node holds of all nodes. -/
theorem Node.induction_on_parts {P : Node → Prop}
    (h : ∀ n : Node, (∀ c ∈ n.children, P c) → P n) : (n : Node) → P n
  | .node kind children => h (.node kind children) (Node.forall_of_induction_on_parts h children)
  | .group delim children => h (.group delim children) (Node.forall_of_induction_on_parts h children)
  | .word raw name => h (.word raw name) (by simp [Node.children])
  | .lifetime raw name => h (.lifetime raw name) (by simp [Node.children])
  | .op marks => h (.op marks) (by simp [Node.children])
  | .literal text => h (.literal text) (by simp [Node.children])
  | .verbatim ts => h (.verbatim ts) (by simp [Node.children])

theorem Node.forall_of_induction_on_parts {P : Node → Prop}
    (h : ∀ n : Node, (∀ c ∈ n.children, P c) → P n) : (ns : List Node) → ∀ c ∈ ns, P c
  | [], c, hc => by cases hc
  | n :: ns, c, hc => by
    rcases List.mem_cons.1 hc with heq | hc
    · rw [heq]
      exact Node.induction_on_parts h n
    · exact Node.forall_of_induction_on_parts h ns c hc

end

end Scaffold.Syntax

namespace Scaffold.Source

open Syntax

/-! ### Standing -/

/-- Whether a node stands in a tree at a place. -/
inductive Standing : (place : Place) → (n : Node) → (spot : Place) → (m : Node) → Prop where
  /-- The tree itself. -/
  | root {place : Place} {n : Node} : Standing place n place n
  /-- What stands in a part of the tree. -/
  | part {place spot : Place} {n c m : Node} : isClosed place n = false → c ∈ n.children →
    Standing (placeIn place n) c spot m → Standing place n spot m

/-- What a node of a tree states, the tree states. -/
theorem Standing.mem_factsOf {place spot : Place} {n m : Node} (h : Standing place n spot m)
    {f : Fact} (hf : f ∈ ownFacts spot m) : f ∈ factsOf place n := by
  induction h with
  | root =>
    rw [factsOf_eq]
    exact List.mem_append_left _ hf
  | @part place spot n c m hclosed hc _ ih =>
    have hinner : f ∈ innerFacts place n := mem_innerFacts.2 ⟨c, hc, ih hf⟩
    rw [factsOf_eq, hclosed]
    exact List.mem_append_right _ hinner

/-- Below a module there are only modules. -/
theorem Standing.scope_ne_nil {place spot : Place} {n m : Node} (h : Standing place n spot m)
    (hplace : place.scope ≠ []) : spot.scope ≠ [] := by
  induction h with
  | root => exact hplace
  | part _ _ _ ih =>
    refine ih ?_
    unfold placeIn
    split
    · simp
    · exact hplace
    · exact hplace

/-- A fact of a node is its own or one of a part. -/
theorem mem_factsOf_cases {place : Place} {n : Node} {f : Fact} (h : f ∈ factsOf place n) :
    f ∈ ownFacts place n ∨
      isClosed place n = false ∧ ∃ c ∈ n.children, f ∈ factsOf (placeIn place n) c := by
  rw [factsOf_eq, List.mem_append] at h
  refine h.imp_right fun hinner => ?_
  cases hclosed : isClosed place n with
  | true =>
    rw [hclosed] at hinner
    cases hinner
  | false =>
    rw [hclosed] at hinner
    exact ⟨rfl, mem_innerFacts.1 hinner⟩

/-- **The facts of a tree** are those of the nodes that stand in it. -/
theorem mem_factsOf_iff {place : Place} {n : Node} {f : Fact} :
    f ∈ factsOf place n ↔ ∃ spot m, Standing place n spot m ∧ f ∈ ownFacts spot m := by
  constructor
  · intro h
    induction n using Node.induction_on_parts generalizing place with
    | h n ih =>
      rcases mem_factsOf_cases h with hown | ⟨hclosed, c, hc, hf⟩
      · exact ⟨place, n, .root, hown⟩
      · obtain ⟨spot, m, hstands, hm⟩ := ih c hc hf
        exact ⟨spot, m, .part hclosed hc hstands, hm⟩
  · rintro ⟨spot, m, hstands, hf⟩
    exact hstands.mem_factsOf hf

/-! ### Listing the nodes -/

mutual

/-- The nodes that stand in a tree, each with its place. -/
def standingNodes (place : Place) : Node → List (Place × Node)
  | .node kind children =>
    let n : Node := .node kind children
    (place, n) ::
      if isClosed place n then [] else standingParts (placeIn place n) children
  | .group delim children => (place, .group delim children) :: standingParts place children
  | n => [(place, n)]

/-- The nodes that stand in the parts of a tree. -/
def standingParts (place : Place) : List Node → List (Place × Node)
  | [] => []
  | n :: ns => standingNodes place n ++ standingParts place ns

end

theorem mem_standingParts {place : Place} {ns : List Node} {s : Place × Node} :
    s ∈ standingParts place ns ↔ ∃ c ∈ ns, s ∈ standingNodes place c := by
  induction ns with
  | nil => simp [standingParts]
  | cons n ns ih => rw [standingParts, List.mem_append, ih, List.exists_mem_cons_iff]

/-- The nodes that stand in a tree are its root and those of its parts. -/
theorem mem_standingNodes {place : Place} {n : Node} {s : Place × Node} :
    s ∈ standingNodes place n ↔ s = (place, n) ∨
      isClosed place n = false ∧ ∃ c ∈ n.children, s ∈ standingNodes (placeIn place n) c := by
  cases n with
  | node kind children =>
    rw [standingNodes, List.mem_cons]
    cases hclosed : isClosed place (.node kind children) with
    | true => simp
    | false => simp [mem_standingParts, Node.children]
  | group delim children =>
    simp [standingNodes, mem_standingParts, isClosed, placeIn, Node.children]
  | _ => simp [standingNodes, Node.children]

/-- **The list names all nodes** that stand in a tree. -/
theorem mem_standingNodes_iff {place spot : Place} {n m : Node} :
    (spot, m) ∈ standingNodes place n ↔ Standing place n spot m := by
  constructor
  · intro h
    induction n using Node.induction_on_parts generalizing place with
    | h n ih =>
      rcases mem_standingNodes.1 h with heq | ⟨hclosed, c, hc, hmem⟩
      · obtain ⟨rfl, rfl⟩ := Prod.mk.inj heq
        exact .root
      · exact .part hclosed hc (ih c hc hmem)
  · intro h
    induction h with
    | root => exact mem_standingNodes.2 (.inl rfl)
    | part hclosed hc _ ih => exact mem_standingNodes.2 (.inr ⟨hclosed, _, hc, ih⟩)

/-- The items of a file stand where the file does. -/
theorem Standing.item {place : Place} {inner item : Node} {items : List Node} (h : item ∈ items) :
    Standing place (.node .file [inner, .list items]) place item :=
  .part rfl (List.mem_cons_of_mem _ List.mem_cons_self) (.part rfl h .root)

/-- A fact of a file that is read. -/
theorem mem_crateFacts_of_mem_factsOf {files : List SourceFile} {file : SourceFile}
    (hfile : file ∈ files) {node : Node} (hread : readFile file.text = some node) {f : Fact}
    (hf : f ∈ factsOf ⟨Text.segments file.space, false⟩ node) : f ∈ crateFacts files := by
  refine List.mem_flatMap.2 ⟨file, hfile, ?_⟩
  rw [hread, Option.map_some, Option.getD_some, fileFacts]
  exact List.mem_cons_of_mem _ hf

end Scaffold.Source
