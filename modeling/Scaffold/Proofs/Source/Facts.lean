import Mathlib.Data.List.Perm.Basic
import Scaffold.Proofs.Source.Table
import Scaffold.Proofs.Syntax.Lexing
import Scaffold.Proofs.Syntax.Names

/-!
# Where facts come from

Every fact of a tree is stated by one node of it, at the place that the modules and blocks around
the node make: `ownFacts` are the facts that a node states by itself, and `exists_ownFacts` finds
the node.  What is proved of the facts of single nodes then holds of all facts of a crate.
-/

namespace Scaffold.Syntax.Node

/-! ### Kinds of nodes -/

theorem eq_of_isKind {n : Node} {kind : Kind} (h : n.isKind kind = true) :
    n = .node kind n.children := by
  cases n with
  | node k children =>
    obtain rfl : k = kind := of_decide_eq_true h
    rfl
  | _ => cases h

/-- Whether a node is a struct or an enumeration. -/
def isType (n : Node) : Bool := n.isKind .itemStruct || n.isKind .itemEnum

end Scaffold.Syntax.Node

namespace Scaffold.Source

open Syntax List

/-! ### The order of reading -/

theorem moveClauses_perm (i : Nat) (parts : List PartFacts) :
    (moveClauses i parts).Perm parts := by
  have hsplit : (moveClauses i parts).Perm
      (parts.filter (·.isClause) ++ parts.filter (!·.isClause)) := by
    unfold moveClauses
    dsimp only
    refine (List.perm_append_comm.append_right _).trans (.of_eq ?_)
    rw [List.append_assoc, List.take_append_drop]
  exact hsplit.trans (List.filter_append_perm _ _)

/-- The order of reading leaves no part out. -/
theorem readingOrder_perm (kind : Kind) (parts : List PartFacts) :
    (readingOrder kind parts).Perm parts := by
  unfold readingOrder
  split
  all_goals first | exact moveClauses_perm .. | exact .refl _

/-- Reading the attributes of a body first leaves no facts out. -/
theorem inReadingOrder_perm (kind : Kind) (parts : List PartFacts) :
    (inReadingOrder kind parts).Perm (parts.flatMap (·.all)) := by
  have hopening (ps : List PartFacts) :
      (ps.flatMap (·.opening) ++ ps.flatMap (·.rest)).Perm (ps.flatMap (·.all)) :=
    List.flatMap_append_perm ps (·.opening) (·.rest)
  refine .trans ?_ ((readingOrder_perm kind parts).flatMap_right (·.all))
  unfold inReadingOrder
  dsimp only
  generalize readingOrder kind parts = ps
  split_ifs
  · rw [List.append_assoc]
    refine ((hopening (ps.drop 1)).append_left _).trans (.of_eq ?_)
    rw [← List.flatMap_append, List.take_append_drop]
  · exact .refl _

/-! ### The facts of one node -/

/-- The facts that a node states by itself. -/
def ownFacts (place : Place) (n : Node) : List Fact :=
  match n with
  | .node .itemMod _ =>
    if place.inBlock then [] else [.module_ (place.scope ++ [(n.part 4).name])]
  | .node .itemStruct _ =>
    if place.inBlock then []
    else declarationFacts place.scope (n.part 0) (n.part 3) .struct
      ((n.part 6).isKind .fieldsNamed && noParams (n.part 4)) (fieldsOf place.scope (n.part 6))
  | .node .itemEnum _ =>
    if place.inBlock then []
    else declarationFacts place.scope (n.part 0) (n.part 3) .enum false []
  | .node .itemUse _ =>
    ((UseTree.ofNode (n.part 4)).bindings []).map (.binding place.scope (n.part 3).isSome)
  | .node .itemImpl _ =>
    if place.inBlock then [] else ((implOf place.scope n).map Fact.impl).toList
  | .node .exprCall _ => ((callOf place.scope (n.part 1)).map fun c => Fact.node (.call c)).toList
  | _ => []

/-- Where the parts of a node stand. -/
def placeIn (place : Place) (n : Node) : Place :=
  match n with
  | .node .itemMod _ => ⟨place.scope ++ [(n.part 4).name], false⟩
  | .node .block _ => { place with inBlock := true }
  | _ => place

/-- Whether the parts of a node state nothing. -/
def isClosed (place : Place) (n : Node) : Bool :=
  match n with
  | .node .itemMod _ => place.inBlock
  | .node .itemStruct _ => true
  | .node .itemEnum _ => true
  | .node .itemUse _ => true
  | _ => false

/-- The facts of the parts of a node, in the order of reading. -/
def innerFacts (place : Place) (n : Node) : List Fact :=
  match n with
  | .node kind children =>
    inReadingOrder kind (children.map (readFacts (placeIn place n)))
  | .group _ children => children.flatMap (factsOf place)
  | _ => []

/-- The declaration that the item of a type is. -/
def declarationOf (scope : ModulePath) (item : Node) : Declaration where
  name := (item.part 3).name
  space := Text.ofSegments scope
  kind := if item.isKind .itemStruct then .struct else .enum
  markers := (item.part 0).children.filterMap markerOf
  extensible := item.isKind .itemStruct && ((item.part 6).isKind .fieldsNamed &&
    noParams (item.part 4))

/-- A struct or an enumeration states a type and a declaration. -/
theorem ownFacts_of_isType {n : Node} (hn : n.isType = true) (place : Place) :
    ∃ kind fields, (∀ m ∈ fields, m ∈ fieldsOf place.scope (n.part 6)) ∧
      ownFacts place n = if place.inBlock then []
        else [.type place.scope (n.part 3).name kind fields,
          .node (.declaration (declarationOf place.scope n))] := by
  rcases Bool.or_eq_true_iff.1 hn with hkind | hkind
  · rw [Node.eq_of_isKind hkind]
    exact ⟨.struct, _, fun _ hm => hm, rfl⟩
  · rw [Node.eq_of_isKind hkind]
    exact ⟨.enum, [], by simp, rfl⟩

/-- **How a node states a fact** at a place. -/
inductive States (place : Place) : Node → Fact → Prop where
  | module_ {n : Node} : n.isKind .itemMod = true →
    States place n (.module_ (place.scope ++ [(n.part 4).name]))
  | type {n : Node} {kind : TypeKind} {fields : List MemberEntry} : n.isType = true →
    (∀ m ∈ fields, m ∈ fieldsOf place.scope (n.part 6)) →
    States place n (.type place.scope (n.part 3).name kind fields)
  | declaration {n : Node} : n.isType = true →
    States place n (.node (.declaration (declarationOf place.scope n)))
  | binding {n : Node} {b : Binding} : n.isKind .itemUse = true →
    b ∈ (UseTree.ofNode (n.part 4)).bindings [] →
    States place n (.binding place.scope (n.part 3).isSome b)
  | impl {n : Node} {pending : PendingImpl} : implOf place.scope n = some pending →
    States place n (.impl pending)
  | call {n : Node} {c : Call} : n.isKind .exprCall = true →
    callOf place.scope (n.part 1) = some c → States place n (.node (.call c))

/-- **What a node states** it states in one of these ways. -/
theorem states_of_mem_ownFacts {place : Place} {n : Node} {f : Fact} (h : f ∈ ownFacts place n) :
    States place n f := by
  have htype (hn : n.isType = true) : States place n f := by
    obtain ⟨kind, fields, hfields, hown⟩ := ownFacts_of_isType hn place
    rw [hown] at h
    split_ifs at h
    · cases h
    · rcases List.mem_cons.1 h with rfl | h
      · exact .type hn hfields
      · rw [List.mem_singleton.1 h]
        exact .declaration hn
  unfold ownFacts at h
  split at h
  · split_ifs at h
    · cases h
    · rw [List.mem_singleton.1 h]
      exact .module_ rfl
  · exact htype rfl
  · exact htype rfl
  · obtain ⟨b, hb, rfl⟩ := List.mem_map.1 h
    exact .binding rfl hb
  · split_ifs at h
    · cases h
    · obtain ⟨pending, hpending, rfl⟩ := List.mem_map.1 (Option.toList_map .. ▸ h)
      exact .impl (Option.mem_toList.1 hpending)
  · obtain ⟨c, hc, rfl⟩ := List.mem_map.1 (Option.toList_map .. ▸ h)
    exact .call rfl (Option.mem_toList.1 hc)
  · cases h

/-- A declaration is stated with its type. -/
theorem exists_type_of_mem_ownFacts {place : Place} {n : Node} {d : Declaration}
    (h : .node (.declaration d) ∈ ownFacts place n) : n.isType = true ∧
      d = declarationOf place.scope n ∧
        ∃ kind fields, .type place.scope d.name kind fields ∈ ownFacts place n := by
  cases states_of_mem_ownFacts h with
  | declaration hn =>
    obtain ⟨kind, fields, -, hown⟩ := ownFacts_of_isType hn place
    refine ⟨hn, rfl, kind, fields, ?_⟩
    rw [hown] at h ⊢
    split_ifs at h ⊢
    · cases h
    · exact List.mem_cons_self

theorem partFacts_eq_map (place : Place) (ns : List Node) :
    partFacts place ns = ns.map (readFacts place) := by
  induction ns with
  | nil => rw [partFacts, List.map_nil]
  | cons n ns ih => rw [partFacts, ih, List.map_cons]

/-- Only groups and blocks are bodies. -/
theorem opening_readFacts {kind : Kind} (hkind : kind ≠ .block) (place : Place)
    (children : List Node) : (readFacts place (.node kind children)).opening = [] := by
  unfold readFacts
  split
  all_goals first | rfl | (split_ifs <;> rfl) | simp_all

/-- Only a where clause counts as one. -/
theorem isKind_of_isClause {place : Place} {n : Node} (h : (readFacts place n).isClause = true) :
    n.isKind .whereClause = true := by
  unfold readFacts at h
  split at h
  · split_ifs at h
  · split_ifs at h
  · split_ifs at h
  · cases h
  · cases h
  · split at h <;> cases h
  · cases h
  · simpa [Node.isKind] using h
  · split_ifs at h
  · cases h

/-- The facts of a block are those of its parts. -/
theorem all_readFacts_block (place : Place) (children : List Node) :
    (readFacts place (.node .block children)).all =
      innerFacts place (.node .block children) := by
  have hinner : innerFacts place (.node .block children) =
      (partFacts { place with inBlock := true } children).flatMap (·.all) := by
    rw [innerFacts, partFacts_eq_map]
    rfl
  rw [hinner, readFacts]
  split
  · rename_i body hbody
    rw [hbody, List.flatMap_singleton]
    rfl
  · rfl

/-- The facts of a group are those of its parts. -/
theorem all_readFacts_group (place : Place) (delim : Delimiter) (children : List Node) :
    (readFacts place (.group delim children)).all = innerFacts place (.group delim children) := by
  have hinner : innerFacts place (.group delim children) =
      (partFacts place children).flatMap (·.all) := by
    rw [innerFacts, partFacts_eq_map, List.flatMap_map]
    rfl
  rw [hinner, readFacts]
  split_ifs
  · rw [PartFacts.all, ← List.flatMap_append, List.take_append_drop]
  · rfl

/-- **The facts of a tree** are those of its root and then those of its parts. -/
theorem factsOf_eq (place : Place) (n : Node) :
    factsOf place n =
      ownFacts place n ++ if isClosed place n then [] else innerFacts place n := by
  unfold factsOf
  unfold readFacts
  split
  · cases h : place.inBlock <;>
      simp [ownFacts, isClosed, innerFacts, placeIn, partFacts_eq_map, h, PartFacts.all]
  · cases h : place.inBlock <;> simp [ownFacts, isClosed, h, PartFacts.all]
  · cases h : place.inBlock <;> simp [ownFacts, isClosed, h, PartFacts.all]
  · simp [ownFacts, isClosed, PartFacts.all]
  · simp [ownFacts, isClosed, innerFacts, placeIn, partFacts_eq_map, PartFacts.all]
  · rename_i children
    rw [← readFacts, all_readFacts_block]
    rfl
  · simp [ownFacts, isClosed, innerFacts, placeIn, partFacts_eq_map, PartFacts.all]
  · rename_i kind children hmod hstruct henum huse himpl hblock hcall
    have hown : ownFacts place (.node kind children) = [] := by
      unfold ownFacts
      split <;> simp_all
    have hclosed : isClosed place (.node kind children) = false := by
      unfold isClosed
      split <;> simp_all
    have hplace : placeIn place (.node kind children) = place := by
      unfold placeIn
      split <;> simp_all
    simp [hown, hclosed, innerFacts, hplace, partFacts_eq_map, PartFacts.all]
  · rename_i delim children
    have hall := all_readFacts_group place delim children
    rw [readFacts] at hall
    exact hall
  · cases n <;> simp_all [ownFacts, isClosed, innerFacts, PartFacts.all]

theorem mem_innerFacts {place : Place} {n : Node} {f : Fact} :
    f ∈ innerFacts place n ↔ ∃ c ∈ n.children, f ∈ factsOf (placeIn place n) c := by
  cases n with
  | node kind children =>
    rw [innerFacts, (inReadingOrder_perm kind _).mem_iff]
    simp [Node.children, factsOf]
  | group delim children => simp [innerFacts, Node.children, placeIn]
  | _ => simp [innerFacts, Node.children]

/-- A fact of a tree is stated by the node `m` of it at a place. -/
structure StatedBy (R : LeafRule) (P : Place → Prop) (place : Place) (n : Node) (f : Fact)
    (m : Node) (spot : Place) : Prop where
  formed : R.Formed m
  holds : P spot
  mem : f ∈ ownFacts spot m
  /-- The tree states all that the node states. -/
  subset : ∀ g ∈ ownFacts spot m, g ∈ factsOf place n

section StatedBy

variable {R : LeafRule} {P : Place → Prop}
  (hpart : ∀ m place, R.Formed m → P place → isClosed place m = false → P (placeIn place m))

include hpart

/-- A fact of a node is stated by the node itself or within a part. -/
theorem exists_statedBy_of_parts {n : Node} (hn : R.Formed n)
    (ih : ∀ c ∈ n.children, ∀ place, P place → ∀ f ∈ factsOf place c,
      ∃ m spot, StatedBy R P place c f m spot)
    {place : Place} (hplace : P place) {f : Fact} (hf : f ∈ factsOf place n) :
    ∃ m spot, StatedBy R P place n f m spot := by
  have heq := factsOf_eq place n
  rw [heq, List.mem_append] at hf
  rcases hf with hf | hf
  · refine ⟨n, place, hn, hplace, hf, fun g hg => ?_⟩
    rw [heq]
    exact List.mem_append_left _ hg
  · cases hclosed : isClosed place n with
    | true => simp [hclosed] at hf
    | false =>
      simp only [hclosed, Bool.false_eq_true, if_false] at hf heq
      obtain ⟨c, hc, hfc⟩ := mem_innerFacts.1 hf
      obtain ⟨m, spot, h⟩ := ih c hc _ (hpart n place hn hplace hclosed) f hfc
      refine ⟨m, spot, h.formed, h.holds, h.mem, fun g hg => ?_⟩
      rw [heq]
      exact List.mem_append_right _ (mem_innerFacts.2 ⟨c, hc, h.subset g hg⟩)

/-- **Every fact of a tree** is stated by a node of it.  The node has what holds of the tree and
passes on to parts, and its place has what the place of the tree has and passes on. -/
theorem exists_statedBy {n : Node} (hn : R.Formed n) {place : Place} (hplace : P place)
    {f : Fact} (hf : f ∈ factsOf place n) : ∃ m spot, StatedBy R P place n f m spot := by
  induction hn generalizing place f with
  | word h => exact exists_statedBy_of_parts hpart (.word h) (by simp [Node.children]) hplace hf
  | lifetime h =>
    exact exists_statedBy_of_parts hpart (.lifetime h) (by simp [Node.children]) hplace hf
  | op h => exact exists_statedBy_of_parts hpart (.op h) (by simp [Node.children]) hplace hf
  | literal h =>
    exact exists_statedBy_of_parts hpart (.literal h) (by simp [Node.children]) hplace hf
  | verbatim h =>
    exact exists_statedBy_of_parts hpart (.verbatim h) (by simp [Node.children]) hplace hf
  | group h ih =>
    exact exists_statedBy_of_parts hpart (.group h) (fun c hc place hp f => ih c hc hp) hplace hf
  | node hshape h ih =>
    exact exists_statedBy_of_parts hpart (.node hshape h) (fun c hc place hp f => ih c hc hp)
      hplace hf

end StatedBy

/-! ### Names in the facts of a crate -/

/-- Whether a path goes from the crate through names of identifiers. -/
def isCratePath (path : ModulePath) : Bool :=
  path.head? = some "crate" && path.tail.all Ident.isName

theorem isCratePath_append {path : ModulePath} (h : isCratePath path = true) {name : String}
    (hname : Ident.isName name = true) : isCratePath (path ++ [name]) = true := by
  cases path with
  | nil => cases h
  | cons first rest => simp_all [isCratePath]

theorem isWordText_of_isName {name : String} (h : Ident.isName name = true) :
    Ident.isWordText name = true :=
  (Bool.and_eq_true_iff.1 h).1

/-- No word holds a colon. -/
theorem colon_not_mem {name : String} (h : Ident.isWordText name = true) : ':' ∉ name.toList := by
  obtain ⟨c, cs, heq, hc, hcs⟩ := Lexer.exists_of_isWordText h
  rw [heq, List.mem_cons, not_or]
  refine ⟨(Lexer.isIdentStart_ne hc (by decide)).symm, fun hmem => ?_⟩
  exact absurd (List.all_eq_true.1 hcs ':' hmem) (by decide)

/-- A path from the crate begins with the crate, and none of its names holds a colon. -/
theorem exists_of_isCratePath {path : ModulePath} (h : isCratePath path = true) :
    (∃ names, path = "crate" :: names) ∧ ∀ name ∈ path, ':' ∉ name.toList := by
  rw [isCratePath, Bool.and_eq_true, decide_eq_true_eq] at h
  obtain ⟨names, rfl⟩ := List.head?_eq_some_iff.1 h.1
  refine ⟨⟨names, rfl⟩, List.forall_mem_cons.2 ⟨by decide, fun name hname => ?_⟩⟩
  exact colon_not_mem (isWordText_of_isName (List.all_eq_true.1 h.2 name hname))

/-- The beginnings of a path from the crate are such paths, too. -/
theorem isCratePath_take {path : ModulePath} (h : isCratePath path = true) (i : Nat) :
    isCratePath (path.take (i + 1)) = true := by
  rw [isCratePath, Bool.and_eq_true, decide_eq_true_eq] at h ⊢
  obtain ⟨names, rfl⟩ := List.head?_eq_some_iff.1 h.1
  refine ⟨rfl, List.all_eq_true.2 fun name hname => List.all_eq_true.1 h.2 name ?_⟩
  exact List.mem_of_mem_take hname

theorem part_eq_getD (kind : Kind) (children : List Node) (i : Nat) :
    (Node.node kind children).part i = children.getD i .none := by
  rw [Node.part, Node.children, List.getD_eq_getElem?_getD]

/-- The name of a module in a tree. -/
theorem isName_of_itemMod {children : List Node}
    (h : LeafRule.names.Formed (.node .itemMod children)) :
    Ident.isName ((Node.node .itemMod children).part 4).name = true := by
  have hname : ((Node.node .itemMod children).part 4).isIdentOr ["try"] = true := by
    rw [part_eq_getD]
    exact h.shape
  exact Node.isName_of_isIdentOr (h.part 4) hname (by decide)

/-- The place that a node makes for its parts is named as its own place is. -/
theorem isCratePath_placeIn (m : Node) (place : Place) (hm : LeafRule.names.Formed m)
    (hplace : isCratePath place.scope = true) :
    isCratePath (placeIn place m).scope = true := by
  unfold placeIn
  split
  · exact isCratePath_append hplace (isName_of_itemMod hm)
  · exact hplace
  · exact hplace

/-- The name of a type in a tree. -/
theorem isName_of_isType {n : Node} (hformed : LeafRule.names.Formed n) (hn : n.isType = true) :
    Ident.isName (n.part 3).name = true := by
  have hident : (n.part 3).isIdent = true := by
    rcases Bool.or_eq_true_iff.1 hn with hkind | hkind
    · rw [Node.eq_of_isKind hkind] at hformed ⊢
      rw [part_eq_getD]
      exact hformed.shape
    · rw [Node.eq_of_isKind hkind] at hformed ⊢
      rw [part_eq_getD]
      exact hformed.shape
  exact Node.isName_of_isIdentOr (hformed.part 3) hident (by simp)

/-- **A declaration in a tree** is one of a type, whose path is made of names. -/
theorem exists_type_of_declaration {n : Node} (hn : LeafRule.names.Formed n) {place : Place}
    (hplace : isCratePath place.scope = true) {d : Declaration}
    (hd : .node (.declaration d) ∈ factsOf place n) :
    ∃ space kind fields, .type space d.name kind fields ∈ factsOf place n ∧
      d.space = Text.ofSegments space ∧ isCratePath space = true ∧ Ident.isName d.name = true := by
  obtain ⟨m, spot, h⟩ := exists_statedBy (P := fun place => isCratePath place.scope = true)
    (fun m place hm hp _ => isCratePath_placeIn m place hm hp) hn hplace hd
  obtain ⟨hm, hd, kind, fields, htype⟩ := exists_type_of_mem_ownFacts h.mem
  refine ⟨spot.scope, kind, fields, h.subset _ htype, ?_, h.holds, ?_⟩
  · rw [hd, declarationOf]
  · rw [hd]
    exact isName_of_isType h.formed hm

end Scaffold.Source
