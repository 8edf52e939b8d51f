import Scaffold.Proofs.Source.Standing

/-!
# The nodes of a tree in the order of the text

`Node.occurrences` lists the nodes of a tree as they are written, each with the nodes around it.  An
occurrence tells by the nodes around it in which modules it stands and whether it is looked at
(`placeWithin_eq`), and `writtenFacts` are the facts of a tree in the order of the text.

A crate is read in another order: where clauses come before what is written before them, and so do
the attributes at the beginning of a body.  No fact is lost by that (`factsOf_perm`), and facts of
which none stands in such a place keep their order (`filterMap_factsOf`).
-/

namespace Scaffold

namespace Syntax

/-! ### Occurrences -/

/-- A node of a tree and the nodes around it, from the root on. -/
structure Occurrence where
  around : List Node := []
  node : Node

/-- The occurrence, seen from a node that has the tree as a part. -/
def Occurrence.within (o : Occurrence) (whole : Node) : Occurrence :=
  ⟨whole :: o.around, o.node⟩

mutual

/-- **The nodes of a tree** in the order of the text, a node before its parts. -/
def Node.occurrences : Node → List Occurrence
  | .node kind children =>
    { node := .node kind children } :: partOccurrences (.node kind children) children
  | .group delim children =>
    { node := .group delim children } :: partOccurrences (.group delim children) children
  | n => [{ node := n }]

/-- The nodes of parts of a node. -/
def partOccurrences (whole : Node) : List Node → List Occurrence
  | [] => []
  | c :: cs => c.occurrences.map (·.within whole) ++ partOccurrences whole cs

end

theorem partOccurrences_eq (whole : Node) (ns : List Node) :
    partOccurrences whole ns = ns.flatMap fun c => c.occurrences.map (·.within whole) := by
  induction ns with
  | nil => rw [partOccurrences, List.flatMap_nil]
  | cons n ns ih => rw [partOccurrences, ih, List.flatMap_cons]

theorem Node.occurrences_eq (n : Node) : n.occurrences =
    { node := n } :: n.children.flatMap fun c => c.occurrences.map (·.within n) := by
  cases n with
  | node kind children => rw [occurrences, partOccurrences_eq, Node.children]
  | group delim children => rw [occurrences, partOccurrences_eq, Node.children]
  | _ => rfl

theorem Node.mem_occurrences {n : Node} {o : Occurrence} : o ∈ n.occurrences ↔
    o = { node := n } ∨ ∃ c ∈ n.children, ∃ inner ∈ c.occurrences, inner.within n = o := by
  simp only [n.occurrences_eq, List.mem_cons, List.mem_flatMap, List.mem_map]

/-- What holds of the root, and within it of what stands in the parts, holds of all occurrences. -/
theorem Node.forall_mem_occurrences {n : Node} {P : Occurrence → Prop} :
    (∀ o ∈ n.occurrences, P o) ↔
      P { node := n } ∧ ∀ c ∈ n.children, ∀ o ∈ c.occurrences, P (o.within n) := by
  simp only [n.occurrences_eq, List.forall_mem_cons, List.mem_flatMap, List.mem_map]
  refine and_congr_right fun _ => ⟨fun h c hc o ho => h _ ⟨c, hc, o, ho, rfl⟩, ?_⟩
  rintro h _ ⟨c, hc, o, ho, rfl⟩
  exact h c hc o ho

/-- What stands in a well-formed tree is well formed, and so is what stands around it. -/
theorem LeafRule.Formed.occurrence {R : LeafRule} {n : Node} (h : R.Formed n) :
    ∀ o ∈ n.occurrences, R.Formed o.node ∧ ∀ a ∈ o.around, R.Formed a := by
  induction n using Node.induction_on_parts with
  | h n ih =>
    refine Node.forall_mem_occurrences.2 ⟨⟨h, by simp⟩, fun c hc o ho => ?_⟩
    obtain ⟨hnode, haround⟩ := ih c hc (h.children c hc) o ho
    exact ⟨hnode, List.forall_mem_cons.2 ⟨h, haround⟩⟩

/-- A node is of one kind. -/
theorem Node.isKind_of_isKind {n : Node} {kind other : Kind} (h : n.isKind kind = true)
    (hne : kind ≠ other) : n.isKind other = false := by
  cases n with
  | node k children => simp_all [isKind]
  | _ => cases h

namespace Occurrence

/-- Whether the node stands in a block. -/
def inBlock (o : Occurrence) : Bool := o.around.any (·.isKind .block)

/-- Whether the node stands in a struct or an enumeration. -/
def inType (o : Occurrence) : Bool :=
  o.around.any fun n => n.isKind .itemStruct || n.isKind .itemEnum

/-- Whether the node stands in a use declaration. -/
def inUse (o : Occurrence) : Bool := o.around.any (·.isKind .itemUse)

/-- Whether the node stands in a module that is declared in a block. -/
def inLocalModule (o : Occurrence) : Bool :=
  (o.around.dropWhile fun n => !n.isKind .block).any (·.isKind .itemMod)

/-- The names of the modules in whose declarations the node stands. -/
def modules (o : Occurrence) : List String :=
  (o.around.filter (·.isKind .itemMod)).map fun n => (n.part 4).name

/-- Occurrences are roots, or occurrences in a part seen from the whole. -/
@[elab_as_elim]
theorem induction_on_around {P : Occurrence → Prop} (root : ∀ node, P { node := node })
    (within : ∀ o n, P o → P (o.within n)) (o : Occurrence) : P o := by
  obtain ⟨around, node⟩ := o
  induction around with
  | nil => exact root node
  | cons n around ih => exact within ⟨around, node⟩ n ih

section Within

variable (o : Occurrence) (n : Node)

theorem inBlock_within : (o.within n).inBlock = (n.isKind .block || o.inBlock) := rfl

theorem inType_within : (o.within n).inType =
    (n.isKind .itemStruct || n.isKind .itemEnum || o.inType) := rfl

theorem inUse_within : (o.within n).inUse = (n.isKind .itemUse || o.inUse) := rfl

/-- In a block all modules are local. -/
theorem inLocalModule_within : (o.within n).inLocalModule =
    if n.isKind .block then o.around.any (·.isKind .itemMod) else o.inLocalModule := by
  cases hblock : n.isKind .block with
  | true =>
    have hmod : n.isKind .itemMod = false := Node.isKind_of_isKind hblock (by decide)
    simp [inLocalModule, within, hblock, hmod]
  | false => simp [inLocalModule, within, hblock]

theorem modules_within : (o.within n).modules =
    if n.isKind .itemMod then (n.part 4).name :: o.modules else o.modules := by
  cases hmod : n.isKind .itemMod with
  | true => simp [modules, within, hmod]
  | false => simp [modules, within, hmod]

end Within

theorem modules_eq_nil {o : Occurrence} (h : o.around.any (·.isKind .itemMod) = false) :
    o.modules = [] := by
  rw [modules, List.filter_eq_nil_iff.2 (List.any_eq_false.1 h), List.map_nil]

end Occurrence

end Syntax

namespace Source

open Syntax

/-! ### Places of occurrences -/

/-- The place within nodes around it, where the parts of all of them are looked at. -/
def placeWithin (place : Place) : (around : List Node) → Option Place
  | [] => some place
  | n :: around => if isClosed place n then none else placeWithin (placeIn place n) around

/-- The parts of nothing but modules and declarations are left out. -/
theorem isClosed_eq (place : Place) (n : Node) : isClosed place n =
    (n.isKind .itemStruct || n.isKind .itemEnum || n.isKind .itemUse ||
      (place.inBlock && n.isKind .itemMod)) := by
  unfold isClosed
  split
  · simp [Node.isKind]
  · simp [Node.isKind]
  · simp [Node.isKind]
  · simp [Node.isKind]
  · cases n with
    | node kind children => simp_all [Node.isKind]
    | _ => simp [Node.isKind]

theorem placeIn_of_block {place : Place} {n : Node} (hn : n.isKind .block = true) :
    placeIn place n = { place with inBlock := true } := by
  cases n with
  | node kind children =>
    obtain rfl : kind = .block := by simpa [Node.isKind] using hn
    rfl
  | _ => cases hn

theorem placeIn_of_itemMod {place : Place} {n : Node} (hn : n.isKind .itemMod = true) :
    placeIn place n = ⟨place.scope ++ [(n.part 4).name], false⟩ := by
  cases n with
  | node kind children =>
    obtain rfl : kind = .itemMod := by simpa [Node.isKind] using hn
    rfl
  | _ => cases hn

theorem placeIn_of_other {place : Place} {n : Node} (hblock : n.isKind .block = false)
    (hmod : n.isKind .itemMod = false) : placeIn place n = place := by
  unfold placeIn
  split
  · simp [Node.isKind] at hmod
  · simp [Node.isKind] at hblock
  · rfl

theorem placeWithin_within (place : Place) (o : Occurrence) (n : Node) :
    placeWithin place (o.within n).around =
      if isClosed place n then none else placeWithin (placeIn place n) o.around := rfl

/-- In a block everything is looked at but declarations and modules. -/
theorem placeWithin_of_inBlock {place : Place} (hplace : place.inBlock = true) (o : Occurrence) :
    placeWithin place o.around =
      if (o.inType || o.inUse || o.around.any (·.isKind .itemMod)) = true then none
      else some place := by
  induction o using Occurrence.induction_on_around with
  | root node => rfl
  | within o n ih =>
    have hany : (o.within n).around.any (·.isKind .itemMod) =
        (n.isKind .itemMod || o.around.any (·.isKind .itemMod)) := rfl
    rw [placeWithin_within, isClosed_eq, hplace, Bool.true_and, o.inType_within, o.inUse_within,
      hany]
    by_cases hclosed : (n.isKind .itemStruct || n.isKind .itemEnum || n.isKind .itemUse ||
        n.isKind .itemMod) = true
    · rw [if_pos hclosed, if_pos]
      simp only [Bool.or_eq_true] at hclosed ⊢
      tauto
    · rw [if_neg hclosed]
      simp only [Bool.not_eq_true, Bool.or_eq_false_iff] at hclosed
      obtain ⟨⟨⟨hstruct, henum⟩, huse⟩, hmod⟩ := hclosed
      -- a block in the block makes no difference
      have hsame : placeIn place n = place := by
        cases hblock : n.isKind .block with
        | true => rw [placeIn_of_block hblock, ← hplace]
        | false => exact placeIn_of_other hblock hmod
      rw [hsame, ih, hstruct, henum, huse, hmod, Bool.or_false, Bool.false_or, Bool.false_or,
        Bool.false_or]

/-- **The place of an occurrence:** in the modules around it, and not looked at in declarations of
types, in use declarations and in modules that a block declares. -/
theorem placeWithin_eq {place : Place} (hplace : place.inBlock = false) (o : Occurrence) :
    placeWithin place o.around =
      if (o.inType || o.inUse || o.inLocalModule) = true then none
      else some ⟨place.scope ++ o.modules, o.inBlock⟩ := by
  induction o using Occurrence.induction_on_around generalizing place with
  | root node => simp [placeWithin, Occurrence.inType, Occurrence.inUse, Occurrence.inLocalModule,
      Occurrence.modules, Occurrence.inBlock, ← hplace]
  | within o n ih =>
    rw [placeWithin_within, isClosed_eq, hplace, Bool.false_and, Bool.or_false, o.inType_within,
      o.inUse_within, o.inLocalModule_within, o.modules_within, o.inBlock_within]
    by_cases hclosed : (n.isKind .itemStruct || n.isKind .itemEnum || n.isKind .itemUse) = true
    · rw [if_pos hclosed, if_pos]
      simp only [Bool.or_eq_true] at hclosed ⊢
      tauto
    rw [if_neg hclosed]
    simp only [Bool.not_eq_true, Bool.or_eq_false_iff] at hclosed
    obtain ⟨⟨hstruct, henum⟩, huse⟩ := hclosed
    rw [hstruct, henum, huse, Bool.false_or, Bool.false_or, Bool.false_or]
    cases hblock : n.isKind .block with
    | true =>
      have hmod : n.isKind .itemMod = false := Node.isKind_of_isKind hblock (by decide)
      rw [placeIn_of_block hblock, placeWithin_of_inBlock rfl, hmod]
      simp only [if_true, Bool.false_eq_true, if_false, Bool.true_or]
      split_ifs with hshut
      · rfl
      · -- nothing that is looked at in a block stands in a module of the block
        simp only [Bool.not_eq_true, Bool.or_eq_false_iff] at hshut
        rw [Occurrence.modules_eq_nil hshut.2, List.append_nil]
    | false =>
      simp only [Bool.false_eq_true, if_false, Bool.false_or]
      cases hmod : n.isKind .itemMod with
      | true =>
        rw [placeIn_of_itemMod hmod, ih rfl, List.append_assoc, List.singleton_append]
        rfl
      | false =>
        rw [placeIn_of_other hblock hmod, ih hplace]
        rfl

/-! ### Facts in the order of the text -/

theorem standingParts_eq (place : Place) (ns : List Node) :
    standingParts place ns = ns.flatMap (standingNodes place) := by
  induction ns with
  | nil => rw [standingParts, List.flatMap_nil]
  | cons n ns ih => rw [standingParts, ih, List.flatMap_cons]

theorem standingNodes_eq_cons (place : Place) (n : Node) : standingNodes place n =
    (place, n) :: if isClosed place n then []
      else n.children.flatMap (standingNodes (placeIn place n)) := by
  cases n with
  | node kind children => rw [standingNodes, standingParts_eq, Node.children]
  | group delim children => rw [standingNodes, standingParts_eq]; rfl
  | _ => rfl

/-- An occurrence with its place, where it is looked at. -/
def placed (place : Place) (o : Occurrence) : Option (Place × Node) :=
  (placeWithin place o.around).map (·, o.node)

theorem placed_root (place : Place) (n : Node) : placed place { node := n } = some (place, n) := rfl

theorem placed_within (place : Place) (n : Node) (o : Occurrence) : placed place (o.within n) =
    if isClosed place n then none else placed (placeIn place n) o := by
  rw [placed, placeWithin_within]
  split_ifs <;> rfl

/-- The nodes that stand in a tree are its occurrences that are looked at. -/
theorem standingNodes_eq (place : Place) (n : Node) :
    standingNodes place n = n.occurrences.filterMap (placed place) := by
  induction n using Node.induction_on_parts generalizing place with
  | h n ih =>
    rw [standingNodes_eq_cons, n.occurrences_eq, List.filterMap_cons_some (placed_root place n),
      List.filterMap_flatMap]
    simp only [List.filterMap_map, Function.comp_def, placed_within]
    cases isClosed place n with
    | true => simp
    | false =>
      simp only [Bool.false_eq_true, if_false]
      exact congrArg _ (List.flatMap_congr fun c hc => ih c hc _)

/-- The facts of a tree in the order of the text. -/
def writtenFacts (place : Place) (n : Node) : List Fact :=
  (standingNodes place n).flatMap fun s => ownFacts s.1 s.2

theorem writtenFacts_eq (place : Place) (n : Node) : writtenFacts place n =
    ownFacts place n ++ if isClosed place n then []
      else n.children.flatMap (writtenFacts (placeIn place n)) := by
  rw [writtenFacts, standingNodes_eq_cons, List.flatMap_cons]
  split_ifs
  · rfl
  · rw [List.flatMap_assoc]
    rfl

/-- The facts of the parts, whatever their order. -/
theorem innerFacts_perm (place : Place) (n : Node) :
    (innerFacts place n).Perm (n.children.flatMap (factsOf (placeIn place n))) := by
  cases n with
  | node kind children =>
    refine (inReadingOrder_perm kind _).trans (.of_eq ?_)
    rw [List.flatMap_map]
    rfl
  | _ => exact .refl _

/-- **No fact is lost** by the order of reading. -/
theorem factsOf_perm (place : Place) (n : Node) :
    (factsOf place n).Perm (writtenFacts place n) := by
  induction n using Node.induction_on_parts generalizing place with
  | h n ih =>
    rw [factsOf_eq, writtenFacts_eq]
    refine List.Perm.append_left _ ?_
    split_ifs
    · exact .refl _
    · exact (innerFacts_perm place n).trans (List.Perm.flatMap_left _ fun c hc => ih c hc _)

/-! ### What is read out of its order -/

/-- Whether what stands in a node may be read before what is written before the node. -/
def isReadEarly (n : Node) : Bool := n.isKind .whereClause || isInnerAttribute n

section Selected

variable {β : Type} {g : Fact → Option β}

/-- Whether nothing of what is selected stands where it is read early. -/
def KeepsOrder (g : Fact → Option β) (place : Place) (n : Node) : Prop :=
  ∀ o ∈ n.occurrences, ∀ spot, placeWithin place o.around = some spot →
    (ownFacts spot o.node).filterMap g ≠ [] → ∀ a ∈ o.around, isReadEarly a = false

theorem KeepsOrder.part {place : Place} {n c : Node} (h : KeepsOrder g place n)
    (hopen : isClosed place n = false) (hc : c ∈ n.children) :
    KeepsOrder g (placeIn place n) c := by
  intro o ho spot hspot hown a ha
  refine h (o.within n) (Node.mem_occurrences.2 (.inr ⟨c, hc, o, ho, rfl⟩)) spot ?_ hown a
    (List.mem_cons_of_mem _ ha)
  rw [placeWithin_within, hopen, if_neg Bool.false_ne_true, hspot]

/-- What a tree states, by its occurrences. -/
theorem filterMap_writtenFacts_eq_nil {place : Place} {n : Node} :
    (writtenFacts place n).filterMap g = [] ↔ ∀ o ∈ n.occurrences, ∀ spot,
      placeWithin place o.around = some spot → (ownFacts spot o.node).filterMap g = [] := by
  rw [writtenFacts, standingNodes_eq, List.filterMap_flatMap, List.flatMap_eq_nil_iff]
  simp only [List.mem_filterMap, placed, Option.map_eq_some_iff]
  constructor
  · intro h o ho spot hspot
    exact h (spot, o.node) ⟨o, ho, spot, hspot, rfl⟩
  · rintro h s ⟨o, ho, spot, hspot, rfl⟩
    exact h o ho spot hspot

/-- **What is selected** comes from the occurrences that state it, in their order. -/
theorem filterMap_writtenFacts {place : Place} {n : Node} {states : Occurrence → Bool}
    {f : Occurrence → β} (h : ∀ o ∈ n.occurrences,
      ((placed place o).elim [] fun s => (ownFacts s.1 s.2).filterMap g) =
        if states o then [f o] else []) :
    (writtenFacts place n).filterMap g = (n.occurrences.filter states).map f := by
  rw [writtenFacts, standingNodes_eq, List.filterMap_flatMap]
  generalize n.occurrences = os at h
  induction os with
  | nil => rfl
  | cons o os ih =>
    obtain ⟨ho, hos⟩ := List.forall_mem_cons.1 h
    have hfirst : ([o].filterMap (placed place)).flatMap
        (fun s => (ownFacts s.1 s.2).filterMap g) = ([o].filter states).map f := by
      cases hplaced : placed place o <;> cases hstates : states o <;> simp_all
    rw [← List.singleton_append, List.filterMap_append, List.flatMap_append, hfirst, ih hos,
      List.filter_append, List.map_append]

/-- Where clauses and attributes state nothing by themselves. -/
theorem ownFacts_of_isReadEarly {n : Node} (hn : isReadEarly n = true) (place : Place) :
    ownFacts place n = [] := by
  unfold ownFacts
  split
  all_goals first | rfl | simp [isReadEarly, isInnerAttribute, Node.isKind] at hn

/-- What is read early selects nothing where the order is kept. -/
theorem KeepsOrder.eq_nil {place : Place} {n : Node} (h : KeepsOrder g place n)
    (hn : isReadEarly n = true) : (factsOf place n).filterMap g = [] := by
  have hwritten : (writtenFacts place n).filterMap g = [] := by
    rw [filterMap_writtenFacts_eq_nil]
    intro o ho spot hspot
    rcases Node.mem_occurrences.1 ho with rfl | ⟨c, hc, inner, hinner, rfl⟩
    · rw [ownFacts_of_isReadEarly hn, List.filterMap_nil]
    · by_contra hne
      exact absurd hn (by rw [h _ ho spot hspot hne n List.mem_cons_self]; decide)
  exact List.perm_nil.1 (hwritten ▸ (factsOf_perm place n).filterMap g)

/-- What selects nothing may be left out. -/
theorem flatMap_filter_of_nil {α γ : Type} {p : α → Bool} {f : α → List γ} {as : List α}
    (h : ∀ a ∈ as, p a = false → f a = []) : (as.filter p).flatMap f = as.flatMap f := by
  induction as with
  | nil => rfl
  | cons a as ih =>
    obtain ⟨ha, has⟩ := List.forall_mem_cons.1 h
    cases hp : p a with
    | true => rw [List.filter_cons_of_pos hp, List.flatMap_cons, List.flatMap_cons, ih has]
    | false =>
      rw [List.filter_cons_of_neg (by rw [hp]; decide), List.flatMap_cons, ha hp, ih has,
        List.nil_append]

/-- Moving where clauses in which nothing is selected changes nothing. -/
theorem flatMap_readingOrder {γ : Type} {f : PartFacts → List γ} {parts : List PartFacts}
    (hclause : ∀ p ∈ parts, p.isClause = true → f p = []) (kind : Kind) :
    (readingOrder kind parts).flatMap f = parts.flatMap f := by
  have hmove (i : Nat) : (moveClauses i parts).flatMap f = parts.flatMap f := by
    have hclauses : (parts.filter (·.isClause)).flatMap f = [] :=
      List.flatMap_eq_nil_iff.2 fun p hp =>
        hclause p (List.mem_of_mem_filter hp) (List.mem_filter.1 hp).2
    unfold moveClauses
    dsimp only
    rw [List.flatMap_append, List.flatMap_append, hclauses, List.append_nil, ← List.flatMap_append,
      List.take_append_drop]
    exact flatMap_filter_of_nil fun p hp hother => hclause p hp (by simpa using hother)
  unfold readingOrder
  split
  all_goals first | exact hmove _ | rfl

/-- The parts of a node are read in their order as far as nothing is selected that is read early. -/
theorem filterMap_inReadingOrder {kind : Kind} {parts : List PartFacts}
    (hopening : ∀ p ∈ parts, p.opening.filterMap g = [])
    (hclause : ∀ p ∈ parts, p.isClause = true → p.all.filterMap g = []) :
    (inReadingOrder kind parts).filterMap g = parts.flatMap fun p => p.all.filterMap g := by
  have hread := flatMap_readingOrder hclause kind
  have hopening : ∀ p ∈ readingOrder kind parts, p.opening.filterMap g = [] := fun p hp =>
    hopening p ((readingOrder_perm kind parts).mem_iff.1 hp)
  rw [← hread]
  unfold inReadingOrder
  dsimp only
  generalize readingOrder kind parts = ps at hopening
  split_ifs
  · have hlater : ∀ p ∈ ps.drop 1, p.opening.filterMap g = [] := fun p hp =>
      hopening p (List.mem_of_mem_drop hp)
    have hrest : (ps.drop 1).flatMap (fun p => p.rest.filterMap g) =
        (ps.drop 1).flatMap fun p => p.all.filterMap g :=
      List.flatMap_congr fun p hp => by
        rw [PartFacts.all, List.filterMap_append, hlater p hp, List.nil_append]
    rw [List.filterMap_append, List.filterMap_append, List.filterMap_flatMap,
      List.filterMap_flatMap, List.filterMap_flatMap, List.flatMap_eq_nil_iff.2 hlater,
      List.append_nil, hrest, ← List.flatMap_append, List.take_append_drop]
  · rw [List.filterMap_flatMap]

/-- Where the order is kept, nothing is selected at the beginning of a body. -/
theorem KeepsOrder.opening_eq_nil {place : Place} {n : Node} (h : KeepsOrder g place n) :
    (readFacts place n).opening.filterMap g = [] := by
  induction n using Node.induction_on_parts generalizing place with
  | h n ih =>
    cases n with
    | node kind children =>
      by_cases hkind : kind = .block
      · subst hkind
        rw [readFacts, partFacts_eq_map]
        split
        · rename_i body hbody
          obtain ⟨c, hc, rfl⟩ := List.map_eq_singleton_iff.1 hbody
          exact ih c (hc ▸ List.mem_singleton_self c) (h.part rfl (hc ▸ List.mem_singleton_self c))
        · rfl
      · rw [opening_readFacts hkind, List.filterMap_nil]
    | group delim children =>
      rw [readFacts, partFacts_eq_map]
      split_ifs with hopens
      · unfold opensWithAttributes at hopens
        split at hopens
        · rename_i attrs rest
          have hlist : KeepsOrder g place (.node .list attrs) := h.part rfl List.mem_cons_self
          have hnone : (factsOf place (.node .list attrs)).filterMap g = [] := by
            refine List.filterMap_eq_nil_iff.2 fun f hf => ?_
            rcases mem_factsOf_cases hf with hown | ⟨-, attr, hattr, hinner⟩
            · cases hown
            · have hearly : isReadEarly attr = true := by
                rw [isReadEarly, List.all_eq_true.1 hopens attr hattr, Bool.or_true]
              exact List.filterMap_eq_nil_iff.1 ((hlist.part rfl hattr).eq_nil hearly) f hinner
          rw [List.map_cons, List.take_succ_cons, List.take_zero, List.flatMap_singleton]
          exact hnone
        · cases hopens
      · rfl
    | _ => rfl

/-- **What is selected keeps its order** where none of it is read early. -/
theorem filterMap_factsOf {place : Place} {n : Node} (h : KeepsOrder g place n) :
    (factsOf place n).filterMap g = (writtenFacts place n).filterMap g := by
  induction n using Node.induction_on_parts generalizing place with
  | h n ih =>
    rw [factsOf_eq, writtenFacts_eq, List.filterMap_append, List.filterMap_append]
    refine congrArg _ ?_
    cases hopen : isClosed place n with
    | true => rfl
    | false =>
      have hparts : n.children.flatMap (fun c => (factsOf (placeIn place n) c).filterMap g) =
          (n.children.flatMap (writtenFacts (placeIn place n))).filterMap g := by
        rw [List.filterMap_flatMap]
        exact List.flatMap_congr fun c hc => ih c hc (h.part hopen hc)
      simp only [Bool.false_eq_true, if_false]
      rw [← hparts]
      cases n with
      | node kind children =>
        have hpart (p : PartFacts)
            (hp : p ∈ children.map (readFacts (placeIn place (.node kind children)))) :
            p.opening.filterMap g = [] ∧ (p.isClause = true → p.all.filterMap g = []) := by
          obtain ⟨c, hc, rfl⟩ := List.mem_map.1 hp
          have hc := h.part hopen hc
          refine ⟨hc.opening_eq_nil, fun hclause => hc.eq_nil ?_⟩
          rw [isReadEarly, isKind_of_isClause hclause, Bool.true_or]
        rw [innerFacts, filterMap_inReadingOrder (fun p hp => (hpart p hp).1)
          (fun p hp => (hpart p hp).2), List.flatMap_map]
        rfl
      | group delim children =>
        rw [innerFacts, List.filterMap_flatMap]
        rfl
      | _ => rfl

end Selected

/-! ### What is read together -/

theorem infix_flatMap {α β : Type} {as : List α} {a : α} (h : a ∈ as) (f : α → List β) :
    f a <:+: as.flatMap f :=
  List.infix_of_mem_flatten (List.mem_map_of_mem h)

/-- What a part states is read together: the facts of its beginning, and all others. -/
theorem infix_inReadingOrder (kind : Kind) {parts : List PartFacts} {p : PartFacts}
    (hp : p ∈ parts) :
    p.opening <:+: inReadingOrder kind parts ∧ p.rest <:+: inReadingOrder kind parts := by
  have hall : p.opening <:+: p.all ∧ p.rest <:+: p.all :=
    ⟨(List.prefix_append ..).isInfix, (List.suffix_append ..).isInfix⟩
  have hp := (readingOrder_perm kind parts).mem_iff.2 hp
  unfold inReadingOrder
  dsimp only
  generalize readingOrder kind parts = ps at hp
  split_ifs
  · have hsplit : p ∈ ps.take 1 ++ ps.drop 1 := by rwa [List.take_append_drop]
    rcases List.mem_append.1 hsplit with hfirst | hlater
    · have hwhole : p.all <:+: (ps.take 1).flatMap (·.all) :=
        infix_flatMap hfirst PartFacts.all
      rw [List.append_assoc]
      have hbegin := hwhole.trans (List.prefix_append _ ((ps.drop 1).flatMap (·.opening) ++
        (ps.drop 1).flatMap (·.rest))).isInfix
      exact ⟨hall.1.trans hbegin, hall.2.trans hbegin⟩
    · have hopening : p.opening <:+: (ps.drop 1).flatMap (·.opening) :=
        infix_flatMap hlater _
      have hrest : p.rest <:+: (ps.drop 1).flatMap (·.rest) :=
        infix_flatMap hlater PartFacts.rest
      refine ⟨hopening.trans ?_, hrest.trans (List.suffix_append ..).isInfix⟩
      exact (List.suffix_append ..).isInfix.trans (List.prefix_append ..).isInfix
  · have hwhole : p.all <:+: ps.flatMap (·.all) := infix_flatMap hp PartFacts.all
    exact ⟨hall.1.trans hwhole, hall.2.trans hwhole⟩

/-- Whether facts are read together within what a part states. -/
def PartFacts.Together (facts : List Fact) (p : PartFacts) : Prop :=
  facts <:+: p.opening ∨ facts <:+: p.rest

theorem PartFacts.Together.all {facts : List Fact} {p : PartFacts} (h : p.Together facts) :
    facts <:+: p.all := by
  rcases h with h | h
  · exact h.trans (List.prefix_append ..).isInfix
  · exact h.trans (List.suffix_append ..).isInfix

/-- What is read together in a part of a node is read together in the node. -/
theorem together_readFacts {place : Place} {n c : Node} (hopen : isClosed place n = false)
    (hc : c ∈ n.children) {facts : List Fact}
    (h : (readFacts (placeIn place n) c).Together facts) : (readFacts place n).Together facts := by
  cases n with
  | node kind children =>
    have hmem := List.mem_map_of_mem (f := readFacts (placeIn place (.node kind children))) hc
    by_cases hkind : kind = .block
    · subst hkind
      rw [readFacts, partFacts_eq_map]
      split
      · rename_i body hbody
        change _ ∈ children.map (readFacts { place with inBlock := true }) at hmem
        rw [hbody, List.mem_singleton] at hmem
        rw [hmem] at h
        exact h
      · exact .inr (h.all.trans (infix_flatMap hmem PartFacts.all))
    · have hrest : (readFacts place (.node kind children)).rest =
          factsOf place (.node kind children) := by
        rw [factsOf, PartFacts.all, opening_readFacts hkind, List.nil_append]
      refine .inr ?_
      rw [hrest, factsOf_eq, hopen, if_neg Bool.false_ne_true]
      obtain ⟨hopening, hothers⟩ := infix_inReadingOrder kind hmem
      have hread : facts <:+: inReadingOrder kind
          (children.map (readFacts (placeIn place (.node kind children)))) :=
        h.elim (·.trans hopening) (·.trans hothers)
      exact hread.trans (List.suffix_append ..).isInfix
  | group delim children =>
    have hmem := List.mem_map_of_mem (f := readFacts place) hc
    rw [readFacts, partFacts_eq_map]
    split_ifs
    · rw [Node.children, ← List.take_append_drop 1 (children.map _), List.mem_append] at hmem
      refine hmem.imp (fun hfirst => ?_) fun hlater => ?_
      · exact h.all.trans (infix_flatMap hfirst PartFacts.all)
      · exact h.all.trans (infix_flatMap hlater PartFacts.all)
    · exact .inr (h.all.trans (infix_flatMap hmem PartFacts.all))
  | _ => cases hc

/-- **The facts of a node are read together** in every tree around it, unless it is a body. -/
theorem infix_factsOf {place spot : Place} {n : Node} {o : Occurrence} (ho : o ∈ n.occurrences)
    (hspot : placeWithin place o.around = some spot)
    (hopening : (readFacts spot o.node).opening = []) :
    factsOf spot o.node <:+: factsOf place n := by
  have htogether : (readFacts place n).Together (factsOf spot o.node) := by
    induction n using Node.induction_on_parts generalizing place o with
    | h n ih =>
      rcases Node.mem_occurrences.1 ho with rfl | ⟨c, hc, inner, hinner, rfl⟩
      · obtain rfl := Option.some.inj hspot
        have hrest : factsOf place n = (readFacts place n).rest := by
          rw [factsOf, PartFacts.all, hopening, List.nil_append]
        exact .inr (hrest ▸ List.infix_rfl)
      · rw [placeWithin_within] at hspot
        cases hopen : isClosed place n with
        | true =>
          rw [hopen] at hspot
          cases hspot
        | false =>
          rw [hopen, if_neg Bool.false_ne_true] at hspot
          exact together_readFacts hopen hc (ih c hc (o := inner) hinner hspot hopening)
  exact htogether.all

end Source

end Scaffold
