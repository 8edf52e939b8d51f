import Scaffold.Proofs.Source.Absolute
import Scaffold.Proofs.Source.Occurrence

/-!
# The canonical form of a type

A type has one canonical form in a scope, and that form is its own (`exists_canonical`).  Two facts
carry the proof:

* The path that replaces a path is replaced by itself, and the parts of a tree become canonical
  before the tree does, so all nodes of a canonical form stay as they are
  (`throughout_of_canonical`).
* A path keeps the names of its segments when its parts become canonical, so it is looked up as it
  was written (`qualified_of_canonical`).

`Qualified` says what a canonical form keeps of the type.  A path is written anew from names, and
only the arguments of its last segment are kept: the arguments of other segments, and the paths of
types in them, are left out (`canonical_drops_arguments`).
-/

namespace Scaffold

namespace Syntax

/-! ### Properties of all nodes -/

/-- Whether all nodes of a tree have a property. -/
def Node.Throughout (P : Node → Prop) (n : Node) : Prop := ∀ o ∈ n.occurrences, P o.node

namespace Node

variable {P : Node → Prop} {n : Node}

theorem throughout_iff : n.Throughout P ↔ P n ∧ ∀ c ∈ n.children, c.Throughout P :=
  forall_mem_occurrences (P := fun o => P o.node)

theorem Throughout.root (h : n.Throughout P) : P n := (throughout_iff.1 h).1

theorem Throughout.children (h : n.Throughout P) : ∀ c ∈ n.children, c.Throughout P :=
  (throughout_iff.1 h).2

theorem Throughout.part (h : n.Throughout P) (hnone : P .none) (i : ℕ) :
    (n.part i).Throughout P := by
  unfold Node.part
  cases hi : n.children[i]? with
  | none => exact throughout_iff.2 ⟨hnone, by simp [Node.none, Node.children]⟩
  | some c => exact h.children c (List.mem_of_getElem? hi)

/-- What all nodes of a tree have, all nodes of a tree in it have. -/
theorem Throughout.occurrence (h : n.Throughout P) : ∀ o ∈ n.occurrences, o.node.Throughout P := by
  induction n using Node.induction_on_parts with
  | h n ih => exact forall_mem_occurrences.2 ⟨h, fun c hc => ih c hc (h.children c hc)⟩

end Node

end Syntax

namespace Source

open Syntax

namespace SymbolTable

/-! ### Paths that are written out -/

/-- The arguments of the last segment. -/
def lastArgs (segments : Node) : Node :=
  (segments.elems.getLast?.map (·.part 1)).getD .none

theorem throughout_lastArgs {P : Node → Prop} {segments : Node} (h : segments.Throughout P)
    (hnone : P .none) : (lastArgs segments).Throughout P := by
  unfold lastArgs
  cases hlast : segments.elems.getLast? with
  | none => exact Node.throughout_iff.2 ⟨hnone, by simp [Node.none, Node.children]⟩
  | some segment =>
    have hmem := List.mem_of_mem_filter (List.mem_of_getLast? hlast)
    exact (h.children segment hmem).part hnone 1

/-- What stands before a path. -/
def leadOf (path : UsePath) : Node := if path.rooted then .op "::" else .none

/-- The segments of the given names, with arguments for the last one. -/
def segmentsOf (names : List String) (args : Node) : Node :=
  .node .separated (pathParts args (names.map fun name => .word (isRawSegment name) name))

/-- The path as it is written, with arguments. -/
def writtenPath (path : UsePath) (args : Node) : Node :=
  .node .path [leadOf path, segmentsOf path.segments args]

theorem elems_segmentsOf (names : List String) (last : String) (args : Node) :
    (segmentsOf (names ++ [last]) args).elems =
      (names.map fun name => .node .segment [.word (isRawSegment name) name, .none]) ++
        [.node .segment [.word (isRawSegment last) last, args]] := by
  induction names with
  | nil => rfl
  | cons name names ih =>
    unfold segmentsOf Node.elems Node.children at ih ⊢
    -- another segment comes behind the first one, so it has no arguments
    obtain ⟨word, words, hwords⟩ := List.exists_cons_of_ne_nil (l := (names ++ [last]).map fun name =>
      Node.word (isRawSegment name) name) (by simp)
    rw [List.cons_append, List.map_cons, hwords, pathParts, List.map_cons, List.cons_append, ← ih,
      hwords]
    · rfl
    · simp

theorem segmentNames_segmentsOf (names : List String) (args : Node) :
    segmentNames (segmentsOf names args) = names := by
  rcases List.eq_nil_or_concat names with rfl | ⟨names, last, rfl⟩
  · rfl
  · rw [segmentNames, List.concat_eq_append, elems_segmentsOf, List.map_append, List.map_map]
    simp [Function.comp_def, Node.part, Node.children, Node.name]

theorem usePathOf_writtenPath (path : UsePath) (args : Node) :
    usePathOf (leadOf path) (segmentsOf path.segments args) = path := by
  obtain ⟨segments, rooted⟩ := path
  rw [usePathOf, segmentNames_segmentsOf]
  cases rooted <;> rfl

/-- Only the last segment has arguments. -/
theorem isNone_args_segmentsOf (names : List String) (args : Node) :
    ∀ s ∈ (segmentsOf names args).elems.dropLast, (s.part 1).isNone = true := by
  rcases List.eq_nil_or_concat names with rfl | ⟨names, last, rfl⟩
  · simp [segmentsOf, pathParts, Node.elems, Node.children]
  · rw [List.concat_eq_append, elems_segmentsOf, List.dropLast_concat]
    intro s hs
    obtain ⟨name, -, rfl⟩ := List.mem_map.1 hs
    rfl

theorem lastArgs_segmentsOf {names : List String} (hnames : names ≠ []) (args : Node) :
    lastArgs (segmentsOf names args) = args := by
  rcases List.eq_nil_or_concat names with rfl | ⟨names, last, rfl⟩
  · exact absurd rfl hnames
  · rw [lastArgs, List.concat_eq_append, elems_segmentsOf, List.getLast?_concat]
    rfl

/-- What holds of the parts of a path. -/
theorem forall_mem_pathParts {P : Node → Prop} {args : Node} {words : List Node}
    (hop : P (.op "::"))
    (hword : ∀ w ∈ words, P (.node .segment [w, .none]) ∧ P (.node .segment [w, args])) :
    ∀ n ∈ pathParts args words, P n := by
  induction words using pathParts.induct with
  | case1 => simp [pathParts]
  | case2 word =>
    exact List.forall_mem_singleton.2 (hword word List.mem_cons_self).2
  | case3 word words hne ih =>
    obtain ⟨hfirst, hrest⟩ := List.forall_mem_cons.1 hword
    rw [pathParts]
    · exact List.forall_mem_cons.2 ⟨hfirst.1, List.forall_mem_cons.2 ⟨hop, ih hrest⟩⟩
    · exact hne

/-- Names are spelled where they may be segments, each by its word. -/
theorem mapM_segmentWord {names : List String} {words : List Node} :
    names.mapM segmentWord = .ok words ↔ (∀ name ∈ names, Ident.isSegment name = true) ∧
      words = names.map fun name => .word (isRawSegment name) name := by
  have hword (name : String) (word : Node) : segmentWord name = .ok word ↔
      Ident.isSegment name = true ∧ .word (isRawSegment name) name = word := by
    rw [segmentWord_eq]
    split_ifs with h <;> simp [h]
  rw [mapM_eq_ok]
  simp only [hword]
  rw [List.forall₂_and_left]
  refine and_congr_right fun _ => ?_
  rw [← List.forall₂_map_left_iff (R := Eq), List.forall₂_eq_eq_eq]
  exact eq_comm

variable {t : SymbolTable} {scope : ModulePath}

/-- **A path that is replaced** keeps the arguments of its last segment. -/
theorem canonicalPath_eq_ok {lead segments : Node} {target : UsePath}
    (h : t.absolute? scope (usePathOf lead segments) = some target) {c : Node} :
    t.canonicalPath scope lead segments = .ok c ↔
      (∀ name ∈ target.segments, Ident.isSegment name = true) ∧
        c = writtenPath target (lastArgs segments) := by
  -- a type and what is outside are rebuilt in the same way
  have hrebuilt : t.canonicalPath scope lead segments = (do
      let words ← target.segments.mapM segmentWord
      pure (.node .path [leadOf target, .node .separated (pathParts (lastArgs segments) words)])) := by
    unfold absolute? at h
    unfold canonicalPath
    cases hr : t.resolvePath (usePathOf lead segments) scope with
    | none => rw [hr] at h; cases h
    | some r =>
      rw [hr] at h
      cases r with
      | module_ p => cases h
      | type p => obtain rfl := Option.some.inj h; rfl
      | external names => obtain rfl := Option.some.inj h; rfl
  rw [hrebuilt, bind_eq_ok]
  simp only [mapM_segmentWord]
  constructor
  · rintro ⟨words, ⟨hspelled, rfl⟩, hc⟩
    exact ⟨hspelled, (Except.ok.inj hc).symm⟩
  · rintro ⟨hspelled, rfl⟩
    exact ⟨_, ⟨hspelled, rfl⟩, rfl⟩

/-- A path that is not replaced stays. -/
theorem canonicalPath_of_none {lead segments : Node}
    (h : t.absolute? scope (usePathOf lead segments) = none) :
    t.canonicalPath scope lead segments = .ok (.node .path [lead, segments]) := by
  unfold absolute? at h
  unfold canonicalPath
  cases hr : t.resolvePath (usePathOf lead segments) scope with
  | none => rfl
  | some r =>
    rw [hr] at h
    cases r with
    | module_ p => rfl
    | type p => cases h
    | external names => cases h

/-- The path of a type is rewritten when its parts have been. -/
theorem canonical_typePath {path lead segments : Node}
    (h : t.canonical scope path = .ok (.node .path [lead, segments])) {c : Node} :
    t.canonical scope (.node .typePath [path]) = .ok c ↔
      ∃ written, t.canonicalPath scope lead segments = .ok written ∧
        c = .node .typePath [written] := by
  have hmap : [path].mapM (t.canonical scope) = .ok [.node .path [lead, segments]] :=
    mapM_eq_ok.2 (.cons h .nil)
  have hstep : t.canonical scope (.node .typePath [path]) =
      (do pure (.node .typePath [← t.canonicalPath scope lead segments])) := by
    rw [canonical_node, hmap]
    rfl
  rw [hstep, bind_eq_ok]
  refine exists_congr fun written => and_congr_right fun _ => ?_
  exact ⟨fun h => (Except.ok.inj h).symm, fun h => congrArg _ h.symm⟩

/-- **What a node becomes:** its parts become canonical, and then a path that is to be replaced is
written out. -/
theorem canonical_node_cases {kind : Kind} {children : List Node} {c : Node}
    (h : t.canonical scope (.node kind children) = .ok c) :
    ∃ parts, List.Forall₂ (fun n p => t.canonical scope n = .ok p) children parts ∧
      ((∀ path, pathOf? kind parts = some path → t.absolute? scope path = none) ∧
          c = .node kind parts ∨
        ∃ lead segments target, pathParts? kind parts = some (lead, segments) ∧
          t.absolute? scope (usePathOf lead segments) = some target ∧
          (∀ name ∈ target.segments, Ident.isSegment name = true) ∧
          c = .node .typePath [writtenPath target (lastArgs segments)]) := by
  rw [canonical_node, bind_eq_ok] at h
  obtain ⟨parts, hmap, h⟩ := h
  refine ⟨parts, mapM_eq_ok.1 hmap, ?_⟩
  cases hfound : pathParts? kind parts with
  | none =>
    rw [hfound] at h
    exact .inl ⟨by simp [pathOf?, hfound], (Except.ok.inj h).symm⟩
  | some found =>
    obtain ⟨lead, segments⟩ := found
    rw [hfound] at h
    obtain ⟨path, hpath, hc⟩ := bind_eq_ok.1 h
    obtain rfl := Except.ok.inj hc
    cases htarget : t.absolute? scope (usePathOf lead segments) with
    | none =>
      rw [canonicalPath_of_none htarget] at hpath
      obtain rfl := Except.ok.inj hpath
      obtain ⟨rfl, rfl⟩ := pathParts?_eq_some_iff.1 hfound
      refine .inl ⟨fun path hpath => ?_, rfl⟩
      obtain rfl := Option.some.inj hpath
      exact htarget
    | some target =>
      obtain ⟨hspelled, rfl⟩ := (canonicalPath_eq_ok htarget).1 hpath
      exact .inr ⟨lead, segments, target, rfl, htarget, hspelled, rfl⟩

/-! ### Nodes that stay -/

/-- Whether the canonical form of a node is the node itself. -/
def Fixed (t : SymbolTable) (scope : ModulePath) (n : Node) : Prop := t.canonical scope n = .ok n

theorem fixed_node {kind : Kind} (hkind : kind ≠ .typePath) {children : List Node} :
    t.Fixed scope (.node kind children) ↔ ∀ c ∈ children, t.Fixed scope c := by
  rw [Fixed, canonical_node_eq_ok hkind]
  constructor
  · rintro ⟨parts, hparts, heq⟩
    obtain ⟨-, rfl⟩ := Node.node.inj heq
    have hsame : ∀ c ∈ children, t.canonical scope c = .ok c := List.forall₂_same.1 hparts
    exact hsame
  · exact fun h => ⟨children, List.forall₂_same.2 h, rfl⟩

theorem throughout_fixed_node {kind : Kind} (hkind : kind ≠ .typePath) {children : List Node} :
    (Node.node kind children).Throughout (t.Fixed scope) ↔
      ∀ c ∈ children, c.Throughout (t.Fixed scope) := by
  rw [Node.throughout_iff, fixed_node hkind]
  exact and_iff_right_of_imp fun h c hc => (h c hc).root

/-- A node stays where its parts do, if it is no path that is replaced. -/
theorem fixed_of_parts {kind : Kind} {parts : List Node} (hparts : ∀ p ∈ parts, t.Fixed scope p)
    (hpath : ∀ path, pathOf? kind parts = some path → t.absolute? scope path = none) :
    t.Fixed scope (.node kind parts) := by
  have hmap : parts.mapM (t.canonical scope) = .ok parts := mapM_eq_ok.2 (List.forall₂_same.2 hparts)
  rw [Fixed, canonical_node, bind_eq_ok]
  refine ⟨parts, hmap, ?_⟩
  cases hfound : pathParts? kind parts with
  | none => rfl
  | some found =>
    obtain ⟨lead, segments⟩ := found
    have hnone := hpath (usePathOf lead segments) (by rw [pathOf?, hfound, Option.map_some])
    obtain ⟨rfl, rfl⟩ := pathParts?_eq_some_iff.1 hfound
    dsimp only
    rw [canonicalPath_of_none hnone]
    rfl

/-- All parts of a path that is written out stay, where the arguments do. -/
theorem throughout_writtenPath (path : UsePath) {args : Node}
    (hargs : args.Throughout (t.Fixed scope)) :
    (writtenPath path args).Throughout (t.Fixed scope) := by
  have hnone : Node.none.Throughout (t.Fixed scope) := (throughout_fixed_node (by decide)).2 (by simp)
  have hop : (Node.op "::").Throughout (t.Fixed scope) :=
    Node.throughout_iff.2 ⟨rfl, by simp [Node.children]⟩
  have hword (raw : Bool) (name : String) : (Node.word raw name).Throughout (t.Fixed scope) :=
    Node.throughout_iff.2 ⟨rfl, by simp [Node.children]⟩
  have hlead : (leadOf path).Throughout (t.Fixed scope) := by
    unfold leadOf
    split_ifs
    · exact hop
    · exact hnone
  have hsegments : (segmentsOf path.segments args).Throughout (t.Fixed scope) := by
    rw [segmentsOf, throughout_fixed_node (by decide)]
    refine forall_mem_pathParts hop fun w hw => ?_
    obtain ⟨name, -, rfl⟩ := List.mem_map.1 hw
    constructor <;> rw [throughout_fixed_node (by decide)]
    · simp [hword, hnone]
    · simp [hword, hargs]
  rw [writtenPath, throughout_fixed_node (by decide)]
  simp [hlead, hsegments]

section Grounded

variable (ht : t.IsGrounded)
  (hnames : ∀ p entry, t.types.lookup p = some entry → Ident.isName entry.name = true)

include ht hnames

/-- **A path that has been replaced** stays from then on. -/
theorem throughout_typePath {path target : UsePath} (h : t.absolute? scope path = some target)
    (hspelled : ∀ name ∈ target.segments, Ident.isSegment name = true) {args : Node}
    (hargs : args.Throughout (t.Fixed scope)) :
    (Node.node .typePath [writtenPath target args]).Throughout (t.Fixed scope) := by
  have hwritten := throughout_writtenPath target hargs
  refine Node.throughout_iff.2 ⟨?_, List.forall_mem_singleton.2 hwritten⟩
  have hpath : t.canonicalPath scope (leadOf target) (segmentsOf target.segments args) =
      .ok (writtenPath target args) := by
    -- the path that is written names what it replaces
    have hself : t.absolute? scope (usePathOf (leadOf target) (segmentsOf target.segments args)) =
        some target := by
      rw [usePathOf_writtenPath]
      exact absolute?_absolute ht hnames h
    refine (canonicalPath_eq_ok hself).2 ⟨hspelled, ?_⟩
    -- without segments there is no place for the arguments, neither before nor now
    by_cases hnil : target.segments = []
    · rw [writtenPath, writtenPath, hnil]
      rfl
    · rw [lastArgs_segmentsOf hnil]
  exact (canonical_typePath hwritten.root).2 ⟨_, hpath, rfl⟩

/-- **Every canonical form stays** as it is, with all that stands in it. -/
theorem throughout_of_canonical {n c : Node} (h : t.canonical scope n = .ok c) :
    c.Throughout (t.Fixed scope) := by
  induction n using Node.induction_on_parts generalizing c with
  | h n ih =>
  -- the parts that the form is made of are canonical forms themselves
  have hparts {parts : List Node}
      (hstep : List.Forall₂ (fun n p => t.canonical scope n = .ok p) n.children parts) :
      ∀ p ∈ parts, p.Throughout (t.Fixed scope) := fun p hp => by
    obtain ⟨child, hchild, hp⟩ := exists_partner hstep hp
    exact ih child hchild hp
  cases n with
  | group delim children =>
    rw [canonical_group, bind_eq_ok] at h
    obtain ⟨parts, hmap, h⟩ := h
    obtain rfl := Except.ok.inj h
    have hfixed := hparts (mapM_eq_ok.1 hmap)
    refine Node.throughout_iff.2 ⟨?_, hfixed⟩
    have hsame : parts.mapM (t.canonical scope) = .ok parts :=
      mapM_eq_ok.2 (List.forall₂_same.2 fun p hp => (hfixed p hp).root)
    rw [Fixed, canonical_group, hsame]
    rfl
  | node kind children =>
    obtain ⟨parts, hstep, ⟨hpath, rfl⟩ | ⟨lead, segments, target, hfound, htarget, hspelled, rfl⟩⟩ :=
      canonical_node_cases h
    · have hfixed := hparts hstep
      exact Node.throughout_iff.2 ⟨fixed_of_parts (fun p hp => (hfixed p hp).root) hpath, hfixed⟩
    · obtain ⟨rfl, rfl⟩ := pathParts?_eq_some_iff.1 hfound
      have hsegments : segments.Throughout (t.Fixed scope) :=
        (hparts hstep _ List.mem_cons_self).children segments (by simp [Node.children])
      exact throughout_typePath ht hnames htarget hspelled (throughout_lastArgs hsegments rfl)
  | _ =>
    obtain rfl := Except.ok.inj h
    exact Node.throughout_iff.2 ⟨rfl, by simp [Node.children]⟩

end Grounded

/-! ### The paths in canonical types -/

/-- The path of a type that is a path. -/
def typePath? : Node → Option UsePath
  | .node kind parts => pathOf? kind parts
  | _ => none

/-- **The paths of the types in a tree.** -/
def typePaths (n : Node) : List UsePath :=
  n.occurrences.filterMap fun o => typePath? o.node

/-- In a form that stays no path is left to be replaced. -/
theorem eq_of_absolute? {n : Node} (h : n.Throughout (t.Fixed scope)) {path target : UsePath}
    (hpath : typePath? n = some path) (htarget : t.absolute? scope path = some target) :
    path = target := by
  cases n with
  | node kind parts =>
    obtain ⟨⟨lead, segments⟩, hfound, rfl⟩ := Option.map_eq_some_iff.1 hpath
    obtain ⟨rfl, rfl⟩ := pathParts?_eq_some_iff.1 hfound
    have hpart := (h.children _ List.mem_cons_self).root
    -- the path is written anew and yet the same, so it is written as its target is
    obtain ⟨written, hwritten, hsame⟩ := (canonical_typePath hpart).1 h.root
    obtain ⟨-, heq⟩ := Node.node.inj hsame
    obtain ⟨-, rfl⟩ := (canonicalPath_eq_ok htarget).1 hwritten
    obtain ⟨-, hparts⟩ := Node.node.inj (List.cons.inj heq).1
    obtain ⟨hlead, hrest⟩ := List.cons.inj hparts
    obtain ⟨hsegments, -⟩ := List.cons.inj hrest
    dsimp only
    rw [hlead, hsegments, usePathOf_writtenPath]
  | _ => cases hpath

/-! ### Types and their canonical forms -/

/-- **A tree and the same tree with absolute paths.**  Where a path is replaced, the arguments of its
last segment are kept, and those of the others are left out. -/
inductive Qualified (t : SymbolTable) (scope : ModulePath) : Node → Node → Prop
  | leaf {n : Node} (h : n.children = []) : Qualified t scope n n
  | group {delim : Delimiter} {children parts : List Node}
      (hparts : List.Forall₂ (Qualified t scope) children parts) :
      Qualified t scope (.group delim children) (.group delim parts)
  | node {kind : Kind} {children parts : List Node}
      (hpath : ∀ path, pathOf? kind children = some path → t.absolute? scope path = none)
      (hparts : List.Forall₂ (Qualified t scope) children parts) :
      Qualified t scope (.node kind children) (.node kind parts)
  | path {lead segments segments' : Node} {target : UsePath}
      (htarget : t.absolute? scope (usePathOf lead segments) = some target)
      (hnames : segmentNames segments' = target.segments)
      (hbare : ∀ s ∈ segments'.elems.dropLast, (s.part 1).isNone = true)
      (hargs : target.segments ≠ [] → Qualified t scope (lastArgs segments) (lastArgs segments')) :
      Qualified t scope (.node .typePath [.node .path [lead, segments]])
        (.node .typePath [.node .path [leadOf target, segments']])

/-- A segment keeps its arguments, in their canonical form. -/
theorem canonical_args_of_segment {segment c : Node} (hnamed : segment.isNamedSegment = true)
    (h : t.canonical scope segment = .ok c) : t.canonical scope (segment.part 1) = .ok (c.part 1) := by
  unfold Node.isNamedSegment at hnamed
  split at hnamed
  · obtain ⟨parts, hparts, rfl⟩ := (canonical_node_eq_ok (by decide)).1 h
    obtain ⟨first', rest, -, hrest, rfl⟩ := List.forall₂_cons_left_iff.1 hparts
    obtain ⟨args', rest, hargs, -, rfl⟩ := List.forall₂_cons_left_iff.1 hrest
    exact hargs
  · cases hnamed

/-- A path keeps the arguments of its last segment, in their canonical form. -/
theorem canonical_lastArgs {lead segments lead' segments' : Node}
    (hn : LeafRule.names.Formed (.node .path [lead, segments]))
    (h : t.canonical scope (.node .path [lead, segments]) = .ok (.node .path [lead', segments'])) :
    t.canonical scope (lastArgs segments) = .ok (lastArgs segments') := by
  obtain ⟨parts, hparts, heq⟩ := (canonical_node_eq_ok (by decide)).1 h
  obtain ⟨-, rfl⟩ := Node.node.inj heq
  obtain ⟨-, hrest⟩ := List.forall₂_cons.1 hparts
  obtain ⟨hsegments, -⟩ := List.forall₂_cons.1 hrest
  -- the segments form a sequence whose elements have names
  obtain ⟨lead₀, elems, heq, -, hnamed⟩ := hn.shape
  obtain ⟨rfl, -⟩ := List.cons.inj (List.cons.inj heq).2
  obtain ⟨elems', helems, rfl⟩ := (canonical_node_eq_ok (by decide)).1 hsegments
  -- the last segment is the first one from behind
  have hkept : List.Forall₂ (fun n p => t.canonical scope n = .ok p)
      (elems.filter (!·.isOp)).reverse (elems'.filter (!·.isOp)).reverse :=
    List.rel_reverse (List.rel_filter (fun n p hp => by dsimp only; rw [isOp_of_canonical hp]) helems)
  unfold lastArgs Node.elems Node.children
  rw [List.getLast?_eq_head?_reverse, List.getLast?_eq_head?_reverse]
  cases hlast : (elems.filter (!·.isOp)).reverse with
  | nil =>
    rw [hlast, List.forall₂_nil_left_iff] at hkept
    rw [hkept]
    rfl
  | cons segment rest =>
    rw [hlast] at hkept
    obtain ⟨segment', rest', hsegment, -, hlast'⟩ := List.forall₂_cons_left_iff.1 hkept
    obtain ⟨hmem, hop⟩ := List.mem_filter.1 (List.mem_reverse.1 (hlast ▸ List.mem_cons_self))
    rw [hlast']
    exact canonical_args_of_segment (hnamed segment hmem (by simpa using hop)) hsegment

/-- **The canonical form of a tree** is the tree with absolute paths. -/
theorem qualified_of_canonical {n : Node} (hn : LeafRule.names.Formed n) :
    n.Throughout fun m => ∀ c, t.canonical scope m = .ok c → t.Qualified scope m c := by
  induction hn with
  | @group delim children hchildren ih =>
    refine Node.throughout_iff.2 ⟨fun c h => ?_, ih⟩
    rw [canonical_group, bind_eq_ok] at h
    obtain ⟨parts, hmap, h⟩ := h
    obtain rfl := Except.ok.inj h
    have hboth := (List.forall₂_and_left _ _).2 ⟨ih, mapM_eq_ok.1 hmap⟩
    exact .group (hboth.imp fun n p h => h.1.root p h.2)
  | @node kind children hshape hchildren ih =>
    refine Node.throughout_iff.2 ⟨fun c h => ?_, ih⟩
    obtain ⟨parts, hstep, hc⟩ := canonical_node_cases h
    -- the segments have kept their names, so the path is looked up as it was written
    have hspells := pathOf?_of_canonical (.node hshape hchildren) hstep
    rcases hc with ⟨hpath, rfl⟩ | ⟨lead', segments', target, hfound, htarget, -, rfl⟩
    · refine .node (fun path hp => hpath path (hspells.trans hp)) ?_
      exact ((List.forall₂_and_left _ _).2 ⟨ih, hstep⟩).imp fun n p h => h.1.root p h.2
    · rw [pathOf?, hfound, Option.map_some] at hspells
      obtain ⟨⟨lead, segments⟩, hchild, hsame⟩ := Option.map_eq_some_iff.1 hspells.symm
      obtain ⟨rfl, rfl⟩ := pathParts?_eq_some_iff.1 hchild
      obtain ⟨-, rfl⟩ := pathParts?_eq_some_iff.1 hfound
      dsimp only at hsame
      refine .path (hsame ▸ htarget) (segmentNames_segmentsOf _ _) (isNone_args_segmentsOf _ _)
        fun hnames => ?_
      rw [lastArgs_segmentsOf hnames]
      have hpart := (ih _ List.mem_cons_self).children segments (by simp [Node.children])
      have hargs := throughout_lastArgs hpart fun c hc => by
        obtain rfl := Except.ok.inj hc
        exact .leaf rfl
      exact hargs.root _ (canonical_lastArgs (hchildren _ List.mem_cons_self)
        (List.forall₂_cons.1 hstep).1)
  | _ =>
    refine Node.throughout_iff.2 ⟨fun c h => ?_, by simp [Node.children]⟩
    obtain rfl := Except.ok.inj h
    exact .leaf rfl

/-! ### The canonical form -/

/-- In a table of a crate the names of types are all that the paths of types go through. -/
theorem InCrate.isNamed (ht : t.InCrate) {R : LeafRule} {others : List String}
    (hnames : t.IsNamed R others) : t.IsNamed R [] where
  path p entry hentry name hname := by
    have hgrounded := ht.isGrounded
    have hfull : isCratePath (entry.space ++ [entry.name]) = true :=
      isCratePath_append (hgrounded.space p entry hentry) (hnames.name p entry hentry)
    obtain ⟨⟨names, hpath⟩, -⟩ := exists_of_isCratePath hfull
    rw [hgrounded.key p entry hentry, hpath] at hname
    rw [hpath, isCratePath, Bool.and_eq_true] at hfull
    rcases List.mem_cons.1 hname with rfl | hname
    · exact .inl (by decide)
    · exact .inl (isSegment_of_isName (List.all_eq_true.1 hfull.2 name hname))
  name := hnames.name
  members := hnames.members
  pending := hnames.pending
  imports := hnames.imports
  globs := hnames.globs

/-- **The canonical form of a type** in a table of a crate is there: it is the type with absolute
paths, its paths of types of the crate begin with `crate` and those from outside with `::`, as they
are looked up in the scope once more, and it is its own canonical form. -/
theorem exists_canonical (ht : t.InCrate) {others : List String}
    (hnames : t.IsNamed LeafRule.names others) {n : Node} (hn : LeafRule.names.Formed n)
    (scope : ModulePath) :
    ∃ c, t.canonical scope n = .ok c ∧ t.Qualified scope n c ∧
      (∀ path ∈ typePaths c,
        (∀ p, t.resolvePath path scope = some (.type p) →
          path = ⟨p, false⟩ ∧ ∃ names, p = "crate" :: names) ∧
        ∀ names, t.resolvePath path scope = some (.external names) → path.rooted = true) ∧
      t.canonical scope c = .ok c := by
  have hgrounded := ht.isGrounded
  -- a canonical form is missing only where a name cannot be spelled
  obtain ⟨c, hc⟩ : ∃ c, t.canonical scope n = .ok c := by
    cases hform : t.canonical scope n with
    | ok c => exact ⟨c, rfl⟩
    | error b =>
      obtain ⟨name, hname, hword, -⟩ := (canonical_spells hn).error b hform
      rcases isNamedPath_typeNames (ht.isNamed hnames) hn scope name hname with hsegment | hother
      · rw [hsegment] at hword
        cases hword
      · cases hother
  have hfixed := throughout_of_canonical hgrounded hnames.name hc
  refine ⟨c, hc, (qualified_of_canonical hn).root c hc, fun path hpath => ?_, hfixed.root⟩
  obtain ⟨o, ho, hpath⟩ := List.mem_filterMap.1 hpath
  have hwritten {target : UsePath} (htarget : t.absolute? scope path = some target) :
      path = target :=
    eq_of_absolute? (hfixed.occurrence o ho) hpath htarget
  constructor
  · intro p hp
    obtain ⟨names, name, hcrate⟩ := hgrounded.exists_path (visible_resolvePath hp).1
    exact ⟨hwritten (by rw [absolute?, hp]), _, hcrate⟩
  · intro names hexternal
    rw [hwritten (by rw [absolute?, hexternal])]

end SymbolTable

/-- A crate in which a module opens another one and imports a type from outside. -/
def importingCrate : List SourceFile :=
  [⟨"crate", "lib.rs", "mod api; mod models;"⟩,
    ⟨"crate::api", "api.rs", "use crate::models::*; use uuid::Uuid as Id;"⟩,
    ⟨"crate::models", "models.rs", "pub struct Thing;"⟩]

theorem exists_canonical_imported :
    ∃ tree n c, SourceTree.ofFiles importingCrate = .ok tree ∧
      readType "Option<Vec<(Id, &'static [Thing; 2])>>" = some n ∧
      tree.symbols.InCrate ∧ LeafRule.names.Formed n ∧
      tree.symbols.canonical ["crate", "api"] n = .ok c ∧
      compactText c.tokens = "Option<Vec<(::uuid::Uuid, &'static [crate::models::Thing; 2])>>" ∧
      tree.symbols.canonical ["crate", "api"] c = .ok c := by
  have hfacts : (SourceTree.ofFiles importingCrate).toOption.bind (fun tree =>
      (readType "Option<Vec<(Id, &'static [Thing; 2])>>").bind fun n =>
        (tree.symbols.canonical ["crate", "api"] n).toOption.map fun c => compactText c.tokens) =
      some "Option<Vec<(::uuid::Uuid, &'static [crate::models::Thing; 2])>>" := by
    decide +kernel
  cases htree : SourceTree.ofFiles importingCrate with
  | error origin => rw [htree] at hfacts; cases hfacts
  | ok tree =>
    rw [htree] at hfacts
    obtain ⟨_, heq, hfacts⟩ := Option.bind_eq_some_iff.1 hfacts
    obtain rfl := Option.some.inj heq
    obtain ⟨n, hn, htext⟩ := Option.bind_eq_some_iff.1 hfacts
    have hcrate := (filled_ofFiles htree (by decide +kernel)).inCrate
    have hnames := isNamed_symbols (fun _ h => h) (fun _ _ h => formed_readFile h) htree
    obtain ⟨c, hc, -, -, hself⟩ :=
      SymbolTable.exists_canonical hcrate hnames (formed_readType hn) ["crate", "api"]
    rw [hc] at htext
    exact ⟨tree, n, c, rfl, hn, hcrate, formed_readType hn, hc, Option.some.inj htext, hself⟩

/-- The arguments of a segment before the last are left out, with the types in them. -/
theorem canonical_drops_arguments :
    (SourceTree.ofFiles [⟨"crate", "lib.rs", "pub struct Thing;"⟩]).toOption.bind (fun tree =>
      (readType "a<Thing>::b").bind fun n =>
        (tree.symbols.canonical ["crate"] n).toOption.map fun c =>
          ((SymbolTable.typePaths n).map (tree.symbols.resolvePath · ["crate"]),
            SymbolTable.typePaths c)) =
      some ([some (.external ["a", "b"]), some (.type ["crate", "Thing"])], [⟨["a", "b"], true⟩]) := by
  decide +kernel

end Source

end Scaffold
