import Scaffold.Proofs.Source.Lookup
import Scaffold.Proofs.Source.Names
import Scaffold.Proofs.Syntax.PlainPath
import Scaffold.Source.Canonical

/-!
# The names in canonical types

The canonical form of a type spells the paths of the crate's types that it names, and paths from
outside (`typeNames`).  It is there exactly where these can be spelled (`canonical_spells`).  The
latter come from the text alone, so in a table whose names are known every name that cannot be
spelled belongs to the module of a file (`typeNames_named`).
-/

namespace Scaffold.Source

open Syntax

/-! ### What paths resolve to -/

/-- What is known of the names to which a path resolves. -/
def Resolution.IsNamed (t : SymbolTable) : Resolution → Prop
  | .module_ _ => True
  | .type path => t.hasType path = true
  | .external segments => ∀ name ∈ segments, Ident.isSegment name = true

namespace SymbolTable

variable {t : SymbolTable}

/-- Lookups in a table whose names are known go through such names alone. -/
theorem IsNamed.keeps {R : LeafRule} {others : List String} (ht : t.IsNamed R others) :
    t.Keeps (fun _ => True) (Ident.isSegment · = true) where
  crate _ _ := trivial
  parent _ _ _ _ := trivial
  module_ _ _ := trivial
  imports := ht.imports
  globs := ht.globs

theorem isNamed_resolvePath {R : LeafRule} {others : List String} (ht : t.IsNamed R others)
    {path : UsePath} (hpath : ∀ n ∈ path.segments, Ident.isSegment n = true)
    {scope : ModulePath} {r : Resolution} (h : t.resolvePath path scope = some r) :
    r.IsNamed t := by
  have hwithin := ht.keeps.resolvePath hpath trivial h
  cases r with
  | module_ path => trivial
  | type path => exact hwithin
  | external segments => exact hwithin

/-! ### Spelling -/

/-- Whether the word for a segment is raw. -/
def isRawSegment (name : String) : Bool :=
  isKeyword name && !(["crate", "self", "super", "Self"].contains name)

/-- **The word for a segment** is there unless the text is no word, or the underscore. -/
theorem segmentWord_eq (name : String) :
    segmentWord name =
      if Ident.isSegment name then .ok (.word (isRawSegment name) name)
      else .error (.name name) := by
  unfold segmentWord isRawSegment
  by_cases hspecial : ["crate", "self", "super", "Self"].contains name = true
  · have hword : Ident.isSegment name = true :=
      List.all_eq_true.1 (by decide : ["crate", "self", "super", "Self"].all Ident.isSegment = true)
        name (List.contains_iff_mem.1 hspecial)
    simp only [hspecial, hword, Bool.not_true, Bool.and_false, if_true]
    rfl
  rw [Bool.not_eq_true] at hspecial
  simp only [hspecial, Bool.not_false, Bool.and_true, Bool.false_eq_true, if_false]
  by_cases hword : Ident.isWordText name = true
  · rw [isSome_readIdent hword, Ident.isSegment, Ident.plain?, Ident.raw?, if_pos hword, hword]
    by_cases hblank : name = "_"
    · subst hblank
      rfl
    · have hraw : isKeyword name = true → Ident.neverRaw.contains name = false := by
        intro _
        simp only [Ident.neverRaw, List.contains_cons, beq_false_of_ne hblank] at *
        simp_all
      cases hkeyword : isKeyword name with
      | true =>
        rw [hraw hkeyword]
        simp [hblank, Ident.node]
      | false => simp [hblank, Ident.node]
  · rw [Bool.not_eq_true] at hword
    simp [Ident.plain?, Ident.raw?, Ident.isSegment, hword]

/-- Every word but the underscore is the word for a segment, raw or not. -/
theorem segmentWord_spells (name : String) : Spells [name] (segmentWord name) := by
  have heq := segmentWord_eq name
  cases hword : Ident.isSegment name with
  | true =>
    rw [hword, if_pos rfl] at heq
    rw [heq]
    constructor
    · exact fun _ _ => List.forall_mem_singleton.2 hword
    · intro b hb
      cases hb
  | false =>
    rw [hword, if_neg (by decide)] at heq
    rw [heq]
    constructor
    · intro a ha
      cases ha
    · intro b hb
      obtain rfl := Except.error.inj hb
      exact ⟨name, List.mem_singleton_self name, hword, rfl⟩

/-! ### The parts of canonical types -/

/-- What stands before a path and its segments, where the parts of a node are those of a type that
is a path. -/
def pathParts? : Kind → List Node → Option (Node × Node)
  | .typePath, [.node .path [lead, segments]] => some (lead, segments)
  | _, _ => none

/-- The path that the parts of a path type spell. -/
def pathOf? (kind : Kind) (parts : List Node) : Option UsePath :=
  (pathParts? kind parts).map fun p => usePathOf p.1 p.2

theorem pathParts?_eq_some_iff {kind : Kind} {parts : List Node} {lead segments : Node} :
    pathParts? kind parts = some (lead, segments) ↔
      kind = .typePath ∧ parts = [.node .path [lead, segments]] := by
  constructor
  · intro h
    unfold pathParts? at h
    split at h
    · obtain ⟨rfl, rfl⟩ := Prod.mk.inj (Option.some.inj h)
      exact ⟨rfl, rfl⟩
    · cases h
  · rintro ⟨rfl, rfl⟩
    rfl

theorem pathParts?_eq_none {kind : Kind} {parts : List Node}
    (h : ∀ lead segments, kind = .typePath → parts = [.node .path [lead, segments]] → False) :
    pathParts? kind parts = none := by
  rw [Option.eq_none_iff_forall_ne_some]
  rintro ⟨lead, segments⟩ heq
  obtain ⟨hkind, hparts⟩ := pathParts?_eq_some_iff.1 heq
  exact h lead segments hkind hparts

variable {t : SymbolTable} {scope : ModulePath}

theorem canonicalParts_eq_mapM (ns : List Node) :
    t.canonicalParts scope ns = ns.mapM (t.canonical scope) := by
  induction ns with
  | nil => rfl
  | cons n ns ih => rw [canonicalParts, List.mapM_cons, ih]

/-- The canonical form of a node: a path is rewritten when its parts have been. -/
theorem canonical_node (kind : Kind) (children : List Node) :
    t.canonical scope (.node kind children) = (do
      let parts ← children.mapM (t.canonical scope)
      match pathParts? kind parts with
      | some (lead, segments) => pure (.node .typePath [← t.canonicalPath scope lead segments])
      | none => pure (.node kind parts)) := by
  rw [canonical, canonicalParts_eq_mapM]
  refine bind_congr fun parts => ?_
  split
  · rfl
  · rename_i hother
    rw [pathParts?_eq_none hother]

theorem canonical_group (delim : Delimiter) (children : List Node) :
    t.canonical scope (.group delim children) = (do
      pure (.group delim (← children.mapM (t.canonical scope)))) := by
  rw [canonical, canonicalParts_eq_mapM]

/-- A node that is no path type keeps its kind, and its parts are canonical. -/
theorem canonical_node_eq_ok {kind : Kind} (hkind : kind ≠ .typePath) {children : List Node}
    {c : Node} : t.canonical scope (.node kind children) = .ok c ↔
      ∃ parts, List.Forall₂ (fun n p => t.canonical scope n = .ok p) children parts ∧
        c = .node kind parts := by
  rw [canonical_node, bind_eq_ok]
  refine exists_congr fun parts => ?_
  rw [pathParts?_eq_none fun _ _ h _ => hkind h, mapM_eq_ok]
  exact and_congr_right fun _ => ⟨fun h => (Except.ok.inj h).symm, fun h => congrArg _ h.symm⟩

/-- The kind of a node stays. -/
theorem exists_node_of_canonical {kind : Kind} {children : List Node} {c : Node}
    (h : t.canonical scope (.node kind children) = .ok c) : ∃ parts, c = .node kind parts := by
  rw [canonical_node, bind_eq_ok] at h
  obtain ⟨parts, -, h⟩ := h
  split at h
  · rename_i lead segments heq
    obtain ⟨path, -, hc⟩ := bind_eq_ok.1 h
    obtain rfl := Except.ok.inj hc
    exact ⟨[path], by rw [(pathParts?_eq_some_iff.1 heq).1]⟩
  · obtain rfl := Except.ok.inj h
    exact ⟨parts, rfl⟩

/-- A node or group becomes one of the same kind, and all else stays. -/
theorem canonical_cases {n c : Node} (h : t.canonical scope n = .ok c) :
    (∃ kind children parts, n = .node kind children ∧ c = .node kind parts) ∨
      (∃ delim children parts, n = .group delim children ∧ c = .group delim parts) ∨ c = n := by
  cases n with
  | node kind children =>
    obtain ⟨parts, rfl⟩ := exists_node_of_canonical h
    exact .inl ⟨kind, children, parts, rfl, rfl⟩
  | group delim children =>
    rw [canonical_group, bind_eq_ok] at h
    obtain ⟨parts, -, hc⟩ := h
    exact .inr (.inl ⟨delim, children, parts, rfl, (Except.ok.inj hc).symm⟩)
  | _ => exact .inr (.inr (Except.ok.inj h).symm)

/-- Only a node becomes a node. -/
theorem exists_of_canonical_eq {n : Node} {kind : Kind} {parts : List Node}
    (h : t.canonical scope n = .ok (.node kind parts)) : ∃ children, n = .node kind children := by
  rcases canonical_cases h with ⟨k, children, ps, hn, hc⟩ | ⟨delim, children, ps, -, hc⟩ | hc
  · obtain ⟨rfl, -⟩ := Node.node.inj hc
    exact ⟨children, hn⟩
  · cases hc
  · exact ⟨parts, hc.symm⟩

/-- What is there stays there. -/
theorem isNone_of_canonical {n c : Node} (h : t.canonical scope n = .ok c) :
    c.isNone = n.isNone := by
  rcases canonical_cases h with ⟨kind, children, parts, rfl, rfl⟩ | ⟨delim, children, parts, rfl, rfl⟩ |
    rfl <;> rfl

/-- An operator stays one, and nothing else becomes one. -/
theorem isOp_of_canonical {n c : Node} (h : t.canonical scope n = .ok c) : c.isOp = n.isOp := by
  rcases canonical_cases h with ⟨kind, children, parts, rfl, rfl⟩ | ⟨delim, children, parts, rfl, rfl⟩ |
    rfl <;> rfl

/-- A segment keeps its name. -/
theorem name_of_canonical_segment {segment c : Node} (hnamed : segment.isNamedSegment = true)
    (h : t.canonical scope segment = .ok c) :
    c.isOp = false ∧ (c.part 0).name = (segment.part 0).name := by
  unfold Node.isNamedSegment at hnamed
  split at hnamed
  · rename_i first args
    obtain ⟨parts, hparts, rfl⟩ := (canonical_node_eq_ok (by decide)).1 h
    obtain ⟨first', parts', hfirst, -, rfl⟩ := List.forall₂_cons_left_iff.1 hparts
    cases first with
    | word raw name =>
      obtain rfl := Except.ok.inj hfirst
      exact ⟨rfl, rfl⟩
    | _ => cases hnamed
  · cases hnamed

/-- The segments of a path keep their names. -/
theorem segmentNames_of_canonical {segments parts : List Node}
    (hnamed : ∀ s ∈ segments, s.isOp = false → s.isNamedSegment = true)
    (h : List.Forall₂ (fun n p => t.canonical scope n = .ok p) segments parts) :
    segmentNames (.node .separated parts) = segmentNames (.node .separated segments) := by
  induction h with
  | nil => rfl
  | @cons segment part segments parts hsegment hrest ih =>
    obtain ⟨hhead, htail⟩ := List.forall_mem_cons.1 hnamed
    have hnames := ih htail
    simp only [segmentNames, Node.elems, Node.children] at hnames ⊢
    cases hop : segment.isOp with
    | true =>
      cases segment with
      | op marks =>
        obtain rfl := Except.ok.inj hsegment
        exact hnames
      | _ => cases hop
    | false =>
      obtain ⟨hpart, hname⟩ := name_of_canonical_segment (hhead hop) hsegment
      simp [hop, hpart, hname, hnames]

/-- **A path keeps what it spells** when its parts become canonical. -/
theorem pathOf?_of_canonical {kind : Kind} {children parts : List Node}
    (hn : LeafRule.names.Formed (.node kind children))
    (h : List.Forall₂ (fun n p => t.canonical scope n = .ok p) children parts) :
    pathOf? kind parts = pathOf? kind children := by
  unfold pathOf?
  cases hparts : pathParts? kind children with
  | some found =>
    obtain ⟨lead, segments⟩ := found
    obtain ⟨rfl, rfl⟩ := pathParts?_eq_some_iff.1 hparts
    obtain ⟨path, rest, hpath, hnil, rfl⟩ := List.forall₂_cons_left_iff.1 h
    obtain rfl := List.forall₂_nil_left_iff.1 hnil
    obtain ⟨ps, hps, rfl⟩ := (canonical_node_eq_ok (by decide)).1 hpath
    obtain ⟨lead', rest, hlead, hrest, rfl⟩ := List.forall₂_cons_left_iff.1 hps
    obtain ⟨segments', rest, hsegments, hnil, rfl⟩ := List.forall₂_cons_left_iff.1 hrest
    obtain rfl := List.forall₂_nil_left_iff.1 hnil
    -- the segments form a sequence whose elements have names
    obtain ⟨lead₀, elems, heq, -, hnamed⟩ := (hn.children _ List.mem_cons_self).shape
    obtain ⟨-, htail⟩ := List.cons.inj heq
    obtain ⟨rfl, -⟩ := List.cons.inj htail
    obtain ⟨elems', helems, rfl⟩ := (canonical_node_eq_ok (by decide)).1 hsegments
    have hnames := segmentNames_of_canonical hnamed helems
    have hsome : lead'.isSome = lead.isSome := by
      rw [Node.isSome, Node.isSome, isNone_of_canonical hlead]
    simp only [pathParts?, Option.map_some, usePathOf, hnames, hsome]
  | none =>
    rw [Option.map_none, Option.map_eq_none_iff]
    refine pathParts?_eq_none fun lead segments hkind heq => ?_
    subst hkind heq
    obtain ⟨n, rest, hpath, hnil, rfl⟩ := List.forall₂_cons_right_iff.1 h
    obtain rfl := List.forall₂_nil_right_iff.1 hnil
    obtain ⟨ps, rfl⟩ := exists_of_canonical_eq hpath
    obtain ⟨ps', hps, heq⟩ := (canonical_node_eq_ok (by decide)).1 hpath
    obtain ⟨-, rfl⟩ := Node.node.inj heq
    obtain ⟨lead₀, rest, -, hrest, rfl⟩ := List.forall₂_cons_right_iff.1 hps
    obtain ⟨segments₀, rest, -, hnil, rfl⟩ := List.forall₂_cons_right_iff.1 hrest
    obtain rfl := List.forall₂_nil_right_iff.1 hnil
    cases hparts

/-! ### The names that a canonical type spells -/

/-- The names of the path by which a path is replaced. -/
def namesOf (t : SymbolTable) (scope : ModulePath) (path : UsePath) : List String :=
  match t.resolvePath path scope with
  | some (.type path) => path
  | some (.external names) => names
  | _ => []

mutual

/-- **The names that the canonical form of a type spells.** -/
def typeNames (t : SymbolTable) (scope : ModulePath) : Node → List String
  | .node kind children =>
    partNames t scope children ++
      ((pathOf? kind children).map (namesOf t scope)).getD []
  | .group _ children => partNames t scope children
  | _ => []

/-- The names that the canonical forms of parts spell. -/
def partNames (t : SymbolTable) (scope : ModulePath) : List Node → List String
  | [] => []
  | n :: ns => typeNames t scope n ++ partNames t scope ns

end

theorem partNames_eq_flatMap (ns : List Node) :
    t.partNames scope ns = ns.flatMap (t.typeNames scope) := by
  induction ns with
  | nil => rfl
  | cons n ns ih => rw [partNames, List.flatMap_cons, ih]

theorem canonicalPath_spells (lead segments : Node) :
    Spells (t.namesOf scope (usePathOf lead segments)) (t.canonicalPath scope lead segments) := by
  have hwords (names : List String) : Spells names (names.mapM segmentWord) := by
    have h : Spells (names.flatMap fun name => [name]) (names.mapM segmentWord) :=
      .mapM fun name _ => segmentWord_spells name
    rwa [List.flatMap_singleton'] at h
  unfold canonicalPath namesOf
  cases t.resolvePath (usePathOf lead segments) scope with
  | none => exact .pure _
  | some r =>
    cases r with
    | module_ path => exact .pure _
    | type path => exact (hwords path).bind_pure fun words _ => .pure _
    | external names => exact (hwords names).bind_pure fun words _ => .pure _

/-- **The canonical form of a type** is there exactly where its names can be spelled. -/
theorem canonical_spells {n : Node} (hn : LeafRule.names.Formed n) :
    Spells (t.typeNames scope n) (t.canonical scope n) := by
  induction hn with
  | @node kind children hshape hchildren ih =>
    have hmap : Spells (t.partNames scope children) (children.mapM (t.canonical scope)) := by
      rw [partNames_eq_flatMap]
      exact .mapM ih
    rw [canonical_node, typeNames]
    refine hmap.bind fun parts hparts => ?_
    rw [← pathOf?_of_canonical (.node hshape hchildren) (mapM_eq_ok.1 hparts), pathOf?]
    cases pathParts? kind parts with
    | none => exact .pure _
    | some p => exact (canonicalPath_spells p.1 p.2).bind_pure fun path _ => .pure _
  | @group delim children hchildren ih =>
    rw [canonical_group, typeNames, partNames_eq_flatMap]
    exact (Spells.mapM ih).bind_pure fun parts _ => .pure _
  | _ => exact .pure _

/-- The names that the members of a type spell. -/
def memberNames (t : SymbolTable) (path : ModulePath) : List String :=
  match t.types.lookup path with
  | none => []
  | some entry => entry.members.flatMap fun m => t.typeNames m.scope m.type

section Members

variable {others : List String} (ht : t.IsNamed LeafRule.names others)

include ht

theorem membersOf_spells (path : ModulePath) : Spells (t.memberNames path) (t.membersOf path) := by
  unfold memberNames membersOf
  cases hentry : t.types.lookup path with
  | none => exact .pure []
  | some entry =>
    refine .mapM fun m hm => ?_
    have htype := ht.members path entry hentry m hm
    have htext : Spells (t.typeNames m.scope m.type) (t.typeText m.scope m.type) :=
      (canonical_spells htype).bind_pure fun c _ => .pure _
    exact htext.bind_pure fun text _ => .pure _

/-- The names of the path by which a path is replaced can be spelled, or belong to a module. -/
theorem isNamedPath_namesOf {path : UsePath} (hpath : ∀ n ∈ path.segments, Ident.isSegment n = true)
    (scope : ModulePath) : IsNamedPath others (t.namesOf scope path) := by
  intro name hname
  unfold namesOf at hname
  cases hr : t.resolvePath path scope with
  | none =>
    rw [hr] at hname
    cases hname
  | some r =>
    rw [hr] at hname
    have hnamed := isNamed_resolvePath ht hpath hr
    cases r with
    | module_ p => cases hname
    | type p =>
      obtain ⟨entry, hentry⟩ := Option.isSome_iff_exists.1 hnamed
      exact ht.path p entry hentry name hname
    | external names => exact .inl (hnamed name hname)

/-- **Every name in a canonical type** can be spelled, or belongs to a module. -/
theorem isNamedPath_typeNames {n : Node} (hn : LeafRule.names.Formed n) (scope : ModulePath) :
    IsNamedPath others (t.typeNames scope n) := by
  induction hn with
  | @node kind children hshape hchildren ih =>
    intro name hname
    rw [typeNames, partNames_eq_flatMap] at hname
    rcases List.mem_append.1 hname with hpart | hown
    · obtain ⟨c, hc, hpart⟩ := List.mem_flatMap.1 hpart
      exact ih c hc name hpart
    · cases hparts : pathParts? kind children with
      | none =>
        rw [pathOf?, hparts] at hown
        cases hown
      | some found =>
        obtain ⟨lead, segments⟩ := found
        rw [pathOf?, hparts] at hown
        obtain ⟨rfl, rfl⟩ := pathParts?_eq_some_iff.1 hparts
        have hpath := isSegment_of_mem_usePathOf (hchildren _ List.mem_cons_self)
        exact isNamedPath_namesOf ht hpath scope name hown
  | @group delim children hchildren ih =>
    intro name hname
    rw [typeNames, partNames_eq_flatMap] at hname
    obtain ⟨c, hc, hname⟩ := List.mem_flatMap.1 hname
    exact ih c hc name hname
  | _ =>
    intro name hname
    cases hname

theorem isNamedPath_memberNames (path : ModulePath) :
    IsNamedPath others (t.memberNames path) := by
  intro name hname
  unfold memberNames at hname
  split at hname
  · cases hname
  · rename_i entry hentry
    obtain ⟨m, hm, hname⟩ := List.mem_flatMap.1 hname
    exact isNamedPath_typeNames ht (ht.members path entry hentry m hm) m.scope name hname

end Members

end SymbolTable

end Scaffold.Source
