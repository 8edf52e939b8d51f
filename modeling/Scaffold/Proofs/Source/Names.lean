import Scaffold.Proofs.Source.Facts
import Scaffold.Proofs.Spelling

/-!
# The names that a table holds

Every name that a file states is a word of its text, so it may be a segment of a path; only the
modules of the files themselves are named otherwise, by the way to the file.  `Fact.IsNamed` says so
of a fact, where `known` holds of the segments that come from files, and `SymbolTable.IsNamed` of a
table.  `isNamed_factsOf` and `isNamed_tableOf` find it true of what is read.
-/

namespace Scaffold.Source

open Syntax

/-! ### Names of words -/

theorem isSegment_of_isName {name : String} (h : Ident.isName name = true) :
    Ident.isSegment name = true := by
  have hne : name ≠ "_" := by
    rintro rfl
    cases h
  rw [Ident.isName, Bool.and_eq_true] at h
  rw [Ident.isSegment, h.1, Bool.true_and, bne_iff_ne]
  exact hne

/-- The name of an identifier, or of one of the words `also`, in a tree. -/
theorem isSegment_of_isIdentOr {n : Node} {also : List String} (h : LeafRule.names.Formed n)
    (hident : n.isIdentOr also = true) (halso : also.all Ident.isSegment = true) :
    Ident.isSegment n.name = true := by
  cases n with
  | word raw name =>
    cases h with
    | word hword =>
      rcases Bool.or_eq_true_iff.1 hident with hident | hmem
      · exact isSegment_of_isName (Ident.isName_of_not_keyword hword hident)
      · exact List.all_eq_true.1 halso name (List.contains_iff_mem.1 hmem)
  | _ => cases hident

/-- The segments of a path in a tree. -/
theorem isSegment_of_mem_usePathOf {lead segments : Node}
    (h : LeafRule.names.Formed (.node .path [lead, segments])) :
    ∀ name ∈ (SymbolTable.usePathOf lead segments).segments, Ident.isSegment name = true := by
  obtain ⟨lead', parts, heq, -, hnamed⟩ := h.shape
  obtain ⟨rfl, hsegments⟩ := List.cons.inj heq
  obtain ⟨rfl, -⟩ := List.cons.inj hsegments
  intro name hname
  obtain ⟨segment, hmem, rfl⟩ := List.mem_map.1 hname
  obtain ⟨hpart, hop⟩ := List.mem_filter.1 hmem
  have hformed : LeafRule.names.Formed segment := (h.part 1).children segment hpart
  have hseg := hnamed segment hpart (by simpa using hop)
  unfold Node.isNamedSegment at hseg
  split at hseg
  · exact isSegment_of_isIdentOr (hformed.part 0) hseg (by decide)
  · cases hseg

/-! ### Use trees -/

/-- The path of a binding. -/
def Binding.path : Binding → List String
  | .name _ path => path
  | .glob path => path

namespace UseTree

/-- What several trees bind is bound by one of them. -/
theorem mem_groupBindings {root : List String} {ns : List Node} {b : Binding}
    (h : b ∈ groupBindings root (ofParts ns)) :
    ∃ n ∈ ns, n.isOp = false ∧ b ∈ bindings root (ofNode n) := by
  induction ns with
  | nil => cases h
  | cons n ns ih =>
    cases hop : n.isOp with
    | true =>
      rw [ofParts, if_pos hop] at h
      obtain ⟨m, hm, hb⟩ := ih h
      exact ⟨m, List.mem_cons_of_mem _ hm, hb⟩
    | false =>
      rw [ofParts, if_neg (by rw [hop]; decide), groupBindings, List.mem_append] at h
      rcases h with h | h
      · exact ⟨n, List.mem_cons_self, hop, h⟩
      · obtain ⟨m, hm, hb⟩ := ih h
        exact ⟨m, List.mem_cons_of_mem _ hm, hb⟩

/-- **The paths of a use tree** go through names of the tree, below the path before it. -/
theorem isSegment_of_mem_bindings {n : Node} (htree : n.IsUseTree) (h : LeafRule.names.Formed n)
    {root : List String} (hroot : ∀ name ∈ root, Ident.isSegment name = true) {b : Binding}
    (hb : b ∈ bindings root (ofNode n)) : ∀ name ∈ b.path, Ident.isSegment name = true := by
  have below {word : Node} (hword : word.isIdentOr useKeywords = true)
      (hformed : LeafRule.names.Formed word) {root : List String}
      (hroot : ∀ name ∈ root, Ident.isSegment name = true) :
      ∀ name ∈ root ++ [word.name], Ident.isSegment name = true := by
    have hname := isSegment_of_isIdentOr hformed hword (by decide)
    intro name hmem
    rcases List.mem_append.1 hmem with hmem | hmem
    · exact hroot name hmem
    · rwa [List.mem_singleton.1 hmem]
  induction htree generalizing root with
  | @name word hword =>
    have hformed := h.children word (by simp [Node.children])
    simp only [ofNode, bindings, bindName] at hb
    split at hb
    · split at hb
      · obtain rfl := List.mem_singleton.1 hb
        exact hroot
      · cases hb
    · obtain rfl := List.mem_singleton.1 hb
      exact below hword hformed hroot
  | @rename word as_ bound hword hbound =>
    have hformed := h.children word (by simp [Node.children])
    simp only [ofNode, bindings, bindAlias] at hb
    split at hb
    · cases hb
    · split at hb
      · obtain rfl := List.mem_singleton.1 hb
        exact hroot
      · obtain rfl := List.mem_singleton.1 hb
        exact below hword hformed hroot
  | @path word colons tree hword htree ih =>
    have hformed := h.children word (by simp [Node.children])
    rw [ofNode, bindings] at hb
    exact ih (h.children tree (by simp [Node.children])) (below hword hformed hroot) hb
  | glob =>
    rw [ofNode, bindings] at hb
    · obtain rfl := List.mem_singleton.1 hb
      exact hroot
    all_goals simp
  | @group delim trees htrees ih =>
    rw [ofNode, bindings] at hb
    obtain ⟨tree, hmem, hop, hb⟩ := mem_groupBindings hb
    have hparts := (h.children (.group delim [.node .separated trees]) (by simp [Node.children]))
    have hlist := hparts.children (.node .separated trees) (by simp [Node.children])
    exact ih tree hmem hop (hlist.children tree hmem) hroot hb

end UseTree

/-! ### Facts -/

/-- Whether all names of a path are words that may be segments, or among `others`. -/
def IsNamedPath (others : List String) (path : ModulePath) : Prop :=
  ∀ name ∈ path, Ident.isSegment name = true ∨ name ∈ others

theorem IsNamedPath.append {others : List String} {path : ModulePath}
    (h : IsNamedPath others path) {name : String} (hname : Ident.isName name = true) :
    IsNamedPath others (path ++ [name]) := by
  intro n hn
  rcases List.mem_append.1 hn with hn | hn
  · exact h n hn
  · rw [List.mem_singleton.1 hn]
    exact .inl (isSegment_of_isName hname)

/-- What is known of the names in a fact, where modules may go through `others` too: the types of
members are trees that obey the rule. -/
def Fact.IsNamed (R : LeafRule) (others : List String) : Fact → Prop
  | .type space name _ fields =>
    IsNamedPath others space ∧ Ident.isName name = true ∧ ∀ m ∈ fields, R.Formed m.type
  | .binding _ _ b => ∀ name ∈ b.path, Ident.isSegment name = true
  | .impl pending => ∀ m ∈ pending.members, R.Formed m.type
  | _ => True

section Members

variable {R : LeafRule}

/-- The fields of a struct. -/
theorem formed_of_mem_fieldsOf {scope : ModulePath} {fields : Node} (h : R.Formed fields)
    {m : MemberEntry} (hm : m ∈ fieldsOf scope fields) : R.Formed m.type := by
  unfold fieldsOf at hm
  split at hm
  · rename_i delim list
    obtain ⟨field, hmem, hfield⟩ := List.mem_filterMap.1 hm
    have hgroup := h.children (.group delim [list]) (by simp [Node.children])
    have hlist := hgroup.children list (by simp [Node.children])
    split at hfield
    · obtain rfl := Option.some.inj hfield
      exact (hlist.elems _ hmem).children _ (by simp [Node.children])
    · cases hfield
  · cases hm

/-- The accessor that a method is. -/
theorem formed_of_accessorOf {scope : ModulePath} {method : Node} (h : R.Formed method)
    {m : MemberEntry} (hm : accessorOf scope method = some m) : R.Formed m.type := by
  unfold accessorOf at hm
  split at hm
  · rename_i attrs vis defaultness sigAttrs asyncness unsafety abi fn name generics delim args output
      whereClause body
    have hsignature := h.children _ (List.mem_of_getElem? (i := 3) rfl)
    have hargs := (hsignature.children _ (List.mem_of_getElem? (i := 7) rfl)).children args
      (by simp [Node.children])
    have houtput := hsignature.children output (by simp [Node.children])
    split at hm
    · cases hm
    split at hm
    · rename_i receiver values heq
      have hvalues : ∀ value ∈ values, R.Formed value := fun value hvalue =>
        hargs.elems value (List.mem_of_mem_filter (heq ▸ List.mem_cons_of_mem _ hvalue))
      split at hm
      · cases hm
      split at hm
      · split at hm
        · obtain rfl := Option.some.inj hm
          exact houtput.part 1
        · cases hm
      split at hm
      · split at hm
        · cases hm
        · obtain ⟨property, -, rfl⟩ := Option.map_eq_some_iff.1 hm
          exact (hvalues _ List.mem_cons_self).children _ (by simp [Node.children])
      · cases hm
    · cases hm
  · cases hm

/-- The accessors of an implementation. -/
theorem formed_of_implOf {scope : ModulePath} {item : Node} (h : R.Formed item)
    {impl : PendingImpl} (himpl : implOf scope item = some impl) :
    ∀ m ∈ impl.members, R.Formed m.type := by
  unfold implOf at himpl
  split at himpl
  · rename_i lead segments delim attrs members
    dsimp only at himpl
    split_ifs at himpl
    obtain rfl := Option.some.inj himpl
    intro m hm
    obtain ⟨method, hmethod, haccessor⟩ := List.mem_filterMap.1 hm
    have hbody := h.children (.group delim [attrs, members]) (by simp [Node.children])
    have hmembers := hbody.children members (by simp [Node.children])
    exact formed_of_accessorOf (hmembers.children method hmethod) haccessor
  · cases himpl

end Members

section Facts

variable {R : LeafRule} {others : List String}
  (hR : ∀ n, R.Formed n → LeafRule.names.Formed n)

include hR

/-- The facts that a node states by itself. -/
theorem isNamed_ownFacts {place : Place} {m : Node} (hm : R.Formed m)
    (hplace : IsNamedPath others place.scope) :
    ∀ f ∈ ownFacts place m, f.IsNamed R others := by
  have hnames := hR m hm
  intro f hf
  cases states_of_mem_ownFacts hf with
  | type htype hfields =>
    exact ⟨hplace, isName_of_isType hnames htype,
      fun m hfield => formed_of_mem_fieldsOf (hm.part 6) (hfields m hfield)⟩
  | binding huse hb =>
    have htree : (m.part 4).IsUseTree := by
      rw [Node.eq_of_isKind huse] at hnames ⊢
      rw [part_eq_getD]
      exact hnames.shape
    exact UseTree.isSegment_of_mem_bindings htree (hnames.part 4) (by simp) hb
  | impl himpl => exact formed_of_implOf hm himpl
  | _ => trivial

/-- **The facts of a tree** whose place is named. -/
theorem isNamed_factsOf {place : Place} {n : Node} (hn : R.Formed n)
    (hplace : IsNamedPath others place.scope) : ∀ f ∈ factsOf place n, f.IsNamed R others := by
  intro f hf
  have hpart (m : Node) (place : Place) (hm : R.Formed m) (hp : IsNamedPath others place.scope) :
      IsNamedPath others (placeIn place m).scope := by
    unfold placeIn
    split
    · exact hp.append (isName_of_itemMod (hR _ hm))
    · exact hp
    · exact hp
  obtain ⟨m, spot, h⟩ := exists_statedBy (P := fun place => IsNamedPath others place.scope)
    (fun m place hm hp _ => hpart m place hm hp) hn hplace hf
  exact isNamed_ownFacts hR h.formed h.holds f h.mem

end Facts

/-! ### Tables -/

/-- What is known of the names in a table. -/
structure SymbolTable.IsNamed (R : LeafRule) (others : List String) (t : SymbolTable) : Prop where
  path : ∀ p entry, t.types.lookup p = some entry → IsNamedPath others p
  name : ∀ p entry, t.types.lookup p = some entry → Ident.isName entry.name = true
  members : ∀ p entry, t.types.lookup p = some entry → ∀ m ∈ entry.members, R.Formed m.type
  pending : ∀ impl ∈ t.pending, ∀ m ∈ impl.members, R.Formed m.type
  imports : ∀ space name target, t.importOf space name = some target →
    ∀ s ∈ target.segments, Ident.isSegment s = true
  globs : ∀ space, ∀ glob ∈ t.globsOf space, ∀ s ∈ glob.segments, Ident.isSegment s = true

namespace SymbolTable

variable {R : LeafRule} {others : List String} {t : SymbolTable}

theorem isNamed_empty : SymbolTable.IsNamed R others {} where
  path _ _ h := by cases h
  name _ _ h := by cases h
  members _ _ h := by cases h
  pending _ h := by cases h
  imports _ _ _ h := by cases h
  globs _ _ h := by cases h

/-- A type is added under a path of names. -/
theorem IsNamed.addType (h : t.IsNamed R others) {space : ModulePath} {name : String}
    {kind : TypeKind} {fields : List MemberEntry} (hspace : IsNamedPath others space)
    (hname : Ident.isName name = true) (hfields : ∀ m ∈ fields, R.Formed m.type) :
    (t.addType space name kind fields).IsNamed R others := by
  have hlookup (p : ModulePath) : (t.addType space name kind fields).types.lookup p =
      if p == space ++ [name] then some ⟨name, space, kind, fields⟩ else t.types.lookup p :=
    lookup_setKey ..
  have himports (s : ModulePath) (n : String) :
      (t.addType space name kind fields).importOf s n = t.importOf s n := importOf_addModule ..
  have hglobs (s : ModulePath) :
      (t.addType space name kind fields).globsOf s = t.globsOf s := globsOf_addModule ..
  constructor
  · intro p entry hentry
    rw [hlookup] at hentry
    split_ifs at hentry with hp
    · rw [eq_of_beq hp]
      exact hspace.append hname
    · exact h.path p entry hentry
  · intro p entry hentry
    rw [hlookup] at hentry
    split_ifs at hentry with hp
    · obtain rfl := Option.some.inj hentry
      exact hname
    · exact h.name p entry hentry
  · intro p entry hentry
    rw [hlookup] at hentry
    split_ifs at hentry with hp
    · obtain rfl := Option.some.inj hentry
      exact hfields
    · exact h.members p entry hentry
  · exact h.pending
  · intro s n target htarget
    rw [himports] at htarget
    exact h.imports s n target htarget
  · intro s glob hglob
    rw [hglobs] at hglob
    exact h.globs s glob hglob

/-- **A fact that is named** keeps the table so. -/
theorem IsNamed.add (h : t.IsNamed R others) {f : Fact} (hf : f.IsNamed R others) :
    (t.add f).IsNamed R others := by
  have himports : ∀ space name target, (t.add f).importOf space name = some target →
      ∀ s ∈ target.segments, Ident.isSegment s = true := by
    intro space name target htarget
    rw [importOf_add, Option.or_eq_some_iff] at htarget
    rcases htarget with hbound | ⟨-, hold⟩
    · cases f with
      | binding s rooted b =>
        cases b with
        | name bound path =>
          rw [Fact.boundTo?] at hbound
          split_ifs at hbound
          obtain rfl := Option.some.inj hbound
          exact hf
        | glob path => cases hbound
      | _ => cases hbound
    · exact h.imports space name target hold
  have hglobs : ∀ space, ∀ glob ∈ (t.add f).globsOf space,
      ∀ s ∈ glob.segments, Ident.isSegment s = true := by
    intro space glob hglob
    rw [globsOf_add] at hglob
    rcases List.mem_append.1 hglob with hold | hnew
    · exact h.globs space glob hold
    · cases f with
      | binding s rooted b =>
        cases b with
        | name bound path => cases hnew
        | glob path =>
          rw [Fact.globIn?] at hnew
          split_ifs at hnew
          · rw [List.mem_singleton.1 hnew]
            exact hf
          · cases hnew
      | _ => cases hnew
  cases f with
  | module_ path => exact ⟨h.path, h.name, h.members, h.pending, himports, hglobs⟩
  | type space name kind fields => exact h.addType hf.1 hf.2.1 hf.2.2
  | binding space rooted b =>
    cases b with
    | name bound path => exact ⟨h.path, h.name, h.members, h.pending, himports, hglobs⟩
    | glob path => exact ⟨h.path, h.name, h.members, h.pending, himports, hglobs⟩
  | impl pending =>
    refine ⟨h.path, h.name, h.members, fun p hp => ?_, himports, hglobs⟩
    rcases List.mem_append.1 hp with hp | hp
    · exact h.pending p hp
    · rw [List.mem_singleton.1 hp]
      exact hf
  | node n => exact h

theorem IsNamed.addAll (h : t.IsNamed R others) {facts : List Fact}
    (hfacts : ∀ f ∈ facts, f.IsNamed R others) : (t.addAll facts).IsNamed R others := by
  induction facts generalizing t with
  | nil => exact h
  | cons f facts ih =>
    obtain ⟨hf, hrest⟩ := List.forall_mem_cons.1 hfacts
    exact ih (h.add hf) hrest

/-- Accessors are attached to a type that is there. -/
theorem IsNamed.attachOne (h : t.IsNamed R others) {impl : PendingImpl}
    (himpl : ∀ m ∈ impl.members, R.Formed m.type) : (t.attachOne impl).IsNamed R others := by
  have himports (space : ModulePath) (name : String) :
      (t.attachOne impl).importOf space name = t.importOf space name := by
    rw [importOf, importOf, modules_attachOne]
  have hglobs (space : ModulePath) : (t.attachOne impl).globsOf space = t.globsOf space := by
    rw [globsOf, globsOf, modules_attachOne]
  constructor
  · intro p entry hp
    obtain ⟨old, hold, -⟩ := exists_of_lookup_attachOne hp
    exact h.path p old hold
  · intro p entry hp
    obtain ⟨old, hold, hname, -⟩ := exists_of_lookup_attachOne hp
    rw [hname]
    exact h.name p old hold
  · intro p entry hp m hm
    obtain ⟨old, hold, -, -, hmembers⟩ := exists_of_lookup_attachOne hp
    rcases hmembers m hm with hm | hm
    · exact h.members p old hold m hm
    · exact himpl m hm
  · have hpending : (t.attachOne impl).pending = t.pending := by
      unfold SymbolTable.attachOne
      split
      · split <;> rfl
      · rfl
    rw [hpending]
    exact h.pending
  · intro space name target htarget
    rw [himports] at htarget
    exact h.imports space name target htarget
  · intro space glob hglob
    rw [hglobs] at hglob
    exact h.globs space glob hglob

theorem IsNamed.attach (h : t.IsNamed R others) : t.attach.IsNamed R others :=
  List.foldlRecOn t.pending SymbolTable.attachOne
    ⟨h.path, h.name, h.members, by simp, h.imports, h.globs⟩
    fun _ hu impl himpl => hu.attachOne (h.pending impl himpl)

end SymbolTable

/-! ### Crates -/

/-- The segments of the modules that files define. -/
def fileSegments (files : List SourceFile) : List String :=
  files.flatMap fun file => Text.segments file.space

section Crates

variable {R : LeafRule} (hR : ∀ n, R.Formed n → LeafRule.names.Formed n)
  (hread : ∀ text file, readFile text = some file → R.Formed file) {files : List SourceFile}

include hR hread

/-- The facts of a crate are named, where its files obey the rule. -/
theorem isNamed_crateFacts : ∀ f ∈ crateFacts files, f.IsNamed R (fileSegments files) := by
  intro f hf
  obtain ⟨file, hfile, hmem⟩ := List.mem_flatMap.1 hf
  cases hnode : readFile file.text with
  | none =>
    rw [hnode] at hmem
    cases hmem
  | some node =>
    rw [hnode, Option.map_some, Option.getD_some, fileFacts, List.mem_cons] at hmem
    rcases hmem with rfl | hmem
    · trivial
    · have hspace : IsNamedPath (fileSegments files) (Text.segments file.space) :=
        fun name hname => .inr (List.mem_flatMap.2 ⟨file, hfile, hname⟩)
      exact isNamed_factsOf hR (hread _ _ hnode) hspace f hmem

/-- **The table of a crate** is named, where its files obey the rule. -/
theorem isNamed_symbols {tree : SourceTree} (htree : SourceTree.ofFiles files = .ok tree) :
    tree.symbols.IsNamed R (fileSegments files) := by
  rw [symbols_of_ofFiles htree]
  exact SymbolTable.IsNamed.attach (SymbolTable.isNamed_empty.addAll (isNamed_crateFacts hR hread))

end Crates

end Scaffold.Source
