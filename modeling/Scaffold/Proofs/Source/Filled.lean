import Scaffold.Proofs.Source.Facts
import Scaffold.Proofs.Source.Lookup
import Mathlib.Data.List.Induction

/-!
# Tables in which nothing dangles

A symbol table refers to modules and types by their paths.  `SymbolTable.Filled` says how a table is
filled: modules and types lie in the crate, use declarations belong to modules that are there, and
accessors may be attached at any time.  Every such table is closed (`Filled.isClosed`), one addition
after another: the module around a module is there, and a type stands under its own name in a module
that is there.  So whatever a path resolves to is there as well (`Filled.nothing_dangles`).

The table of a crate is filled in this way (`filled_ofFiles`): a file states its modules before what
stands in them.
-/

namespace Scaffold.Source

open Syntax

namespace SymbolTable

/-- A table as it is filled. -/
inductive Filled : SymbolTable → Prop
  | empty : Filled {}
  | addModule {t : SymbolTable} {path : ModulePath} (ht : Filled t)
      (hpath : isCratePath path = true) : Filled (t.addModule path)
  | addType {t : SymbolTable} {space : ModulePath} (ht : Filled t)
      (hspace : isCratePath space = true) (name : String) (kind : TypeKind)
      (members : List MemberEntry) : Filled (t.addType space name kind members)
  | addImport {t : SymbolTable} {space : ModulePath} (ht : Filled t)
      (hspace : t.hasModule space = true) (bound : String) (path : UsePath) :
      Filled (t.addImport space bound path)
  | addGlob {t : SymbolTable} {space : ModulePath} (ht : Filled t)
      (hspace : t.hasModule space = true) (path : UsePath) : Filled (t.addGlob space path)
  | addImpl {t : SymbolTable} (ht : Filled t) (impl : PendingImpl) : Filled (t.addImpl impl)
  | attach {t : SymbolTable} (ht : Filled t) : Filled t.attach

/-- A table whose paths lead to what is there. -/
structure IsClosed (t : SymbolTable) : Prop where
  /-- Every module lies in the crate. -/
  inCrate : ∀ p, t.hasModule p = true → isCratePath p = true
  /-- The module around a module is there. -/
  parent : ∀ p q, t.hasModule p = true → parent? p = some q → t.hasModule q = true
  /-- A type stands under its own name. -/
  key : ∀ p entry, t.types.lookup p = some entry → p = entry.space ++ [entry.name]
  /-- The module of a type is there. -/
  space : ∀ p entry, t.types.lookup p = some entry → t.hasModule entry.space = true

/-! ### Additions -/

/-- The ancestors of a path from the crate are its beginnings. -/
theorem mem_withAncestors_of_isCratePath {path : ModulePath} (hpath : isCratePath path = true)
    {p : ModulePath} : p ∈ withAncestors path ↔ ∃ i < path.length, p = path.take (i + 1) := by
  obtain ⟨⟨names, rfl⟩, hcolon⟩ := exists_of_isCratePath hpath
  exact mem_withAncestors_iff (by simp) hcolon (List.cons_ne_nil _ _)

/-- The module around a beginning of a path is a beginning of it, too. -/
theorem mem_withAncestors_of_parent? {path p q : ModulePath} (hpath : isCratePath path = true)
    (hp : p ∈ withAncestors path) (hq : parent? p = some q) : q ∈ withAncestors path := by
  obtain ⟨i, hi, rfl⟩ := (mem_withAncestors_of_isCratePath hpath).1 hp
  unfold parent? at hq
  split_ifs at hq with hlength
  obtain rfl := Option.some.inj hq
  rw [List.length_take] at hlength
  refine (mem_withAncestors_of_isCratePath hpath).2 ⟨i - 1, by omega, ?_⟩
  rw [List.dropLast_eq_take, List.take_take, List.length_take]
  congr 1
  omega

/-- A module is there once it is registered. -/
theorem hasModule_addModule_self {t : SymbolTable} {path : ModulePath}
    (hpath : isCratePath path = true) : (t.addModule path).hasModule path = true := by
  obtain ⟨⟨names, rfl⟩, -⟩ := exists_of_isCratePath hpath
  have hmem : "crate" :: names ∈ withAncestors ("crate" :: names) := by
    refine (mem_withAncestors_of_isCratePath hpath).2 ⟨names.length, by simp, ?_⟩
    rw [List.take_of_length_le (by simp)]
  rw [hasModule_addModule, List.contains_iff_mem.2 hmem, Bool.or_true]

namespace IsClosed

variable {t : SymbolTable}

/-- A registered module has all its ancestors with it. -/
theorem addModule (ht : t.IsClosed) {path : ModulePath} (hpath : isCratePath path = true) :
    (t.addModule path).IsClosed := by
  have hmodule (p : ModulePath) : (t.addModule path).hasModule p = true ↔
      t.hasModule p = true ∨ p ∈ withAncestors path := by
    rw [hasModule_addModule, Bool.or_eq_true, List.contains_iff_mem]
  constructor
  · intro p hp
    rcases (hmodule p).1 hp with hold | hnew
    · exact ht.inCrate p hold
    · obtain ⟨i, -, rfl⟩ := (mem_withAncestors_of_isCratePath hpath).1 hnew
      exact isCratePath_take hpath i
  · intro p q hp hq
    rcases (hmodule p).1 hp with hold | hnew
    · exact (hmodule q).2 (.inl (ht.parent p q hold hq))
    · exact (hmodule q).2 (.inr (mem_withAncestors_of_parent? hpath hnew hq))
  · exact ht.key
  · exact fun p entry hentry => (hmodule entry.space).2 (.inl (ht.space p entry hentry))

theorem addType (ht : t.IsClosed) {space : ModulePath} (hspace : isCratePath space = true)
    (name : String) (kind : TypeKind) (members : List MemberEntry) :
    (t.addType space name kind members).IsClosed := by
  have hclosed := ht.addModule hspace
  have hlookup (p : ModulePath) : (t.addType space name kind members).types.lookup p =
      if p == space ++ [name] then some ⟨name, space, kind, members⟩ else t.types.lookup p :=
    lookup_setKey ..
  -- the module of the new type has just been registered
  have hnew : (t.addModule space).hasModule space = true := hasModule_addModule_self hspace
  refine ⟨hclosed.inCrate, hclosed.parent, fun p entry hentry => ?_, fun p entry hentry => ?_⟩
  · rw [hlookup] at hentry
    split_ifs at hentry with hp
    · obtain rfl := Option.some.inj hentry
      exact eq_of_beq hp
    · exact ht.key p entry hentry
  · rw [hlookup] at hentry
    split_ifs at hentry with hp
    · obtain rfl := Option.some.inj hentry
      exact hnew
    · exact hclosed.space p entry hentry

/-- Where neither modules nor types change. -/
theorem of_same {u : SymbolTable} (ht : t.IsClosed) (hmodule : ∀ p, u.hasModule p = t.hasModule p)
    (htypes : ∀ p entry, u.types.lookup p = some entry → ∃ old, t.types.lookup p = some old ∧
      entry.name = old.name ∧ entry.space = old.space) : u.IsClosed := by
  refine ⟨fun p hp => ?_, fun p q hp hq => ?_, fun p entry hentry => ?_, fun p entry hentry => ?_⟩
  · exact ht.inCrate p (hmodule p ▸ hp)
  · rw [hmodule] at hp ⊢
    exact ht.parent p q hp hq
  · obtain ⟨old, hold, hname, hspace⟩ := htypes p entry hentry
    rw [hname, hspace]
    exact ht.key p old hold
  · obtain ⟨old, hold, -, hspace⟩ := htypes p entry hentry
    rw [hmodule, hspace]
    exact ht.space p old hold

/-- What is brought into the scope of a module that is there adds no module. -/
theorem of_hasModule_or {u : SymbolTable} (ht : t.IsClosed) {space : ModulePath}
    (hspace : t.hasModule space = true)
    (hmodule : ∀ p, u.hasModule p = (t.hasModule p || p == space)) (htypes : u.types = t.types) :
    u.IsClosed := by
  refine ht.of_same (fun p => ?_) fun p entry hentry => ⟨entry, htypes ▸ hentry, rfl, rfl⟩
  rw [hmodule]
  by_cases hp : p = space
  · rw [hp, hspace, Bool.true_or]
  · rw [beq_false_of_ne hp, Bool.or_false]

theorem attach (ht : t.IsClosed) : t.attach.IsClosed := by
  refine List.foldlRecOn t.pending attachOne ⟨ht.inCrate, ht.parent, ht.key, ht.space⟩
    fun u hu impl _ => ?_
  refine hu.of_same (fun p => ?_) fun p entry hentry => ?_
  · rw [hasModule, modules_attachOne, ← hasModule]
  · obtain ⟨old, hold, hname, hspace, -⟩ := exists_of_lookup_attachOne hentry
    exact ⟨old, hold, hname, hspace⟩

/-- Where there is any module, there is the crate. -/
theorem hasModule_crate (ht : t.IsClosed) {p : ModulePath} (hp : t.hasModule p = true) :
    t.hasModule ["crate"] = true := by
  obtain ⟨⟨rest, rfl⟩, -⟩ := exists_of_isCratePath (ht.inCrate p hp)
  induction rest using List.reverseRecOn with
  | nil => exact hp
  | append_singleton rest name ih =>
    refine ih (ht.parent _ _ hp ?_)
    rw [parent?, if_neg (by simp), ← List.cons_append, List.dropLast_concat]

/-- Lookups in a closed table stay among its modules. -/
theorem keeps (ht : t.IsClosed) : t.Keeps (t.hasModule · = true) (fun _ => True) where
  crate _ hscope := ht.hasModule_crate hscope
  parent := ht.parent
  module_ _ hp := hp
  imports _ _ _ _ _ _ := trivial
  globs _ _ _ _ _ := trivial

end IsClosed

/-! ### Filled tables -/

/-- **Every filled table is closed,** since every addition keeps it so. -/
theorem Filled.isClosed {t : SymbolTable} (ht : t.Filled) : t.IsClosed := by
  induction ht with
  | empty =>
    have hmodule (p : ModulePath) : ({} : SymbolTable).hasModule p ≠ true := by simp [hasModule]
    have htype (p : ModulePath) (entry : TypeEntry) :
        ({} : SymbolTable).types.lookup p ≠ some entry := by simp
    exact ⟨fun p hp => absurd hp (hmodule p), fun p _ hp => absurd hp (hmodule p),
      fun p entry h => absurd h (htype p entry), fun p entry h => absurd h (htype p entry)⟩
  | addModule _ hpath ih => exact ih.addModule hpath
  | addType _ hspace name kind members ih => exact ih.addType hspace name kind members
  | addImport _ hspace bound path ih =>
    exact ih.of_hasModule_or hspace (hasModule_addImport _ _ _ _) rfl
  | addGlob _ hspace path ih => exact ih.of_hasModule_or hspace (hasModule_addGlob _ _ _) rfl
  | addImpl _ impl ih => exact ⟨ih.inCrate, ih.parent, ih.key, ih.space⟩
  | attach _ ih => exact ih.attach

/-- A type that is there has its information. -/
theorem exists_typeInfo {t : SymbolTable} {p : ModulePath} (h : t.hasType p = true) :
    ∃ info, t.typeInfo p = some info ∧ info.path = Text.ofSegments p := by
  obtain ⟨entry, hentry⟩ := Option.isSome_iff_exists.1 h
  exact ⟨_, congrArg (Option.map _) hentry, rfl⟩

/-- **Nothing dangles in a table,** however it has been filled: with a module there is the one around
it, a type stands under its name in a module that is there, and what a path resolves to, seen from
any module of the table, is there. -/
theorem Filled.nothing_dangles {t : SymbolTable} (ht : t.Filled) :
    (∀ p q, t.hasModule p = true → parent? p = some q → t.hasModule q = true) ∧
    (∀ p entry, t.types.lookup p = some entry →
      p = entry.space ++ [entry.name] ∧ t.hasModule entry.space = true) ∧
    ∀ path scope, t.hasModule scope = true →
      (∀ p, t.resolvePath path scope = some (.type p) →
        ∃ info, t.typeInfo p = some info ∧ info.path = Text.ofSegments p) ∧
      ∀ p, t.resolvePath path scope = some (.module_ p) → t.hasModule p = true := by
  have hclosed := ht.isClosed
  refine ⟨hclosed.parent, fun p entry h => ⟨hclosed.key p entry h, hclosed.space p entry h⟩, ?_⟩
  intro path scope hscope
  have hwithin (r : Resolution) (hr : t.resolvePath path scope = some r) :=
    hclosed.keeps.resolvePath (fun _ _ => trivial) hscope hr
  constructor
  · intro p hp
    exact exists_typeInfo (hwithin (.type p) hp)
  · intro p hp
    exact hwithin (.module_ p) hp

end SymbolTable

/-! ### The table of a crate -/

/-- Whether a fact may be added where the module `scope` is there: it registers a module of the crate,
or belongs to that module. -/
def Fact.IsAt (scope : ModulePath) : Fact → Prop
  | .module_ path => isCratePath path = true
  | .type space _ _ _ => space = scope
  | .binding space _ _ => space = scope
  | _ => True

namespace SymbolTable.Filled

variable {t : SymbolTable} {scope : ModulePath}

theorem add (ht : t.Filled) (hscope : t.hasModule scope = true) {f : Fact} (hf : f.IsAt scope) :
    (t.add f).Filled := by
  cases f with
  | module_ path => exact ht.addModule hf
  | type space name kind fields =>
    obtain rfl : space = scope := hf
    exact ht.addType (ht.isClosed.inCrate space hscope) name kind fields
  | binding space rooted b =>
    obtain rfl : space = scope := hf
    cases b with
    | name bound path => exact ht.addImport hscope bound ⟨path, rooted⟩
    | glob path => exact ht.addGlob hscope ⟨path, rooted⟩
  | impl impl => exact ht.addImpl impl
  | node n => exact ht

theorem addAll (ht : t.Filled) (hscope : t.hasModule scope = true) {facts : List Fact}
    (hfacts : ∀ f ∈ facts, f.IsAt scope) : (t.addAll facts).Filled := by
  induction facts generalizing t with
  | nil => exact ht
  | cons f facts ih =>
    obtain ⟨hf, hrest⟩ := List.forall_mem_cons.1 hfacts
    exact ih (ht.add hscope hf) (hasModule_add hscope f) hrest

end SymbolTable.Filled

/-- The facts that a node states by itself belong to the module in which it stands. -/
theorem isAt_ownFacts {place : Place} (hplace : isCratePath place.scope = true) {n : Node}
    (hn : LeafRule.names.Formed n) : ∀ f ∈ ownFacts place n, f.IsAt place.scope := by
  intro f hf
  cases states_of_mem_ownFacts hf with
  | module_ hmod =>
    rw [Node.eq_of_isKind hmod] at hn ⊢
    exact isCratePath_append hplace (isName_of_itemMod hn)
  | type => rfl
  | binding => rfl
  | _ => trivial

/-- The module in which the parts of a node stand is there once the node has stated its facts. -/
theorem hasModule_placeIn {t : SymbolTable} {place : Place} (hplace : t.hasModule place.scope = true)
    (hpath : isCratePath place.scope = true) {n : Node} (hn : LeafRule.names.Formed n)
    (hopen : isClosed place n = false) :
    (t.addAll (ownFacts place n)).hasModule (placeIn place n).scope = true := by
  unfold placeIn
  split
  · rename_i children
    have hblock : place.inBlock = false := hopen
    rw [ownFacts, hblock]
    exact SymbolTable.hasModule_addModule_self (isCratePath_append hpath (isName_of_itemMod hn))
  · exact SymbolTable.hasModule_addAll hplace _
  · exact SymbolTable.hasModule_addAll hplace _

/-- Whether facts fill a table in which the module `scope` is there. -/
def Fills (scope : ModulePath) (facts : List Fact) : Prop :=
  ∀ t : SymbolTable, t.Filled → t.hasModule scope = true → (t.addAll facts).Filled

namespace Fills

variable {scope : ModulePath}

theorem nil : Fills scope [] := fun _ ht _ => ht

theorem append {facts rest : List Fact} (hfacts : Fills scope facts) (hrest : Fills scope rest) :
    Fills scope (facts ++ rest) := by
  intro t ht hscope
  rw [SymbolTable.addAll_append]
  exact hrest _ (hfacts t ht hscope) (SymbolTable.hasModule_addAll hscope _)

theorem flatMap {α : Type} {facts : α → List Fact} {as : List α}
    (h : ∀ a ∈ as, Fills scope (facts a)) : Fills scope (as.flatMap facts) := by
  induction as with
  | nil => exact nil
  | cons a as ih =>
    obtain ⟨ha, has⟩ := List.forall_mem_cons.1 h
    exact ha.append (ih has)

end Fills

/-- Whether what a part states fills a table, and what it states at the beginning of a body already
does so by itself. -/
structure PartFacts.Fills (scope : ModulePath) (p : PartFacts) : Prop where
  opening : Source.Fills scope p.opening
  rest : Source.Fills scope p.rest

namespace PartFacts.Fills

variable {scope : ModulePath}

theorem all {p : PartFacts} (hp : p.Fills scope) : Source.Fills scope p.all :=
  hp.opening.append hp.rest

theorem flatMap_all {parts : List PartFacts} (hparts : ∀ p ∈ parts, p.Fills scope) :
    Source.Fills scope (parts.flatMap (·.all)) :=
  .flatMap fun p hp => (hparts p hp).all

/-- Parts may be read in any order. -/
theorem inReadingOrder {kind : Kind} {parts : List PartFacts}
    (hparts : ∀ p ∈ parts, p.Fills scope) :
    Source.Fills scope (inReadingOrder kind parts) := by
  have hread : ∀ p ∈ readingOrder kind parts, p.Fills scope := fun p hp =>
    hparts p ((readingOrder_perm kind parts).mem_iff.1 hp)
  have hlater : ∀ p ∈ (readingOrder kind parts).drop 1, p.Fills scope := fun p hp =>
    hread p (List.mem_of_mem_drop hp)
  unfold Source.inReadingOrder
  dsimp only
  split_ifs
  · refine .append (.append (flatMap_all fun p hp => hread p (List.mem_of_mem_take hp)) ?_) ?_
    · exact .flatMap fun p hp => (hlater p hp).opening
    · exact .flatMap fun p hp => (hlater p hp).rest
  · exact flatMap_all hread

end PartFacts.Fills

/-- What a node other than a block states fills a table where its parts do. -/
theorem fills_readFacts_node {kind : Kind} (hkind : kind ≠ .block) {children : List Node}
    (hn : LeafRule.names.Formed (.node kind children))
    (hchildren : ∀ c ∈ children, ∀ place : Place, (readFacts place c).Fills place.scope)
    (place : Place) : (readFacts place (.node kind children)).Fills place.scope := by
  have hopening := opening_readFacts hkind place children
  have hrest : (readFacts place (.node kind children)).rest =
      factsOf place (.node kind children) := by
    rw [factsOf, PartFacts.all, hopening, List.nil_append]
  refine ⟨hopening ▸ .nil, fun t ht hscope => ?_⟩
  have hpath := ht.isClosed.inCrate place.scope hscope
  have hown := ht.addAll hscope (isAt_ownFacts hpath hn)
  rw [hrest, factsOf_eq, SymbolTable.addAll_append]
  cases hopen : isClosed place (.node kind children) with
  | true => exact hown
  | false =>
    refine PartFacts.Fills.inReadingOrder (fun p hp => ?_) _ hown
      (hasModule_placeIn hscope hpath hn hopen)
    obtain ⟨c, hc, rfl⟩ := List.mem_map.1 hp
    exact hchildren c hc _

/-- **The facts of a tree** fill a table in which the module of the tree is there. -/
theorem fills_readFacts {n : Node} (hn : LeafRule.names.Formed n) (place : Place) :
    (readFacts place n).Fills place.scope := by
  have hparts {children : List Node} {place : Place}
      (ih : ∀ c ∈ children, (readFacts place c).Fills place.scope) :
      ∀ p ∈ partFacts place children, p.Fills place.scope := by
    rw [partFacts_eq_map]
    exact List.forall_mem_map.2 ih
  induction hn generalizing place with
  | group h ih =>
    have hfills := hparts fun c hc => ih c hc place
    rw [readFacts]
    split_ifs
    · exact ⟨PartFacts.Fills.flatMap_all fun p hp => hfills p (List.mem_of_mem_take hp),
        PartFacts.Fills.flatMap_all fun p hp => hfills p (List.mem_of_mem_drop hp)⟩
    · exact ⟨.nil, PartFacts.Fills.flatMap_all hfills⟩
  | @node kind children hshape h ih =>
    by_cases hkind : kind = .block
    · subst hkind
      have hfills := hparts fun c hc => ih c hc { place with inBlock := true }
      rw [readFacts]
      split
      · rename_i body hbody
        have hbody := hfills body (hbody ▸ List.mem_singleton_self body)
        exact ⟨hbody.opening, hbody.rest⟩
      · exact ⟨.nil, PartFacts.Fills.flatMap_all hfills⟩
    · exact fills_readFacts_node hkind (.node hshape h) ih place
  | _ => exact ⟨.nil, .nil⟩

/-- **The table of a crate** is filled, where the files define modules of the crate. -/
theorem filled_ofFiles {files : List SourceFile} {tree : SourceTree}
    (htree : SourceTree.ofFiles files = .ok tree)
    (hfiles : ∀ file ∈ files, isCratePath (Text.segments file.space) = true) :
    tree.symbols.Filled := by
  have run (files : List SourceFile)
      (hfiles : ∀ file ∈ files, isCratePath (Text.segments file.space) = true)
      (t : SymbolTable) (ht : t.Filled) : (t.addAll (crateFacts files)).Filled := by
    induction files generalizing t with
    | nil => exact ht
    | cons file files ih =>
      obtain ⟨hfile, hrest⟩ := List.forall_mem_cons.1 hfiles
      rw [crateFacts, List.flatMap_cons, SymbolTable.addAll_append]
      refine ih hrest _ ?_
      cases hread : readFile file.text with
      | none => exact ht
      | some node =>
        have hmodule : (t.addModule (Text.segments file.space)).hasModule
            (Text.segments file.space) = true := SymbolTable.hasModule_addModule_self hfile
        exact (fills_readFacts (formed_readFile hread) ⟨_, false⟩).all _ (ht.addModule hfile) hmodule
  rw [symbols_of_ofFiles htree]
  exact (run files hfiles {} .empty).attach

/-- A crate that exports a type of a module under another name. -/
def exportingCrate : List SourceFile :=
  [⟨"crate", "lib.rs", "mod api; pub use api::Thing as Item; use api::*;"⟩,
    ⟨"crate::api", "api.rs", "pub struct Thing; impl Thing \x7b fn id(&self) -> u8 \x7b 0 \x7d \x7d"⟩]

theorem nothing_dangles_exported :
    ∃ tree, SourceTree.ofFiles exportingCrate = .ok tree ∧ tree.symbols.Filled ∧
      tree.symbols.hasModule ["crate", "api"] = true ∧
      tree.symbols.resolvePath ⟨["super", "Item"], false⟩ ["crate", "api"] =
        some (.type ["crate", "api", "Thing"]) ∧
      ∃ info, tree.symbols.typeInfo ["crate", "api", "Thing"] = some info ∧
        info.path = "crate::api::Thing" := by
  have hfacts : (SourceTree.ofFiles exportingCrate).toOption.map (fun tree =>
      decide (tree.symbols.hasModule ["crate", "api"] = true) &&
        decide (tree.symbols.resolvePath ⟨["super", "Item"], false⟩ ["crate", "api"] =
          some (.type ["crate", "api", "Thing"]))) = some true := by
    decide +kernel
  cases htree : SourceTree.ofFiles exportingCrate with
  | error origin => rw [htree] at hfacts; cases hfacts
  | ok tree =>
    rw [htree] at hfacts
    obtain ⟨hscope, hpath⟩ := Bool.and_eq_true_iff.1 (Option.some.inj hfacts)
    have hscope := of_decide_eq_true hscope
    have hpath := of_decide_eq_true hpath
    have hfilled : tree.symbols.Filled := filled_ofFiles htree (by decide +kernel)
    obtain ⟨-, -, hresolve⟩ := SymbolTable.Filled.nothing_dangles hfilled
    obtain ⟨info, hinfo, htext⟩ := (hresolve _ _ hscope).1 _ hpath
    exact ⟨tree, rfl, hfilled, hscope, hpath, info, hinfo, htext⟩

end Scaffold.Source
