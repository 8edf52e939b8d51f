import Scaffold.Proofs.Source.Lookup
import Scaffold.Proofs.Source.Members
import Scaffold.Proofs.Source.Reading
import Scaffold.Proofs.Source.Standing
import Mathlib.Data.List.Perm.Basic

/-!
# The order of files

The files of a crate may be read in any order, as long as no two of them define the same module.
Each view of the table gathers what the facts say of one module or type.  All of these facts come
from one file, the one that defines the module, so the order of the files cannot show
(`filterMap_crateFacts_of_perm`); the tables then agree, and with them all lookups.  Only accessors
are gathered from several files, and `membersOf_eq_of_perm` says in which order.

One thing has to be excluded: what a module declaration without a body brings into scope in its own
attributes belongs to a module that another file defines (`strayModules`).
`SourceTree.ofFiles_perm_attribute` shows that the order is seen there.
-/

namespace Scaffold.Source

open Syntax

/-! ### Gathering from a list -/

/-- What is gathered from a list does not depend on its order, if no two elements give anything. -/
theorem flatMap_eq_of_perm {α β : Type} {f : α → List β} {as bs : List α} (hperm : as.Perm bs)
    (h : as.Pairwise fun a b => f a = [] ∨ f b = []) : as.flatMap f = bs.flatMap f := by
  induction hperm with
  | nil => rfl
  | cons a _ ih =>
    rw [List.flatMap_cons, List.flatMap_cons, ih (List.pairwise_cons.1 h).2]
  | swap a b as =>
    rw [List.flatMap_cons, List.flatMap_cons, List.flatMap_cons, List.flatMap_cons]
    rcases (List.pairwise_cons.1 h).1 a List.mem_cons_self with hb | ha
    · rw [hb, List.nil_append, List.nil_append]
    · rw [ha, List.nil_append, List.nil_append]
  | trans hfirst _ ih ih' =>
    have hmiddle := (hfirst.pairwise_iff fun hab => hab.symm).1 h
    rw [ih h, ih' hmiddle]

/-! ### What facts say of modules -/

/-- The module that a fact belongs to, where the order of such facts matters. -/
def Fact.space? : Fact → Option ModulePath
  | .type space _ _ _ => some space
  | .binding space _ _ => some space
  | .impl pending => some pending.scope
  | _ => none

/-- Whether a fact makes a module. -/
def Fact.opens (p : ModulePath) : Fact → Bool
  | .module_ path => (SymbolTable.withAncestors path).contains p
  | .type space _ _ _ => (SymbolTable.withAncestors space).contains p
  | .binding space _ _ => p == space
  | _ => false

namespace SymbolTable

theorem hasModule_add_eq (t : SymbolTable) (f : Fact) (p : ModulePath) :
    (t.add f).hasModule p = (t.hasModule p || f.opens p) := by
  cases f with
  | module_ path => exact hasModule_addModule ..
  | type space name kind fields => exact hasModule_addModule ..
  | binding space rooted b =>
    cases b with
    | name bound path => exact hasModule_addImport ..
    | glob path => exact hasModule_addGlob ..
  | impl pending => exact (Bool.or_false _).symm
  | node n => exact (Bool.or_false _).symm

/-- **A module is there** where some fact makes it. -/
theorem hasModule_addAll_eq (t : SymbolTable) (facts : List Fact) (p : ModulePath) :
    (t.addAll facts).hasModule p = (t.hasModule p || facts.any (·.opens p)) := by
  induction facts generalizing t with
  | nil => exact (Bool.or_false _).symm
  | cons f facts ih =>
    rw [addAll, List.foldl_cons, ← addAll, ih, hasModule_add_eq, List.any_cons, Bool.or_assoc]

end SymbolTable

/-- What a node states by itself belongs to the module in which it stands. -/
theorem space_of_mem_ownFacts {place : Place} {m : Node} {f : Fact} (hf : f ∈ ownFacts place m)
    {space : ModulePath} (hspace : f.space? = some space) : space = place.scope := by
  cases states_of_mem_ownFacts hf with
  | type => exact (Option.some.inj hspace).symm
  | binding => exact (Option.some.inj hspace).symm
  | impl himpl =>
    unfold implOf at himpl
    split at himpl
    · dsimp only at himpl
      split_ifs at himpl
      obtain rfl := Option.some.inj himpl
      exact (Option.some.inj hspace).symm
    · cases himpl
  | _ => cases hspace

/-! ### The modules that a file defines -/

/-- The module that a node opens: a module declaration with a body, outside all blocks. -/
def inlineModule? (spot : Place) (m : Node) : Option ModulePath :=
  if m.isKind .itemMod && !(m.part 5).isOp && !spot.inBlock then
    some (spot.scope ++ [(m.part 4).name])
  else none

/-- The modules that a module declaration without a body adds to, in its attributes. -/
def strayModules (spot : Place) (m : Node) : List ModulePath :=
  if m.isKind .itemMod && (m.part 5).isOp && !spot.inBlock then
    (innerFacts spot m).filterMap Fact.space?
  else []

/-- What a node states belongs to the module of the tree, or to one that is opened in the tree. -/
theorem Standing.space_cases {place spot : Place} {n m : Node} (h : Standing place n spot m)
    (hstray : ∀ spot' m', Standing place n spot' m' → strayModules spot' m' = []) {f : Fact}
    (hf : f ∈ ownFacts spot m) {space : ModulePath} (hspace : f.space? = some space) :
    space = place.scope ∨
      ∃ spot' m', Standing place n spot' m' ∧ inlineModule? spot' m' = some space := by
  induction h with
  | root => exact .inl (space_of_mem_ownFacts hf hspace)
  | @part place spot n c m hclosed hc hstands ih =>
    rcases ih (fun spot' m' h => hstray spot' m' (.part hclosed hc h)) hf with heq | ⟨spot', m', h⟩
    · -- the module of the part is that of the node, unless the node is a module itself
      unfold placeIn at heq
      split at heq
      · rename_i children
        have hblock : place.inBlock = false := hclosed
        cases hop : ((Node.node .itemMod children).part 5).isOp with
        | false =>
          refine .inr ⟨place, _, .root, ?_⟩
          have hmod : (Node.node .itemMod children).isKind .itemMod = true := rfl
          rw [inlineModule?, hmod, hop, hblock, heq]
          rfl
        | true =>
          have hnone := hstray place _ .root
          have hmod : (Node.node .itemMod children).isKind .itemMod = true := rfl
          have hinner := mem_innerFacts.2 ⟨c, hc, hstands.mem_factsOf hf⟩
          rw [strayModules, hmod, hop, hblock] at hnone
          have hnot := List.filterMap_eq_nil_iff.1 hnone f hinner
          rw [hspace] at hnot
          cases hnot
      · exact .inl heq
      · exact .inl heq
    · exact .inr ⟨spot', m', .part hclosed hc h.1, h.2⟩

namespace SourceFile

/-- The nodes that stand in a file. -/
def nodes (file : SourceFile) : List (Place × Node) :=
  match readFile file.text with
  | none => []
  | some node => standingNodes ⟨Text.segments file.space, false⟩ node

/-- The modules that a file defines: its own, and those whose bodies stand in it. -/
def definedModules (file : SourceFile) : List ModulePath :=
  Text.segments file.space :: file.nodes.filterMap fun s => inlineModule? s.1 s.2

/-- The modules that a file adds to without defining them. -/
def strayModules (file : SourceFile) : List ModulePath :=
  file.nodes.flatMap fun s => Source.strayModules s.1 s.2

theorem nodes_of_readFile {file : SourceFile} {node : Node} (h : readFile file.text = some node) :
    file.nodes = standingNodes ⟨Text.segments file.space, false⟩ node := by
  unfold nodes
  rw [h]

/-- **Every fact of a file** belongs to a module that the file defines, if nothing strays. -/
theorem space_mem_definedModules {file : SourceFile} (hstray : file.strayModules = []) {f : Fact}
    (hf : f ∈ crateFacts [file]) {space : ModulePath} (hspace : f.space? = some space) :
    space ∈ file.definedModules := by
  obtain ⟨file', hfile, hmem⟩ := List.mem_flatMap.1 hf
  obtain rfl := List.mem_singleton.1 hfile
  cases hread : readFile file'.text with
  | none =>
    rw [hread] at hmem
    cases hmem
  | some node =>
    rw [hread, Option.map_some, Option.getD_some, fileFacts, List.mem_cons] at hmem
    have hnodes := nodes_of_readFile hread
    have hne : f ≠ .module_ (Text.segments file'.space) := by
      rintro rfl
      cases hspace
    obtain ⟨spot, m, hstands, hm⟩ := mem_factsOf_iff.1 (hmem.resolve_left hne)
    have hnone : ∀ spot' m', Standing ⟨Text.segments file'.space, false⟩ node spot' m' →
        Source.strayModules spot' m' = [] := by
      intro spot' m' h
      have hmem' : (spot', m') ∈ file'.nodes := hnodes ▸ mem_standingNodes_iff.2 h
      exact List.flatMap_eq_nil_iff.1 hstray (spot', m') hmem'
    rcases hstands.space_cases hnone hm hspace with heq | ⟨spot', m', h, hmodule⟩
    · rw [heq]
      exact List.mem_cons_self
    · have hmem' : (spot', m') ∈ file'.nodes := hnodes ▸ mem_standingNodes_iff.2 h
      exact List.mem_cons_of_mem _ (List.mem_filterMap.2 ⟨(spot', m'), hmem', hmodule⟩)

end SourceFile

/-! ### Permuted files -/

theorem Fact.space?_of_boundTo? {space : ModulePath} {name : String} {f : Fact} {target : UsePath}
    (h : f.boundTo? space name = some target) : f.space? = some space := by
  cases f with
  | binding s rooted b =>
    cases b with
    | name bound path =>
      rw [boundTo?] at h
      split_ifs at h with heq
      rw [space?, heq.1]
    | glob path => cases h
  | _ => cases h

theorem Fact.space?_of_globIn? {space : ModulePath} {f : Fact} {target : UsePath}
    (h : f.globIn? space = some target) : f.space? = some space := by
  cases f with
  | binding s rooted b =>
    cases b with
    | name bound path => cases h
    | glob path =>
      rw [globIn?] at h
      split_ifs at h with heq
      rw [space?, heq]
  | _ => cases h

theorem Fact.space?_of_entryAt? {p : ModulePath} {f : Fact} {entry : TypeEntry}
    (h : f.entryAt? p = some entry) : f.space? = some p.dropLast := by
  cases f with
  | type space name kind fields =>
    rw [entryAt?] at h
    split_ifs at h with heq
    rw [space?, ← heq, List.dropLast_concat]
  | _ => cases h

theorem crateFacts_perm {files files' : List SourceFile} (hperm : files.Perm files') :
    (crateFacts files).Perm (crateFacts files') :=
  hperm.flatMap_right _

section Permuted

variable {files files' : List SourceFile} (hperm : files.Perm files')
  (hdisjoint : files.Pairwise fun a b => ∀ p ∈ a.definedModules, p ∉ b.definedModules)
  (hstray : ∀ file ∈ files, file.strayModules = [])

include hperm hdisjoint hstray

/-- **What the facts say of one module** comes from one file, so it does not depend on the order of
the files. -/
theorem filterMap_crateFacts_of_perm {β : Type} {g : Fact → Option β} {space : ModulePath}
    (hg : ∀ f b, g f = some b → f.space? = some space) :
    (crateFacts files).filterMap g = (crateFacts files').filterMap g := by
  have hdefines : ∀ file ∈ files, (crateFacts [file]).filterMap g ≠ [] →
      space ∈ file.definedModules := by
    intro file hfile hne
    obtain ⟨b, hb⟩ := List.exists_mem_of_ne_nil _ hne
    obtain ⟨f, hf, hgf⟩ := List.mem_filterMap.1 hb
    exact SourceFile.space_mem_definedModules (hstray file hfile) hf (hg f b hgf)
  have hpairs : files.Pairwise fun a b =>
      (crateFacts [a]).filterMap g = [] ∨ (crateFacts [b]).filterMap g = [] := by
    refine hdisjoint.imp_of_mem fun {a b} ha hb hab => ?_
    by_contra hboth
    rw [not_or] at hboth
    exact hab space (hdefines a ha hboth.1) (hdefines b hb hboth.2)
  rw [crateFacts_eq_flatMap files, crateFacts_eq_flatMap files', List.filterMap_flatMap,
    List.filterMap_flatMap]
  exact flatMap_eq_of_perm hperm hpairs

/-- The last fact of a kind about one module. -/
theorem findSome?_crateFacts_of_perm {β : Type} {g : Fact → Option β} {space : ModulePath}
    (hg : ∀ f b, g f = some b → f.space? = some space) :
    (crateFacts files).reverse.findSome? g = (crateFacts files').reverse.findSome? g := by
  rw [← List.getLast?_filterMap, ← List.getLast?_filterMap,
    filterMap_crateFacts_of_perm hperm hdisjoint hstray hg]

/-- **The tables agree** whatever the order of the files. -/
theorem agrees_of_perm : (tableOf (crateFacts files)).Agrees (tableOf (crateFacts files')) where
  modules p := by
    have hsame : (crateFacts files).any (·.opens p) = (crateFacts files').any (·.opens p) := by
      rw [Bool.eq_iff_iff, List.any_eq_true, List.any_eq_true]
      simp only [(crateFacts_perm hperm).mem_iff]
    rw [tableOf, tableOf, SymbolTable.hasModule_attach, SymbolTable.hasModule_attach,
      SymbolTable.hasModule_addAll_eq, SymbolTable.hasModule_addAll_eq, hsame]
  types p := by
    rw [SymbolTable.hasType, SymbolTable.hasType, lookup_tableOf, lookup_tableOf,
      Option.isSome_map, Option.isSome_map,
      findSome?_crateFacts_of_perm hperm hdisjoint hstray fun _ _ => Fact.space?_of_entryAt?]
  imports space name := by
    rw [tableOf, tableOf, SymbolTable.importOf_attach, SymbolTable.importOf_attach,
      SymbolTable.importOf_addAll, SymbolTable.importOf_addAll,
      findSome?_crateFacts_of_perm hperm hdisjoint hstray fun _ _ => Fact.space?_of_boundTo?]
  globs space := by
    rw [tableOf, tableOf, SymbolTable.globsOf_attach, SymbolTable.globsOf_attach,
      SymbolTable.globsOf_addAll, SymbolTable.globsOf_addAll,
      filterMap_crateFacts_of_perm hperm hdisjoint hstray fun _ _ => Fact.space?_of_globIn?]

/-- A declared type is the same, whatever the order of the files. -/
theorem typeInfo_of_perm :
    (tableOf (crateFacts files)).typeInfo = (tableOf (crateFacts files')).typeInfo := by
  funext p
  rw [typeInfo_tableOf, typeInfo_tableOf,
    findSome?_crateFacts_of_perm hperm hdisjoint hstray fun _ _ => Fact.space?_of_entryAt?]

/-- A type text names the same, whatever the order of the files. -/
theorem resolveType_of_perm :
    (tableOf (crateFacts files)).resolveType = (tableOf (crateFacts files')).resolveType := by
  funext text scope
  have hagrees := agrees_of_perm hperm hdisjoint hstray
  rw [SymbolTable.resolveType, SymbolTable.resolveType, hagrees.resolvePath,
    typeInfo_of_perm hperm hdisjoint hstray]

/-- **All lookups** are the same, whatever the order of the files. -/
theorem lookup_of_perm {tree tree' : SourceTree} (htree : SourceTree.ofFiles files = .ok tree)
    (htree' : SourceTree.ofFiles files' = .ok tree') : tree.lookup = tree'.lookup := by
  have hagrees := agrees_of_perm hperm hdisjoint hstray
  rw [SourceTree.lookup, SourceTree.lookup, symbols_of_ofFiles htree, symbols_of_ofFiles htree',
    resolveType_of_perm hperm hdisjoint hstray, typeInfo_of_perm hperm hdisjoint hstray,
    hagrees.resolvesReceiver]

end Permuted

/-! ### Members -/

/-- The fields that the last declaration of a type gives it. -/
def fieldsIn (facts : List Fact) (p : ModulePath) : List MemberEntry :=
  ((facts.reverse.findSome? (Fact.entryAt? p)).map (·.members)).getD []

/-- The accessors that one file gives to a type. -/
def SymbolTable.accessorsFrom (t : SymbolTable) (file : SourceFile) (p : ModulePath) :
    List MemberEntry :=
  t.accessorsOf ((crateFacts [file]).filterMap Fact.impl?) p

/-- A path names types that are in the table. -/
theorem SymbolTable.hasType_of_resolvePath {t : SymbolTable} {path : UsePath} {scope p : ModulePath}
    (h : t.resolvePath path scope = some (.type p)) : t.hasType p = true := by
  have hkeeps : t.Keeps (fun _ => True) (fun _ => True) :=
    ⟨fun _ _ => trivial, fun _ _ _ _ => trivial, fun _ _ => trivial, fun _ _ _ _ _ _ => trivial,
      fun _ _ _ _ _ => trivial⟩
  exact hkeeps.resolvePath (fun _ _ => trivial) trivial h

/-- Only types that are declared have accessors. -/
theorem accessorsIn_eq_nil {facts : List Fact} {p : ModulePath}
    (h : facts.reverse.findSome? (Fact.entryAt? p) = none) : accessorsIn facts p = [] := by
  have hnone : (tableOf facts).hasType p = false := by
    rw [SymbolTable.hasType, lookup_tableOf, h]
    rfl
  refine List.flatMap_eq_nil_iff.2 fun impl himpl => ?_
  have hnames := of_decide_eq_true (List.mem_filter.1 himpl).2
  rw [SymbolTable.hasType_of_resolvePath hnames] at hnone
  cases hnone

/-- **The members of a type:** its fields and then its accessors, as the table shows them. -/
theorem membersOf_tableOf (facts : List Fact) (p : ModulePath) :
    (tableOf facts).membersOf p =
      (fieldsIn facts p ++ accessorsIn facts p).mapM (tableOf facts).shown := by
  rw [SymbolTable.membersOf, lookup_tableOf, fieldsIn]
  cases h : facts.reverse.findSome? (Fact.entryAt? p) with
  | none =>
    rw [accessorsIn_eq_nil h]
    rfl
  | some entry => rfl

/-- The accessors of a type are those that the files give it, one after another. -/
theorem accessorsIn_crateFacts (files : List SourceFile) (p : ModulePath) :
    accessorsIn (crateFacts files) p =
      files.flatMap ((tableOf (crateFacts files)).accessorsFrom · p) := by
  rw [accessorsIn, SymbolTable.accessorsOf]
  conv_lhs => rw [crateFacts_eq_flatMap files, List.filterMap_flatMap, List.filter_flatMap,
    List.flatMap_assoc]
  rw [← crateFacts_eq_flatMap]
  rfl

theorem kind_of_mem_fieldsIn {files : List SourceFile} {p : ModulePath} {m : MemberEntry}
    (h : m ∈ fieldsIn (crateFacts files) p) : m.kind = .field := by
  rw [fieldsIn] at h
  cases hfind : (crateFacts files).reverse.findSome? (Fact.entryAt? p) with
  | none =>
    rw [hfind] at h
    cases h
  | some entry =>
    obtain ⟨f, hf, hentry⟩ := List.exists_of_findSome?_eq_some hfind
    have hkinds := hasKinds_crateFacts files f (List.mem_reverse.1 hf)
    rw [hfind] at h
    cases f with
    | type space name kind fields =>
      rw [Fact.entryAt?] at hentry
      split_ifs at hentry
      obtain rfl := Option.some.inj hentry
      exact hkinds m h
    | _ => cases hentry

namespace SourceTree

/-- **The order of files does not matter** where they define different modules, and none adds to a
module that it does not define.  Reading them succeeds in every order or in none; each file gives the
same nodes; and all lookups give the same answers.  The members of a type are the same fields,
followed by the accessors that each file gives it, in the order of the files. -/
theorem ofFiles_of_perm {files files' : List SourceFile} (hperm : files.Perm files')
    (hdisjoint : files.Pairwise fun a b => ∀ p ∈ a.definedModules, p ∉ b.definedModules)
    (hstray : ∀ file ∈ files, file.strayModules = []) :
    ((∃ tree, ofFiles files = .ok tree) ↔ ∃ tree', ofFiles files' = .ok tree') ∧
    ∀ tree tree', ofFiles files = .ok tree → ofFiles files' = .ok tree' →
      tree.corpus.units.map (fun unit => (unit.origin, unit.nodes)) =
        files.map (fun file => (file.origin, fileNodes file)) ∧
      tree'.corpus.units.map (fun unit => (unit.origin, unit.nodes)) =
        files'.map (fun file => (file.origin, fileNodes file)) ∧
      tree.symbols.resolvePath = tree'.symbols.resolvePath ∧
      tree.lookup = tree'.lookup ∧
      ∀ path, ∃ fields : List MemberEntry, (∀ m ∈ fields, m.kind = .field) ∧
        (∀ file ∈ files, ∀ m ∈ tree.symbols.accessorsFrom file path, m.kind ≠ .field) ∧
        tree.symbols.membersOf path =
          (fields ++ files.flatMap (tree.symbols.accessorsFrom · path)).mapM tree.symbols.shown ∧
        tree'.symbols.membersOf path =
          (fields ++ files'.flatMap (tree.symbols.accessorsFrom · path)).mapM tree.symbols.shown := by
  have hagrees := agrees_of_perm hperm hdisjoint hstray
  refine ⟨?_, fun tree tree' htree htree' => ⟨units_ofFiles htree, units_ofFiles htree', ?_,
    lookup_of_perm hperm hdisjoint hstray htree htree', fun path => ?_⟩⟩
  · rw [exists_ofFiles_iff, exists_ofFiles_iff]
    simp only [hperm.mem_iff]
  · rw [symbols_of_ofFiles htree, symbols_of_ofFiles htree', hagrees.resolvePath]
  rw [symbols_of_ofFiles htree, symbols_of_ofFiles htree']
  have hfields : fieldsIn (crateFacts files) path = fieldsIn (crateFacts files') path := by
    rw [fieldsIn, fieldsIn,
      findSome?_crateFacts_of_perm hperm hdisjoint hstray fun _ _ => Fact.space?_of_entryAt?]
  have hshown : (tableOf (crateFacts files')).shown = (tableOf (crateFacts files)).shown := by
    funext m
    rw [SymbolTable.shown, SymbolTable.shown, hagrees.typeText]
  have hfrom : (tableOf (crateFacts files')).accessorsFrom =
      (tableOf (crateFacts files)).accessorsFrom := by
    funext file p
    rw [SymbolTable.accessorsFrom, SymbolTable.accessorsFrom, hagrees.accessorsOf]
  refine ⟨fieldsIn (crateFacts files) path, fun m hm => kind_of_mem_fieldsIn hm, ?_, ?_, ?_⟩
  · intro file hfile m hm
    have hmem : m ∈ accessorsIn (crateFacts files) path := by
      rw [accessorsIn_crateFacts]
      exact List.mem_flatMap.2 ⟨file, hfile, hm⟩
    exact kind_of_mem_accessorsIn hmem
  · rw [membersOf_tableOf, accessorsIn_crateFacts]
  · rw [membersOf_tableOf, accessorsIn_crateFacts, ← hfields, hshown, hfrom]

/-- A crate of three files, two of which give accessors to the type of the third. -/
def pagedCrate : List SourceFile :=
  [⟨"crate", "lib.rs",
      "mod page; mod edit; impl page::Page \x7b fn n(&self) -> u8 \x7b 0 \x7d \x7d"⟩,
    ⟨"crate::page", "page.rs", "pub struct Page \x7b pub n: u8 \x7d"⟩,
    ⟨"crate::edit", "edit.rs",
      "use super::page::*; impl Page \x7b fn set_n(&mut self, n: u8) \x7b \x7d \x7d"⟩]

theorem ofFiles_of_perm_paged :
    ∃ tree tree', ofFiles pagedCrate = .ok tree ∧ ofFiles pagedCrate.reverse = .ok tree' ∧
      tree.lookup = tree'.lookup := by
  have hread : (ofFiles pagedCrate).toOption.isSome = true := by decide +kernel
  have hdisjoint : pagedCrate.Pairwise fun a b => ∀ p ∈ a.definedModules, p ∉ b.definedModules := by
    decide +kernel
  have hstray : ∀ file ∈ pagedCrate, file.strayModules = [] := by decide +kernel
  obtain ⟨hboth, hall⟩ := ofFiles_of_perm pagedCrate.reverse_perm.symm hdisjoint hstray
  cases htree : ofFiles pagedCrate with
  | error origin =>
    rw [htree] at hread
    cases hread
  | ok tree =>
    obtain ⟨tree', htree'⟩ := hboth.1 ⟨tree, htree⟩
    obtain ⟨-, -, -, hlookup, -⟩ := hall tree tree' htree htree'
    exact ⟨tree, tree', rfl, htree', hlookup⟩

/-- A file that imports a name. -/
def importingFile : SourceFile := ⟨"crate::a", "a.rs", "use crate::X as Q;"⟩

/-- A file that imports the same name in an attribute of the declaration of that module. -/
def attributeFile : SourceFile :=
  ⟨"crate", "lib.rs", "pub struct X; pub struct Y; #[note = \x7b use crate::Y as Q; 0 \x7d] mod a;"⟩

/-- **Where the order is seen:** the two files define different modules, but what the name means in
one of them depends on which file is read last. -/
theorem ofFiles_perm_attribute :
    (∀ p ∈ importingFile.definedModules, p ∉ attributeFile.definedModules) ∧
      attributeFile.strayModules = [["crate", "a"]] ∧
      (ofFiles [attributeFile, importingFile]).toOption.bind (fun tree =>
        (tree.lookup.resolveType ⟨"Q", "crate::a"⟩).map (·.path)) = some "crate::X" ∧
      (ofFiles [importingFile, attributeFile]).toOption.bind (fun tree =>
        (tree.lookup.resolveType ⟨"Q", "crate::a"⟩).map (·.path)) = some "crate::Y" := by
  decide +kernel

end SourceTree

end Scaffold.Source
