import Mathlib.Data.List.TakeWhile
import Scaffold.Handler.Check
import Scaffold.Proofs.Failure
import Scaffold.Proofs.Source.Handlers
import Scaffold.Proofs.Source.Occurrence

/-!
# Declarations in the corpus, in the table and under the mark

A struct or an enumeration is declared where it stands outside of all blocks.  Such an item stands
in nothing but modules (`Items.holdsItems`), so the order of reading does not move it, and what is
selected of the facts of types comes from the declaring occurrences of a tree in the order of the
text (`filterMap_factsOf_types`).  The nodes of the corpus and the entries of the table are both
selected so.  Hence they agree (`SourceTree.declarations_agree`): each item has one node, each node
an entry of its name and module, and no handler is left out because its declaration is not known.
-/

namespace Scaffold

/-- The declaration that a node is. -/
def CorpusNode.declaration? : CorpusNode → Option Declaration
  | .declaration d => some d
  | .call _ => none

/-- The declarations of a unit. -/
def SourceUnit.declarations (unit : SourceUnit) : List Declaration :=
  unit.nodes.filterMap CorpusNode.declaration?

theorem SourceUnit.mem_declarations {unit : SourceUnit} {d : Declaration} :
    d ∈ unit.declarations ↔ .declaration d ∈ unit.nodes := by
  rw [declarations, List.mem_filterMap]
  constructor
  · rintro ⟨n, hn, heq⟩
    cases n with
    | declaration d' =>
      obtain rfl := Option.some.inj heq
      exact hn
    | call c => cases heq
  · exact fun h => ⟨_, h, rfl⟩

namespace Syntax

/-! ### Where types are declared -/

/-- Whether a node declares a type outside of all blocks. -/
def Occurrence.declares (o : Occurrence) : Bool := o.node.isType && !o.inBlock

/-- Whether items stand in a node for the node itself: in files, in modules and in lists. -/
def Node.holdsItems : Node → Bool
  | .group _ _ => true
  | .node .itemMod _ => true
  | .node .list _ => true
  | .node .file _ => true
  | _ => false

theorem Occurrence.declares_within (o : Occurrence) (n : Node) :
    (o.within n).declares = (o.declares && !n.isKind .block) := by
  have hnode : (o.within n).node = o.node := rfl
  rw [declares, declares, inBlock_within, hnode, Bool.not_or, Bool.and_assoc, Bool.and_comm (!_)]

variable {R : LeafRule} {n : Node}

/-- **Local items declare nothing:** they stand in blocks. -/
theorem LeafRule.Local.declares_eq_false (h : R.Local n) :
    ∀ o ∈ n.occurrences, o.declares = false := by
  have hpart {n c : Node} {o : Occurrence} (ho : o ∈ c.occurrences)
      (ih : ∀ o ∈ c.occurrences, o.declares = false) : (o.within n).declares = false := by
    rw [Occurrence.declares_within, ih o ho, Bool.false_and]
  induction h with
  | group _ ih => exact Node.forall_mem_occurrences.2 ⟨rfl, fun c hc o ho => hpart ho (ih c hc)⟩
  | @node kind children hshape _ ih =>
    refine Node.forall_mem_occurrences.2 ⟨?_, fun c hc o ho => hpart ho (ih c hc)⟩
    -- the shapes of local parts leave structs and enumerations out
    have hstruct : kind ≠ .itemStruct := fun heq => by rw [heq] at hshape; exact hshape
    have henum : kind ≠ .itemEnum := fun heq => by rw [heq] at hshape; exact hshape
    simp [Occurrence.declares, Node.isType, Node.isKind, hstruct, henum]
  | block =>
    -- the parts need not be local, but they stand in the block
    refine Node.forall_mem_occurrences.2 ⟨rfl, fun c _ o _ => ?_⟩
    rw [Occurrence.declares_within, Node.isKind, decide_eq_true rfl, Bool.not_true, Bool.and_false]
  | _ => exact Node.forall_mem_occurrences.2 ⟨rfl, by simp [Node.children]⟩

/-- **A type is declared in modules only:** nothing else stands around it. -/
theorem LeafRule.Items.holdsItems (h : R.Items n) :
    ∀ o ∈ n.occurrences, o.declares = true → ∀ a ∈ o.around, a.holdsItems = true := by
  have hpart {n c : Node} {o : Occurrence} (ho : o ∈ c.occurrences)
      (ih : ∀ o ∈ c.occurrences, o.declares = true → ∀ a ∈ o.around, a.holdsItems = true)
      (hn : n.holdsItems = true) (hdeclares : (o.within n).declares = true) :
      ∀ a ∈ (o.within n).around, a.holdsItems = true := by
    rw [Occurrence.declares_within, Bool.and_eq_true] at hdeclares
    exact List.forall_mem_cons.2 ⟨hn, ih o ho hdeclares.1⟩
  induction h with
  | isLocal h =>
    intro o ho hdeclares
    rw [h.declares_eq_false o ho] at hdeclares
    cases hdeclares
  | type _ _ h =>
    refine Node.forall_mem_occurrences.2 ⟨by simp, fun c hc o ho hdeclares => ?_⟩
    rw [Occurrence.declares_within, (h c hc).declares_eq_false o ho] at hdeclares
    cases hdeclares
  | group _ ih =>
    exact Node.forall_mem_occurrences.2 ⟨by simp, fun c hc o ho => hpart ho (ih c hc) rfl⟩
  | node hkind _ _ ih =>
    refine Node.forall_mem_occurrences.2 ⟨by simp, fun c hc o ho => hpart ho (ih c hc) ?_⟩
    rcases hkind with rfl | rfl | rfl <;> rfl

theorem Node.isKind_of_holdsItems (h : n.holdsItems = true) {kind : Kind}
    (hkind : kind ∉ [.itemMod, .list, .file]) : n.isKind kind = false := by
  simp only [List.mem_cons, List.not_mem_nil, or_false, not_or] at hkind
  obtain ⟨hmod, hlist, hfile⟩ := hkind
  unfold holdsItems at h
  split at h
  · rfl
  · exact decide_eq_false (Ne.symm hmod)
  · exact decide_eq_false (Ne.symm hlist)
  · exact decide_eq_false (Ne.symm hfile)
  · cases h

/-- The modules around a node have names. -/
theorem Occurrence.isName_of_mem_modules (h : LeafRule.names.Formed n) {o : Occurrence}
    (ho : o ∈ n.occurrences) : ∀ name ∈ o.modules, Ident.isName name = true := by
  intro name hname
  obtain ⟨m, hm, rfl⟩ := List.mem_map.1 hname
  obtain ⟨haround, hkind⟩ := List.mem_filter.1 hm
  have hformed := (h.occurrence o ho).2 m haround
  rw [Node.eq_of_isKind hkind] at hformed ⊢
  exact Source.isName_of_itemMod hformed

end Syntax

namespace Source

open Syntax

/-! ### What types state -/

theorem isReadEarly_of_holdsItems {n : Node} (h : n.holdsItems = true) : isReadEarly n = false := by
  unfold Node.holdsItems at h
  split at h
  · rfl
  · rfl
  · rfl
  · rfl
  · cases h

/-- What stands in nothing but modules is looked at. -/
theorem placeWithin_of_holdsItems {place : Place} (hplace : place.inBlock = false) {o : Occurrence}
    (h : ∀ a ∈ o.around, a.holdsItems = true) :
    placeWithin place o.around = some ⟨place.scope ++ o.modules, false⟩ := by
  have hnot (kind : Kind) (hkind : kind ∉ [.itemMod, .list, .file]) :
      ∀ a ∈ o.around, a.isKind kind = false :=
    fun a ha => Node.isKind_of_holdsItems (h a ha) hkind
  have hblock := hnot .block (by decide)
  have hin : o.inBlock = false := List.any_eq_false.2 fun a ha => by rw [hblock a ha]; decide
  have htype : o.inType = false := List.any_eq_false.2 fun a ha => by
    rw [hnot .itemStruct (by decide) a ha, hnot .itemEnum (by decide) a ha]
    decide
  have huse : o.inUse = false :=
    List.any_eq_false.2 fun a ha => by rw [hnot .itemUse (by decide) a ha]; decide
  have hlocal : o.inLocalModule = false := by
    rw [Occurrence.inLocalModule, List.dropWhile_eq_nil_iff.2, List.any_nil]
    exact fun a ha => by rw [hblock a ha]; rfl
  rw [placeWithin_eq hplace, htype, huse, hlocal, hin]
  rfl

section Selected

variable {β : Type} {g : Fact → Option β} {f : ModulePath → Node → β}
  (hg : ∀ spot m, (ownFacts spot m).filterMap g =
    if (m.isType && !spot.inBlock) = true then [f spot.scope m] else [])

include hg

/-- **What is selected of types** comes from the declaring occurrences, in the order of the text. -/
theorem filterMap_factsOf_types {place : Place} {root : Node} (hroot : LeafRule.names.Items root)
    (hplace : place.inBlock = false) : (factsOf place root).filterMap g =
      (root.occurrences.filter Occurrence.declares).map fun o =>
        f (place.scope ++ o.modules) o.node := by
  have hstates {o : Occurrence} {spot : Place} (h : placeWithin place o.around = some spot) :
      (ownFacts spot o.node).filterMap g =
        if o.declares = true then [f (place.scope ++ o.modules) o.node] else [] := by
    rw [placeWithin_eq hplace] at h
    split_ifs at h
    obtain rfl := Option.some.inj h
    exact hg _ _
  -- nothing is selected but what declares, and nothing around that is read early
  have hkeeps : KeepsOrder g place root := by
    intro o ho spot hspot hown a ha
    have hdeclares : o.declares = true := by
      by_contra hnot
      exact hown (by rw [hstates hspot, if_neg hnot])
    exact isReadEarly_of_holdsItems (hroot.holdsItems o ho hdeclares a ha)
  rw [filterMap_factsOf hkeeps]
  refine filterMap_writtenFacts fun o ho => ?_
  cases hspot : placeWithin place o.around with
  | some spot =>
    rw [placed, hspot, Option.map_some, Option.elim_some]
    exact hstates hspot
  | none =>
    -- what is not looked at does not declare, since all that declares is looked at
    rw [placed, hspot, Option.map_none, Option.elim_none, if_neg]
    intro hdeclares
    rw [placeWithin_of_holdsItems hplace (hroot.holdsItems o ho hdeclares)] at hspot
    cases hspot

end Selected

/-- The declaration that a fact adds to the corpus. -/
def Fact.declaration? (f : Fact) : Option Declaration := f.corpusNode?.bind CorpusNode.declaration?

/-- **A node states a type** exactly where it states a declaration. -/
theorem filterMap_ownFacts (spot : Place) (m : Node) :
    ((ownFacts spot m).filterMap Fact.declaration? =
      if (m.isType && !spot.inBlock) = true then [declarationOf spot.scope m] else []) ∧
    (ownFacts spot m).filterMap Fact.typePath? =
      if (m.isType && !spot.inBlock) = true then [spot.scope ++ [(m.part 3).name]] else [] := by
  cases hm : m.isType with
  | true =>
    obtain ⟨kind, fields, -, hown⟩ := ownFacts_of_isType hm spot
    rw [hown]
    cases spot.inBlock with
    | true => exact ⟨rfl, rfl⟩
    | false => exact ⟨rfl, rfl⟩
  | false =>
    have hnone : ∀ f ∈ ownFacts spot m, f.declaration? = none ∧ f.typePath? = none := by
      intro f hf
      cases states_of_mem_ownFacts hf with
      | type htype => exact absurd htype (by rw [hm]; decide)
      | declaration htype => exact absurd htype (by rw [hm]; decide)
      | _ => exact ⟨rfl, rfl⟩
    exact ⟨List.filterMap_eq_nil_iff.2 fun f hf => (hnone f hf).1,
      List.filterMap_eq_nil_iff.2 fun f hf => (hnone f hf).2⟩

section Files

variable {file : SourceFile} {root : Node} (hread : readFile file.text = some root)

include hread

theorem filterMap_crateFacts_types {β : Type} {g : Fact → Option β} {f : ModulePath → Node → β}
    (hg : ∀ spot m, (ownFacts spot m).filterMap g =
      if (m.isType && !spot.inBlock) = true then [f spot.scope m] else [])
    (hmodule : ∀ path, g (.module_ path) = none) :
    (crateFacts [file]).filterMap g = (root.occurrences.filter Occurrence.declares).map fun o =>
      f (Text.segments file.space ++ o.modules) o.node := by
  rw [crateFacts, List.flatMap_singleton, hread, Option.map_some, Option.getD_some, fileFacts,
    List.filterMap_cons_none (hmodule _)]
  exact filterMap_factsOf_types hg (items_readFile hread) rfl

/-- The declarations of a file. -/
theorem declarations_of_readFile : (fileNodes file).filterMap CorpusNode.declaration? =
    (root.occurrences.filter Occurrence.declares).map fun o =>
      declarationOf (Text.segments file.space ++ o.modules) o.node := by
  rw [fileNodes, List.filterMap_filterMap]
  exact filterMap_crateFacts_types hread (fun spot m => (filterMap_ownFacts spot m).1) fun _ => rfl

/-- The types of a file. -/
theorem typePaths_of_readFile : (crateFacts [file]).filterMap Fact.typePath? =
    (root.occurrences.filter Occurrence.declares).map fun o =>
      Text.segments file.space ++ o.modules ++ [(o.node.part 3).name] :=
  filterMap_crateFacts_types (f := fun scope m => scope ++ [(m.part 3).name]) hread
    (fun spot m => (filterMap_ownFacts spot m).2) fun _ => rfl

end Files

/-! ### Declarations of a crate -/

/-- Whether a declaration says what an occurrence in a file declares. -/
structure SourceFile.Declares (file : SourceFile) (o : Occurrence) (d : Declaration) : Prop where
  name : d.name = (o.node.part 3).name
  /-- The module of the file, and in it the modules around the item. -/
  space : d.space = Text.below file.space o.modules
  kind : d.kind = if o.node.isKind .itemStruct then .struct else .enum
  markers : d.markers = (o.node.part 0).children.filterMap markerOf
  /-- Generated code may construct a struct if it could be marked. -/
  extensible : d.extensible = true ↔
    o.node.isKind .itemStruct = true ∧ Handler.checkMarked [] o.node = .ok ()

theorem checkMarked_nil_iff {item : Node} : Handler.checkMarked [] item = .ok () ↔
    (item.part 6).isKind .fieldsNamed = true ∧ noParams (item.part 4) = true := by
  have hgeneric : Handler.isGeneric item = !noParams (item.part 4) := rfl
  have hfields : Handler.hasNamedFields item = (item.part 6).isKind .fieldsNamed := rfl
  rw [Handler.checkMarked, hgeneric, hfields]
  cases noParams (item.part 4) <;> cases (item.part 6).isKind .fieldsNamed <;> simp

theorem SourceFile.declares_declarationOf (file : SourceFile) (o : Occurrence) :
    file.Declares o (declarationOf (Text.segments file.space ++ o.modules) o.node) where
  name := rfl
  space := by
    rw [declarationOf, Text.ofSegments_append (Text.segments_ne_nil _), Text.ofSegments_segments]
  kind := rfl
  markers := rfl
  extensible := by
    rw [checkMarked_nil_iff, declarationOf, Bool.and_eq_true, Bool.and_eq_true]

/-- The path of a declaration falls into the modules around the item and its name. -/
theorem segments_path_declarationOf {file : SourceFile} {root : Node}
    (hroot : LeafRule.names.Formed root) {o : Occurrence} (ho : o ∈ root.occurrences)
    (hdeclares : o.declares = true) :
    Text.segments (declarationOf (Text.segments file.space ++ o.modules) o.node).path =
      Text.segments file.space ++ o.modules ++ [(o.node.part 3).name] := by
  have hcolon {name : String} (h : Ident.isName name = true) : ':' ∉ name.toList :=
    colon_not_mem (isWordText_of_isName h)
  have hname := isName_of_isType (hroot.occurrence o ho).1 (Bool.and_eq_true_iff.1 hdeclares).1
  have hmodules := Occurrence.isName_of_mem_modules hroot ho
  have hspace := (file.declares_declarationOf o).space
  rw [Declaration.path, hspace, (file.declares_declarationOf o).name,
    Text.segments_append _ (hcolon hname), Text.segments_below _ fun n hn => hcolon (hmodules n hn)]

section Crate

variable {files : List SourceFile} {tree : SourceTree}
  (htree : SourceTree.ofFiles files = .ok tree)

include htree

/-- The declarations of a crate, file by file. -/
theorem forall₂_declarations : List.Forall₂ (fun file unit => ∃ root,
    readFile file.text = some root ∧
      unit.declarations = (root.occurrences.filter Occurrence.declares).map fun o =>
        declarationOf (Text.segments file.space ++ o.modules) o.node)
    files tree.corpus.units := by
  have hunits : List.Forall₂ (fun (file : SourceFile) (unit : SourceUnit) =>
      (file.origin, fileNodes file) = (unit.origin, unit.nodes)) files tree.corpus.units := by
    have heq := List.forall₂_eq_eq_eq ▸ (units_ofFiles htree).symm
    rwa [List.forall₂_map_left_iff, List.forall₂_map_right_iff] at heq
  have hread := exists_ofFiles_iff.1 ⟨tree, htree⟩
  refine ((List.forall₂_and_left _ _).2 ⟨hread, hunits⟩).imp ?_
  rintro file unit ⟨hfile, heq⟩
  obtain ⟨root, hroot⟩ := Option.isSome_iff_exists.1 hfile
  refine ⟨root, hroot, ?_⟩
  rw [← declarations_of_readFile hroot, SourceUnit.declarations, (Prod.mk.inj heq).2]

/-- **The types in the table** are those that the files declare. -/
theorem hasType_ofFiles_iff {path : ModulePath} : tree.symbols.hasType path = true ↔
    ∃ file ∈ files, ∃ root, readFile file.text = some root ∧ ∃ o ∈ root.occurrences,
      o.declares = true ∧
        path = Text.segments file.space ++ o.modules ++ [(o.node.part 3).name] := by
  have hread := exists_ofFiles_iff.1 ⟨tree, htree⟩
  rw [symbols_of_ofFiles htree, hasType_tableOf_iff, crateFacts_eq_flatMap, List.filterMap_flatMap,
    List.mem_flatMap]
  refine exists_congr fun file => and_congr_right fun hfile => ?_
  obtain ⟨root, hroot⟩ := Option.isSome_iff_exists.1 (hread file hfile)
  rw [typePaths_of_readFile hroot, List.mem_map]
  constructor
  · rintro ⟨o, ho, rfl⟩
    obtain ⟨ho, hdeclares⟩ := List.mem_filter.1 ho
    exact ⟨root, hroot, o, ho, hdeclares, rfl⟩
  · rintro ⟨root', hroot', o, ho, hdeclares, rfl⟩
    obtain rfl := Option.some.inj (hroot.symm.trans hroot')
    exact ⟨o, List.mem_filter.2 ⟨ho, hdeclares⟩, rfl⟩

/-- **Every declaration of a crate is known** to its table, under its name and its module. -/
theorem exists_declaredType_of_mem {unit : SourceUnit} (hunit : unit ∈ tree.corpus.units)
    {d : Declaration} (hd : d ∈ unit.declarations) :
    ∃ info, tree.lookup.declaredType d = some info ∧ info.name = d.name ∧ info.space = d.space := by
  obtain ⟨file, hfile, root, hroot, heq⟩ := exists_partner (forall₂_declarations htree) hunit
  rw [heq] at hd
  obtain ⟨o, ho, rfl⟩ := List.mem_map.1 hd
  obtain ⟨ho, hdeclares⟩ := List.mem_filter.1 ho
  have htype := (hasType_ofFiles_iff htree).2 ⟨file, hfile, root, hroot, o, ho, hdeclares, rfl⟩
  -- the table is asked for the segments of the declaration's path, which are those of the type
  rw [symbols_of_ofFiles htree] at htype
  obtain ⟨info, hinfo, hname, hspace⟩ := exists_typeInfo_tableOf htype
  refine ⟨info, ?_, hname, hspace⟩
  rw [← symbols_of_ofFiles htree,
    ← segments_path_declarationOf (formed_readFile hroot) ho hdeclares] at hinfo
  exact hinfo

/-- No candidate for a handler is unknown. -/
theorem failures_of_resolveHandlers {s : Settings} {resolved : Resolved Handler}
    (h : tree.host.resolveHandlers (tree.corpus.scan s.handler.accepts) = .ok resolved) :
    resolved.failures = [] := by
  obtain ⟨findings, hfindings, heq⟩ := bind_eq_ok.1 h
  obtain rfl := Except.ok.inj heq
  refine List.filterMap_eq_nil_iff.2 fun finding hfinding => ?_
  obtain ⟨c, hc, unit, -, hfind⟩ := exists_partner (Host.forall₂_findings hfindings) hfinding
  obtain ⟨d, hnode, hd⟩ := exists_declaration_of_candidate htree hc
  obtain ⟨unit', hunit', hmem⟩ := exists_unit_of_mem_crateFacts htree hd
  obtain ⟨info, hinfo, -⟩ :=
    exists_declaredType_of_mem htree hunit' (SourceUnit.mem_declarations.2 hmem)
  obtain ⟨members, -, rfl⟩ := (Host.findHandler_eq_ok hnode hinfo).1 hfind
  cases Handler.ofType? info members <;> rfl

/-- What is left out of the handlers of a crate has names or types that cannot be written. -/
theorem scope_of_handlers_ofFiles {s : Settings} {g : Generation}
    (h : Generation.handlers s tree.host tree.corpus = .ok g) :
    ∀ f ∈ g.failures, f.scope = .entity := by
  obtain ⟨-, resolved, q, hresolved, hq, rfl⟩ := Generation.handlers_eq_ok.1 h
  refine foldlM_keeps (I := fun p => ∀ f ∈ p.failures, f.scope = .entity) ?_ ?_ hq
  · intro p handler p' hp hadd
    rcases Generation.HandlerProgress.add_eq_ok.1 hadd with
      ⟨_, _, -, -, rfl⟩ | ⟨f, hf, hscope, rfl⟩
    · exact hp
    · refine List.forall_mem_append.2 ⟨hp, List.forall_mem_singleton.2 ?_⟩
      rcases handler.failsOnly_artifact _ hf with hentity | rfl
      · exact hentity
      · -- malformed code stops the run, so it is not among the failures
        exact absurd rfl hscope
  · intro f hf
    rw [failures_of_resolveHandlers htree hresolved] at hf
    cases hf

/-- **Corpus, table and mark agree on declarations.**  The declarations of a file's unit are those
of the structs and enumerations that stand outside of all blocks, in the order of the text and in
their modules; a struct is extensible exactly where it could be marked.  The types in the table are
those of these items, each declaration is known to it under its name and its module, and so no
handler is reported because of a declaration that is not known. -/
theorem SourceTree.declarations_agree :
    List.Forall₂ (fun file unit => ∃ root, readFile file.text = some root ∧
      List.Forall₂ file.Declares (root.occurrences.filter Occurrence.declares) unit.declarations)
      files tree.corpus.units ∧
    (∀ path, tree.symbols.hasType path = true ↔
      ∃ file ∈ files, ∃ root, readFile file.text = some root ∧ ∃ o ∈ root.occurrences,
        o.declares = true ∧
          path = Text.segments file.space ++ o.modules ++ [(o.node.part 3).name]) ∧
    (∀ unit ∈ tree.corpus.units, ∀ d ∈ unit.declarations, ∃ info,
      tree.lookup.declaredType d = some info ∧ info.name = d.name ∧ info.space = d.space) ∧
    ∀ s name origin, Generation.handlers s tree.host tree.corpus ≠
        .error (.failure (.unresolvedDeclaration name origin)) ∧
      ∀ g, Generation.handlers s tree.host tree.corpus = .ok g →
        .unresolvedDeclaration name origin ∉ g.failures := by
  refine ⟨(forall₂_declarations htree).imp ?_, fun path => hasType_ofFiles_iff htree,
    fun unit hunit d hd => exists_declaredType_of_mem htree hunit hd,
    fun s name origin => ⟨fun h => ?_, fun g h hmem => ?_⟩⟩
  · rintro file unit ⟨root, hroot, heq⟩
    refine ⟨root, hroot, ?_⟩
    rw [heq, List.forall₂_map_right_iff, List.forall₂_same]
    exact fun o _ => file.declares_declarationOf o
  · cases Generation.failsOnly_handlers s tree.host tree.corpus _ h
  · cases scope_of_handlers_ofFiles htree h _ hmem

end Crate

/-- A crate that declares one type twice, and others in blocks only. -/
def shelfCrate : List SourceFile :=
  [⟨"crate", "lib.rs",
      "struct Jar \x7b size: u8 \x7d mod shelf \x7b enum Kind \x7b Tin \x7d struct Jar<T>(T); \x7d
        fn fill() \x7b struct Lid; mod inner \x7b struct Lid; \x7d \x7d"⟩,
    ⟨"crate::shelf", "shelf.rs", "#[handler] struct Jar \x7b \x7d"⟩]

theorem SourceTree.declarations_agree_shelf :
    ∃ tree, SourceTree.ofFiles shelfCrate = .ok tree ∧
      tree.corpus.units.map (fun unit => unit.declarations.map fun d => (d.path, d.extensible)) =
        [[("crate::Jar", true), ("crate::shelf::Kind", false), ("crate::shelf::Jar", false)],
          [("crate::shelf::Jar", true)]] ∧
      ∀ unit ∈ tree.corpus.units, ∀ d ∈ unit.declarations, ∃ info,
        tree.lookup.declaredType d = some info ∧ info.name = d.name ∧ info.space = d.space := by
  have hunits : (SourceTree.ofFiles shelfCrate).map (fun tree => tree.corpus.units.map fun unit =>
      unit.declarations.map fun d => (d.path, d.extensible)) =
        .ok [[("crate::Jar", true), ("crate::shelf::Kind", false), ("crate::shelf::Jar", false)],
          [("crate::shelf::Jar", true)]] := by
    decide +kernel
  cases htree : SourceTree.ofFiles shelfCrate with
  | error origin =>
    rw [htree] at hunits
    cases hunits
  | ok tree =>
    rw [htree] at hunits
    exact ⟨tree, rfl, Except.ok.inj hunits, (SourceTree.declarations_agree htree).2.2.1⟩

end Source

end Scaffold
