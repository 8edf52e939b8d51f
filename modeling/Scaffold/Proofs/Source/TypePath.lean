import Scaffold.Proofs.Source.Facts
import Scaffold.Proofs.Syntax.PlainPath

/-!
# Paths of declared types

The path of a type is written from the names of the modules around it and its own name, without
raw marks.  `resolveType_declared` says when it leads back to the type: the lookup goes through the
modules of the path, whatever the scope, so all that can fail is reading the path, and it fails
exactly where a name in it is a keyword other than `try`.
-/

namespace Scaffold.Source

open Syntax

/-! ### Names of paths -/

theorem isName_ne {name w : String} (h : Ident.isName name = true)
    (hw : Ident.neverRaw.contains w = true) : name ≠ w := by
  rintro rfl
  rw [Ident.isName, hw] at h
  simp at h

/-- The name of an identifier may be a segment where it is no keyword but `try`. -/
theorem isSegmentWord_iff {name : String} (h : Ident.isName name = true) :
    isSegmentWord name = true ↔ (isKeyword name = true → name = "try") := by
  have hsuper := isName_ne h (w := "super") (by decide)
  have hself := isName_ne h (w := "self") (by decide)
  have hSelf := isName_ne h (w := "Self") (by decide)
  have hcrate := isName_ne h (w := "crate") (by decide)
  simp only [isSegmentWord, List.contains_cons, List.contains_nil, beq_false_of_ne hsuper,
    beq_false_of_ne hself, beq_false_of_ne hSelf, beq_false_of_ne hcrate, Bool.false_or,
    Bool.or_false, Bool.or_eq_true, beq_iff_eq, Bool.not_eq_true']
  cases isKeyword name <;> simp

/-- A path of names falls into its segments. -/
theorem segments_of_isCratePath {path : ModulePath} (h : isCratePath path = true) :
    Text.segments (Text.ofSegments path) = path := by
  obtain ⟨⟨names, rfl⟩, hcolon⟩ := exists_of_isCratePath h
  exact Text.segments_ofSegments (List.cons_ne_nil _ _) hcolon

/-! ### The way to a type -/

namespace SymbolTable

variable {t : SymbolTable}

theorem resolveName_module {space : ModulePath} {name : String}
    (h : t.hasModule (space ++ [name]) = true) (depth : Nat) :
    t.resolveName depth space name = some (.module_ (space ++ [name])) := by
  unfold resolveName
  simp [h]

theorem resolveName_type {space : ModulePath} {name : String}
    (hmodule : t.hasModule (space ++ [name]) = false) (htype : t.hasType (space ++ [name]) = true)
    (depth : Nat) : t.resolveName depth space name = some (.type (space ++ [name])) := by
  unfold resolveName
  simp [hmodule, htype]

/-- **Through modules to a type:** each name but the last is one of a module. -/
theorem stepAll_modules {names : List String} {name : String} {space : ModulePath}
    (hsuper : ∀ n ∈ names ++ [name], n ≠ "super")
    (hmodules : ∀ i < names.length, t.hasModule (space ++ names.take (i + 1)) = true)
    (hmodule : t.hasModule (space ++ names ++ [name]) = false)
    (htype : t.hasType (space ++ names ++ [name]) = true) (depth : Nat) :
    stepAll (t.resolveName depth) (.module_ space) (names ++ [name]) =
      some (.type (space ++ names ++ [name])) := by
  induction names generalizing space with
  | nil =>
    rw [List.append_nil] at hmodule htype ⊢
    have hname := hsuper name (by simp)
    rw [List.nil_append, stepAll, stepInto, if_neg hname, resolveName_type hmodule htype]
    rfl
  | cons first rest ih =>
    have hfirst := hsuper first (by simp)
    have hstep : t.hasModule (space ++ [first]) = true := hmodules 0 (by simp)
    rw [List.cons_append, stepAll, stepInto, if_neg hfirst, resolveName_module hstep,
      Option.bind_some]
    have heq : space ++ (first :: rest) = space ++ [first] ++ rest := by simp
    rw [heq] at hmodule htype ⊢
    refine ih (fun n hn => hsuper n (List.mem_cons_of_mem _ hn)) (fun i hi => ?_) hmodule htype
    have hnext := hmodules (i + 1) (by simpa using hi)
    rw [List.take_succ_cons] at hnext
    rwa [List.append_assoc, List.singleton_append]

end SymbolTable

/-- The path that the tree of a plain path spells. -/
theorem plainPath?_plainPath (first : String) (names : List String) :
    SymbolTable.plainPath? (.node .typePath [Parser.plainPath first names]) =
      some ⟨first :: names, false⟩ := by
  have helems : (Node.node .separated
      (Parser.bareSegment (.word false first) :: Parser.stepParts names)).elems =
        (first :: names).map fun name => Parser.bareSegment (.word false name) := by
    have hsteps : (Parser.stepParts names).filter (!·.isOp) =
        names.map fun name => Parser.bareSegment (.word false name) := by
      induction names with
      | nil => rfl
      | cons name names ih =>
        rw [List.map_cons, ← ih]
        rfl
    rw [List.map_cons, ← hsteps]
    rfl
  have hbare (name : String) : ((Parser.bareSegment (.word false name)).part 1).isNone = true := rfl
  have hname (name : String) : ((Parser.bareSegment (.word false name)).part 0).name = name := rfl
  have hlead : Node.none.isSome = false := rfl
  simp only [SymbolTable.plainPath?, Parser.plainPath, SymbolTable.usePathOf,
    SymbolTable.segmentNames, helems]
  simp [hbare, hname, hlead, Function.comp_def]

/-! ### Types that are declared -/

/-- A declaration of a crate whose files are named properly. -/
theorem exists_type_of_mem_crateFacts {files : List SourceFile}
    (hfiles : ∀ file ∈ files, isCratePath (Text.segments file.space) = true) {d : Declaration}
    (hd : .node (.declaration d) ∈ crateFacts files) :
    ∃ space kind fields, .type space d.name kind fields ∈ crateFacts files ∧
      d.space = Text.ofSegments space ∧ isCratePath space = true ∧
      Ident.isName d.name = true := by
  obtain ⟨file, hfile, hmem⟩ := List.mem_flatMap.1 hd
  cases hread : readFile file.text with
  | none =>
    rw [hread] at hmem
    cases hmem
  | some node =>
    rw [hread, Option.map_some, Option.getD_some, fileFacts, List.mem_cons] at hmem
    have hfact := hmem.resolve_left (by simp)
    obtain ⟨space, kind, fields, htype, hspace, hpath, hname⟩ :=
      exists_type_of_declaration (formed_readFile hread) (hfiles file hfile) hfact
    refine ⟨space, kind, fields, List.mem_flatMap.2 ⟨file, hfile, ?_⟩, hspace, hpath, hname⟩
    rw [hread]
    exact List.mem_cons_of_mem _ htype

/-- **The path of a declared type** leads back to the type from every scope exactly where no name
in it is a keyword other than `try`, and where it does not, it is not even read as a type. -/
theorem resolveType_declared {files : List SourceFile} {tree : SourceTree}
    (htree : SourceTree.ofFiles files = .ok tree)
    (hfiles : ∀ file ∈ files, isCratePath (Text.segments file.space) = true)
    {unit : SourceUnit} (hunit : unit ∈ tree.corpus.units) {d : Declaration}
    (hd : .declaration d ∈ unit.nodes)
    (hmodule : tree.symbols.hasModule (Text.segments d.path) = false) (scope : String) :
    ∃ info, tree.lookup.declaredType d = some info ∧ info.path = d.path ∧
      (tree.lookup.resolveType ⟨info.path, scope⟩ = some info ↔
        ∀ name ∈ (Text.segments d.path).tail, isKeyword name = true → name = "try") ∧
      ((readType info.path).isSome = true ↔
        ∀ name ∈ (Text.segments d.path).tail, isKeyword name = true → name = "try") := by
  obtain ⟨space, kind, fields, htype, hspace, hpath, hname⟩ :=
    exists_type_of_mem_crateFacts hfiles (mem_crateFacts_of_unit htree hunit hd)
  have hfull : isCratePath (space ++ [d.name]) = true := isCratePath_append hpath hname
  obtain ⟨⟨names, rfl⟩, hcolon⟩ := exists_of_isCratePath hpath
  have htext : d.path = Text.ofSegments ("crate" :: (names ++ [d.name])) := by
    rw [Declaration.path, hspace, Text.ofSegments, Text.ofSegments, ← List.cons_append,
      String.intercalate_append_of_ne_nil (by simp) (by simp), String.intercalate_singleton]
  have hsegments : Text.segments d.path = "crate" :: (names ++ [d.name]) := by
    rw [htext]
    exact segments_of_isCratePath hfull
  have hnames : ∀ name ∈ names ++ [d.name], Ident.isName name = true := by
    rw [isCratePath, Bool.and_eq_true] at hfull
    exact List.all_eq_true.1 hfull.2
  -- the type and the modules around it are in the table
  have hhas := hasType_ofFiles htree htype
  have hresolve : tree.symbols.resolvePath ⟨"crate" :: (names ++ [d.name]), false⟩
      (Text.segments scope) = some (.type ("crate" :: (names ++ [d.name]))) := by
    have hsuper : ∀ n ∈ names ++ [d.name], n ≠ "super" :=
      fun n hn => isName_ne (hnames n hn) (by decide)
    have hway : ∀ i < names.length,
        tree.symbols.hasModule (["crate"] ++ names.take (i + 1)) = true :=
      fun i hi => hasModule_ofFiles htree htype (by simp) hcolon
        (List.length_cons ▸ Nat.succ_lt_succ hi)
    rw [hsegments] at hmodule
    exact SymbolTable.stepAll_modules hsuper hway hmodule hhas _
  obtain ⟨info, hinfo⟩ : ∃ info, tree.symbols.typeInfo ("crate" :: (names ++ [d.name])) = some info := by
    obtain ⟨entry, hentry⟩ := Option.isSome_iff_exists.1 hhas
    exact ⟨_, congrArg (Option.map _) hentry⟩
  have hinfoPath : info.path = d.path := by
    obtain ⟨entry, -, rfl⟩ := Option.map_eq_some_iff.1 hinfo
    exact htext.symm
  have hwords : ∀ name ∈ names ++ [d.name], Ident.isWordText name = true :=
    fun name hname => isWordText_of_isName (hnames name hname)
  have hread := readType_ofSegments hwords
  have hspell : (names ++ [d.name]).all isSegmentWord = true ↔
      ∀ name ∈ (Text.segments d.path).tail, isKeyword name = true → name = "try" := by
    rw [hsegments, List.tail_cons, List.all_eq_true]
    exact forall₂_congr fun name hname => isSegmentWord_iff (hnames name hname)
  refine ⟨info, ?_, hinfoPath, ?_, ?_⟩
  · change tree.symbols.typeInfo (Text.segments d.path) = some info
    rw [hsegments, hinfo]
  · rw [← hspell]
    change tree.symbols.resolveType info.path (Text.segments scope) = some info ↔ _
    rw [hinfoPath, htext, SymbolTable.resolveType, hread]
    by_cases hall : (names ++ [d.name]).all isSegmentWord = true
    · rw [if_pos hall]
      simp [plainPath?_plainPath, hresolve, hinfo, hall]
    · rw [if_neg hall]
      simp [hall]
  · rw [← hspell, hinfoPath, htext, hread]
    by_cases hall : (names ++ [d.name]).all isSegmentWord = true
    · rw [if_pos hall]
      simp [hall]
    · rw [if_neg hall]
      simp [hall]

/-- A crate with a type in a module of its own file. -/
def nestedCrate : List SourceFile :=
  [⟨"crate", "lib.rs", "mod api; use api::Thing;"⟩,
    ⟨"crate::api", "api.rs", "pub struct r#Thing { id: u64 }"⟩]

/-- The declaration of that type. -/
def nestedThing : Declaration := ⟨"Thing", "crate::api", .struct, [], true⟩

theorem resolveType_declared_nested :
    ∃ tree info, SourceTree.ofFiles nestedCrate = .ok tree ∧ info.path = "crate::api::Thing" ∧
      tree.lookup.resolveType ⟨info.path, "crate"⟩ = some info := by
  have hfacts : (SourceTree.ofFiles nestedCrate).toOption.map (fun tree =>
      decide (∃ unit ∈ tree.corpus.units, .declaration nestedThing ∈ unit.nodes) &&
        decide (tree.symbols.hasModule (Text.segments nestedThing.path) = false)) = some true := by
    decide +kernel
  cases htree : SourceTree.ofFiles nestedCrate with
  | error origin => rw [htree] at hfacts; cases hfacts
  | ok tree =>
    rw [htree] at hfacts
    have hboth := Bool.and_eq_true_iff.1 (Option.some.inj hfacts)
    obtain ⟨unit, hunit, hnode⟩ := of_decide_eq_true hboth.1
    obtain ⟨info, -, hpath, hresolve, -⟩ := resolveType_declared htree (by decide +kernel) hunit
      hnode (of_decide_eq_true hboth.2) "crate"
    exact ⟨tree, info, rfl, hpath, hresolve.2 (by decide +kernel)⟩

/-- A type whose name is written raw is not found under its path. -/
theorem resolveType_declared_raw :
    (SourceTree.ofFiles [⟨"crate", "lib.rs", "pub struct r#type;"⟩]).toOption.bind (fun tree =>
        (tree.lookup.declaredType ⟨"type", "crate", .struct, [], false⟩).map fun info =>
          (info.path, tree.lookup.resolveType ⟨info.path, "crate"⟩)) =
      some ("crate::type", none) := by
  decide +kernel

end Scaffold.Source
