import Scaffold.Proofs.Generation
import Scaffold.Proofs.Resolve
import Scaffold.Proofs.Source.Canonical
import Scaffold.Source.ModulePath

/-!
# When generating from sources breaks down

Handlers and mappings are generated from the members of types, whose types are written in canonical
form.  `SourceTree.generation_breakdown_iff` says when this cannot be carried out at all: where the
module of a file has a segment that is no word, and a member of a type that a candidate asks for
names a type in it, or where the code that has been put together has no layout.
-/

namespace Scaffold.Source

open Syntax

namespace SourceTree

variable {files : List SourceFile} {tree : SourceTree} {others : List String}

/-! ### What candidates ask for -/

/-- The types whose members a candidate asks for. -/
def typesOf (tree : SourceTree) (c : Candidate) : List TypeInfo :=
  match c.node with
  | .declaration d => (tree.lookup.declaredType d).toList
  | .call call =>
    match tree.lookup.mappedTypes c.unit.origin call with
    | .ok (source, dest) => [source, dest]
    | .error _ => []

/-- The names that the members of these types spell. -/
def namesFor (tree : SourceTree) (c : Candidate) : List String :=
  (tree.typesOf c).flatMap fun info => tree.symbols.memberNames (Text.segments info.path)

section Spelling

variable (ht : tree.symbols.IsNamed LeafRule.names others)

include ht

/-- The handler that a declaration is. -/
theorem findHandler_spells {c : Candidate} {d : Declaration} (hc : c.node = .declaration d) :
    Spells (tree.namesFor c) (tree.host.findHandler tree.lookup c) := by
  unfold namesFor typesOf Host.findHandler
  rw [hc]
  dsimp only
  cases tree.lookup.declaredType d with
  | none => exact .pure _
  | some info =>
    have hmembers := SymbolTable.membersOf_spells ht (Text.segments info.path)
    rw [Option.toList_some, List.flatMap_singleton]
    refine hmembers.bind_pure fun members _ => ?_
    split
    · exact .pure _
    · exact .pure _

/-- The mapping that a call registers. -/
theorem findMapping_spells {c : Candidate} {call : Call} (hc : c.node = .call call) :
    Spells (tree.namesFor c) (tree.host.findMapping tree.lookup c) := by
  unfold namesFor typesOf Host.findMapping
  rw [hc]
  dsimp only
  cases tree.lookup.mappedTypes c.unit.origin call with
  | error f => exact .pure _
  | ok types =>
    obtain ⟨source, dest⟩ := types
    have hsource := SymbolTable.membersOf_spells ht (Text.segments source.path)
    have hdest := SymbolTable.membersOf_spells ht (Text.segments dest.path)
    dsimp only
    rw [List.flatMap_cons, List.flatMap_singleton]
    exact hsource.bind fun _ _ => hdest.bind_pure fun _ _ => .pure _

/-- **Resolving handlers** breaks down exactly over the names that the candidates need. -/
theorem resolveHandlers_spells (s : Settings) :
    Spells ((tree.corpus.scan s.handler.accepts).flatMap tree.namesFor)
      (tree.host.resolveHandlers (tree.corpus.scan s.handler.accepts)) := by
  have hlookup (unit : SourceUnit) : tree.host.lookup unit = tree.lookup := rfl
  refine (Host.findings_spells hlookup fun c hc => ?_).bind_pure fun findings _ => .pure _
  have haccepts := (List.mem_filter.1 hc).2
  cases hnode : c.node with
  | declaration d => exact findHandler_spells ht hnode
  | call call =>
    rw [hnode] at haccepts
    cases haccepts

/-- **Resolving mappings** breaks down exactly over the names that the candidates need. -/
theorem resolveMappings_spells (s : Settings) :
    Spells ((tree.corpus.scan s.mapping.accepts).flatMap tree.namesFor)
      (tree.host.resolveMappings (tree.corpus.scan s.mapping.accepts)) := by
  have hlookup (unit : SourceUnit) : tree.host.lookup unit = tree.lookup := rfl
  refine (Host.findings_spells hlookup fun c hc => ?_).bind_pure fun findings _ => .pure _
  have haccepts := (List.mem_filter.1 hc).2
  cases hnode : c.node with
  | call call => exact findMapping_spells ht hnode
  | declaration d =>
    rw [hnode] at haccepts
    cases haccepts

/-- The class of a handler that is resolved has a name. -/
theorem isWordText_className {s : Settings} {resolved : Resolved Handler}
    (h : tree.host.resolveHandlers (tree.corpus.scan s.handler.accepts) = .ok resolved)
    {handler : Handler} (hhandler : handler ∈ resolved.items) :
    Ident.isWordText handler.className = true := by
  obtain ⟨findings, hfindings, heq⟩ := bind_eq_ok.1 h
  obtain rfl := Except.ok.inj heq
  obtain ⟨unit, c, hfind⟩ := Host.exists_of_mem_items hfindings hhandler
  unfold Host.findHandler at hfind
  split at hfind
  · cases hfind
  split at hfind
  · cases hfind
  rename_i info hinfo
  obtain ⟨members, -, hitem⟩ := bind_eq_ok.1 hfind
  split at hitem
  · rename_i found htype
    obtain rfl := Finding.item.inj (Except.ok.inj hitem)
    have hname : found.className = info.name := by
      unfold Handler.ofType? at htype
      dsimp only at htype
      split_ifs at htype
      exact (congrArg Handler.className (Option.some.inj htype)).symm
    obtain ⟨entry, hentry, rfl⟩ := Option.map_eq_some_iff.1 hinfo
    rw [hname]
    exact (Bool.and_eq_true_iff.1 (ht.name _ entry hentry)).1
  · cases hitem

end Spelling

/-! ### Generating -/

/-- A name that some candidate needs is no segment of a path. -/
def Unspelled (tree : SourceTree) (candidates : List Candidate) : Prop :=
  ∃ c ∈ candidates, ∃ name ∈ tree.namesFor c, Ident.isSegment name = false

/-- The first handlers have artifacts, or are left out, and there is no layout for the next one. -/
def HandlerUnwritable (resolved : Resolved Handler) : Prop :=
  ∃ before h after progress tokens, resolved.items = before ++ h :: after ∧
    before.foldlM Generation.HandlerProgress.add { failures := resolved.failures } = .ok progress ∧
    h.code = .ok tokens ∧ Unwritable tokens

/-- There is no layout for the code of the mappings. -/
def MappingsUnwritable (resolved : Resolved Mapping) : Prop :=
  ∃ spaces, (MappingPlan.ofMappings resolved.items).spaces.mapM MappingSpace.tokens = .ok spaces ∧
    Unwritable spaces.flatten

/-- How resolving breaks down. -/
theorem error_iff_of_spells {α : Type} {candidates : List Candidate}
    {x : Except Breakdown (Resolved α)} (h : Spells (candidates.flatMap tree.namesFor) x) :
    (∃ text, x = .error (.name text)) ↔ tree.Unspelled candidates := by
  have hnames : (∃ name ∈ candidates.flatMap tree.namesFor, Ident.isSegment name = false) ↔
      tree.Unspelled candidates := by
    simp only [Unspelled, List.mem_flatMap]
    constructor
    · rintro ⟨name, ⟨c, hc, hname⟩, hseg⟩
      exact ⟨c, hc, name, hname, hseg⟩
    · rintro ⟨c, hc, name, hname, hseg⟩
      exact ⟨name, ⟨c, hc, hname⟩, hseg⟩
  rw [← hnames, ← h.error_iff]
  constructor
  · rintro ⟨text, htext⟩
    exact ⟨_, htext⟩
  · rintro ⟨b, hb⟩
    obtain ⟨name, -, -, rfl⟩ := h.error b hb
    exact ⟨name, hb⟩

section Generate

variable (ht : tree.symbols.IsNamed LeafRule.names others) (s : Settings)

include ht

theorem handlers_name_iff :
    (∃ text, Generation.handlers s tree.host tree.corpus = .error (.breakdown (.name text))) ↔
      s.validate = .ok () ∧ tree.Unspelled (tree.corpus.scan s.handler.accepts) := by
  rw [← error_iff_of_spells (resolveHandlers_spells ht s)]
  simp only [Generation.handlers_eq_breakdown]
  constructor
  · rintro ⟨text, hvalid, hresolve | ⟨resolved, before, h, after, progress, hresolve, hitems, -, hh⟩⟩
    · exact ⟨hvalid, text, hresolve⟩
    · have hmem : h ∈ resolved.items := hitems ▸ List.mem_append_right _ List.mem_cons_self
      have hname := isWordText_className ht hresolve hmem
      cases ((Handler.artifact_eq_breakdown hname).1 hh).1
  · rintro ⟨hvalid, text, hresolve⟩
    exact ⟨text, hvalid, .inl hresolve⟩

theorem handlers_layout_iff :
    Generation.handlers s tree.host tree.corpus = .error (.breakdown .layout) ↔
      s.validate = .ok () ∧ ∃ resolved,
        tree.host.resolveHandlers (tree.corpus.scan s.handler.accepts) = .ok resolved ∧
        HandlerUnwritable resolved := by
  rw [Generation.handlers_eq_breakdown]
  refine and_congr_right fun _ => ?_
  constructor
  · rintro (hresolve | ⟨resolved, before, h, after, progress, hresolve, hitems, hbefore, hh⟩)
    · obtain ⟨name, -, -, hb⟩ := (resolveHandlers_spells ht s).error _ hresolve
      cases hb
    · have hmem : h ∈ resolved.items := hitems ▸ List.mem_append_right _ List.mem_cons_self
      have hname := isWordText_className ht hresolve hmem
      obtain ⟨-, tokens, hcode, hfile⟩ := (Handler.artifact_eq_breakdown hname).1 hh
      exact ⟨resolved, hresolve, before, h, after, progress, tokens, hitems, hbefore, hcode, hfile⟩
  · rintro ⟨resolved, hresolve, before, h, after, progress, tokens, hitems, hbefore, hcode, hfile⟩
    have hmem : h ∈ resolved.items := hitems ▸ List.mem_append_right _ List.mem_cons_self
    have hname := isWordText_className ht hresolve hmem
    have hh := (Handler.artifact_eq_breakdown hname).2 ⟨rfl, tokens, hcode, hfile⟩
    exact .inr ⟨resolved, before, h, after, progress, hresolve, hitems, hbefore, hh⟩

theorem mappings_name_iff :
    (∃ text, Generation.mappings s tree.host tree.corpus = .error (.breakdown (.name text))) ↔
      s.validate = .ok () ∧ tree.Unspelled (tree.corpus.scan s.mapping.accepts) := by
  rw [← error_iff_of_spells (resolveMappings_spells ht s)]
  simp only [Generation.mappings_eq_breakdown]
  constructor
  · rintro ⟨text, hvalid, hresolve | ⟨resolved, -, hartifact⟩⟩
    · exact ⟨hvalid, text, hresolve⟩
    · cases (MappingPlan.artifact_eq_breakdown.1 hartifact).1
  · rintro ⟨hvalid, text, hresolve⟩
    exact ⟨text, hvalid, .inl hresolve⟩

theorem mappings_layout_iff :
    Generation.mappings s tree.host tree.corpus = .error (.breakdown .layout) ↔
      s.validate = .ok () ∧ ∃ resolved,
        tree.host.resolveMappings (tree.corpus.scan s.mapping.accepts) = .ok resolved ∧
        MappingsUnwritable resolved := by
  rw [Generation.mappings_eq_breakdown]
  refine and_congr_right fun _ => ?_
  constructor
  · rintro (hresolve | ⟨resolved, hresolve, hartifact⟩)
    · obtain ⟨name, -, -, hb⟩ := (resolveMappings_spells ht s).error _ hresolve
      cases hb
    · obtain ⟨-, spaces, hspaces, hfile⟩ := MappingPlan.artifact_eq_breakdown.1 hartifact
      exact ⟨resolved, hresolve, spaces, hspaces, hfile⟩
  · rintro ⟨resolved, hresolve, spaces, hspaces, hfile⟩
    have hartifact := MappingPlan.artifact_eq_breakdown.2 ⟨rfl, spaces, hspaces, hfile⟩
    exact .inr ⟨resolved, hresolve, hartifact⟩

/-- A name that cannot be spelled belongs to a module. -/
theorem mem_of_mem_namesFor {c : Candidate} {name : String} (hname : name ∈ tree.namesFor c)
    (hseg : Ident.isSegment name = false) : name ∈ others := by
  obtain ⟨info, -, hmem⟩ := List.mem_flatMap.1 hname
  rcases SymbolTable.isNamedPath_memberNames ht _ name hmem with hword | hother
  · rw [hword] at hseg
    cases hseg
  · exact hother

end Generate

/-- **When generating from sources breaks down,** given files of any names and any settings: over a
name that is no segment of a path, which then is a segment of the module of a file, or over code
that has no layout. -/
theorem generation_breakdown_iff (htree : SourceTree.ofFiles files = .ok tree) (s : Settings) :
    ((∃ text, Generation.handlers s tree.host tree.corpus = .error (.breakdown (.name text))) ↔
      s.validate = .ok () ∧ tree.Unspelled (tree.corpus.scan s.handler.accepts)) ∧
    (Generation.handlers s tree.host tree.corpus = .error (.breakdown .layout) ↔
      s.validate = .ok () ∧ ∃ resolved,
        tree.host.resolveHandlers (tree.corpus.scan s.handler.accepts) = .ok resolved ∧
        HandlerUnwritable resolved) ∧
    ((∃ text, Generation.mappings s tree.host tree.corpus = .error (.breakdown (.name text))) ↔
      s.validate = .ok () ∧ tree.Unspelled (tree.corpus.scan s.mapping.accepts)) ∧
    (Generation.mappings s tree.host tree.corpus = .error (.breakdown .layout) ↔
      s.validate = .ok () ∧ ∃ resolved,
        tree.host.resolveMappings (tree.corpus.scan s.mapping.accepts) = .ok resolved ∧
        MappingsUnwritable resolved) ∧
    ∀ c, ∀ name ∈ tree.namesFor c, Ident.isSegment name = false →
      ∃ file ∈ files, name ∈ Text.segments file.space := by
  have ht : tree.symbols.IsNamed LeafRule.names (fileSegments files) :=
    isNamed_symbols (fun _ h => h) (fun _ _ h => formed_readFile h) htree
  refine ⟨handlers_name_iff ht s, handlers_layout_iff ht s, mappings_name_iff ht s,
    mappings_layout_iff ht s, fun c name hname hseg => ?_⟩
  exact List.mem_flatMap.1 (mem_of_mem_namesFor ht hname hseg)

/-- A crate with a handler whose member is of a type in another file. -/
def titledCrate : List SourceFile :=
  [⟨"crate", "lib.rs", "mod api; #[handler] pub struct Page \x7b pub(crate) title: api::Title \x7d"⟩,
    ⟨"crate::api", "api.rs", "pub struct Title;"⟩]

theorem generation_breakdown_iff_titled :
    ∃ tree, SourceTree.ofFiles titledCrate = .ok tree ∧ ∀ s text,
      Generation.handlers s tree.host tree.corpus ≠ .error (.breakdown (.name text)) ∧
      Generation.mappings s tree.host tree.corpus ≠ .error (.breakdown (.name text)) := by
  have hread : (SourceTree.ofFiles titledCrate).toOption.isSome = true := by decide +kernel
  have hsegments : ∀ file ∈ titledCrate,
      (Text.segments file.space).all Ident.isSegment = true := by decide +kernel
  cases htree : SourceTree.ofFiles titledCrate with
  | error origin =>
    rw [htree] at hread
    cases hread
  | ok tree =>
    refine ⟨tree, rfl, fun s text => ?_⟩
    obtain ⟨hhandlers, -, hmappings, -, hnames⟩ := generation_breakdown_iff htree s
    have hspelled (candidates : List Candidate) : ¬tree.Unspelled candidates := by
      rintro ⟨c, -, name, hname, hseg⟩
      obtain ⟨file, hfile, hmem⟩ := hnames c name hname hseg
      rw [List.all_eq_true.1 (hsegments file hfile) name hmem] at hseg
      cases hseg
    constructor
    · intro h
      exact hspelled _ (hhandlers.1 ⟨text, h⟩).2
    · intro h
      exact hspelled _ (hmappings.1 ⟨text, h⟩).2

/-- A file with a hyphen in its name: the module of a type that a member names is no identifier. -/
def hyphenCrate : List SourceFile :=
  [⟨modulePath "foo-bar.rs", "foo-bar.rs",
    "pub struct T; #[handler] pub struct S \x7b pub(crate) t: T \x7d"⟩]

/-- Generating handlers from that file breaks down under settings that are accepted. -/
theorem generation_breakdown_hyphen :
    ({} : Settings).validate = .ok () ∧ ∃ tree, SourceTree.ofFiles hyphenCrate = .ok tree ∧
      Generation.handlers {} tree.host tree.corpus = .error (.breakdown (.name "foo-bar")) := by
  refine ⟨by decide +kernel, ?_⟩
  have hbreakdown : (SourceTree.ofFiles hyphenCrate).toOption.map (fun tree =>
      Stop.breakdown? (Generation.handlers {} tree.host tree.corpus)) =
        some (some (.name "foo-bar")) := by
    decide +kernel
  cases htree : SourceTree.ofFiles hyphenCrate with
  | error origin =>
    rw [htree] at hbreakdown
    cases hbreakdown
  | ok tree =>
    rw [htree] at hbreakdown
    exact ⟨tree, rfl, Stop.eq_of_breakdown?_eq_some (Option.some.inj hbreakdown)⟩

end SourceTree

end Scaffold.Source
