import Scaffold.Proofs.Source.Filled
import Scaffold.Proofs.Source.Generation
import Scaffold.Proofs.Source.Members
import Scaffold.Proofs.Source.Reading
import Scaffold.Proofs.Source.Standing
import Scaffold.Proofs.Source.TypePath

/-!
# Handlers say what the source says

A handler goes a long way from the struct that it describes: the struct becomes a fact, the fact an
entry of the symbol table, accessors are added to the entry, its members are shown with their
canonical types, and the fields among them are divided by visibility.  `resolveHandlers_declared`
says what comes out of it: nothing where the struct has no restricted field, and otherwise one
handler with exactly these fields, in their order and with their types as the module of the struct
sees them.
-/

namespace Scaffold.Source

open Syntax

/-! ### Structs that are declared -/

/-- Whether an item is a struct that a file of a crate declares in a module, outside all blocks. -/
def DeclaresStruct (files : List SourceFile) (scope : ModulePath) (item : Node) : Prop :=
  ∃ file ∈ files, ∃ node, readFile file.text = some node ∧
    Standing ⟨Text.segments file.space, false⟩ node ⟨scope, false⟩ item ∧
    item.isKind .itemStruct = true

/-- The path of the type that a struct item declares. -/
def declaredPath (scope : ModulePath) (item : Node) : ModulePath := scope ++ [(item.part 3).name]

/-- The fields of a struct item. -/
def declaredFields (scope : ModulePath) (item : Node) : List MemberEntry :=
  fieldsOf scope (item.part 6)

/-- Whether a struct item has named fields and no parameters, and carries one of the markers. -/
def IsMarkedStruct (markers : List String) (item : Node) : Prop :=
  (item.part 6).isKind .fieldsNamed = true ∧ noParams (item.part 4) = true ∧
    ∃ marker ∈ markers, marker ∈ (item.part 0).children.filterMap markerOf

theorem IsMarkedStruct.accepts {s : HandlerSettings} {item : Node}
    (h : IsMarkedStruct s.markers item) (hkind : item.isKind .itemStruct = true)
    (scope : ModulePath) : s.accepts (.declaration (declarationOf scope item)) = true := by
  obtain ⟨hfields, hparams, marker, hmarker, hmem⟩ := h
  have hany : s.markers.any (declarationOf scope item).markers.contains = true :=
    List.any_eq_true.2 ⟨marker, hmarker, List.contains_iff_mem.2 hmem⟩
  have hextensible : (declarationOf scope item).extensible = true := by
    rw [declarationOf, hkind, hfields, hparams, Bool.and_self, Bool.and_self]
  rw [HandlerSettings.accepts, hextensible, hany, Bool.and_self]

theorem DeclaresStruct.isKind {files : List SourceFile} {scope : ModulePath} {item : Node}
    (h : DeclaresStruct files scope item) : item.isKind .itemStruct = true := by
  obtain ⟨-, -, -, -, -, hkind⟩ := h
  exact hkind

/-- A struct that is declared is stated by its file, as a type and as a node. -/
theorem DeclaresStruct.mem_crateFacts {files : List SourceFile} {scope : ModulePath} {item : Node}
    (h : DeclaresStruct files scope item) :
    .type scope (item.part 3).name .struct (declaredFields scope item) ∈ crateFacts files ∧
      .node (.declaration (declarationOf scope item)) ∈ crateFacts files := by
  obtain ⟨file, hfile, node, hread, hstands, hkind⟩ := h
  rw [Node.eq_of_isKind hkind] at hstands ⊢
  have hstated : ∀ f ∈ ownFacts ⟨scope, false⟩ (.node .itemStruct item.children),
      f ∈ crateFacts files :=
    fun f hf => mem_crateFacts_of_mem_factsOf hfile hread (hstands.mem_factsOf hf)
  exact ⟨hstated _ List.mem_cons_self, hstated _ (List.mem_cons_of_mem _ List.mem_cons_self)⟩

theorem DeclaresStruct.scope_ne_nil {files : List SourceFile} {scope : ModulePath} {item : Node}
    (h : DeclaresStruct files scope item) : scope ≠ [] := by
  obtain ⟨file, -, node, -, hstands, -⟩ := h
  exact hstands.scope_ne_nil (Text.segments_ne_nil file.space)

/-- The path of the declaration of a struct. -/
theorem DeclaresStruct.path_eq {files : List SourceFile} {scope : ModulePath} {item : Node}
    (h : DeclaresStruct files scope item) :
    (declarationOf scope item).path = Text.ofSegments (declaredPath scope item) := by
  rw [declaredPath, Text.ofSegments_concat h.scope_ne_nil]
  rfl

/-! ### Paths of types -/

section Paths

variable {files : List SourceFile}
  (hfiles : ∀ file ∈ files, ∀ name ∈ Text.segments file.space, Ident.isSegment name = true)

include hfiles

/-- The modules around a type that is stated are named. -/
theorem isSegment_of_type_mem {space : ModulePath} {name : String} {kind : TypeKind}
    {fields : List MemberEntry} (h : .type space name kind fields ∈ crateFacts files) :
    ∀ n ∈ space ++ [name], Ident.isSegment n = true := by
  have hnamed : (Fact.type space name kind fields).IsNamed LeafRule.names (fileSegments files) :=
    isNamed_crateFacts (fun _ h => h) (fun _ _ h => formed_readFile h) _ h
  intro n hn
  rcases hnamed.1.append hnamed.2.1 n hn with hseg | hfile
  · exact hseg
  · obtain ⟨file, hmem, hn⟩ := List.mem_flatMap.1 hfile
    exact hfiles file hmem n hn

/-- The path of a type that is stated falls into its segments. -/
theorem segments_of_type_mem {space : ModulePath} {name : String} {kind : TypeKind}
    {fields : List MemberEntry} (h : .type space name kind fields ∈ crateFacts files) :
    Text.segments (Text.ofSegments (space ++ [name])) = space ++ [name] := by
  refine Text.segments_ofSegments (by simp) fun n hn => ?_
  have hseg := isSegment_of_type_mem hfiles h n hn
  rw [Ident.isSegment, Bool.and_eq_true] at hseg
  exact colon_not_mem hseg.1

end Paths

/-- A declaration is stated with its type, whose path is that of the declaration. -/
theorem exists_path_of_declaration_mem {files : List SourceFile} {d : Declaration}
    (h : .node (.declaration d) ∈ crateFacts files) :
    ∃ space kind fields, .type space d.name kind fields ∈ crateFacts files ∧
      d.path = Text.ofSegments (space ++ [d.name]) := by
  obtain ⟨file, hfile, hmem⟩ := List.mem_flatMap.1 h
  cases hread : readFile file.text with
  | none =>
    rw [hread] at hmem
    cases hmem
  | some node =>
    rw [hread, Option.map_some, Option.getD_some, fileFacts, List.mem_cons] at hmem
    obtain ⟨spot, m, hstands, hm⟩ := mem_factsOf_iff.1 (hmem.resolve_left (by simp))
    obtain ⟨-, hd, kind, fields, htype⟩ := exists_type_of_mem_ownFacts hm
    have hscope := hstands.scope_ne_nil (Text.segments_ne_nil file.space)
    refine ⟨spot.scope, kind, fields, ?_, ?_⟩
    · exact mem_crateFacts_of_mem_factsOf hfile hread (hstands.mem_factsOf htype)
    · rw [Text.ofSegments_concat hscope, Declaration.path, hd, declarationOf]

/-! ### Handlers of structs -/

/-- Whether a handler describes a struct of a module as it is written. -/
structure Describes (t : SymbolTable) (scope : ModulePath) (item : Node) (h : Handler) : Prop where
  className : h.className = (item.part 3).name
  space : h.space = Text.ofSegments scope
  typePath : h.typePath = Text.ofSegments (declaredPath scope item)
  /-- The restricted fields in their order, with the types as the module sees them. -/
  members : List.Forall₂ (fun field (m : HandlerMember) =>
      m.label = field.name ∧ t.typeText scope field.type = .ok m.typeName)
    ((declaredFields scope item).filter (·.visibility = .restricted)) h.members
  /-- Whether there are other fields. -/
  fillsRemaining : h.fillsRemaining = true ↔
    ∃ field ∈ declaredFields scope item, field.visibility ≠ .restricted

/-- What is known of a struct in a table. -/
def structInfo (scope : ModulePath) (item : Node) : TypeInfo :=
  ⟨(item.part 3).name, Text.ofSegments (declaredPath scope item), Text.ofSegments scope, .struct⟩

section Shown

variable {t : SymbolTable} {scope : ModulePath} {item : Node} {accessors : List MemberEntry}
  {members : List TypeMember}
  (hshown : List.Forall₂ (MemberEntry.ShownAs t) (declaredFields scope item ++ accessors) members)
  (haccessors : ∀ m ∈ accessors, m.kind ≠ .field)

include hshown haccessors

/-- Of the members of a struct the fields are those that are stored. -/
theorem shown_fields : List.Forall₂ (MemberEntry.ShownAs t) (declaredFields scope item)
    (members.filter fun m => m.kind = .field && m.stored) := by
  have hfields : (declaredFields scope item ++ accessors).filter (·.kind = .field) =
      declaredFields scope item := by
    have hall : (declaredFields scope item).filter (·.kind = .field) = declaredFields scope item :=
      List.filter_eq_self.2 fun m hm => decide_eq_true (kind_of_mem_fieldsOf hm).1
    have hnone : accessors.filter (·.kind = .field) = [] :=
      List.filter_eq_nil_iff.2 fun m hm => by simpa using haccessors m hm
    rw [List.filter_append, hall, hnone, List.append_nil]
  have hsame : ∀ m shown, MemberEntry.ShownAs t m shown →
      (decide (m.kind = .field) = true ↔
        (decide (shown.kind = .field) && shown.stored) = true) := by
    intro m shown h
    rw [h.kind, h.stored, Bool.and_self]
  rw [← hfields]
  exact List.rel_filter (fun {m shown} h => hsame m shown h) hshown

/-- **The handler of a struct:** none without restricted fields, and otherwise one that describes
the struct. -/
theorem ofType?_structInfo :
    ((∀ field ∈ declaredFields scope item, field.visibility ≠ .restricted) →
      Handler.ofType? (structInfo scope item) members = none) ∧
    ((∃ field ∈ declaredFields scope item, field.visibility = .restricted) →
      ∃ h, Handler.ofType? (structInfo scope item) members = some h ∧ Describes t scope item h) := by
  have hfields := shown_fields hshown haccessors
  set fields := members.filter fun m => m.kind = .field && m.stored with hdef
  have heligible : List.Forall₂ (MemberEntry.ShownAs t)
      ((declaredFields scope item).filter (·.visibility = .restricted))
      (fields.filter (·.visibility = .restricted)) := by
    have hsame : ∀ m shown, MemberEntry.ShownAs t m shown →
        (decide (m.visibility = .restricted) = true ↔
          decide (shown.visibility = .restricted) = true) := by
      intro m shown h
      rw [h.visibility]
    exact List.rel_filter (fun {m shown} h => hsame m shown h) hfields
  have hhandler := Handler.ofType?_eq (structInfo scope item) members fields _ hdef rfl
  constructor
  · intro hnone
    have hempty : (declaredFields scope item).filter (·.visibility = .restricted) = [] :=
      List.filter_eq_nil_iff.2 fun m hm => by simpa using hnone m hm
    rw [hempty, List.forall₂_nil_left_iff] at heligible
    rw [hhandler, if_pos heligible]
  · rintro ⟨field, hfield, hrestricted⟩
    have hsome : fields.filter (·.visibility = .restricted) ≠ [] := by
      intro hempty
      rw [hempty, List.forall₂_nil_right_iff, List.filter_eq_nil_iff] at heligible
      exact heligible field hfield (decide_eq_true hrestricted)
    rw [if_neg hsome] at hhandler
    refine ⟨_, hhandler, rfl, rfl, rfl, ?_, ?_⟩
    · rw [List.forall₂_map_right_iff]
      have hmem := (List.forall₂_and_left _ _).2 ⟨fun m hm => hm, heligible⟩
      refine hmem.imp ?_
      rintro m shown ⟨hm, h⟩
      have hscope := (kind_of_mem_fieldsOf (List.mem_of_mem_filter hm)).2
      exact ⟨h.name, hscope ▸ h.text⟩
    · rw [List.any_eq_true]
      constructor
      · rintro ⟨shown, hmem, hother⟩
        obtain ⟨m, hm, h⟩ := exists_partner hfields hmem
        exact ⟨m, hm, fun heq => of_decide_eq_true hother (h.visibility.trans heq)⟩
      · rintro ⟨m, hm, hother⟩
        obtain ⟨shown, hmem, h⟩ := exists_partner hfields.flip hm
        exact ⟨shown, hmem, decide_eq_true fun heq => hother (h.visibility.symm.trans heq)⟩

end Shown

section Resolving

variable {files : List SourceFile} {tree : SourceTree}
  (htree : SourceTree.ofFiles files = .ok tree)
  (hfiles : ∀ file ∈ files, ∀ name ∈ Text.segments file.space, Ident.isSegment name = true)

include htree hfiles

/-- **Resolving handlers does not break down,** since every name in a type can be spelled. -/
theorem exists_resolveHandlers (s : Settings) :
    ∃ resolved, tree.host.resolveHandlers (tree.corpus.scan s.handler.accepts) = .ok resolved := by
  have ht : tree.symbols.IsNamed LeafRule.names (fileSegments files) :=
    isNamed_symbols (fun _ h => h) (fun _ _ h => formed_readFile h) htree
  cases hresolve : tree.host.resolveHandlers (tree.corpus.scan s.handler.accepts) with
  | ok resolved => exact ⟨resolved, rfl⟩
  | error b =>
    obtain ⟨name, hname, hseg, -⟩ := (SourceTree.resolveHandlers_spells ht s).error b hresolve
    obtain ⟨c, -, hname⟩ := List.mem_flatMap.1 hname
    have hfile : name ∈ fileSegments files := SourceTree.mem_of_mem_namesFor ht hname hseg
    obtain ⟨file, hmem, hname⟩ := List.mem_flatMap.1 hfile
    rw [hfiles file hmem name hname] at hseg
    cases hseg

/-- A declaration of a crate is known to its tree under the path that it states. -/
theorem exists_declaredType {d : Declaration} (hd : .node (.declaration d) ∈ crateFacts files) :
    ∃ info, tree.lookup.declaredType d = some info ∧ info.path = d.path := by
  obtain ⟨space, kind, fields, htype, hpath⟩ := exists_path_of_declaration_mem hd
  have hsegments : Text.segments d.path = space ++ [d.name] := by
    rw [hpath]
    exact segments_of_type_mem hfiles htype
  obtain ⟨info, hinfo, heq⟩ := SymbolTable.exists_typeInfo (hasType_ofFiles htree htype)
  refine ⟨info, ?_, ?_⟩
  · change tree.symbols.typeInfo (Text.segments d.path) = some info
    rw [hsegments, hinfo]
  · rw [heq, hpath]

omit hfiles in
/-- A candidate for a handler is a declaration of the crate. -/
theorem exists_declaration_of_candidate {s : Settings} {c : Candidate}
    (hc : c ∈ tree.corpus.scan s.handler.accepts) :
    ∃ d, c.node = .declaration d ∧ .node (.declaration d) ∈ crateFacts files := by
  obtain ⟨hmem, haccepts⟩ := List.mem_filter.1 hc
  obtain ⟨unit, hunit, hnode⟩ := List.mem_flatMap.1 hmem
  obtain ⟨n, hn, rfl⟩ := List.mem_map.1 hnode
  cases n with
  | call call => cases haccepts
  | declaration d => exact ⟨d, rfl, mem_crateFacts_of_unit htree hunit hn⟩

/-- What is found for a candidate is no failure, and a handler under the path of a declaration. -/
theorem finding_of_candidate {s : Settings} {c : Candidate}
    (hc : c ∈ tree.corpus.scan s.handler.accepts) {finding : Finding Handler}
    (hfind : tree.host.findHandler tree.lookup c = .ok finding) :
    finding.failure? = none ∧ ∀ h, finding = .item h → ∃ d info members,
      tree.lookup.declaredType d = some info ∧ tree.host.membersOf info = .ok members ∧
      Handler.ofType? info members = some h ∧ h.typePath = d.path := by
  obtain ⟨d, hnode, hd⟩ := exists_declaration_of_candidate htree hc
  obtain ⟨info, hinfo, hpath⟩ := exists_declaredType htree hfiles hd
  obtain ⟨members, hmembers, rfl⟩ := (Host.findHandler_eq_ok hnode hinfo).1 hfind
  cases hh : Handler.ofType? info members with
  | none => exact ⟨rfl, nofun⟩
  | some handler =>
    refine ⟨rfl, fun h heq => ?_⟩
    obtain rfl := Finding.item.inj heq
    exact ⟨d, info, members, hinfo, hmembers, hh, (Handler.typePath_of_ofType? hh).trans hpath⟩

section Struct

variable (hdistinct : ((crateFacts files).filterMap Fact.typePath?).Nodup) {scope : ModulePath}
  {item : Node} (hdeclared : DeclaresStruct files scope item)

include hdistinct hdeclared

omit hfiles in
/-- The entry of a struct whose path is declared once: its fields and its accessors. -/
theorem lookup_of_declaresStruct : tree.symbols.types.lookup (declaredPath scope item) =
    some ⟨(item.part 3).name, scope, .struct, declaredFields scope item ++
      accessorsIn (crateFacts files) (declaredPath scope item)⟩ := by
  rw [symbols_of_ofFiles htree, lookup_tableOf, declaredPath,
    findSome?_entryAt?_of_nodup hdistinct hdeclared.mem_crateFacts.1]
  rfl

/-- A struct is known under every declaration of its path. -/
theorem declaredType_of_path {d : Declaration}
    (hd : d.path = Text.ofSegments (declaredPath scope item)) :
    tree.lookup.declaredType d = some (structInfo scope item) := by
  have hsegments : Text.segments d.path = declaredPath scope item := by
    rw [hd]
    exact segments_of_type_mem hfiles hdeclared.mem_crateFacts.1
  change tree.symbols.typeInfo (Text.segments d.path) = _
  rw [hsegments, SymbolTable.typeInfo, lookup_of_declaresStruct htree hdistinct hdeclared]
  rfl

/-- The members of a struct are its fields and its accessors. -/
theorem shownAs_of_membersOf {members : List TypeMember}
    (hmembers : tree.host.membersOf (structInfo scope item) = .ok members) :
    List.Forall₂ (MemberEntry.ShownAs tree.symbols) (declaredFields scope item ++
      accessorsIn (crateFacts files) (declaredPath scope item)) members := by
  have hsegments : Text.segments (structInfo scope item).path = declaredPath scope item :=
    segments_of_type_mem hfiles hdeclared.mem_crateFacts.1
  have hentry := lookup_of_declaresStruct htree hdistinct hdeclared
  refine (SymbolTable.membersOf_eq_ok hentry).1 ?_
  rw [← hmembers, ← hsegments]
  rfl

/-- **The handlers under the path of a marked struct:** the one that its members make, if any. -/
theorem exists_items_of_struct {s : Settings} (hmarked : IsMarkedStruct s.handler.markers item)
    {findings : List (Finding Handler)}
    (hfindings : tree.host.findings tree.host.findHandler
      (tree.corpus.scan s.handler.accepts) = .ok findings) :
    ∃ members, tree.host.membersOf (structInfo scope item) = .ok members ∧
      (Resolved.collect (·.typePath) findings).items.filter
          (·.typePath == Text.ofSegments (declaredPath scope item)) =
        (Handler.ofType? (structInfo scope item) members).toList := by
  have hknown := declaredType_of_path htree hfiles hdistinct hdeclared hdeclared.path_eq
  -- the struct is a candidate itself
  obtain ⟨unit, hunit, hnode⟩ := exists_unit_of_mem_crateFacts htree hdeclared.mem_crateFacts.2
  have hc : Candidate.mk unit (.declaration (declarationOf scope item)) ∈
      tree.corpus.scan s.handler.accepts :=
    List.mem_filter.2 ⟨List.mem_flatMap.2 ⟨unit, hunit, List.mem_map.2 ⟨_, hnode, rfl⟩⟩,
      hmarked.accepts hdeclared.isKind scope⟩
  obtain ⟨finding, -, unit', -, hfind⟩ := exists_partner (Host.forall₂_findings hfindings).flip hc
  obtain ⟨members, hmembers, -⟩ := (Host.findHandler_eq_ok rfl hknown).1 hfind
  refine ⟨members, hmembers, Host.items_of_key hfindings ?_ ?_⟩
  · -- any other candidate of its path asks for the same type
    intro unit c hc h hfind hpath
    obtain ⟨d, info, members', hinfo, hmembers', hh, hdpath⟩ :=
      (finding_of_candidate htree hfiles hc hfind).2 h rfl
    have hsame := declaredType_of_path htree hfiles hdistinct hdeclared (hdpath.symm.trans hpath)
    obtain rfl := Option.some.inj (hinfo.symm.trans hsame)
    obtain rfl := Except.ok.inj (hmembers'.symm.trans hmembers)
    exact hh
  · intro h hh
    refine ⟨Handler.typePath_of_ofType? hh, _, hc, fun unit finding hfind => ?_⟩
    obtain ⟨members', hmembers', rfl⟩ := (Host.findHandler_eq_ok rfl hknown).1 hfind
    obtain rfl := Except.ok.inj (hmembers'.symm.trans hmembers)
    rw [hh]
    rfl

end Struct

/-- **Handlers say what the source says.**  In a crate whose files are named properly and which
declares no type twice, every candidate is resolved.  A marked struct of a module gives no handler
where it has no restricted field, and otherwise the one handler of its path, which describes it. -/
theorem resolveHandlers_declared
    (hdistinct : ((crateFacts files).filterMap Fact.typePath?).Nodup) (s : Settings) :
    ∃ resolved, tree.host.resolveHandlers (tree.corpus.scan s.handler.accepts) = .ok resolved ∧
      resolved.failures = [] ∧
      ∀ scope item, DeclaresStruct files scope item → IsMarkedStruct s.handler.markers item →
        ((∀ field ∈ declaredFields scope item, field.visibility ≠ .restricted) →
          ∀ h ∈ resolved.items, h.typePath ≠ Text.ofSegments (declaredPath scope item)) ∧
        ((∃ field ∈ declaredFields scope item, field.visibility = .restricted) →
          ∃ h, Describes tree.symbols scope item h ∧
            resolved.items.filter (·.typePath == Text.ofSegments (declaredPath scope item)) =
              [h]) := by
  obtain ⟨resolved, hresolve⟩ := exists_resolveHandlers htree hfiles s
  obtain ⟨findings, hfindings, heq⟩ := bind_eq_ok.1 hresolve
  obtain rfl := Except.ok.inj heq
  refine ⟨_, hresolve, ?_, fun scope item hdeclared hmarked => ?_⟩
  · refine List.filterMap_eq_nil_iff.2 fun finding hfinding => ?_
    obtain ⟨c, hc, unit, -, hfind⟩ := exists_partner (Host.forall₂_findings hfindings) hfinding
    exact (finding_of_candidate htree hfiles hc hfind).1
  obtain ⟨members, hmembers, hitems⟩ :=
    exists_items_of_struct htree hfiles hdistinct hdeclared hmarked hfindings
  have hshown := shownAs_of_membersOf htree hfiles hdistinct hdeclared hmembers
  obtain ⟨hnone, hsome⟩ := ofType?_structInfo hshown fun m hm => kind_of_mem_accessorsIn hm
  constructor
  · intro hopen h hh hpath
    have hmem : h ∈ (Resolved.collect (·.typePath) findings).items.filter
        (·.typePath == Text.ofSegments (declaredPath scope item)) :=
      List.mem_filter.2 ⟨hh, beq_iff_eq.2 hpath⟩
    rw [hitems, hnone hopen] at hmem
    cases hmem
  · intro hrestricted
    obtain ⟨h, hh, hdescribes⟩ := hsome hrestricted
    exact ⟨h, hdescribes, by rw [hitems, hh, Option.toList_some]⟩

end Resolving

/-- A crate with a handler in a file of its own, whose accessors stand in another file. -/
def thingCrate : List SourceFile :=
  [⟨"crate", "lib.rs",
      "mod things; impl things::Thing { pub(crate) fn size(&self) -> u8 { 0 } }"⟩,
    ⟨"crate::things", "things.rs",
      "pub struct Name; #[handler] pub struct Thing { pub(crate) name: Name, pub size: u8 }"⟩]

/-- Whether an item is the handler of that crate. -/
def isThing (item : Node) : Bool :=
  item.isKind .itemStruct && (item.part 3).name == "Thing" &&
    (item.part 6).isKind .fieldsNamed && noParams (item.part 4) &&
    ((item.part 0).children.filterMap markerOf).contains "handler" &&
    (declaredFields ["crate", "things"] item).any (·.visibility = .restricted)

/-- The handler of that crate, where its file has been read. -/
def thing? (file : Node) : Option Node :=
  match file with
  | .node .file [_, .node .list items] => items.find? isThing
  | _ => none

theorem resolveHandlers_declared_thing :
    ∃ tree resolved item h, SourceTree.ofFiles thingCrate = .ok tree ∧
      tree.host.resolveHandlers (tree.corpus.scan ({} : Settings).handler.accepts) = .ok resolved ∧
      isThing item = true ∧ Describes tree.symbols ["crate", "things"] item h ∧
      resolved.items.filter (·.typePath == "crate::things::Thing") = [h] := by
  have hread : (SourceTree.ofFiles thingCrate).toOption.isSome = true := by decide +kernel
  have hthing : ((readFile (thingCrate.getD 1 default).text).bind thing?).isSome = true := by
    decide +kernel
  have hfiles : ∀ file ∈ thingCrate, ∀ name ∈ Text.segments file.space,
      Ident.isSegment name = true := by
    decide +kernel
  have hdistinct : ((crateFacts thingCrate).filterMap Fact.typePath?).Nodup := by decide +kernel
  cases htree : SourceTree.ofFiles thingCrate with
  | error origin =>
    rw [htree] at hread
    cases hread
  | ok tree =>
    obtain ⟨item, hitem⟩ := Option.isSome_iff_exists.1 hthing
    obtain ⟨node, hnode, hfound⟩ := Option.bind_eq_some_iff.1 hitem
    unfold thing? at hfound
    split at hfound
    · rename_i inner items
      have his := List.find?_some hfound
      simp only [isThing, Bool.and_eq_true, beq_iff_eq] at his
      obtain ⟨⟨⟨⟨⟨hkind, hname⟩, hfields⟩, hparams⟩, hmarker⟩, hrestricted⟩ := his
      have hspace : Text.segments (thingCrate.getD 1 default).space = ["crate", "things"] := by
        decide +kernel
      have hdeclared : DeclaresStruct thingCrate ["crate", "things"] item := by
        refine ⟨thingCrate.getD 1 default, by decide, _, hnode, ?_, hkind⟩
        rw [hspace]
        exact .item (List.mem_of_find?_eq_some hfound)
      have hmarked : IsMarkedStruct ({} : Settings).handler.markers item :=
        ⟨hfields, hparams, "handler", by decide, List.contains_iff_mem.1 hmarker⟩
      obtain ⟨resolved, hresolve, -, hall⟩ := resolveHandlers_declared htree hfiles hdistinct {}
      obtain ⟨field, hfield, hvisibility⟩ := List.any_eq_true.1 hrestricted
      obtain ⟨h, hdescribes, hitems⟩ :=
        (hall _ item hdeclared hmarked).2 ⟨field, hfield, of_decide_eq_true hvisibility⟩
      have hpath : Text.ofSegments (declaredPath ["crate", "things"] item) =
          "crate::things::Thing" := by
        rw [declaredPath, hname]
        decide
      rw [hpath] at hitems
      exact ⟨tree, resolved, item, h, rfl, hresolve, List.find?_some hfound, hdescribes, hitems⟩
    · cases hfound

end Scaffold.Source
