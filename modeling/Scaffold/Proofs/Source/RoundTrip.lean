import Scaffold.Proofs.Source.CanonicalForm
import Scaffold.Proofs.Source.Members
import Scaffold.Proofs.Source.TypeText

/-!
# Member types are read back

The members of a declared type are shown with the compact texts of their canonical types.  Where
the canonical type is plain, its text is read as the type (`SourceTree.member_types_read_back`).
What is not plain may be spoiled by the closing of gaps: the colon after the name of an argument
closes up to the colons of a path (`readType_typeName_named_argument`).
-/

namespace Scaffold

namespace Syntax

/-! ### Trees that are the same -/

mutual

/-- Whether two trees without tokens that are kept as they were written are the same. -/
def Node.same : Node → Node → Bool
  | .word raw name, .word raw' name' => raw == raw' && name == name'
  | .lifetime raw name, .lifetime raw' name' => raw == raw' && name == name'
  | .op marks, .op marks' => marks == marks'
  | .literal text, .literal text' => text == text'
  | .group delim ns, .group delim' ms => delim == delim' && Node.sameParts ns ms
  | .node kind ns, .node kind' ms => kind == kind' && Node.sameParts ns ms
  | _, _ => false

/-- Whether the parts of two trees are the same. -/
def Node.sameParts : List Node → List Node → Bool
  | [], [] => true
  | n :: ns, m :: ms => n.same m && Node.sameParts ns ms
  | _, _ => false

end

mutual

theorem Node.eq_of_same {n m : Node} (h : n.same m = true) : n = m := by
  cases n <;> cases m <;>
    simp only [Node.same, Bool.and_eq_true, beq_iff_eq, Bool.false_eq_true] at h
  case group.group ns _ ms => rw [h.1, Node.eq_of_sameParts h.2]
  case node.node ns _ ms => rw [h.1, Node.eq_of_sameParts h.2]
  case op.op => rw [h]
  case literal.literal => rw [h]
  all_goals rw [h.1, h.2]

theorem Node.eq_of_sameParts {ns ms : List Node} (h : Node.sameParts ns ms = true) : ns = ms := by
  cases ns <;> cases ms <;> simp only [Node.sameParts, Bool.and_eq_true, Bool.false_eq_true] at h
  · rfl
  · rw [Node.eq_of_same h.1, Node.eq_of_sameParts h.2]

end

end Syntax

open Scaffold.Syntax

namespace Source

/-! ### Canonical forms of members -/

/-- Where all modules are named by words, a type has a canonical form. -/
theorem SymbolTable.exists_canonical_of_isSegment {t : SymbolTable} {others : List String}
    (hnames : t.IsNamed LeafRule.names others) (hothers : ∀ s ∈ others, Ident.isSegment s = true)
    {n : Node} (hn : LeafRule.names.Formed n) (scope : ModulePath) :
    ∃ c, t.canonical scope n = .ok c ∧ t.Qualified scope n c := by
  cases hform : t.canonical scope n with
  | ok c => exact ⟨c, rfl, (SymbolTable.qualified_of_canonical hn).root c hform⟩
  | error b =>
    obtain ⟨name, hname, hword, -⟩ := (SymbolTable.canonical_spells hn).error b hform
    have hsegment : Ident.isSegment name = true :=
      (SymbolTable.isNamedPath_typeNames hnames hn scope name hname).elim id (hothers name)
    rw [hsegment] at hword
    cases hword

/-- Whether a member is shown by the compact text of its canonical type, which is read as that type
if it is plain. -/
structure MemberEntry.ReadsBack (t : SymbolTable) (m : MemberEntry) (member : TypeMember) :
    Prop where
  shown : m.ShownAs t member
  canonical : ∃ c, t.canonical m.scope m.type = .ok c ∧ t.Qualified m.scope m.type c ∧
    member.typeName = compactText c.tokens ∧
    (c.IsPlain (.type true) → readType member.typeName = some c)

/-! ### Member types -/

/-- **Member types are read back.**  Where the modules that files define are named by words, the
members of every declared type are shown, each with the compact text of its canonical type, which is
the type as it is written with its paths made absolute; and where the canonical type is plain, the
text is read as the canonical type. -/
theorem SourceTree.member_types_read_back {files : List SourceFile} {tree : SourceTree}
    (htree : SourceTree.ofFiles files = .ok tree)
    (hfiles : ∀ s ∈ fileSegments files, Ident.isSegment s = true) {path : ModulePath}
    {entry : TypeEntry} (hentry : tree.symbols.types.lookup path = some entry) :
    ∃ members, tree.symbols.membersOf path = .ok members ∧
      List.Forall₂ (MemberEntry.ReadsBack tree.symbols) entry.members members := by
  have hnames := isNamed_symbols (fun _ h => h) (fun _ _ h => formed_readFile h) htree
  rw [SymbolTable.membersOf_eq hentry]
  refine exists_mapM_forall₂ fun m hm => ?_
  obtain ⟨c, hc, hqualified⟩ := SymbolTable.exists_canonical_of_isSegment hnames hfiles
    (hnames.members path entry hentry m hm) m.scope
  have htext : tree.symbols.typeText m.scope m.type = .ok (compactText c.tokens) := by
    rw [SymbolTable.typeText, hc]
    rfl
  have hshown : tree.symbols.shown m =
      .ok ⟨m.name, compactText c.tokens, m.visibility, m.kind, decide (m.kind = .field)⟩ := by
    rw [SymbolTable.shown, htext]
    rfl
  exact ⟨_, hshown, SymbolTable.shown_eq_ok.1 hshown, c, hc, hqualified, rfl, readType_compactText⟩

/-- A path of words as a type. -/
def wordsType (lead : Node) (first : String) (rest : List String) : Node :=
  .node .typePath [.node .path [lead, .node .separated (((first :: rest).map fun name =>
    Parser.bareSegment (.word false name)).intersperse (.op "::"))]]

theorem isPlain_wordsType {lead : Node} (hlead : lead = .op "::" ∨ lead = .none) {first : String}
    {rest : List String} (h : ∀ name ∈ first :: rest,
      (pathKeywords.contains name || Ident.takesArguments false name) = true) {allowPlus : Bool} :
    (wordsType lead first rest).IsPlain (.type allowPlus) := by
  have hbare : ∀ name ∈ first :: rest,
      (Parser.bareSegment (.word false name)).IsPlain (.segment false) := by
    intro name hname
    rcases Bool.or_eq_true_iff.1 (h name hname) with hkeyword | hword
    · exact .keyword hkeyword
    · exact .segment hword .noAngle
  exact .typePath (.uncalled (.path hlead (List.forall_mem_map.2 hbare)))

/-- A crate in which a type is written with the names that its module imports. -/
def orderingCrate : List SourceFile :=
  [⟨"crate", "lib.rs", "mod models; pub struct Thing;"⟩,
    ⟨"crate::models", "models.rs", "use crate::Thing; use uuid::Uuid as Id; " ++
      "pub struct Order \x7b pub parts: Vec<(Id, &'static [Thing; 2])> \x7d"⟩]

/-- A reference in the canonical type of its member. -/
def thingsReference : Node :=
  .node .typeRef [.op "&", .lifetime false "static", .none,
    .node .typeArray [.group .bracket [wordsType .none "crate" ["Thing"], .op ";",
      .node .exprLit [.list [], .literal "2"]]]]

/-- The canonical type of its member. -/
def orderedParts : Node :=
  .node .typePath [.node .path [.none, .node .separated [.node .segment [.word false "Vec",
    .node .angleArgs [.none, .op "<", .node .genericList [
      .node .typeTuple [.group .paren [.node .separated
        [wordsType (.op "::") "uuid" ["Uuid"], .op ",", thingsReference]]]], .op ">"]]]]]

theorem isPlain_orderedParts : orderedParts.IsPlain (.type true) := by
  have huuid : (wordsType (.op "::") "uuid" ["Uuid"]).IsPlain (.type true) :=
    isPlain_wordsType (.inl rfl) (by decide)
  have hthing : (wordsType .none "crate" ["Thing"]).IsPlain (.type true) :=
    isPlain_wordsType (.inr rfl) (by decide)
  have hreference : thingsReference.IsPlain (.type true) :=
    .reference (.inl (.intro (by decide))) (.inr rfl) (.array hthing (.number (by decide)))
  have hargs := List.forall_mem_singleton.2 (Node.IsPlain.typeArgument (.tuple
    (List.forall_mem_cons.2 ⟨huuid, List.forall_mem_singleton.2 hreference⟩) (.last _)))
  have hsegment : (Node.node .segment [.word false "Vec", _]).IsPlain (.segment false) :=
    .segment (by decide) (.angleArgs (.inr ⟨rfl, rfl⟩) (List.forall_mem_nil _) hargs (.last _))
  exact .typePath (.uncalled (.path (.inr rfl) (List.forall_mem_singleton.2 hsegment)))

theorem SourceTree.member_types_read_back_order :
    ∃ tree entry members, SourceTree.ofFiles orderingCrate = .ok tree ∧
      tree.symbols.types.lookup ["crate", "models", "Order"] = some entry ∧
      tree.symbols.membersOf ["crate", "models", "Order"] = .ok members ∧
      members.map (·.typeName) = ["Vec<(::uuid::Uuid, &'static [crate::Thing; 2])>"] ∧
      ∀ member ∈ members, readType member.typeName = some orderedParts := by
  have hfacts : (SourceTree.ofFiles orderingCrate).toOption.bind (fun tree =>
      (tree.symbols.types.lookup ["crate", "models", "Order"]).map fun entry =>
        entry.members.map fun m =>
          (tree.symbols.canonical m.scope m.type).toOption.map fun c => c.same orderedParts) =
      some [some true] := by
    decide +kernel
  cases htree : SourceTree.ofFiles orderingCrate with
  | error origin => rw [htree] at hfacts; cases hfacts
  | ok tree =>
    rw [htree] at hfacts
    obtain ⟨_, heq, hfacts⟩ := Option.bind_eq_some_iff.1 hfacts
    obtain rfl := Option.some.inj heq
    obtain ⟨entry, hentry, hsame⟩ := Option.map_eq_some_iff.1 hfacts
    obtain ⟨members, hmembers, hread⟩ :=
      SourceTree.member_types_read_back htree (by decide +kernel) hentry
    obtain ⟨m, hentry_members, hm⟩ := List.map_eq_singleton_iff.1 hsame
    rw [hentry_members] at hread
    obtain ⟨member, rest, hmember, hnil, rfl⟩ := List.forall₂_cons_left_iff.1 hread
    obtain rfl := List.forall₂_nil_left_iff.1 hnil
    obtain ⟨-, c, hc, -, htext, hback⟩ := hmember
    rw [hc] at hm
    obtain rfl : c = orderedParts := Node.eq_of_same (Option.some.inj hm)
    have hname : member.typeName = "Vec<(::uuid::Uuid, &'static [crate::Thing; 2])>" := by
      rw [htext]
      decide +kernel
    refine ⟨tree, entry, [member], rfl, hentry, hmembers, congrArg (fun text => [text]) hname, ?_⟩
    exact List.forall_mem_singleton.2 (hback isPlain_orderedParts)

/-- A type after the name of an argument: its two colons close up to the one before them, and what
comes out is no type. -/
theorem readType_typeName_named_argument :
    (SourceTree.ofFiles [⟨"crate", "lib.rs", "pub struct S { pub f: fn(x: uuid::Uuid) }"⟩]).toOption.bind
        (fun tree => (tree.symbols.membersOf ["crate", "S"]).toOption.map fun members =>
          members.map fun m => (m.typeName, (readType m.typeName).isSome)) =
      some [("fn (x :::uuid::Uuid)", false)] := by
  decide +kernel

end Source

end Scaffold
