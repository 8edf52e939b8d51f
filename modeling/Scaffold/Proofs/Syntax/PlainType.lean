import Scaffold.Proofs.Syntax.Reads

/-!
# Plain types

A type is plain if it is made of paths with their arguments, references, pointers, tuples, slices,
arrays, function pointers and bounds, with whole numbers or paths for lengths and other constants
(`IsPlain`).  What is left out are macro calls, the texts in `extern "C"` and elsewhere, trait
objects without `dyn`, and colons that stand directly before the colons of a path, as the one of a
named argument may: written without a blank they would be read as another operator.

A plain type is written as it stands, in tokens that are plain (`IsPlain.printed`).  How it begins
tells it from what may stand beside it: `beginsType`, `beginsPath` and `beginsBound` look at its
first tokens, and `continuesPath` at what follows its first word.
-/

namespace Scaffold.Syntax

/-! ### Words -/

/-- The keywords that are segments without arguments. -/
def pathKeywords : List String := ["super", "self", "crate"]

namespace Ident

/-- Whether a word may be a segment that has arguments. -/
def takesArguments (raw : Bool) (name : String) : Bool :=
  isSpelling raw name && (raw || !isKeyword name || ["Self"].contains name)

/-- Whether a word may name an argument of a function pointer. -/
def namesArgument (raw : Bool) (name : String) : Bool :=
  isSpelling raw name && (raw || !isKeyword name || ["_"].contains name)

end Ident

/-! ### The class -/

/-- What a node is read as. -/
inductive Role where
  /-- A type; the flag allows `+` between bounds. -/
  | type (allowPlus : Bool)
  /-- A path, its arguments in angle brackets; the flag tells whether it is an expression. -/
  | path (exprStyle : Bool)
  /-- A path, whose last segment may have arguments in parentheses. -/
  | called
  /-- A path that begins with a type in angle brackets. -/
  | qualified (exprStyle : Bool)
  /-- The trait of such a path, or none. -/
  | asClause
  /-- A segment of a path. -/
  | segment (exprStyle : Bool)
  /-- Arguments in angle brackets, or none. -/
  | angle (exprStyle : Bool)
  /-- An argument in angle brackets that is no lifetime. -/
  | argument
  /-- Arguments in parentheses. -/
  | parens
  /-- The type of a result, or none. -/
  | output
  /-- The length of an array. -/
  | length
  /-- An argument of a function pointer. -/
  | fnArg
  /-- A bound. -/
  | bound
  /-- A bound that is a trait. -/
  | trait

/-- Whether the first token is a colon. -/
def beginsWithColon : List Token → Bool
  | .punct ':' _ :: _ => true
  | _ => false

namespace Node

/-- A lifetime. -/
inductive IsLifetime : Node → Prop where
  | intro {raw : Bool} {name : String} : Ident.isSpelling raw name = true →
    IsLifetime (.lifetime raw name)

/-- A lifetime parameter without bounds. -/
inductive IsLifetimeParam : Node → Prop where
  | intro {raw : Bool} {name : String} : Ident.isSpelling raw name = true →
    IsLifetimeParam (.node .lifetimeParam [.list [], .lifetime raw name, .none])

/-- The lifetimes that `for` binds, or none. -/
inductive IsBinder : Node → Prop where
  | none : IsBinder .none
  | lifetimes {params parts : List Node} : (∀ n ∈ params, IsLifetimeParam n) →
    Separated "," params parts →
    IsBinder (.node .forLifetimes [.word false "for", .op "<", .node .separated parts, .op ">"])

/-- **Plain types** and their parts. -/
inductive IsPlain : Role → Node → Prop where
  -- segments and their arguments
  | keyword {style : Bool} {name : String} : pathKeywords.contains name = true →
    IsPlain (.segment style) (.node .segment [.word false name, .none])
  | segment {style raw : Bool} {name : String} {args : Node} :
    Ident.takesArguments raw name = true → IsPlain (.angle style) args →
    IsPlain (.segment style) (.node .segment [.word raw name, args])
  | noAngle {style : Bool} : IsPlain (.angle style) .none
  | angleArgs {style : Bool} {colons : Node} {lifetimes args parts : List Node} :
    (colons = .op "::" ∨ colons = .none ∧ style = false) → (∀ n ∈ lifetimes, IsLifetime n) →
    (∀ n ∈ args, IsPlain .argument n) → Separated "," (lifetimes ++ args) parts →
    IsPlain (.angle style) (.node .angleArgs [colons, .op "<", .node .genericList parts, .op ">"])
  | typeArgument {n : Node} : IsPlain (.type true) n → IsPlain .argument n
  | constArgument {text : String} : Lexer.isWholeNumber text = true →
    IsPlain .argument (.node .constArg [.node .exprLit [.list [], .literal text]])
  | assocType {raw : Bool} {name : String} {args n : Node} :
    Ident.takesArguments raw name = true → IsPlain (.angle false) args → IsPlain (.type true) n →
    IsPlain .argument (.node .assocType [.word raw name, args, .op "=", n])
  | assocConst {raw : Bool} {name text : String} {args : Node} :
    Ident.takesArguments raw name = true → IsPlain (.angle false) args →
    Lexer.isWholeNumber text = true →
    IsPlain .argument (.node .assocConst
      [.word raw name, args, .op "=", .node .constArg [.node .exprLit [.list [], .literal text]]])
  | constraint {raw : Bool} {name : String} {args : Node} {bounds parts : List Node} :
    Ident.takesArguments raw name = true → IsPlain (.angle false) args →
    (∀ n ∈ bounds, IsPlain .bound n) → Separated "+" bounds parts →
    beginsWithColon (partLeaves parts).flatten = false →
    IsPlain .argument (.node .constraint [.word raw name, args, .op ":", .node .separated parts])
  -- paths
  | path {style : Bool} {lead first : Node} {rest : List Node} : (lead = .op "::" ∨ lead = .none) →
    (∀ n ∈ first :: rest, IsPlain (.segment style) n) →
    IsPlain (.path style)
      (.node .path [lead, .node .separated ((first :: rest).intersperse (.op "::"))])
  | uncalled {n : Node} : IsPlain (.path false) n → IsPlain .called n
  | call {lead args : Node} {front : List Node} {raw : Bool} {name : String} :
    (lead = .op "::" ∨ lead = .none) → (∀ n ∈ front, IsPlain (.segment false) n) →
    Ident.takesArguments raw name = true → IsPlain .parens args →
    IsPlain .called (.node .path [lead, .node .separated
      ((front ++ [Node.node .segment [.word raw name, args]]).intersperse (.op "::"))])
  | parenArgs {output : Node} {inputs parts : List Node} : (∀ n ∈ inputs, IsPlain (.type true) n) →
    Separated "," inputs parts → IsPlain .output output →
    IsPlain .parens (.node .parenArgs [.group .paren [.node .separated parts], output])
  | noOutput : IsPlain .output .none
  | output {n : Node} : IsPlain (.type false) n → IsPlain .output (.node .returnType [.op "->", n])
  | qualified {style : Bool} {n trait first : Node} {rest : List Node} : IsPlain (.type true) n →
    IsPlain .asClause trait → (∀ s ∈ first :: rest, IsPlain (.segment style) s) →
    IsPlain (.qualified style) (.node .qualifiedPath
      [.op "<", n, trait, .op ">", .op "::",
        .node .separated ((first :: rest).intersperse (.op "::"))])
  | noTrait : IsPlain .asClause .none
  | asTrait {n : Node} : IsPlain (.path false) n →
    IsPlain .asClause (.node .asClause [.word false "as", n])
  -- types
  | typePath {allowPlus : Bool} {n : Node} : IsPlain .called n →
    IsPlain (.type allowPlus) (.node .typePath [n])
  | typeQualified {allowPlus : Bool} {n : Node} : IsPlain (.qualified false) n →
    IsPlain (.type allowPlus) (.node .typePath [n])
  | reference {allowPlus : Bool} {lifetime mutable n : Node} :
    (IsLifetime lifetime ∨ lifetime = .none) → (mutable = .word false "mut" ∨ mutable = .none) →
    IsPlain (.type false) n →
    IsPlain (.type allowPlus) (.node .typeRef [.op "&", lifetime, mutable, n])
  | pointer {allowPlus : Bool} {qualifier : String} {n : Node} :
    (qualifier = "const" ∨ qualifier = "mut") → IsPlain (.type false) n →
    IsPlain (.type allowPlus) (.node .typePtr [.op "*", .word false qualifier, n])
  | unit {allowPlus : Bool} :
    IsPlain (.type allowPlus) (.node .typeTuple [.group .paren [.node .separated []]])
  | tuple {allowPlus : Bool} {first : Node} {rest parts : List Node} :
    (∀ n ∈ first :: rest, IsPlain (.type true) n) → Separated "," rest parts →
    IsPlain (.type allowPlus)
      (.node .typeTuple [.group .paren [.node .separated (first :: .op "," :: parts)]])
  | paren {allowPlus : Bool} {n : Node} : IsPlain (.type true) n →
    IsPlain (.type allowPlus) (.node .typeParen [.group .paren [n]])
  | slice {allowPlus : Bool} {n : Node} : IsPlain (.type true) n →
    IsPlain (.type allowPlus) (.node .typeSlice [.group .bracket [n]])
  | array {allowPlus : Bool} {n length : Node} : IsPlain (.type true) n → IsPlain .length length →
    IsPlain (.type allowPlus) (.node .typeArray [.group .bracket [n, .op ";", length]])
  | number {text : String} : Lexer.isWholeNumber text = true →
    IsPlain .length (.node .exprLit [.list [], .literal text])
  | constant {n : Node} : IsPlain (.path true) n → IsPlain .length (.node .exprPath [.list [], n])
  | qualifiedConstant {n : Node} : IsPlain (.qualified true) n →
    IsPlain .length (.node .exprPath [.list [], n])
  | never {allowPlus : Bool} : IsPlain (.type allowPlus) (.node .typeNever [.op "!"])
  | infer {allowPlus : Bool} : IsPlain (.type allowPlus) (.node .typeInfer [.word false "_"])
  | function {allowPlus : Bool} {binder unsafety abi output : Node} {args parts : List Node} :
    IsBinder binder → (unsafety = .word false "unsafe" ∨ unsafety = .none) →
    (abi = .node .abi [.word false "extern", .none] ∨ abi = .none) →
    (∀ n ∈ args, IsPlain .fnArg n) → Separated "," args parts → IsPlain .output output →
    IsPlain (.type allowPlus) (.node .typeFn
      [binder, unsafety, abi, .word false "fn", .group .paren [.node .separated parts], output])
  | fnArg {n : Node} : IsPlain (.type true) n →
    IsPlain .fnArg (.node .typeArg [.list [], .none, n])
  | namedArg {raw : Bool} {name : String} {n : Node} : Ident.namesArgument raw name = true →
    IsPlain (.type true) n → beginsWithColon n.leaves = false →
    IsPlain .fnArg (.node .typeArg [.list [], .node .argName [.word raw name, .op ":"], n])
  | object {allowPlus : Bool} {first : Node} {rest : List Node} :
    (∀ n ∈ first :: rest, IsPlain .bound n) → (allowPlus = false → rest = []) →
    Parser.namesTrait (.node .separated ((first :: rest).intersperse (.op "+"))) = true →
    IsPlain (.type allowPlus) (.node .typeDyn
      [.word false "dyn", .node .separated ((first :: rest).intersperse (.op "+"))])
  | existential {allowPlus : Bool} {first : Node} {rest : List Node} :
    (∀ n ∈ first :: rest, IsPlain .bound n) → (allowPlus = false → rest = []) →
    Parser.namesTrait (.node .separated ((first :: rest).intersperse (.op "+"))) = true →
    IsPlain (.type allowPlus) (.node .typeImpl
      [.word false "impl", .node .separated ((first :: rest).intersperse (.op "+"))])
  -- bounds
  | lifetimeBound {n : Node} : IsLifetime n → IsPlain .bound n
  | traitBound {n : Node} : IsPlain .trait n → IsPlain .bound n
  | parenBound {n : Node} : IsPlain .trait n →
    IsPlain .bound (.node .parenBound [.group .paren [n]])
  | trait {binder maybe n : Node} : IsBinder binder →
    (maybe = .op "?" ∧ binder = .none ∨ maybe = .none) → IsPlain .called n →
    IsPlain .trait (.node .traitBound [binder, maybe, n])

end Node

/-! ### What is written -/

theorem Token.Plain.append {ts us : List Token} (hts : Token.Plain ts) (hus : Token.Plain us) :
    Token.Plain (ts ++ us) := by
  induction hts with
  | nil => exact hus
  | word hspell _ ih => exact .word hspell ih
  | lifetime hspell _ ih => exact .lifetime hspell ih
  | number hnumber _ ih => exact .number hnumber ih
  | mark hmark _ ih => exact .mark hmark ih
  | joint hmark _ ih => exact .joint hmark ih
  | group hdelim hcontent _ _ ih => exact .group hdelim hcontent ih

theorem groupedParts_eq_map (p : Place) (ns : List Node) :
    groupedParts p ns = ns.map (grouped p) := by
  induction ns with
  | nil => rfl
  | cons n ns ih => rw [groupedParts, ih, List.map_cons]

namespace Node

/-- A node that needs no parentheses anywhere and has plain tokens. -/
structure Printed (n : Node) : Prop where
  grouped (p : Place) : grouped p n = n
  plain : Token.Plain n.leaves

namespace Printed

variable {ns : List Node}

theorem plain_parts (h : ∀ n ∈ ns, Printed n) : Token.Plain (partLeaves ns).flatten := by
  induction ns with
  | nil => exact .nil
  | cons n ns ih =>
    obtain ⟨hn, hns⟩ := List.forall_mem_cons.1 h
    exact hn.plain.append (ih hns)

theorem groupedParts_eq (h : ∀ n ∈ ns, Printed n) (p : Place) : groupedParts p ns = ns := by
  rw [groupedParts_eq_map]
  exact (List.map_congr_left fun n hn => (h n hn).grouped p).trans (List.map_id ns)

/-- A node that is written by its parts. -/
theorem node {kind : Kind}
    (hgrouped : ∀ p, Syntax.grouped p (.node kind ns) = .node kind (groupedParts p.alone ns))
    (hleaves : (Node.node kind ns).leaves = (partLeaves ns).flatten)
    (h : List.Forall Printed ns) : Printed (.node kind ns) := by
  rw [List.forall_iff_forall_mem] at h
  refine ⟨fun p => ?_, ?_⟩
  · rw [hgrouped, groupedParts_eq h]
  · rw [hleaves]
    exact plain_parts h

theorem group {delim : Delimiter} (hdelim : delim ≠ .brace) (h : List.Forall Printed ns) :
    Printed (.group delim ns) := by
  rw [List.forall_iff_forall_mem] at h
  refine ⟨fun p => ?_, .group hdelim (plain_parts h) .nil⟩
  have hgrouped : Syntax.grouped p (.group delim ns) = .group delim (groupedParts p.alone ns) := rfl
  rw [hgrouped, groupedParts_eq h]

theorem word {raw : Bool} {name : String} (h : Ident.isSpelling raw name = true) :
    Printed (.word raw name) :=
  ⟨fun _ => rfl, .word h .nil⟩

theorem lifetime {n : Node} (h : n.IsLifetime) : Printed n := by
  cases h with
  | intro h => exact ⟨fun _ => rfl, .lifetime h .nil⟩

theorem op {marks : String} (h : Token.Plain (Token.ofOperator marks.toList)) :
    Printed (.op marks) :=
  ⟨fun _ => rfl, h⟩

theorem none : Printed .none := ⟨fun _ => rfl, .nil⟩

theorem noAttributes : Printed (.list []) := ⟨fun _ => rfl, .nil⟩

theorem separated {sep : String} {elems parts : List Node} (hparts : Separated sep elems parts)
    (hsep : Printed (.op sep)) (h : ∀ n ∈ elems, Printed n) : ∀ n ∈ parts, Printed n := by
  induction hparts with
  | nil => exact h
  | last n => exact h
  | cons n _ ih =>
    obtain ⟨hn, hrest⟩ := List.forall_mem_cons.1 h
    exact List.forall_mem_cons.2 ⟨hn, List.forall_mem_cons.2 ⟨hsep, ih hrest⟩⟩

theorem intersperse {sep : String} (hsep : Printed (.op sep)) (h : ∀ n ∈ ns, Printed n) :
    ∀ n ∈ ns.intersperse (.op sep), Printed n := by
  cases ns with
  | nil => exact h
  | cons first rest =>
    obtain ⟨hfirst, hrest⟩ := List.forall_mem_cons.1 h
    rw [intersperse_cons]
    refine List.forall_mem_cons.2 ⟨hfirst, fun n hn => ?_⟩
    obtain ⟨step, hstep, hn⟩ := List.mem_flatMap.1 hn
    rcases List.mem_cons.1 hn with rfl | hn
    · exact hsep
    · rw [List.mem_singleton.1 hn]
      exact hrest step hstep

theorem binder {n : Node} (h : n.IsBinder) : Printed n := by
  cases h with
  | none => exact .none
  | @lifetimes params parts hparams hparts =>
    have hparams : ∀ n ∈ params, Printed n := by
      intro n hn
      obtain ⟨h⟩ := hparams n hn
      exact .node (fun _ => rfl) rfl ⟨.noAttributes, .lifetime (.intro h), .none⟩
    have hlist : Printed (.node .separated parts) :=
      .node (fun _ => rfl) rfl
        (List.forall_iff_forall_mem.2 (.separated hparts (.op (.mark rfl .nil)) hparams))
    exact .node (fun _ => rfl) rfl
      ⟨.word (by decide), .op (.mark rfl .nil), hlist, .op (.mark rfl .nil)⟩

end Printed

/-! ### Generic lists -/

theorem isLifetimeLike_of_argument {n : Node} (h : n.IsPlain .argument) :
    n.isLifetimeLike = false ∧ n.isOp = false := by
  cases h with
  | typeArgument h => cases h <;> exact ⟨rfl, rfl⟩
  | _ => exact ⟨rfl, rfl⟩

theorem isLifetimeLike_of_isLifetime {n : Node} (h : n.IsLifetime) :
    n.isLifetimeLike = true ∧ n.isOp = false := by
  cases h with
  | intro => exact ⟨rfl, rfl⟩

theorem pairElements_cons {n : Node} (h : n.isOp = false) (ts sep : List Token) (marks : String)
    (rest : List (Node × List Token)) :
    pairElements ((n, ts) :: (.op marks, sep) :: rest) =
      (n.isLifetimeLike, ts, sep) :: pairElements rest := by
  cases n with
  | op => cases h
  | _ => rfl

theorem pairElements_singleton {n : Node} (h : n.isOp = false) (ts : List Token) :
    pairElements [(n, ts)] = [(n.isLifetimeLike, ts, [])] := by
  cases n with
  | op => cases h
  | _ => rfl

theorem joinElements_cons (ts : List Token) {sep : List Token} (h : sep ≠ [])
    (rest : List (List Token × List Token)) :
    joinElements ((ts, sep) :: rest) = ts ++ (sep ++ joinElements rest) := by
  cases rest with
  | nil => simp [joinElements]
  | cons next rest => simp [joinElements, h]

/-- The elements of a sequence, each with the separator after it, are written as the sequence is. -/
theorem pairElements_of_separated {elems parts : List Node} (hparts : Separated "," elems parts)
    (hop : ∀ n ∈ elems, n.isOp = false) :
    (pairElements (parts.zip (partLeaves parts))).map (·.1) = elems.map isLifetimeLike ∧
      joinElements ((pairElements (parts.zip (partLeaves parts))).map (·.2)) =
        (partLeaves parts).flatten := by
  induction hparts with
  | nil => exact ⟨rfl, rfl⟩
  | last n =>
    have hpairs : pairElements ([n].zip (partLeaves [n])) = [(n.isLifetimeLike, n.leaves, [])] :=
      pairElements_singleton (hop n List.mem_cons_self) _
    rw [hpairs]
    exact ⟨rfl, rfl⟩
  | @cons n elems parts _ ih =>
    obtain ⟨hn, hop⟩ := List.forall_mem_cons.1 hop
    obtain ⟨hflags, htokens⟩ := ih hop
    have hpairs : pairElements ((n :: .op "," :: parts).zip (partLeaves (n :: .op "," :: parts))) =
        (n.isLifetimeLike, n.leaves, (Node.op ",").leaves) ::
          pairElements (parts.zip (partLeaves parts)) :=
      pairElements_cons hn _ _ _ _
    rw [hpairs]
    constructor
    · rw [List.map_cons, List.map_cons, hflags]
    · rw [List.map_cons, joinElements_cons _ (leaves_op_ne_nil (by decide)), htokens]
      rfl

/-- **A generic list** that names lifetimes first is written as it stands. -/
theorem leaves_genericList {lifetimes args parts : List Node}
    (hlifetimes : ∀ n ∈ lifetimes, IsLifetime n) (hargs : ∀ n ∈ args, IsPlain .argument n)
    (hparts : Separated "," (lifetimes ++ args) parts) :
    (Node.node .genericList parts).leaves = (partLeaves parts).flatten := by
  have hop : ∀ n ∈ lifetimes ++ args, n.isOp = false :=
    List.forall_mem_append.2 ⟨fun n hn => (isLifetimeLike_of_isLifetime (hlifetimes n hn)).2,
      fun n hn => (isLifetimeLike_of_argument (hargs n hn)).2⟩
  obtain ⟨hflags, htokens⟩ := pairElements_of_separated hparts hop
  have hleaves : (Node.node .genericList parts).leaves =
    arrangeGeneric (parts.zip (partLeaves parts)) := rfl
  rw [hleaves, arrangeGeneric, List.partition_eq_filter_filter, ← htokens]
  -- the lifetimes are in front already
  rw [List.map_append] at hflags
  obtain ⟨first, second, hpairs, hfirst, hsecond⟩ := List.map_eq_append_iff.1 hflags
  have hfirst : ∀ pair ∈ first, pair.1 = true := by
    have hall : ∀ flag ∈ first.map (·.1), flag = true := by
      rw [hfirst]
      exact List.forall_mem_map.2 fun n hn => (isLifetimeLike_of_isLifetime (hlifetimes n hn)).1
    exact List.forall_mem_map.1 hall
  have hsecond : ∀ pair ∈ second, pair.1 = false := by
    have hall : ∀ flag ∈ second.map (·.1), flag = false := by
      rw [hsecond]
      exact List.forall_mem_map.2 fun n hn => (isLifetimeLike_of_argument (hargs n hn)).1
    exact List.forall_mem_map.1 hall
  have hsorted : first ++ second = (first ++ second).filter (·.1) ++
      (first ++ second).filter (not ∘ (·.1)) := by
    rw [List.filter_append, List.filter_append, List.filter_eq_self.2 hfirst,
      List.filter_eq_nil_iff.2, List.filter_eq_nil_iff.2, List.filter_eq_self.2]
    all_goals simp_all
  rw [hpairs]
  dsimp only
  rw [← hsorted]

/-! ### Plain types -/

namespace IsPlain

/-- **A plain type** needs no parentheses and has plain tokens. -/
theorem printed {role : Role} {n : Node} (h : n.IsPlain role) : Printed n := by
  have colons : Printed (.op "::") := .op (.joint rfl (.mark rfl .nil))
  have comma : Printed (.op ",") := .op (.mark rfl .nil)
  have plus : Printed (.op "+") := .op (.mark rfl .nil)
  have opening : Printed (.op "<") := .op (.mark rfl .nil)
  have closing : Printed (.op ">") := .op (.mark rfl .nil)
  have equals : Printed (.op "=") := .op (.mark rfl .nil)
  have colon : Printed (.op ":") := .op (.mark rfl .nil)
  have word {raw : Bool} {name : String} {P : Bool}
      (h : (Ident.isSpelling raw name && P) = true) : Printed (.word raw name) :=
    .word (Bool.and_eq_true_iff.1 h).1
  have keyword {w : String} (h : pathKeywords.contains w = true) : Printed (.word false w) := by
    have hall : ∀ w ∈ pathKeywords, Ident.isSpelling false w = true := by decide
    exact .word (hall w (List.contains_iff_mem.1 h))
  have number {text : String} (h : Lexer.isWholeNumber text = true) :
      Printed (.node .exprLit [.list [], .literal text]) :=
    .node (fun _ => rfl) rfl ⟨.noAttributes, fun _ => rfl, .number h .nil⟩
  have separated {sep : String} {elems parts : List Node} (hsep : Printed (.op sep))
      (hparts : Separated sep elems parts) (h : ∀ n ∈ elems, Printed n) :
      Printed (.node .separated parts) :=
    .node (fun _ => rfl) rfl (List.forall_iff_forall_mem.2 (Printed.separated hparts hsep h))
  have chain {sep : String} {elems : List Node} (hsep : Printed (.op sep))
      (h : ∀ n ∈ elems, Printed n) : Printed (.node .separated (elems.intersperse (.op sep))) :=
    .node (fun _ => rfl) rfl (List.forall_iff_forall_mem.2 (Printed.intersperse hsep h))
  have optional {n m : Node} (h : n = m ∨ n = .none) (hm : Printed m) : Printed n := by
    rcases h with rfl | rfl
    · exact hm
    · exact .none
  induction h with
  | keyword h => exact .node (fun _ => rfl) rfl ⟨keyword h, .none⟩
  | segment h _ ih => exact .node (fun _ => rfl) rfl ⟨word h, ih⟩
  | noAngle => exact .none
  | @angleArgs style lead lifetimes args parts hlead hlifetimes hargs hparts ih =>
    have hlead : Printed lead := by
      rcases hlead with rfl | ⟨rfl, -⟩
      · exact colons
      · exact .none
    have hall : ∀ n ∈ lifetimes ++ args, Printed n :=
      List.forall_mem_append.2 ⟨fun n hn => .lifetime (hlifetimes n hn), ih⟩
    have hlist : Printed (.node .genericList parts) :=
      .node (fun _ => rfl) (leaves_genericList hlifetimes hargs hparts)
        (List.forall_iff_forall_mem.2 (Printed.separated hparts comma hall))
    exact .node (fun _ => rfl) rfl ⟨hlead, opening, hlist, closing⟩
  | typeArgument _ ih => exact ih
  | constArgument h => exact .node (fun _ => rfl) rfl (number h)
  | assocType h _ _ ihArgs ih =>
    exact .node (fun _ => rfl) rfl ⟨word h, ihArgs, equals, ih⟩
  | assocConst h _ hnumber ihArgs =>
    exact .node (fun _ => rfl) rfl
      ⟨word h, ihArgs, equals, .node (fun _ => rfl) rfl (number hnumber)⟩
  | constraint h _ _ hparts _ ihArgs ih =>
    exact .node (fun _ => rfl) rfl ⟨word h, ihArgs, colon, separated plus hparts ih⟩
  | path hlead _ ih => exact .node (fun _ => rfl) rfl ⟨optional hlead colons, chain colons ih⟩
  | uncalled _ ih => exact ih
  | @call lead args front raw name hlead _ h _ ih ihArgs =>
    have hlast : Printed (.node .segment [.word raw name, args]) :=
      .node (fun _ => rfl) rfl ⟨word h, ihArgs⟩
    have hsegments := List.forall_mem_append.2 ⟨ih, List.forall_mem_singleton.2 hlast⟩
    exact .node (fun _ => rfl) rfl ⟨optional hlead colons, chain colons hsegments⟩
  | parenArgs _ hparts _ ih ihOutput =>
    exact .node (fun _ => rfl) rfl ⟨.group nofun (separated comma hparts ih), ihOutput⟩
  | noOutput => exact .none
  | output _ ih => exact .node (fun _ => rfl) rfl ⟨.op (.joint rfl (.mark rfl .nil)), ih⟩
  | qualified _ _ _ ih ihTrait ihSegments =>
    exact .node (fun _ => rfl) rfl
      ⟨opening, ih, ihTrait, closing, colons, chain colons ihSegments⟩
  | noTrait => exact .none
  | asTrait _ ih => exact .node (fun _ => rfl) rfl ⟨.word (by decide), ih⟩
  | typePath _ ih => exact .node (fun _ => rfl) rfl ih
  | typeQualified _ ih => exact .node (fun _ => rfl) rfl ih
  | reference hlifetime hmutable _ ih =>
    have hlifetime := hlifetime.elim Printed.lifetime (· ▸ Printed.none)
    exact .node (fun _ => rfl) rfl ⟨.op (.mark rfl .nil), hlifetime,
      optional hmutable (.word (by decide)), ih⟩
  | @pointer _ qualifier _ hqualifier _ ih =>
    have hword : Printed (.word false qualifier) := by
      rcases hqualifier with rfl | rfl <;> exact .word (by decide)
    exact .node (fun _ => rfl) rfl ⟨.op (.mark rfl .nil), hword, ih⟩
  | unit => exact .node (fun _ => rfl) rfl (.group nofun ⟨fun _ => rfl, .nil⟩)
  | tuple _ hparts ih =>
    obtain ⟨hfirst, hrest⟩ := List.forall_mem_cons.1 ih
    have hlist := List.forall_mem_cons.2 ⟨hfirst, List.forall_mem_cons.2
      ⟨comma, Printed.separated hparts comma hrest⟩⟩
    exact .node (fun _ => rfl) rfl (.group nofun (.node (fun _ => rfl) rfl
      (List.forall_iff_forall_mem.2 hlist)))
  | paren _ ih => exact .node (fun _ => rfl) rfl (.group nofun ih)
  | slice _ ih => exact .node (fun _ => rfl) rfl (.group nofun ih)
  | array _ _ ih ihLength =>
    exact .node (fun _ => rfl) rfl (.group nofun ⟨ih, .op (.mark rfl .nil), ihLength⟩)
  | number h => exact number h
  | constant _ ih => exact .node (fun _ => rfl) rfl ⟨.noAttributes, ih⟩
  | qualifiedConstant _ ih => exact .node (fun _ => rfl) rfl ⟨.noAttributes, ih⟩
  | never => exact .node (fun _ => rfl) rfl (.op (.mark rfl .nil))
  | infer => exact .node (fun _ => rfl) rfl (.word (by decide))
  | function hbinder hsafety habi _ hparts _ ih ihOutput =>
    have habi := optional habi (.node (fun _ => rfl) rfl ⟨.word (by decide), .none⟩)
    exact .node (fun _ => rfl) rfl ⟨.binder hbinder, optional hsafety (.word (by decide)), habi,
      .word (by decide), .group nofun (separated comma hparts ih), ihOutput⟩
  | fnArg _ ih => exact .node (fun _ => rfl) rfl ⟨.noAttributes, .none, ih⟩
  | namedArg h _ _ ih =>
    exact .node (fun _ => rfl) rfl
      ⟨.noAttributes, .node (fun _ => rfl) rfl ⟨word h, colon⟩, ih⟩
  | object _ _ _ ih => exact .node (fun _ => rfl) rfl ⟨.word (by decide), chain plus ih⟩
  | existential _ _ _ ih => exact .node (fun _ => rfl) rfl ⟨.word (by decide), chain plus ih⟩
  | lifetimeBound h => exact .lifetime h
  | traitBound _ ih => exact ih
  | parenBound _ ih => exact .node (fun _ => rfl) rfl (.group nofun ih)
  | trait hbinder hmaybe _ ih =>
    have hmaybe := optional (hmaybe.imp_left And.left) (.op (.mark rfl .nil))
    exact .node (fun _ => rfl) rfl ⟨.binder hbinder, hmaybe, ih⟩

/-- The tokens of a plain type are those at its leaves. -/
theorem tokens_eq {role : Role} {n : Node} (h : n.IsPlain role) : n.tokens = n.leaves := by
  rw [Node.tokens, h.printed.grouped]

end IsPlain

end Node

/-! ### How plain types begin -/

/-- The words that begin paths. -/
def pathWords : List String := ["super", "self", "Self", "crate"]

/-- Whether a path begins here. -/
def beginsPath : List Token → Bool
  | .word raw name :: _ => raw || !isKeyword name || pathWords.contains name
  | .punct ':' true :: .punct ':' _ :: _ => true
  | _ => false

/-- Whether a path goes on here after a word, with arguments or another segment, or has ended. -/
def continuesPath : List Token → Bool
  | [] => true
  | .punct '<' _ :: _ => true
  | .punct ':' true :: .punct ':' _ :: _ => true
  | .group _ _ :: _ => true
  | _ => false

/-- The keywords that begin types. -/
def typeKeywords : List String :=
  pathWords ++ ["for", "unsafe", "extern", "fn", "dyn", "impl", "_"]

/-- Whether a type begins here. -/
def beginsType : List Token → Bool
  | .word raw name :: _ => raw || !isKeyword name || typeKeywords.contains name
  | .punct c _ :: _ => [':', '<', '&', '*', '!'].contains c
  | .group delim _ :: _ => delim ≠ .brace
  | _ => false

/-- Whether a trait begins here, as a bound. -/
def beginsTrait (ts : List Token) : Bool :=
  beginsPath ts || Parser.atWord "for" ts || Parser.atOp "?" ts

/-- Whether a bound begins here. -/
def beginsBound (ts : List Token) : Bool :=
  beginsTrait ts || Parser.atLifetime ts || Parser.atGroup .paren ts

theorem beginsBound_iff {ts : List Token} : beginsBound ts = true ↔
    beginsPath ts = true ∨ Parser.atWord "for" ts = true ∨ Parser.atOp "?" ts = true ∨
      Parser.atLifetime ts = true ∨ Parser.atGroup .paren ts = true := by
  simp only [beginsBound, beginsTrait, Bool.or_eq_true, or_assoc]

/-- The beginning of a text is that of a longer one, however many marks are joint. -/
theorem shows_beginsPath {ts : List Token} (h : beginsPath ts = true) :
    Parser.Shows (beginsPath · = true) ts := by
  intro us hus after
  cases hus with
  | nil => cases h
  | word => exact h
  | lifetime => cases h
  | literal => cases h
  | group => cases h
  | punct hjoint hrest =>
    unfold beginsPath at h
    split at h
    · rename_i heq
      cases heq
    · rename_i heq
      cases heq
      cases hrest with
      | punct =>
        rw [hjoint rfl]
        rfl
    · cases h

theorem shows_beginsType {ts : List Token} (h : beginsType ts = true) :
    Parser.Shows (beginsType · = true) ts := by
  intro us hus after
  cases hus with
  | nil => cases h
  | _ => exact h

theorem shows_beginsTrait {ts : List Token} (h : beginsTrait ts = true) :
    Parser.Shows (beginsTrait · = true) ts := by
  intro us hus after
  rw [beginsTrait, Bool.or_eq_true, Bool.or_eq_true] at h ⊢
  rcases h with (h | h) | h
  · exact .inl (.inl (shows_beginsPath h hus after))
  · cases hus with
    | word => exact .inl (.inr h)
    | _ => cases h
  · cases hus with
    | punct => exact .inr h
    | _ => cases h

theorem shows_beginsBound {ts : List Token} (h : beginsBound ts = true) :
    Parser.Shows (beginsBound · = true) ts := by
  intro us hus after
  rw [beginsBound, Bool.or_eq_true, Bool.or_eq_true] at h ⊢
  rcases h with (h | h) | h
  · exact .inl (.inl (shows_beginsTrait h hus after))
  · cases hus with
    | lifetime => exact .inl (.inr rfl)
    | _ => cases h
  · cases hus with
    | group => exact .inr h
    | _ => cases h

theorem beginsType_of_beginsPath {ts : List Token} (h : beginsPath ts = true) :
    beginsType ts = true := by
  unfold beginsPath at h
  split at h
  · simp only [beginsType, typeKeywords, Bool.or_eq_true, List.contains_iff_mem, List.mem_append]
      at h ⊢
    tauto
  · rfl
  · cases h

theorem beginsTrait_of_beginsPath {ts : List Token} (h : beginsPath ts = true) :
    beginsTrait ts = true := by
  rw [beginsTrait, h, Bool.true_or, Bool.true_or]

theorem beginsBound_of_beginsTrait {ts : List Token} (h : beginsTrait ts = true) :
    beginsBound ts = true := by
  rw [beginsBound, h, Bool.true_or, Bool.true_or]

theorem beginsPath_append {ts : List Token} (h : beginsPath ts = true) (us : List Token) :
    beginsPath (ts ++ us) = true := by
  unfold beginsPath at h
  split at h
  · exact h
  · rfl
  · cases h

theorem beginsBound_append {ts : List Token} (h : beginsBound ts = true) (us : List Token) :
    beginsBound (ts ++ us) = true := by
  cases ts with
  | nil => cases h
  | cons t ts =>
    rw [beginsBound_iff] at h ⊢
    rcases h with h | h | h | h | h
    · exact .inl (beginsPath_append h us)
    · exact .inr (.inl h)
    · cases t with
      | punct => exact .inr (.inr (.inl h))
      | _ => cases h
    · cases t with
      | lifetime => exact .inr (.inr (.inr (.inl rfl)))
      | _ => cases h
    · cases t with
      | group => exact .inr (.inr (.inr (.inr h)))
      | _ => cases h

/-- A word that takes arguments begins a path. -/
theorem beginsPath_word {raw : Bool} {name : String} (h : Ident.takesArguments raw name = true)
    (ts : List Token) : beginsPath (.word raw name :: ts) = true := by
  have hself : pathWords.contains "Self" = true := by decide
  rw [Ident.takesArguments, Bool.and_eq_true, Bool.or_eq_true, List.contains_iff_mem,
    List.mem_singleton] at h
  rw [beginsPath]
  rcases h.2 with h | rfl
  · rw [h, Bool.true_or]
  · rw [hself, Bool.or_true]

namespace Node

namespace IsPlain

variable {n : Node}

theorem beginsPath_segment {style : Bool} (h : n.IsPlain (.segment style)) :
    ∃ raw name ts, n.leaves = .word raw name :: ts ∧ beginsPath n.leaves = true := by
  cases h with
  | @keyword _ name h =>
    have hall : ∀ w ∈ pathKeywords, (false || !isKeyword w || pathWords.contains w) = true := by
      decide
    exact ⟨_, _, _, rfl, hall name (List.contains_iff_mem.1 h)⟩
  | segment h => exact ⟨_, _, _, rfl, beginsPath_word h _⟩

theorem beginsPath_segments {lead first : Node} {rest : List Node}
    (hlead : lead = .op "::" ∨ lead = .none) (hfirst : beginsPath first.leaves = true) :
    beginsPath (Node.node .path
      [lead, .node .separated ((first :: rest).intersperse (.op "::"))]).leaves = true := by
  rw [intersperse_cons]
  rcases hlead with rfl | rfl
  · rfl
  · exact beginsPath_append (beginsPath_append hfirst _) _

theorem beginsPath_path {style : Bool} (h : n.IsPlain (.path style)) :
    beginsPath n.leaves = true := by
  cases h with
  | path hlead hsegments =>
    obtain ⟨_, _, _, -, hfirst⟩ := beginsPath_segment (hsegments _ List.mem_cons_self)
    exact beginsPath_segments hlead hfirst

theorem beginsPath_called (h : n.IsPlain .called) : beginsPath n.leaves = true := by
  cases h with
  | uncalled h => exact beginsPath_path h
  | @call lead args front raw name hlead hfront h =>
    cases front with
    | nil => exact beginsPath_segments hlead (beginsPath_word h _)
    | cons first front =>
      obtain ⟨_, _, _, -, hfirst⟩ := beginsPath_segment (hfront _ List.mem_cons_self)
      exact beginsPath_segments hlead hfirst

/-- A segment is a word, and what may follow the segment may follow the word with its arguments. -/
theorem continuesPath_segment {style : Bool} (h : n.IsPlain (.segment style)) :
    ∃ raw name ts, n.leaves = .word raw name :: ts ∧
      ∀ us, continuesPath us = true → continuesPath (ts ++ us) = true := by
  cases h with
  | keyword h => exact ⟨_, _, [], rfl, fun us hus => hus⟩
  | segment h hargs =>
    refine ⟨_, _, _, rfl, fun us hus => ?_⟩
    cases hargs with
    | noAngle => exact hus
    | angleArgs hcolons => rcases hcolons with rfl | ⟨rfl, -⟩ <;> rfl

theorem continuesPath_segments {lead first : Node} {rest : List Node} {raw : Bool} {name : String}
    {ts : List Token} (hlead : lead = .op "::" ∨ lead = .none)
    (hfirst : ∃ raw name ts, first.leaves = .word raw name :: ts ∧
      ∀ us, continuesPath us = true → continuesPath (ts ++ us) = true)
    (hleaves : (Node.node .path
      [lead, .node .separated ((first :: rest).intersperse (.op "::"))]).leaves =
        .word raw name :: ts) : continuesPath ts = true := by
  obtain ⟨_, _, ts', hword, hnext⟩ := hfirst
  have hsteps : continuesPath (partLeaves (stepsOf "::" rest)).flatten = true := by
    cases rest <;> rfl
  rw [intersperse_cons] at hleaves
  rcases hlead with rfl | rfl
  · cases hleaves
  · have htokens : (Node.node .path
        [.none, .node .separated (first :: stepsOf "::" rest)]).leaves =
        first.leaves ++ (partLeaves (stepsOf "::" rest)).flatten := List.append_nil _
    rw [htokens, hword] at hleaves
    obtain ⟨-, rfl⟩ := List.cons.inj hleaves
    exact hnext _ hsteps

/-- **A path without leading colons** goes on after its first word. -/
theorem continuesPath_path {style raw : Bool} {name : String} {ts : List Token}
    (h : n.IsPlain (.path style)) (hleaves : n.leaves = .word raw name :: ts) :
    continuesPath ts = true := by
  cases h with
  | path hlead hsegments =>
    exact continuesPath_segments hlead (continuesPath_segment (hsegments _ List.mem_cons_self))
      hleaves

theorem continuesPath_called {raw : Bool} {name : String} {ts : List Token} (h : n.IsPlain .called)
    (hleaves : n.leaves = .word raw name :: ts) : continuesPath ts = true := by
  cases h with
  | uncalled h => exact continuesPath_path h hleaves
  | @call lead args front _ _ hlead hfront h hargs =>
    cases front with
    | nil =>
      refine continuesPath_segments hlead ⟨_, _, _, rfl, fun us _ => ?_⟩ hleaves
      cases hargs
      rfl
    | cons first front =>
      exact continuesPath_segments hlead (continuesPath_segment (hfront _ List.mem_cons_self))
        hleaves

theorem beginsTrait (h : n.IsPlain .trait) : Syntax.beginsTrait n.leaves = true := by
  cases h with
  | trait hbinder hmaybe h =>
    cases hbinder with
    | lifetimes => rfl
    | none =>
      rcases hmaybe with ⟨rfl, -⟩ | rfl
      · rfl
      · exact beginsTrait_of_beginsPath (beginsPath_append (beginsPath_called h) _)

theorem beginsBound (h : n.IsPlain .bound) : Syntax.beginsBound n.leaves = true := by
  cases h with
  | lifetimeBound h =>
    cases h
    rfl
  | traitBound h => exact beginsBound_of_beginsTrait h.beginsTrait
  | parenBound => rfl

/-- **A plain type** begins as types do. -/
theorem beginsType {allowPlus : Bool} (h : n.IsPlain (.type allowPlus)) :
    Syntax.beginsType n.leaves = true := by
  cases h with
  | typePath h =>
    exact beginsType_of_beginsPath (beginsPath_append (beginsPath_called h) _)
  | typeQualified h =>
    cases h
    rfl
  | function hbinder hsafety habi =>
    cases hbinder with
    | lifetimes => rfl
    | none =>
      rcases hsafety with rfl | rfl <;> rcases habi with rfl | rfl <;> rfl
  | _ => rfl

end IsPlain

end Node

end Scaffold.Syntax
