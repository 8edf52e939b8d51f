import Scaffold.Proofs.Syntax.Reads.Type
import Scaffold.Syntax.Grammar.Entry

/-!
# Plain types are read back

The tokens of a plain type are read as the type, also where more of their marks are joint
(`readTokens_type`).

Each part of a plain type is read by the grammar of every depth that is not less than the number of
its tokens (`ReadBack`): what the parser of a type reads itself takes a token at least, so the parts
that it leaves to the grammar one level below are smaller.  There is one lemma for each constructor
of `Node.IsPlain`, and the induction is made of them (`Node.IsPlain.readBack`).
-/

namespace Scaffold.Syntax

open Scaffold.Syntax.Parser

/-! ### Sizes -/

theorem Separated.subset {sep : String} {elems parts : List Node} (h : Separated sep elems parts) :
    elems ⊆ parts := by
  induction h with
  | nil => exact List.Subset.refl _
  | last n => exact List.Subset.refl _
  | cons n _ ih => exact List.cons_subset_cons n (List.subset_cons_of_subset _ ih)

theorem subset_intersperse (sep : Node) (ns : List Node) : ns ⊆ ns.intersperse sep := by
  induction ns with
  | nil => exact List.Subset.refl _
  | cons n ns ih =>
    cases ns with
    | nil => exact List.Subset.refl _
    | cons m ns => exact List.cons_subset_cons n (List.subset_cons_of_subset _ ih)

theorem Token.listSize_ofOperator (marks : List Char) :
    listSize (ofOperator marks) = marks.length := by
  induction marks with
  | nil => rfl
  | cons c cs ih =>
    cases cs with
    | nil => rfl
    | cons d ds =>
      rw [ofOperator, listSize, ih, Nat.add_comm]
      · rfl
      · exact List.cons_ne_nil d ds

namespace Node

variable {n : Node} {ns : List Node}

/-- The number of tokens of a node. -/
def size (n : Node) : Nat := Token.listSize n.leaves

/-- The number of tokens of the nodes in a list. -/
def partsSize (ns : List Node) : Nat := Token.listSize (partLeaves ns).flatten

@[simp] theorem size_word (raw : Bool) (name : String) : (word raw name).size = 1 := rfl

@[simp] theorem size_op (marks : String) : (op marks).size = marks.toList.length :=
  Token.listSize_ofOperator _

@[simp] theorem size_none : Node.none.size = 0 := rfl

@[simp] theorem size_noAttributes : (list []).size = 0 := rfl

@[simp] theorem size_literal (text : String) : (literal text).size = 1 := rfl

@[simp] theorem size_group (delim : Delimiter) (ns : List Node) :
    (group delim ns).size = partsSize ns + 1 := rfl

@[simp] theorem partsSize_nil : partsSize [] = 0 := rfl

@[simp] theorem partsSize_cons (n : Node) (ns : List Node) :
    partsSize (n :: ns) = n.size + partsSize ns :=
  Token.listSize_append _ _

/-- The lists that are not always written as they stand. -/
def listKinds : List Kind := [.generics, .boundsClause, .whereClause, .genericList]

theorem size_node {kind : Kind} (h : kind ∉ listKinds) (ns : List Node) :
    (node kind ns).size = partsSize ns := by
  simp only [listKinds, List.mem_cons, List.not_mem_nil, or_false, not_or] at h
  obtain ⟨hgenerics, hbounds, hwhere, hlist⟩ := h
  rw [size, leaves]
  · rfl
  all_goals simp_all

theorem partLeaves_append (ns ms : List Node) :
    partLeaves (ns ++ ms) = partLeaves ns ++ partLeaves ms := by
  induction ns with
  | nil => rfl
  | cons n ns ih => rw [List.cons_append, partLeaves, ih]; rfl

theorem size_le_of_mem (h : n ∈ ns) : n.size ≤ partsSize ns := by
  induction ns with
  | nil => cases h
  | cons m ns ih =>
    rw [partsSize_cons]
    rcases List.mem_cons.1 h with rfl | h
    · exact Nat.le_add_right _ _
    · exact Nat.le_trans (ih h) (Nat.le_add_left _ _)

theorem size_le_separated {sep : String} {parts : List Node} (hparts : Separated sep ns parts)
    (h : n ∈ ns) : n.size ≤ partsSize parts :=
  size_le_of_mem (hparts.subset h)

theorem size_le_intersperse (sep : Node) (h : n ∈ ns) : n.size ≤ partsSize (ns.intersperse sep) :=
  size_le_of_mem (subset_intersperse sep ns h)

end Node

/-! ### What is read back -/

/-- **How a part of a type is read back,** by the grammar of every depth that its size allows. -/
def ReadBack : Role → Node → Prop
  | .type allowPlus, n => ∀ d, n.size < d →
    Reads ((Grammar.ofDepth d).type allowPlus) n.leaves (EndsType allowPlus) n
  | .path style, n => ∀ d, n.size ≤ d → Reads (path (.ofDepth d) style) n.leaves EndsPath n
  | .called, n => ∀ d, n.size ≤ d → ∀ allowPlus,
    Reads (path (.ofDepth d) false >>= withParenArguments (.ofDepth d)) n.leaves
      (EndsType allowPlus) n
  | .qualified style, n => ∀ d, n.size ≤ d →
    Reads (qualifiedPath (.ofDepth d) style) n.leaves EndsPath n
  | .asClause, n => n = .none ∨ ∃ p, n = .node .asClause [.word false "as", p] ∧
    ∀ d, n.size ≤ d → Reads (path (.ofDepth d) false) p.leaves EndsPath p
  | .segment style, n => ∀ d, n.size ≤ d →
    Reads (pathSegment (.ofDepth d) style) n.leaves EndsSegment n
  | .angle style, n => ∀ d, n.size ≤ d → ∀ raw name, Ident.takesArguments raw name = true →
    Reads (pathSegment (.ofDepth d) style) (Node.node .segment [.word raw name, n]).leaves
      EndsSegment (.node .segment [.word raw name, n])
  | .argument, n => ∀ d, n.size < d →
    Reads (genericArgument (.ofDepth d)) n.leaves EndsArgument n
  | .parens, n => ∀ d, n.size ≤ d →
    Reads (parenArguments (.ofDepth d)) n.leaves (EndsType false) n
  | .output, n => ∀ d, n.size ≤ d →
    Reads (returnType? (.ofDepth d) false) n.leaves (EndsType false) n
  | .length, n => ∀ d, n.size < d → Reads ((Grammar.ofDepth d).expr true) n.leaves (· = []) n
  | .fnArg, n => ∀ d, n.size < d → ReadsInput (.ofDepth d) n
  | .bound, n => ∀ d, n.size < d → ∀ allowCapture allowConst,
    Reads ((Grammar.ofDepth d).bound allowCapture allowConst) n.leaves (EndsType false) n
  | .trait, n => ∀ d, n.size ≤ d → ∀ allowConst,
    Reads (traitBound (.ofDepth d) allowConst) n.leaves (EndsType false) (n, false)

namespace ReadBack

/-- A type is read by the parser of types, one level above what it leaves to the grammar. -/
theorem of_type {n : Node} {allowPlus : Bool} (h : ∀ d, n.size ≤ d →
    Reads (Parser.type (.ofDepth d) allowPlus) n.leaves (EndsType allowPlus) n) :
    ReadBack (.type allowPlus) n := by
  intro d hd
  cases d with
  | zero => cases hd
  | succ d => exact h d (Nat.le_of_lt_succ hd)

theorem of_bound {n : Node} (h : ∀ d, n.size ≤ d → ∀ allowCapture allowConst,
    Reads (singleBound (.ofDepth d) allowCapture allowConst) n.leaves (EndsType false) n) :
    ReadBack .bound n := by
  intro d hd
  cases d with
  | zero => cases hd
  | succ d => exact h d (Nat.le_of_lt_succ hd)

theorem of_length {n : Node} (h : ∀ d, n.size ≤ d →
    Reads (expr (.ofDepth d) true) n.leaves (· = []) n) : ReadBack .length n := by
  intro d hd
  cases d with
  | zero => cases hd
  | succ d => exact h d (Nat.le_of_lt_succ hd)

end ReadBack

/-! ### How arguments begin -/

/-- The marks after the arguments of a list, and before them, begin none of them. -/
theorem shows_argument {n : Node} (h : n.IsPlain .argument) :
    Shows (fun ts => atOp ">" ts = false ∧ atOp "=" ts = false) n.leaves := by
  intro us hus after
  cases h with
  | typeArgument h =>
    have hhead := shows_beginsType h.beginsType hus after
    exact ⟨atOp_of_beginsType hhead rfl (by decide), atOp_of_beginsType hhead rfl (by decide)⟩
  | constArgument =>
    obtain _ | _ | _ | hus := hus
    exact ⟨rfl, rfl⟩
  | assocType | assocConst | constraint =>
    obtain _ | hus := hus
    exact ⟨rfl, rfl⟩

theorem shows_lifetime {n : Node} (h : n.IsLifetime) :
    Shows (fun ts => atOp ">" ts = false ∧ atOp "=" ts = false) n.leaves := by
  obtain ⟨h⟩ := h
  rintro us (_ | _ | ⟨⟨⟩⟩) after
  exact ⟨rfl, rfl⟩

theorem shows_segment {n : Node} {style : Bool} (h : n.IsPlain (.segment style)) :
    Shows (atAnyWord · = true) n.leaves := by
  obtain ⟨raw, name, ts, hleaves, -⟩ := h.beginsPath_segment
  rw [hleaves]
  intro us hus after
  obtain _ | hus := hus
  rfl

theorem shows_parens {n : Node} (h : n.IsPlain .parens) :
    Shows (atGroup .paren · = true) n.leaves := by
  cases h
  intro us hus after
  obtain _ | _ | _ | _ | _ | hus := hus
  rfl

/-- A type that has no name is not taken for one that has. -/
theorem atName_of_isPlain {n : Node} {allowPlus : Bool} (h : n.IsPlain (.type allowPlus))
    {us after : List Token} (hus : Token.Tightened n.leaves us) (hafter : EndsInput after) :
    atName (us ++ after) = false := by
  -- the words that could be a name are those that begin paths, which go on after them, and `_`
  cases h with
  | @typePath _ p h =>
    have htokens : (Node.node .typePath [p]).leaves = p.leaves := List.append_nil _
    rw [htokens] at hus
    have hword := apart_after_word h.beginsPath_called (fun _ _ _ => h.continuesPath_called) hus
      hafter.hash
    cases hhead : us ++ after with
    | nil => rfl
    | cons t ts =>
      cases t with
      | word raw name =>
        have hcolon : atColon (after1 (.word raw name :: ts)) = false :=
          (hword raw name ts hhead).2 hafter.colon
        rw [atName, hcolon, Bool.and_false]
      | _ => rfl
  | typeQualified h =>
    cases h
    obtain _ | _ | _ | _ | ⟨-, hus⟩ := hus
    rfl
  | function hbinder hsafety habi =>
    cases hbinder with
    | lifetimes =>
      obtain _ | hus := hus
      rfl
    | none =>
      rcases hsafety with rfl | rfl <;> rcases habi with rfl | rfl <;> obtain _ | hus := hus <;> rfl
  | infer =>
    obtain _ | ⟨⟨⟩⟩ := hus
    have hcolon : atColon after = false := by rw [atColon, hafter.colon, Bool.false_and]
    exact hcolon
  | reference | pointer | never =>
    obtain _ | _ | _ | _ | ⟨-, hus⟩ := hus
    rfl
  | object | existential =>
    obtain _ | hus := hus
    rfl
  | unit | tuple | paren | slice | array =>
    obtain _ | _ | _ | _ | _ | hus := hus
    rfl

theorem isNone_of_isPlain {n : Node} {allowPlus : Bool} (h : n.IsPlain (.type allowPlus)) :
    n.isNone = false := by
  cases h <;> rfl

/-! ### Segments and their arguments -/

namespace ReadBack

variable {style allowPlus : Bool} {n args : Node} {raw : Bool} {name : String}

theorem keyword (h : pathKeywords.contains name = true) :
    ReadBack (.segment style) (.node .segment [.word false name, .none]) :=
  fun _ _ => (reads_keywordSegment h).mono fun _ _ => trivial

theorem segment (h : Ident.takesArguments raw name = true) (hargs : ReadBack (.angle style) args) :
    ReadBack (.segment style) (.node .segment [.word raw name, args]) := by
  intro d hd
  refine hargs d ?_ raw name h
  simp (disch := decide) [Node.size_node] at hd
  omega

theorem noAngle : ReadBack (.angle style) .none :=
  fun _ _ _ _ h => reads_bareSegment h

theorem angleArgs {colons : Node} {lifetimes args parts : List Node}
    (hcolons : colons = .op "::" ∨ colons = .none ∧ style = false)
    (hlifetimes : ∀ n ∈ lifetimes, n.IsLifetime) (hplain : ∀ n ∈ args, n.IsPlain .argument)
    (hargs : ∀ n ∈ args, ReadBack .argument n) (hparts : Separated "," (lifetimes ++ args) parts) :
    ReadBack (.angle style)
      (.node .angleArgs [colons, .op "<", .node .genericList parts, .op ">"]) := by
  intro d hd raw name hname
  have hleaves := Node.leaves_genericList hlifetimes hplain hparts
  have hsize : (Node.node .genericList parts).size = Node.partsSize parts :=
    congrArg Token.listSize hleaves
  -- the brackets are tokens, so each argument is smaller than the list
  simp (disch := decide) [Node.size_node, hsize] at hd
  have helems : ∀ n ∈ lifetimes ++ args,
      Reads (genericArgument (.ofDepth d)) n.leaves EndsArgument n := by
    refine List.forall_mem_append.2 ⟨fun n hn => reads_lifetimeArgument (hlifetimes n hn),
      fun n hn => hargs n hn d ?_⟩
    have hle := Node.size_le_separated hparts (List.mem_append_right lifetimes hn)
    omega
  have hbegin : ∀ n ∈ lifetimes ++ args,
      Shows (fun ts => atOp ">" ts = false ∧ atOp "=" ts = false) n.leaves :=
    List.forall_mem_append.2 ⟨fun n hn => shows_lifetime (hlifetimes n hn),
      fun n hn => shows_argument (hplain n hn)⟩
  have hread := reads_angleArguments (hcolons.imp_right And.left) hparts hleaves helems
    (fun n hn => (hbegin n hn).mono fun _ h => h.1) (fun _ => True)
  exact (reads_angleSegment hname hcolons hparts hleaves hread
    fun n hn => (hbegin n hn).mono fun _ h => h.2).mono fun _ _ => trivial

/-! ### Paths -/

theorem path {lead first : Node} {rest : List Node} (hlead : lead = .op "::" ∨ lead = .none)
    (hplain : ∀ n ∈ first :: rest, n.IsPlain (.segment style))
    (h : ∀ n ∈ first :: rest, ReadBack (.segment style) n) :
    ReadBack (.path style)
      (.node .path [lead, .node .separated ((first :: rest).intersperse (.op "::"))]) := by
  intro d hd
  refine reads_path hlead (fun n hn => h n hn d ?_) fun n hn => shows_segment (hplain n hn)
  have hle := Node.size_le_intersperse (.op "::") hn
  simp (disch := decide) only [Node.size_node, Node.partsSize_cons, Node.partsSize_nil] at hd
  omega

theorem uncalled (h : ReadBack (.path false) n) : ReadBack .called n :=
  fun d hd allowPlus => (h d hd).bind_nil (reads_withoutParens n allowPlus)
    fun _ hafter => ⟨hafter.angle, hafter.path⟩

theorem parenArgs {output : Node} {inputs parts : List Node}
    (hplain : ∀ n ∈ inputs, n.IsPlain (.type true)) (h : ∀ n ∈ inputs, ReadBack (.type true) n)
    (hparts : Separated "," inputs parts) (houtput : ReadBack .output output) :
    ReadBack .parens (.node .parenArgs [.group .paren [.node .separated parts], output]) := by
  intro d hd
  simp (disch := decide) [Node.size_node] at hd
  refine reads_parenArguments hparts (fun n hn => h n hn d ?_)
    (fun n hn => (hplain n hn).beginsType) (houtput d (by omega))
  have hle := Node.size_le_separated hparts hn
  omega

theorem noOutput : ReadBack .output .none :=
  fun _ _ => reads_output (.inl rfl)

theorem output (h : ReadBack (.type false) n) :
    ReadBack .output (.node .returnType [.op "->", n]) := by
  intro d hd
  refine reads_output (.inr ⟨n, rfl, h d ?_⟩)
  simp (disch := decide) [Node.size_node] at hd
  omega

/-- A path without its arguments in parentheses, and these. -/
theorem leaves_call (lead word args : Node) (front : List Node) :
    (Node.node .path [lead, .node .separated
      ((front ++ [Node.node .segment [word, args]]).intersperse (.op "::"))]).leaves =
    (Node.node .path [lead, .node .separated
      ((front ++ [Node.node .segment [word, .none]]).intersperse (.op "::"))]).leaves ++
      args.leaves := by
  rw [intersperse_concat, intersperse_concat]
  simp [Node.leaves, Node.partLeaves, Node.partLeaves_append, Node.none]

/-- The path without the arguments in parentheses is read first. -/
theorem call {lead : Node} {front : List Node} (hlead : lead = .op "::" ∨ lead = .none)
    (hplain : ∀ n ∈ front, n.IsPlain (.segment false))
    (hfront : ∀ n ∈ front, ReadBack (.segment false) n)
    (h : Ident.takesArguments raw name = true) (hparens : args.IsPlain .parens)
    (hargs : ReadBack .parens args) :
    ReadBack .called (.node .path [lead, .node .separated
      ((front ++ [Node.node .segment [.word raw name, args]]).intersperse (.op "::"))]) := by
  have hbare : ReadBack (.path false) (.node .path [lead, .node .separated
      ((front ++ [Node.node .segment [.word raw name, .none]]).intersperse (.op "::"))]) := by
    have hsegments := List.forall_mem_append.2 ⟨hplain, List.forall_mem_singleton.2
      (Node.IsPlain.segment h .noAngle)⟩
    have hreads := List.forall_mem_append.2 ⟨hfront, List.forall_mem_singleton.2
      (segment h noAngle)⟩
    obtain ⟨first, rest, heq⟩ := List.exists_cons_of_ne_nil
      (List.append_ne_nil_of_right_ne_nil front (List.cons_ne_nil _ _))
    rw [heq] at hsegments hreads ⊢
    exact path hlead hsegments hreads
  intro d hd allowPlus
  have htokens := leaves_call lead (.word raw name) args front
  rw [Node.size, htokens, Token.listSize_append] at hd
  rw [htokens]
  refine (Reads.bind (hbare d (Nat.le_trans (Nat.le_add_right _ _) hd))
    (reads_withParens (hargs d (Nat.le_trans (Nat.le_add_left _ _) hd)) (shows_parens hparens))
    fun us hus after _ => ?_).mono fun _ hafter => hafter.single
  have hgroup := shows_parens hparens hus after
  exact ⟨atOp_of_atGroup hgroup rfl, atOp_of_atGroup hgroup rfl⟩

theorem qualified {trait first : Node} {rest : List Node} (h : ReadBack (.type true) n)
    (htrait : ReadBack .asClause trait) (hplain : ∀ s ∈ first :: rest, s.IsPlain (.segment style))
    (hsegments : ∀ s ∈ first :: rest, ReadBack (.segment style) s) :
    ReadBack (.qualified style) (.node .qualifiedPath
      [.op "<", n, trait, .op ">", .op "::",
        .node .separated ((first :: rest).intersperse (.op "::"))]) := by
  intro d hd
  simp (disch := decide) [Node.size_node] at hd
  refine reads_qualifiedPath (h d (by omega)) ?_ (fun s hs => hsegments s hs d ?_)
    fun s hs => shows_segment (hplain s hs)
  · rcases htrait with rfl | ⟨p, rfl, hp⟩
    · exact .inl rfl
    · exact .inr ⟨p, rfl, hp d (by omega)⟩
  · have hle := Node.size_le_intersperse (.op "::") hs
    omega

theorem noTrait : ReadBack .asClause .none := .inl rfl

theorem asTrait (h : ReadBack (.path false) n) :
    ReadBack .asClause (.node .asClause [.word false "as", n]) := by
  refine .inr ⟨n, rfl, fun d hd => h d ?_⟩
  simp (disch := decide) [Node.size_node] at hd
  omega

end ReadBack

/-! ### Types -/

namespace ReadBack

variable {allowPlus : Bool} {n : Node}

theorem typePath (hplain : n.IsPlain .called) (h : ReadBack .called n) :
    ReadBack (.type allowPlus) (.node .typePath [n]) := by
  refine of_type fun d hd => reads_typePath hplain.beginsPath_called
    (fun _ _ _ => hplain.continuesPath_called) (h d ?_ allowPlus)
  simp (disch := decide) [Node.size_node] at hd
  exact hd

theorem typeQualified (hplain : n.IsPlain (.qualified false)) (h : ReadBack (.qualified false) n) :
    ReadBack (.type allowPlus) (.node .typePath [n]) := by
  refine of_type fun d hd => ?_
  cases hplain
  refine reads_typeQualified (h d ?_)
  rwa [Node.size_node (by decide), Node.partsSize_cons] at hd

theorem reference {lifetime mutable : Node} (hlifetime : lifetime.IsLifetime ∨ lifetime = .none)
    (hmutable : mutable = .word false "mut" ∨ mutable = .none) (hplain : n.IsPlain (.type false))
    (h : ReadBack (.type false) n) :
    ReadBack (.type allowPlus) (.node .typeRef [.op "&", lifetime, mutable, n]) := by
  refine of_type fun d hd => reads_reference hlifetime hmutable hplain.beginsType (h d ?_)
  simp (disch := decide) [Node.size_node] at hd
  omega

theorem pointer {qualifier : String} (hqualifier : qualifier = "const" ∨ qualifier = "mut")
    (h : ReadBack (.type false) n) :
    ReadBack (.type allowPlus) (.node .typePtr [.op "*", .word false qualifier, n]) := by
  refine of_type fun d hd => reads_pointer hqualifier (h d ?_)
  simp (disch := decide) [Node.size_node] at hd
  omega

theorem unit :
    ReadBack (.type allowPlus) (.node .typeTuple [.group .paren [.node .separated []]]) :=
  of_type fun _ _ => reads_unit

theorem tuple {first : Node} {rest parts : List Node}
    (hplain : ∀ n ∈ first :: rest, n.IsPlain (.type true))
    (h : ∀ n ∈ first :: rest, ReadBack (.type true) n) (hparts : Separated "," rest parts) :
    ReadBack (.type allowPlus)
      (.node .typeTuple [.group .paren [.node .separated (first :: .op "," :: parts)]]) := by
  refine of_type fun d hd => reads_tuple hparts (fun n hn => h n hn d ?_)
    fun n hn => (hplain n hn).beginsType
  simp (disch := decide) [Node.size_node] at hd
  rcases List.mem_cons.1 hn with rfl | hn
  · omega
  · have hle := Node.size_le_separated hparts hn
    omega

theorem paren (hplain : n.IsPlain (.type true)) (h : ReadBack (.type true) n) :
    ReadBack (.type allowPlus) (.node .typeParen [.group .paren [n]]) := by
  refine of_type fun d hd => reads_parenType hplain.beginsType (h d ?_)
  simp (disch := decide) [Node.size_node] at hd
  omega

theorem slice (h : ReadBack (.type true) n) :
    ReadBack (.type allowPlus) (.node .typeSlice [.group .bracket [n]]) := by
  refine of_type fun d hd => reads_slice (h d ?_)
  simp (disch := decide) [Node.size_node] at hd
  omega

theorem array {length : Node} (h : ReadBack (.type true) n) (hlength : ReadBack .length length) :
    ReadBack (.type allowPlus) (.node .typeArray [.group .bracket [n, .op ";", length]]) := by
  refine of_type fun d hd => ?_
  simp (disch := decide) [Node.size_node] at hd
  exact reads_array (h d (by omega)) (hlength d (by omega))

theorem number (text : String) : ReadBack .length (.node .exprLit [.list [], .literal text]) :=
  of_length fun _ _ => reads_number text

theorem constant (hplain : n.IsPlain (.path true)) (h : ReadBack (.path true) n) :
    ReadBack .length (.node .exprPath [.list [], n]) := by
  refine of_length fun d hd => reads_constantPath hplain.beginsPath_path
    (fun _ _ _ => hplain.continuesPath_path) (h d ?_)
  simp (disch := decide) [Node.size_node] at hd
  exact hd

theorem qualifiedConstant (hplain : n.IsPlain (.qualified true))
    (h : ReadBack (.qualified true) n) : ReadBack .length (.node .exprPath [.list [], n]) := by
  refine of_length fun d hd => ?_
  cases hplain
  refine reads_constantQualified (h d ?_)
  rwa [Node.size_node (by decide), Node.partsSize_cons, Node.partsSize_cons,
    Node.size_noAttributes, Nat.zero_add] at hd

theorem never : ReadBack (.type allowPlus) (.node .typeNever [.op "!"]) :=
  of_type fun _ _ => reads_never

theorem infer : ReadBack (.type allowPlus) (.node .typeInfer [.word false "_"]) :=
  of_type fun _ _ => reads_infer

/-! ### Function pointers -/

theorem fnArg (hplain : n.IsPlain (.type true)) (h : ReadBack (.type true) n) :
    ReadBack .fnArg (.node .typeArg [.list [], .none, n]) := by
  intro d hd
  simp (disch := decide) [Node.size_node] at hd
  exact readsInput_type hplain.beginsType (isNone_of_isPlain hplain) (h d (by omega))
    fun _ hus _ hafter => atName_of_isPlain hplain hus hafter

theorem namedArg {raw : Bool} {name : String} (hname : Ident.namesArgument raw name = true)
    (hplain : n.IsPlain (.type true)) (hcolon : beginsWithColon n.leaves = false)
    (h : ReadBack (.type true) n) :
    ReadBack .fnArg (.node .typeArg [.list [], .node .argName [.word raw name, .op ":"], n]) := by
  intro d hd
  simp (disch := decide) [Node.size_node] at hd
  exact readsInput_named hname hplain.beginsType hcolon (isNone_of_isPlain hplain) (h d (by omega))

theorem function {binder unsafety abi output : Node} {args parts : List Node}
    (hbinder : binder.IsBinder) (hsafety : unsafety = .word false "unsafe" ∨ unsafety = .none)
    (habi : abi = .node .abi [.word false "extern", .none] ∨ abi = .none)
    (hargs : ∀ n ∈ args, ReadBack .fnArg n) (hparts : Separated "," args parts)
    (houtput : ReadBack .output output) :
    ReadBack (.type allowPlus) (.node .typeFn [binder, unsafety, abi, .word false "fn",
      .group .paren [.node .separated parts], output]) := by
  refine of_type fun d hd => ?_
  simp (disch := decide) [Node.size_node] at hd
  refine reads_function hsafety habi hbinder hparts (fun n hn => hargs n hn d ?_)
    (houtput d (by omega))
  have hle := Node.size_le_separated hparts hn
  omega

/-! ### Bounds -/

theorem lifetimeBound (h : n.IsLifetime) : ReadBack .bound n :=
  of_bound fun _ _ allowCapture allowConst =>
    (reads_lifetimeBound h allowCapture allowConst).mono fun _ _ => trivial

theorem traitBound (hplain : n.IsPlain .trait) (h : ReadBack .trait n) : ReadBack .bound n :=
  of_bound fun d hd _ allowConst => reads_singleBound hplain.beginsTrait (h d hd allowConst)

theorem parenBound (h : ReadBack .trait n) :
    ReadBack .bound (.node .parenBound [.group .paren [n]]) := by
  refine of_bound fun d hd _ allowConst =>
    (reads_parenBound (h d ?_ allowConst)).mono fun _ _ => trivial
  simp (disch := decide) [Node.size_node] at hd
  omega

theorem trait {binder maybe : Node} (hbinder : binder.IsBinder)
    (hmaybe : maybe = .op "?" ∧ binder = .none ∨ maybe = .none) (hplain : n.IsPlain .called)
    (h : ReadBack .called n) : ReadBack .trait (.node .traitBound [binder, maybe, n]) := by
  intro d hd allowConst
  simp (disch := decide) [Node.size_node] at hd
  exact reads_traitBound hplain.beginsPath_called (h d (by omega) false) hbinder allowConst hmaybe

section Bounds

variable {first : Node} {rest : List Node} (hplain : ∀ n ∈ first :: rest, n.IsPlain .bound)
  (h : ∀ n ∈ first :: rest, ReadBack .bound n) (hplus : allowPlus = false → rest = [])
  (hnames : namesTrait (.node .separated ((first :: rest).intersperse (.op "+"))) = true)

include hplain h hplus

theorem bounds (allowCapture allowConst : Bool) {d : ℕ}
    (hd : Node.partsSize ((first :: rest).intersperse (.op "+")) < d) :
    Reads (Parser.bounds (.ofDepth d) allowPlus allowCapture allowConst)
      (Node.node .separated ((first :: rest).intersperse (.op "+"))).leaves (EndsType allowPlus)
      (.node .separated ((first :: rest).intersperse (.op "+"))) :=
  reads_bounds hplus (fun n hn => h n hn d
    (Nat.lt_of_le_of_lt (Node.size_le_intersperse (.op "+") hn) hd) allowCapture allowConst)
    fun n hn => (hplain n hn).beginsBound

include hnames

theorem object : ReadBack (.type allowPlus) (.node .typeDyn
    [.word false "dyn", .node .separated ((first :: rest).intersperse (.op "+"))]) := by
  refine of_type fun d hd => ?_
  simp (disch := decide) only [Node.size_node, Node.partsSize_cons, Node.partsSize_nil,
    Node.size_word] at hd
  refine reads_object ?_ hnames (bounds hplain h hplus false false (by omega))
  rw [intersperse_cons]
  exact beginsBound_append (hplain first List.mem_cons_self).beginsBound _

theorem existential : ReadBack (.type allowPlus) (.node .typeImpl
    [.word false "impl", .node .separated ((first :: rest).intersperse (.op "+"))]) := by
  refine of_type fun d hd => ?_
  simp (disch := decide) only [Node.size_node, Node.partsSize_cons, Node.partsSize_nil,
    Node.size_word] at hd
  exact reads_existential hnames (bounds hplain h hplus true true (by omega))

end Bounds

/-! ### Arguments in angle brackets -/

theorem typeArgument (hplain : n.IsPlain (.type true)) (h : ReadBack (.type true) n) :
    ReadBack .argument n :=
  fun d hd => reads_typeArgument hplain.beginsType (h d hd)

theorem constArgument (text : String) :
    ReadBack .argument (.node .constArg [.node .exprLit [.list [], .literal text]]) :=
  fun _ _ => reads_constArgument text

section Bindings

variable {raw : Bool} {name : String} {args : Node} (hname : Ident.takesArguments raw name = true)
  (hplainArgs : args.IsPlain (.angle false)) (hargs : ReadBack (.angle false) args)

include hname hplainArgs

theorem isPlain_segmentType :
    (segmentType (.word raw name) args).IsPlain (.type true) :=
  .typePath (.uncalled (.path (.inr rfl)
    (List.forall_mem_singleton.2 (.segment hname hplainArgs))))

omit hname in
theorem isKind_of_isPlain_angle : args.isKind .parenArgs = false := by
  cases hplainArgs <;> rfl

include hargs

theorem segmentType {d : ℕ} (hd : args.size + 1 < d) :
    Reads ((Grammar.ofDepth d).type true) (segmentType (.word raw name) args).leaves (EndsType true)
      (segmentType (.word raw name) args) := by
  have hsegment : (Node.node .segment [.word raw name, args]).IsPlain (.segment false) :=
    .segment hname hplainArgs
  have hpath := path (.inr rfl) (List.forall_mem_singleton.2 hsegment)
    (List.forall_mem_singleton.2 (segment hname hargs))
  have htype : ReadBack (.type true) (Parser.segmentType (.word raw name) args) :=
    typePath (.uncalled (.path (.inr rfl) (List.forall_mem_singleton.2 hsegment))) (uncalled hpath)
  refine htype d ?_
  rw [Node.size, leaves_segmentType, Token.listSize_append, Nat.add_comm]
  exact hd

theorem assocType (hplain : n.IsPlain (.type true)) (h : ReadBack (.type true) n) :
    ReadBack .argument (.node .assocType [.word raw name, args, .op "=", n]) := by
  intro d hd
  simp (disch := decide) [Node.size_node] at hd
  exact reads_assocType (isPlain_segmentType hname hplainArgs).beginsType
    (isKind_of_isPlain_angle hplainArgs) (segmentType hname hplainArgs hargs (by omega))
    hplain.beginsType (h d (by omega))

theorem assocConst (text : String) :
    ReadBack .argument (.node .assocConst [.word raw name, args, .op "=",
      .node .constArg [.node .exprLit [.list [], .literal text]]]) := by
  intro d hd
  simp (disch := decide) [Node.size_node] at hd
  exact reads_assocConst (isPlain_segmentType hname hplainArgs).beginsType
    (isKind_of_isPlain_angle hplainArgs) (segmentType hname hplainArgs hargs (by omega)) text

theorem constraint {bounds parts : List Node} (hplain : ∀ n ∈ bounds, n.IsPlain .bound)
    (h : ∀ n ∈ bounds, ReadBack .bound n) (hparts : Separated "+" bounds parts)
    (hcolon : beginsWithColon (Node.partLeaves parts).flatten = false) :
    ReadBack .argument
      (.node .constraint [.word raw name, args, .op ":", .node .separated parts]) := by
  intro d hd
  simp (disch := decide) [Node.size_node] at hd
  refine reads_constraint (isPlain_segmentType hname hplainArgs).beginsType
    (isKind_of_isPlain_angle hplainArgs) (segmentType hname hplainArgs hargs (by omega)) hparts
    (fun n hn => (hplain n hn).beginsBound) (fun n hn => h n hn d ?_ false true) hcolon
  have hle := Node.size_le_separated hparts hn
  omega

end Bindings

end ReadBack

/-! ### Whole types -/

/-- **Each part of a plain type is read back.** -/
theorem Node.IsPlain.readBack {role : Role} {n : Node} (h : n.IsPlain role) : ReadBack role n := by
  induction h with
  | keyword h => exact .keyword h
  | segment h _ ih => exact .segment h ih
  | noAngle => exact .noAngle
  | angleArgs hcolons hlifetimes hargs hparts ih =>
    exact .angleArgs hcolons hlifetimes hargs ih hparts
  | typeArgument h ih => exact .typeArgument h ih
  | constArgument => exact .constArgument _
  | assocType hname hargs h ihArgs ih => exact .assocType hname hargs ihArgs h ih
  | assocConst hname hargs _ ihArgs => exact .assocConst hname hargs ihArgs _
  | constraint hname hargs hbounds hparts hcolon ihArgs ih =>
    exact .constraint hname hargs ihArgs hbounds ih hparts hcolon
  | path hlead hsegments ih => exact .path hlead hsegments ih
  | uncalled _ ih => exact .uncalled ih
  | call hlead hfront h hargs ih ihArgs => exact .call hlead hfront ih h hargs ihArgs
  | parenArgs hinputs hparts _ ih ihOutput => exact .parenArgs hinputs ih hparts ihOutput
  | noOutput => exact .noOutput
  | output _ ih => exact .output ih
  | qualified _ _ hsegments ih ihTrait ihSegments =>
    exact .qualified ih ihTrait hsegments ihSegments
  | noTrait => exact .noTrait
  | asTrait _ ih => exact .asTrait ih
  | typePath h ih => exact .typePath h ih
  | typeQualified h ih => exact .typeQualified h ih
  | reference hlifetime hmutable h ih => exact .reference hlifetime hmutable h ih
  | pointer hqualifier _ ih => exact .pointer hqualifier ih
  | unit => exact .unit
  | tuple h hparts ih => exact .tuple h ih hparts
  | paren h ih => exact .paren h ih
  | slice _ ih => exact .slice ih
  | array _ _ ih ihLength => exact .array ih ihLength
  | number => exact .number _
  | constant h ih => exact .constant h ih
  | qualifiedConstant h ih => exact .qualifiedConstant h ih
  | never => exact .never
  | infer => exact .infer
  | function hbinder hsafety habi _ hparts _ ih ihOutput =>
    exact .function hbinder hsafety habi ih hparts ihOutput
  | fnArg h ih => exact .fnArg h ih
  | namedArg hname h hcolon ih => exact .namedArg hname h hcolon ih
  | object h hplus hnames ih => exact .object h ih hplus hnames
  | existential h hplus hnames ih => exact .existential h ih hplus hnames
  | lifetimeBound h => exact .lifetimeBound h
  | traitBound h ih => exact .traitBound h ih
  | parenBound _ ih => exact .parenBound ih
  | trait hbinder hmaybe h ih => exact .trait hbinder hmaybe h ih

/-- **The tokens of a plain type** are read as the type: the grammar for them is deep enough. -/
theorem readTokens_type {n : Node} (h : n.IsPlain (.type true)) {us : List Token}
    (hus : Token.Tightened n.leaves us) : readTokens (fun g => g.type true) us = some n := by
  have hdepth : n.size < 4 * Token.listSize us + 8 := by
    rw [hus.listSize_eq, Node.size]
    omega
  have hrun := h.readBack _ hdepth hus (endsType_nil true)
  rw [List.append_nil] at hrun
  unfold readTokens Grammar.forTokens
  dsimp only
  rw [hrun]

end Scaffold.Syntax
