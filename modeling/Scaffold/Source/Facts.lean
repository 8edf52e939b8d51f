import Scaffold.Source.Canonical

/-!
# The facts of a source file

A file states facts about its crate: which modules and types there are, what is brought into
scope where, which accessors implementations give to types, and which declarations and calls
there are.  `factsOf` lists them in the order in which a reader comes upon them who reads a where
clause with the parameters and all attributes of a node before the rest of it; the symbol table and
the corpus are built from the list.

What is declared in a block cannot be named from elsewhere, so it states no fact, except for use
declarations and calls, which belong to the module around the block.
-/

namespace Scaffold.Source

open Syntax

/-- A fact. -/
inductive Fact where
  /-- A module. -/
  | module_ (path : ModulePath)
  /-- A type with its fields. -/
  | type (space : ModulePath) (name : String) (kind : TypeKind) (fields : List MemberEntry)
  /-- A binding that a module's use declaration makes; the flag tells whether `::` stands before
  its path. -/
  | binding (space : ModulePath) (rooted : Bool) (b : Binding)
  /-- Accessors in an implementation. -/
  | impl (impl : PendingImpl)
  /-- A node of the corpus. -/
  | node (n : CorpusNode)
  deriving Inhabited

/-! ### Parts of facts -/

/-- The last segment of an attribute's path. -/
def markerOf (attr : Node) : Option String :=
  match attr with
  | .node .attr [_, _, .group _ [content]] =>
    (((content.part 0).part 1).elems.getLast?).map fun segment => (segment.part 0).name
  | _ => none

/-- The visibility that a part states. -/
def visibilityOf (vis : Node) : Visibility :=
  if vis.isNone then .hidden else if (vis.part 1).isNone then .exposed else .restricted

/-- The fields of a struct, where they have names. -/
def fieldsOf (scope : ModulePath) (fields : Node) : List MemberEntry :=
  match fields with
  | .node .fieldsNamed [.group _ [list]] => list.elems.filterMap fun field =>
    match field with
    | .node .field [_, vis, name, _, type] =>
      some ⟨name.name, type, visibilityOf vis, .field, scope⟩
    | _ => none
  | _ => []

/-- Whether no generic parameters are declared. -/
def noParams (generics : Node) : Bool := (generics.part 1).elems.isEmpty

/-- What `set_` makes of the name of a property. -/
def propertyOf (name : String) : Option String :=
  if "set_".toList.isPrefixOf name.toList && name.length > 4 then
    some (String.ofList (name.toList.drop 4))
  else none

/-- The accessor that a method is: one that takes `&self` and returns a value reads a property,
and one whose name begins with `set_`, takes `&mut self` and a value and returns nothing writes
one. -/
def accessorOf (scope : ModulePath) (method : Node) : Option MemberEntry :=
  match method with
  | .node .implFn [_, vis, _, .node .signature
      [_, asyncness, unsafety, _, _, name, generics, .group _ [args], output, _], _] =>
    if !noParams generics || asyncness.isSome || unsafety.isSome then none
    else match args.elems.filter (fun arg => !arg.isKind .variadic) with
      | receiver :: values =>
        if !receiver.isKind .receiver || (receiver.part 1).isNone then none
        else if (receiver.part 3).isNone then
          if values.isEmpty && output.isSome then
            some ⟨name.name, output.part 1, visibilityOf vis, .getter, scope⟩
          else none
        else match values with
          | [.node .patType [_, _, _, type]] =>
            if output.isSome then none
            else (propertyOf name.name).map fun property =>
              ⟨property, type, visibilityOf vis, .setter, scope⟩
          | _ => none
      | [] => none
  | _ => none

/-- The accessors that an implementation gives to the type that it names: none where it is
generic or implements a trait. -/
def implOf (scope : ModulePath) (item : Node) : Option PendingImpl :=
  match item with
  | .node .itemImpl [_, _, _, _, generics, trait_, .node .typePath [.node .path [lead, segments]],
      _, .group _ [_, members]] =>
    let accessors := members.children.filterMap (accessorOf scope)
    if noParams generics && trait_.isNone && !accessors.isEmpty then
      some ⟨SymbolTable.usePathOf lead segments, scope, accessors⟩
    else none
  | _ => none

/-- The call that an expression is, where it goes through a path with type arguments. -/
def callOf (scope : ModulePath) (callee : Node) : Option Call :=
  match callee with
  | .node .exprPath [_, .node .path [_, segments]] =>
    match segments.elems.reverse with
    | .node .segment [method, .node .angleArgs [_, _, args, _]] :: before =>
      let text := Text.ofSegments scope
      some
        { receiver := before.reverse.map fun segment => (segment.part 0).name
          method := method.name
          args := args.elems.map fun arg => ⟨compactText arg.tokens, text⟩
          scope := text }
    | _ => none
  | _ => none

/-- The facts that a type declaration states. -/
def declarationFacts (scope : ModulePath) (attrs name : Node) (kind : DeclarationKind)
    (extensible : Bool) (fields : List MemberEntry) : List Fact :=
  [.type scope name.name (if kind = .struct then .struct else .enum) fields,
    .node (.declaration
      { name := name.name
        space := Text.ofSegments scope
        kind := kind
        markers := attrs.children.filterMap markerOf
        extensible := extensible })]

/-! ### The order of reading -/

/-- The facts that a part of a node states. -/
structure PartFacts where
  /-- Whether the part is a where clause. -/
  isClause : Bool := false
  /-- Those of the attributes at the beginning of a body. -/
  opening : List Fact := []
  /-- All others. -/
  rest : List Fact := []
  deriving Inhabited

/-- All facts of a part. -/
def PartFacts.all (p : PartFacts) : List Fact := p.opening ++ p.rest

/-- Moves where clauses to the place `i` among the other parts. -/
def moveClauses (i : Nat) (parts : List PartFacts) : List PartFacts :=
  let others := parts.filter (!·.isClause)
  others.take i ++ parts.filter (·.isClause) ++ others.drop i

/-- The parts of a node in the order of reading.  A where clause belongs to the parameters that
it constrains, so it is read with them. -/
def readingOrder (kind : Kind) (parts : List PartFacts) : List PartFacts :=
  match kind with
  | .signature => moveClauses 7 parts
  | .itemImpl => moveClauses 5 parts
  | .itemTrait => moveClauses 7 parts
  | .itemTraitAlias => moveClauses 5 parts
  | .traitType => moveClauses 4 parts
  | .implType => moveClauses 6 parts
  | _ => parts

/-- Whether the attributes at the beginning of a node's body are attributes of the node, with other
parts between them and those before it. -/
def marksFromBody : Kind → Bool
  | .itemFn | .itemImpl | .itemTrait | .implFn | .traitFn => true
  | .exprMatch | .exprWhile | .exprFor => true
  | _ => false

/-- The facts of the parts of a node in the order of reading: all attributes of the node come first,
the others in their order. -/
def inReadingOrder (kind : Kind) (parts : List PartFacts) : List Fact :=
  let parts := readingOrder kind parts
  if marksFromBody kind then
    (parts.take 1).flatMap (·.all) ++ (parts.drop 1).flatMap (·.opening) ++
      (parts.drop 1).flatMap (·.rest)
  else parts.flatMap (·.all)

/-- Whether a node is an attribute at the beginning of a body. -/
def isInnerAttribute : Node → Bool
  | .node .attr [_, bang, _] => bang.isSome
  | _ => false

/-- Whether what stands in brackets begins with such attributes. -/
def opensWithAttributes : List Node → Bool
  | .node .list attrs :: _ => attrs.all isInnerAttribute
  | _ => false

/-! ### The facts of a tree -/

/-- Where a node stands: the module, and whether a block lies between the module and it. -/
structure Place where
  scope : ModulePath
  inBlock : Bool := false
  deriving Inhabited

mutual

/-- The facts that a tree states at a place, as a part of another. -/
def readFacts (place : Place) : Node → PartFacts
  | .node .itemMod children =>
    if place.inBlock then {}
    else
      let item : Node := .node .itemMod children
      let scope := place.scope ++ [(item.part 4).name]
      { rest := .module_ scope :: inReadingOrder .itemMod (partFacts ⟨scope, false⟩ children) }
  | .node .itemStruct children =>
    let item : Node := .node .itemStruct children
    let fields := item.part 6
    if place.inBlock then {}
    else
      { rest := declarationFacts place.scope (item.part 0) (item.part 3) .struct
          (fields.isKind .fieldsNamed && noParams (item.part 4)) (fieldsOf place.scope fields) }
  | .node .itemEnum children =>
    let item : Node := .node .itemEnum children
    if place.inBlock then {}
    else { rest := declarationFacts place.scope (item.part 0) (item.part 3) .enum false [] }
  | .node .itemUse children =>
    let item : Node := .node .itemUse children
    { rest := ((UseTree.ofNode (item.part 4)).bindings []).map
        (.binding place.scope (item.part 3).isSome) }
  | .node .itemImpl children =>
    { rest := (if place.inBlock then []
        else ((implOf place.scope (.node .itemImpl children)).map Fact.impl).toList) ++
        inReadingOrder .itemImpl (partFacts place children) }
  | .node .block children =>
    match partFacts { place with inBlock := true } children with
    | [body] => { opening := body.opening, rest := body.rest }
    | parts => { rest := parts.flatMap (·.all) }
  | .node .exprCall children =>
    let call : Node := .node .exprCall children
    { rest := ((callOf place.scope (call.part 1)).map fun c => Fact.node (.call c)).toList ++
        inReadingOrder .exprCall (partFacts place children) }
  | .node kind children =>
    { isClause := kind = .whereClause, rest := inReadingOrder kind (partFacts place children) }
  | .group _ children =>
    let parts := partFacts place children
    if opensWithAttributes children then
      { opening := (parts.take 1).flatMap (·.all), rest := (parts.drop 1).flatMap (·.all) }
    else { rest := parts.flatMap (·.all) }
  | _ => {}

/-- The facts that each part states. -/
def partFacts (place : Place) : List Node → List PartFacts
  | [] => []
  | n :: ns => readFacts place n :: partFacts place ns

end

/-- **The facts that a tree states** at a place. -/
def factsOf (place : Place) (n : Node) : List Fact := (readFacts place n).all

/-- The facts of a file whose items live in `scope`; its module is the first. -/
def fileFacts (scope : ModulePath) (file : Node) : List Fact :=
  .module_ scope :: factsOf ⟨scope, false⟩ file

/-! ### What is built from facts -/

/-- The table with a fact added. -/
def SymbolTable.add (t : SymbolTable) : Fact → SymbolTable
  | .module_ path => t.addModule path
  | .type space name kind fields => t.addType space name kind fields
  | .binding space rooted (.name bound path) => t.addImport space bound ⟨path, rooted⟩
  | .binding space rooted (.glob path) => t.addGlob space ⟨path, rooted⟩
  | .impl impl => t.addImpl impl
  | .node _ => t

/-- The table with facts added. -/
def SymbolTable.addAll (t : SymbolTable) (facts : List Fact) : SymbolTable :=
  facts.foldl SymbolTable.add t

/-- The node that a fact adds to the corpus. -/
def Fact.corpusNode? : Fact → Option CorpusNode
  | .node n => some n
  | _ => none

end Scaffold.Source
