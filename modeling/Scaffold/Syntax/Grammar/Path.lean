import Scaffold.Syntax.Grammar.Basic

/-!
# Paths, their arguments, and attributes

A path in a type may open its arguments directly (`Vec<u8>`), one in an expression only after
`::`.  Attributes hold a path in module style, without arguments, and then nothing, a group of
tokens, or a value.
-/

namespace Scaffold.Syntax.Parser

/-! ### Paths without arguments -/

/-- A segment made of a word alone. -/
def bareSegment (word : Node) : Node := .node .segment [word, .none]

/-- The path made of one word. -/
def wordPath (word : Node) : Node :=
  .node .path [.none, .node .separated [bareSegment word]]

/-- A path in module style. -/
def modPath : Parser Node := do
  let lead ← op? "::"
  let segments ← loop (fun (acc : List Node) => do
    let ts ← rest
    if atIdent ts || atPathWord ts then
      let acc := bareSegment (← anyWord) :: acc
      if atOp "::" (← rest) then pure (.inl ((← op "::") :: acc)) else pure (.inr acc)
    else failure) []
  pure (.node .path [lead, .node .separated segments.reverse])

/-- Whether no segment of the path has arguments. -/
def isModPath (path : Node) : Bool :=
  path.isKind .path && (path.part 1).elems.all fun segment => (segment.part 1).isNone

/-! ### Attributes -/

/-- What an attribute holds. -/
def attributeContent (g : Grammar) : Parser Node := do
  let path ←
    if atWord "unsafe" (← rest) then do pure (wordPath (← anyWord)) else modPath
  let ts ← rest
  if atGroup .paren ts || atGroup .bracket ts || atGroup .brace ts then
    let (_, tokens) ← anyGroup
    pure (.node .metaList [path, tokens])
  else if atOp "=" ts then
    let eq ← op "="
    let ts ← rest
    if atOp "#" ts && atGroup .bracket (after1 ts) then failure
    else pure (.node .metaValue [path, eq, ← g.expr true])
  else pure (.node .metaPath [path])

/-- An attribute of what follows it. -/
def outerAttribute (g : Grammar) : Parser Node := do
  let mark ← op "#"
  let content ← groupNode .bracket (do pure [← attributeContent g])
  pure (.node .attr [mark, .none, content])

/-- An attribute of what encloses it. -/
def innerAttribute (g : Grammar) : Parser Node := do
  let mark ← op "#"
  let bang ← op "!"
  let content ← groupNode .bracket (do pure [← attributeContent g])
  pure (.node .attr [mark, bang, content])

/-- The attributes before an element. -/
def outerAttributes (g : Grammar) : Parser Node := do
  pure (.list (← manyWhile (atOp "#") (outerAttribute g)))

/-- The attributes at the beginning of a body. -/
def innerAttributes (g : Grammar) : Parser Node := do
  pure (.list (← manyWhile (fun ts => atOp "#" ts && atOp "!" (after1 ts)) (innerAttribute g)))

/-! ### Generic arguments -/

/-- The list of no attributes. -/
def noAttributes : Node := .list []

/-- An expression as a generic argument: a literal, a name, or a block. -/
def constArgument (g : Grammar) : Parser Node := do
  let ts ← rest
  if atLiteral ts then pure (.node .constArg [.node .exprLit [noAttributes, ← literal]])
  else if atIdent ts then
    pure (.node .constArg [.node .exprPath [noAttributes, wordPath (← ident)]])
  else if atGroup .brace ts then
    pure (.node .constArg [.node .exprBlock [noAttributes, .none, ← g.block true]])
  else failure

/-- The word and the angle arguments of a type that is a single segment. -/
def singleSegment? (type : Node) : Option (Node × Node) :=
  match type with
  | .node .typePath [.node .path [lead, .node .separated [.node .segment [word, args]]]] =>
    if lead.isNone && !args.isKind .parenArgs then some (word, args) else none
  | _ => none

/-- A generic argument. -/
def genericArgument (g : Grammar) : Parser Node := do
  let ts ← rest
  if atLifetime ts && !atOp "+" (after1 ts) then lifetime
  else if atLiteral ts || atGroup .brace ts then constArgument g
  else
    let type ← g.type true
    match singleSegment? type with
    | none => pure type
    | some (word, args) =>
      let ts ← rest
      if atOp "=" ts then
        let eq ← op "="
        let ts ← rest
        if atLiteral ts || atGroup .brace ts then
          pure (.node .assocConst [word, args, eq, ← constArgument g])
        else pure (.node .assocType [word, args, eq, ← g.type true])
      else if atOp ":" ts then
        let colon ← op ":"
        let bounds ← sepWhile (fun ts => atOp "," ts || atOp ">" ts) "+" (g.bound false true)
        pure (.node .constraint [word, args, colon, bounds])
      else pure type

/-- Arguments in angle brackets. -/
def angleArguments (g : Grammar) : Parser Node := do
  let colons ← op? "::"
  let opening ← op "<"
  let args ← sepUntil (atOp ">") "," (genericArgument g) .genericList
  let closing ← op ">"
  pure (.node .angleArgs [colons, opening, args, closing])

/-- The type after an arrow, where there is one. -/
def returnType? (g : Grammar) (allowPlus : Bool) : Parser Node := do
  if atOp "->" (← rest) then
    pure (.node .returnType [← op "->", ← g.type allowPlus])
  else pure .none

/-- Arguments in parentheses, with the type of the result. -/
def parenArguments (g : Grammar) : Parser Node := do
  let inputs ← groupNode .paren (do pure [← terminated "," (g.type true)])
  let output ← returnType? g false
  pure (.node .parenArgs [inputs, output])

/-! ### Paths with arguments -/

/-- A segment of a path. -/
def pathSegment (g : Grammar) (exprStyle : Bool) : Parser Node := do
  let ts ← rest
  if ["super", "self", "crate", "try"].any (atWord · ts) then
    pure (bareSegment (← anyWord))
  else
    let word ← identOr ["Self"]
    let ts ← rest
    if (!exprStyle && atOp "<" ts && !atOp "<=" ts) || (atOp "::" ts && atOp "<" (after2 ts)) then
      pure (.node .segment [word, ← angleArguments g])
    else pure (bareSegment word)

/-- The segments after one: a group in parentheses ends the path. -/
def pathRest (g : Grammar) (exprStyle : Bool) (acc : List Node) : Parser (List Node) :=
  loop (fun (acc : List Node) => do
    let ts ← rest
    if atOp "::" ts && !atGroup .paren (after2 ts) then
      let colons ← op "::"
      pure (.inl ((← pathSegment g exprStyle) :: colons :: acc))
    else pure (.inr acc)) acc

/-- A path. -/
def path (g : Grammar) (exprStyle : Bool) : Parser Node := do
  let lead ← op? "::"
  let first ← pathSegment g exprStyle
  let segments ← pathRest g exprStyle [first]
  pure (.node .path [lead, .node .separated segments.reverse])

/-- A path that may begin with a type in angle brackets. -/
def qualifiedPath (g : Grammar) (exprStyle : Bool) : Parser Node := do
  if atOp "<" (← rest) then
    let opening ← op "<"
    let type ← g.type true
    let trait ←
      if atWord "as" (← rest) then do
        pure (.node .asClause [← kw "as", ← path g false])
      else pure .none
    let closing ← op ">"
    let colons ← op "::"
    let first ← pathSegment g exprStyle
    let segments ← loop (fun (acc : List Node) => do
      if atOp "::" (← rest) then
        let colons ← op "::"
        pure (.inl ((← pathSegment g exprStyle) :: colons :: acc))
      else pure (.inr acc)) [first]
    pure (.node .qualifiedPath
      [opening, type, trait, closing, colons, .node .separated segments.reverse])
  else path g exprStyle

/-! ### Parenthesised arguments at the end of a path -/

/-- Whether a segment has no arguments or an empty list of them. -/
def hasNoArguments (segment : Node) : Bool :=
  let args := segment.part 1
  args.isNone || (args.isKind .angleArgs && (args.part 2).elems.isEmpty)

/-- Replaces the arguments of the last segment in a list of parts. -/
def withLastArguments (args : Node) (segments : List Node) : List Node :=
  match segments.reverse with
  | .node .segment [word, _] :: before => (.node .segment [word, args] :: before).reverse
  | _ => segments

/-- Adds arguments in parentheses where they follow a path that has none. -/
def withParenArguments (g : Grammar) (path : Node) : Parser Node := do
  let bare (segments : List Node) : Bool := segments.getLast?.any hasNoArguments
  let ts ← rest
  if atGroup .paren ts || (atOp "::" ts && atGroup .paren (after2 ts)) then
    match path with
    | .node .path [lead, .node .separated segments] =>
      if bare segments then
        let _ ← op? "::"
        let args ← parenArguments g
        pure (.node .path [lead, .node .separated (withLastArguments args segments)])
      else pure path
    | .node .qualifiedPath [opening, type, trait, closing, colons, .node .separated segments] =>
      if bare segments then
        let _ ← op? "::"
        let args ← parenArguments g
        pure (.node .qualifiedPath
          [opening, type, trait, closing, colons, .node .separated (withLastArguments args segments)])
      else pure path
    | _ => pure path
  else pure path

end Scaffold.Syntax.Parser
