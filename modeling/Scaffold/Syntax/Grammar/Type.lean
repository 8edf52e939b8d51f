import Scaffold.Syntax.Grammar.Path

/-!
# Types, bounds and generic parameters

The grammar of types decides by the first token.  Where `+` is not allowed, as after `&`, only
one bound is read and what follows is left for the caller, who will not accept it.
-/

namespace Scaffold.Syntax.Parser

/-! ### Bounds -/

/-- Whether a bound may begin here, after `+`. -/
def atBound (allowConst : Bool) (ts : List Token) : Bool :=
  atAnyWord ts || atOp "::" ts || atOp "?" ts || atLifetime ts || atGroup .paren ts ||
    (allowConst && atGroup .bracket ts)

/-- Lifetimes bound by `for`, where they stand there. -/
def forLifetimes? (param : Parser Node) : Parser Node := do
  if atWord "for" (← rest) then
    let keyword ← kw "for"
    let opening ← op "<"
    let params ← sepUntil (atOp ">") "," param .separated
    let closing ← op ">"
    pure (.node .forLifetimes [keyword, opening, params, closing])
  else pure .none

/-! ### Generic parameters -/

/-- Whether parameters rather than a qualified path follow `<`. -/
def atGenericParams (ts : List Token) : Bool :=
  let next := after1 ts
  let third := after1 next
  let afterName := atOp ">" third || atOp "," third || (atOp ":" third && !atOp "::" third) ||
    atOp "=" third
  atOp "<" ts &&
    (atOp ">" next || atOp "#" next || ((atLifetime next || atIdent next) && afterName) ||
      atWord "const" next)

/-- The bounds of a lifetime: lifetimes separated by `+`. -/
def lifetimeBounds (stop : List Token → Bool) : Parser Node :=
  sepWhile stop "+" lifetime

/-- A lifetime parameter after its attributes. -/
def lifetimeParam (attrs : Node) : Parser Node := do
  let name ← lifetime
  let bounds ←
    if atOp ":" (← rest) then do
      let colon ← op ":"
      let list ← lifetimeBounds (fun ts => ts.isEmpty || atOp "," ts || atOp ">" ts)
      pure (.node .boundsClause [colon, list])
    else pure .none
  pure (.node .lifetimeParam [attrs, name, bounds])

/-- A type parameter after its attributes. -/
def typeParam (g : Grammar) (attrs : Node) : Parser Node := do
  let name ← ident
  let bounds ←
    if atOp ":" (← rest) then do
      let colon ← op ":"
      let stop := fun ts => ts.isEmpty || atOp "," ts || atOp ">" ts || atOp "=" ts
      let list ← sepWhile stop "+" (g.bound false true)
      pure (.node .boundsClause [colon, list])
    else pure .none
  let default ←
    if atOp "=" (← rest) then do pure (.node .defaultClause [← op "=", ← g.type true])
    else pure .none
  pure (.node .typeParam [attrs, name, bounds, default])

/-- A constant parameter after its attributes. -/
def constParam (g : Grammar) (attrs : Node) : Parser Node := do
  let keyword ← kw "const"
  let name ← ident
  let colon ← op ":"
  let type ← g.type true
  let default ←
    if atOp "=" (← rest) then do pure (.node .defaultClause [← op "=", ← constArgument g])
    else pure .none
  pure (.node .constParam [attrs, keyword, name, colon, type, default])

/-- A generic parameter; `_` may stand for a type parameter. -/
def genericParam (g : Grammar) (allowInferred : Bool) : Parser Node := do
  let attrs ← outerAttributes g
  let ts ← rest
  if atLifetime ts then lifetimeParam attrs
  else if atIdent ts then typeParam g attrs
  else if atWord "const" ts then constParam g attrs
  else if allowInferred && atWord "_" ts then
    pure (.node .typeParam [attrs, ← anyWord, .none, .none])
  else failure

/-- The generic parameters of an item, where there are any. -/
def generics? (g : Grammar) : Parser Node := do
  if atOp "<" (← rest) then
    let opening ← op "<"
    let params ← sepUntil (atOp ">") "," (genericParam g true) .genericList
    let closing ← op ">"
    pure (.node .generics [opening, params, closing])
  else pure .none

/-- Lifetimes bound by `for`. -/
def binder? (g : Grammar) : Parser Node :=
  forLifetimes? (genericParam g false)

/-- A trait as a bound, and whether a `const` modifier stands before it. -/
def traitBound (g : Grammar) (allowConst : Bool) : Parser (Node × Bool) := do
  let binder ← binder? g
  let isConst ←
    if atGroup .bracket (← rest) then do
      group .bracket (do let _ ← kw "const")
      if allowConst then pure true else failure
    else if atWord "const" (← rest) then do
      let _ ← kw "const"
      if allowConst then pure true else failure
    else pure false
  let maybe ← op? "?"
  let binder ← if binder.isNone && maybe.isSome then binder? g else pure binder
  let path ← path g false
  let path ← withParenArguments g path
  if binder.isSome && maybe.isSome then failure
  else pure (.node .traitBound [binder, maybe, path], isConst)

/-- A single bound. -/
def singleBound (g : Grammar) (allowCapture allowConst : Bool) : Parser Node := do
  let start ← rest
  if atLifetime start then lifetime
  else if atWord "use" start then
    let keyword ← kw "use"
    let opening ← op "<"
    let param : Parser Node := do
      if atLifetime (← rest) then lifetime else identOr ["Self"]
    let params ← sepUntil (atOp ">") "," param .separated
    let closing ← op ">"
    if allowCapture then pure (.node .capture [keyword, opening, params, closing]) else failure
  else if atGroup .paren start then
    let (bound, isConst) ← group .paren (traitBound g allowConst)
    if isConst then pure (.node .boundVerbatim [.verbatim (← since start)])
    else pure (.node .parenBound [.group .paren [bound]])
  else
    let (bound, isConst) ← traitBound g allowConst
    if isConst then pure (.node .boundVerbatim [.verbatim (← since start)]) else pure bound

/-- The bounds that follow the parts in `acc`, each after a `+`; `trailing` allows one at the
end. -/
def moreBounds (g : Grammar) (trailing : Bool) (acc : List Node) : Parser Node :=
  loop (fun (acc : List Node) => do
    if atOp "+" (← rest) then
      let plus ← op "+"
      if !trailing || atBound false (← rest) then
        pure (.inl ((← g.bound false false) :: plus :: acc))
      else pure (.inr (.node .separated (plus :: acc).reverse))
    else pure (.inr (.node .separated acc.reverse))) acc

/-- One bound, or several where `+` is allowed. -/
def bounds (g : Grammar) (allowPlus allowCapture allowConst : Bool) : Parser Node :=
  loop (fun (acc : List Node) => do
    let acc := (← g.bound allowCapture allowConst) :: acc
    if allowPlus && atOp "+" (← rest) then
      let plus ← op "+"
      if atBound allowConst (← rest) || (allowConst && atWord "const" (← rest)) then
        pure (.inl (plus :: acc))
      else pure (.inr (.node .separated (plus :: acc).reverse))
    else pure (.inr (.node .separated acc.reverse))) []

/-- Whether a list of bounds holds more than lifetimes and captures. -/
def namesTrait (bounds : Node) : Bool :=
  bounds.elems.any fun b =>
    b.isKind .traitBound || b.isKind .parenBound || b.isKind .boundVerbatim

/-! ### Where clauses -/

/-- Whether a where clause or the bounds of a predicate end here. -/
def atPredicateEnd (ts : List Token) : Bool :=
  ts.isEmpty || atGroup .brace ts || atOp "," ts || atOp ";" ts ||
    (atOp ":" ts && !atOp "::" ts) || atOp "=" ts

/-- A predicate of a where clause. -/
def wherePredicate (g : Grammar) : Parser Node := do
  let ts ← rest
  if atLifetime ts && atOp ":" (after1 ts) then
    let name ← lifetime
    let colon ← op ":"
    let list ← lifetimeBounds (fun ts =>
      ts.isEmpty || atGroup .brace ts || atOp "," ts || atOp ";" ts || atOp ":" ts || atOp "=" ts)
    pure (.node .predicateLifetime [name, colon, list])
  else
    let binder ← binder? g
    let type ← g.type true
    let colon ← op ":"
    let list ← sepWhile atPredicateEnd "+" (g.bound false true)
    pure (.node .predicateType [binder, type, colon, list])

/-- A where clause, where there is one.  It has no parameters of its own. -/
def whereClause? (g : Grammar) : Parser Node := do
  if atWord "where" (← rest) then
    let keyword ← kw "where"
    if atGenericParams (← rest) then failure
    let predicates ← sepWhile atPredicateEnd "," (wherePredicate g)
    pure (.node .whereClause [keyword, predicates])
  else pure .none

/-! ### Function pointers -/

/-- The foreign interface of a function, where it is given. -/
def abi? : Parser Node := do
  if atWord "extern" (← rest) then
    let keyword ← kw "extern"
    let name ←
      match ← rest with
      | .literal text :: _ => if isStringLiteral text then literal else pure .none
      | _ => pure .none
    pure (.node .abi [keyword, name])
  else pure .none

/-- An argument of a function pointer; the first may be a receiver, and is kept verbatim where that
is `mut`. -/
def fnPointerArg (g : Grammar) (first : Bool) (attrs : Node) : Parser Node := do
  let start ← rest
  let atMutSelf (ts : List Token) : Bool :=
    first && atWord "mut" ts && atWord "self" (after1 ts)
  let mutSelf := atMutSelf start
  if mutSelf then let _ ← kw "mut"
  let ts ← rest
  let selfNamed := first && atWord "self" ts && atOp ":" (after1 ts) && !atOp "::" (after1 ts)
  let named := selfNamed ||
    ((atIdent ts || atWord "_" ts) && atOp ":" (after1 ts) && !atOp "::" (after1 ts))
  let name ←
    if named then do pure (.node .argName [← anyWord, ← op ":"]) else pure .none
  let type ←
    if !selfNamed && atMutSelf (← rest) then do
      let _ ← kw "mut"
      let _ ← kw "self"
      pure .none
    else if mutSelf && !named then do
      let _ ← kw "self"
      pure .none
    else g.type true
  if mutSelf || type.isNone then
    pure (.node .typeArg [attrs, .none, .node .typeVerbatim [.verbatim (← since start)]])
  else pure (.node .typeArg [attrs, name, type])

/-- The arguments of a function pointer, which may end with dots. -/
def fnPointerArgs (g : Grammar) : Parser Node :=
  loop (fun (acc : List Node) => do
    if (← rest).isEmpty then pure (.inr (.node .separated acc.reverse))
    else
      let attrs ← outerAttributes g
      let ts ← rest
      let namedDots := (atIdent ts || atWord "_" ts) && atOp ":" (after1 ts) &&
        atOp "..." (after2 ts)
      if atOp "..." ts || namedDots then
        let name ←
          if namedDots then do pure (.node .argName [← anyWord, ← op ":"]) else pure .none
        let dots ← op "..."
        let comma ← op? ","
        let tail := if comma.isNone then [] else [comma]
        pure (.inr (.node .separated
          (acc.reverse ++ .node .variadic [attrs, name, dots] :: tail)))
      else
        let arg ← fnPointerArg g acc.isEmpty attrs
        if (← rest).isEmpty then pure (.inr (.node .separated (arg :: acc).reverse))
        else pure (.inl ((← op ",") :: arg :: acc))) []

/-- A function pointer type after its lifetimes. -/
def fnPointer (g : Grammar) (binder : Node) : Parser Node := do
  let unsafety ← kw? "unsafe"
  let abi ← abi?
  let keyword ← kw "fn"
  let args ← groupNode .paren (do pure [← fnPointerArgs g])
  let output ← returnType? g false
  pure (.node .typeFn [binder, unsafety, abi, keyword, args, output])

/-! ### Types -/

/-- A type that begins with parentheses: a tuple, a parenthesised type, or the first of several
bounds in parentheses. -/
def parenType (g : Grammar) (allowPlus : Bool) : Parser Node := do
  let inner : Parser (Node ⊕ Node) := do
    let ts ← rest
    if ts.isEmpty then pure (.inl (.node .typeTuple [.group .paren [.node .separated []]]))
    else if atLifetime ts then
      let list ← bounds g true false false
      if namesTrait list then
        pure (.inl (.node .typeParen [.group .paren [.node .typeDyn [.none, list]]]))
      else failure
    else if atOp "?" ts then
      let (bound, isConst) ← traitBound g false
      if isConst then failure else pure (.inr (.node .parenBound [.group .paren [bound]]))
    else
      let first ← g.type true
      if atOp "," (← rest) then
        let comma ← op ","
        let more ← terminated "," (g.type true)
        pure (.inl (.node .typeTuple
          [.group .paren [.node .separated (first :: comma :: more.children)]]))
      else pure (.inl (.node .typeParen [.group .paren [first]]))
  match ← group .paren inner with
  | .inr bound => pure (.node .typeDyn [.none, ← moreBounds g false [bound]])
  | .inl type =>
    if allowPlus && atOp "+" (← rest) then
      match type with
      | .node .typeParen [.group .paren [.node .typePath [.node .path parts]]] =>
        let bound : Node :=
          .node .parenBound [.group .paren [.node .traitBound [.none, .none, .node .path parts]]]
        pure (.node .typeDyn [.none, ← moreBounds g false [bound]])
      | .node .typeParen [.group .paren [.node .typeDyn [.node .absent [], .node .separated [bound]]]] =>
        let bound : Node :=
          if bound.isKind .traitBound then .node .parenBound [.group .paren [bound]] else bound
        pure (.node .typeDyn [.none, ← moreBounds g false [bound]])
      | _ => pure type
    else pure type

/-- A type that begins with a path: the path itself, a macro call, or a list of bounds. -/
def pathType (g : Grammar) (allowPlus : Bool) (binder : Node) : Parser Node := do
  let path ← qualifiedPath g false
  let path ← withParenArguments g path
  if path.isKind .qualifiedPath then pure (.node .typePath [path])
  else
    let ts ← rest
    if atOp "!" ts && !atOp "!=" ts && isModPath path then
      let bang ← op "!"
      let (_, tokens) ← anyGroup
      pure (.node .typeMac [path, bang, tokens])
    else if binder.isSome || (allowPlus && atOp "+" ts) then
      let bound : Node := .node .traitBound [binder, .none, path]
      let list ← if allowPlus then moreBounds g true [bound] else pure (.node .separated [bound])
      pure (.node .typeDyn [.none, list])
    else pure (.node .typePath [path])

/-- A trait object type that begins with `dyn`. -/
def dynType (g : Grammar) (allowPlus : Bool) : Parser Node := do
  let start ← rest
  let keyword ← kw "dyn"
  let star ← op? "*"
  let list ← bounds g allowPlus false false
  if !namesTrait list then failure
  else if star.isSome then pure (.node .typeVerbatim [.verbatim (← since start)])
  else pure (.node .typeDyn [keyword, list])

/-- **A type.**  `allowPlus` tells whether several bounds may be joined by `+`. -/
def type (g : Grammar) (allowPlus : Bool) : Parser Node := do
  let start ← rest
  let binder ← binder? g
  let ts ← rest
  let fnHead := atWord "fn" ts || atWord "unsafe" ts || atWord "extern" ts
  if binder.isSome && !(atIdent ts || fnHead || atPathWord ts) then failure
  else if atGroup .paren ts then parenType g allowPlus
  else if fnHead then fnPointer g binder
  else if atWord "builtin" ts && atOp "#" (after1 ts) then
    let _ ← ident
    let _ ← op "#"
    let _ ← ident
    let _ ← group .paren (do set ([] : List Token))
    pure (.node .typeVerbatim [.verbatim (← since start)])
  else if atIdent ts || atPathWord ts || atOp "::" ts || atOp "<" ts then
    pathType g allowPlus binder
  else if atWord "dyn" ts then dynType g allowPlus
  else if atGroup .bracket ts then
    let parts ← group .bracket do
      let elem ← g.type true
      if atOp ";" (← rest) then pure [elem, ← op ";", ← g.expr true] else pure [elem]
    pure (.node (if parts.length = 1 then .typeSlice else .typeArray) [.group .bracket parts])
  else if atOp "*" ts then
    let star ← op "*"
    let qualifier ← if atWord "const" (← rest) then kw "const" else kw "mut"
    pure (.node .typePtr [star, qualifier, ← g.type false])
  else if atOp "&" ts then
    let amp ← op "&"
    let name ← lifetime?
    let mutable ← kw? "mut"
    pure (.node .typeRef [amp, name, mutable, ← g.type false])
  else if atOp "!" ts && !atOp "=" ts then pure (.node .typeNever [← op "!"])
  else if atWord "impl" ts then
    let keyword ← kw "impl"
    let list ← bounds g allowPlus true true
    if namesTrait list then pure (.node .typeImpl [keyword, list]) else failure
  else if atWord "_" ts then pure (.node .typeInfer [← anyWord])
  else if atLifetime ts then
    let list ← bounds g allowPlus false false
    if namesTrait list then pure (.node .typeDyn [.none, list]) else failure
  else failure

end Scaffold.Syntax.Parser
