import Scaffold.Syntax.Grammar.Type

/-!
# Patterns

A pattern begins with a name more often than not, and the token after the name decides what it
is: a path, a macro call, a struct or tuple struct, the start of a range, or a binding.
-/

namespace Scaffold.Syntax.Parser

/-- Whether a `|` between alternatives stands at the head. -/
def atAlternative (ts : List Token) : Bool :=
  atOp "|" ts && !atOp "||" ts && !atOp "|=" ts

/-- Alternatives after an optional first `|`. -/
def alternatives (g : Grammar) (lead : Node) : Parser Node := do
  let first ← g.pattern
  if lead.isSome || atAlternative (← rest) then
    loop (fun (acc : List Node) => do
      if atAlternative (← rest) then
        let bar ← op "|"
        pure (.inl ((← g.pattern) :: bar :: acc))
      else
        pure (.inr (.node .patOr [noAttributes, lead, .node .separated acc.reverse]))) [first]
  else pure first

/-- A pattern with alternatives. -/
def multiPattern (g : Grammar) : Parser Node := do
  let lead ← op? "|"
  alternatives g lead

/-- An expression path as an expression node. -/
def pathExpr (path : Node) : Node := .node .exprPath [noAttributes, path]

/-- The index of a field that a literal writes: a number of 32 bits, which is kept in decimal. -/
def fieldIndex? (text : String) : Option Node :=
  match Text.wholeNumber? text with
  | some index => if index < 4294967296 then some (.literal (toString index)) else none
  | none => none

/-- A field name or tuple index. -/
def member : Parser Node := do
  match ← rest with
  | .literal text :: ts =>
    match fieldIndex? text with
    | some index => set ts; pure index
    | none => failure
  | _ => ident

/-- Whether a member is a name. -/
def isNamedMember : Node → Bool
  | .word _ _ => true
  | _ => false

/-- An end of a range pattern, where there is one. -/
def rangeBound? (g : Grammar) : Parser Node := do
  let ts ← rest
  if ts.isEmpty || atOp "|" ts || atOp "=" ts || (atOp ":" ts && !atOp "::" ts) || atOp "," ts ||
      atOp ";" ts || atWord "if" ts then pure .none
  else if atLiteral ts then pure (.node .exprLit [noAttributes, ← literal])
  else if atIdent ts || atOp "::" ts || atOp "<" ts || atPathWord ts then
    pure (pathExpr (← qualifiedPath g true))
  else if atWord "const" ts then
    pure (.node .exprConst [noAttributes, ← kw "const", ← g.block true])
  else failure

/-- A range operator; three dots are still read in patterns, where they mean `..=`. -/
def rangeLimits (allowObsolete : Bool) : Parser Node := do
  let ts ← rest
  if atOp "..=" ts then op "..="
  else if atOp "..." ts then
    if allowObsolete then
      let _ ← op "..."
      pure (.op "..=")
    else failure
  else op ".."

/-- A range pattern after its start. -/
def rangeFrom (g : Grammar) (start : Node) : Parser Node := do
  let limits ← rangeLimits true
  let stop ← rangeBound? g
  if stop.isNone && !limits.isText ".." then failure
  else pure (.node .patRange [noAttributes, start, limits, stop])

/-- A field of a struct pattern after its attributes. -/
def fieldPattern (g : Grammar) (attrs : Node) : Parser Node := do
  let start ← rest
  let boxed ← kw? "box"
  let byRef ← kw? "ref"
  let mutable ← kw? "mut"
  let plain := boxed.isNone && byRef.isNone && mutable.isNone
  let name ← if plain then member else ident
  if (plain && atOp ":" (← rest)) || !isNamedMember name then
    pure (.node .fieldPat [attrs, name, ← op ":", ← multiPattern g])
  else if boxed.isSome then
    pure (.node .fieldPatShort [attrs, .node .patVerbatim [.verbatim (← since start)]])
  else
    pure (.node .fieldPatShort [attrs, .node .patIdent [noAttributes, byRef, mutable, name, .none]])

/-- The fields of a struct pattern; two dots end them. -/
def structPatternFields (g : Grammar) : Parser Node :=
  loop (fun (acc : List Node) => do
    if (← rest).isEmpty then pure (.inr (.node .separated acc.reverse))
    else
      let attrs ← outerAttributes g
      if atOp ".." (← rest) then
        let dots : Node := .node .patRest [attrs, ← op ".."]
        pure (.inr (.node .separated (dots :: acc).reverse))
      else
        let field ← fieldPattern g attrs
        if (← rest).isEmpty then pure (.inr (.node .separated (field :: acc).reverse))
        else pure (.inl ((← op ",") :: field :: acc))) []

/-- A pattern that begins with a path. -/
def pathPattern (g : Grammar) : Parser Node := do
  let path ← qualifiedPath g true
  let ts ← rest
  if path.isKind .path && atOp "!" ts && !atOp "!=" ts && isModPath path then
    let bang ← op "!"
    let (_, tokens) ← anyGroup
    pure (.node .patMac [noAttributes, path, bang, tokens])
  else if atGroup .brace ts then
    pure (.node .patStruct
      [noAttributes, path, ← groupNode .brace (do pure [← structPatternFields g])])
  else if atGroup .paren ts then
    pure (.node .patTupleStruct
      [noAttributes, path, ← groupNode .paren (do pure [← terminated "," (multiPattern g)])])
  else if atOp ".." ts then rangeFrom g (pathExpr path)
  else pure (.node .patPath [noAttributes, path])

/-- A binding. -/
def identPattern (g : Grammar) : Parser Node := do
  let byRef ← kw? "ref"
  let mutable ← kw? "mut"
  let name ← identOr ["self"]
  let sub ←
    if atOp "@" (← rest) then do pure (.node .subPattern [← op "@", ← g.pattern])
    else pure .none
  pure (.node .patIdent [noAttributes, byRef, mutable, name, sub])

/-- A parenthesised pattern or a tuple of patterns. -/
def parenPattern (g : Grammar) : Parser Node := do
  let list ← group .paren (terminated "," (multiPattern g))
  match list with
  | .node .separated [single] =>
    if single.isKind .patRest then pure (.node .patTuple [noAttributes, .group .paren [list]])
    else pure (.node .patParen [noAttributes, .group .paren [single]])
  | _ => pure (.node .patTuple [noAttributes, .group .paren [list]])

/-- Whether a pattern is a range without one of its ends. -/
def isOpenRange (n : Node) : Bool :=
  n.isKind .patRange && ((n.part 1).isNone || (n.part 3).isNone)

/-- **A pattern without alternatives.** -/
def pattern (g : Grammar) : Parser Node := do
  let ts ← rest
  let next := after1 ts
  if (atIdent ts && (atOp "::" next || atOp "!" next || atGroup .brace next ||
        atGroup .paren next || atOp ".." next)) ||
      (atWord "self" ts && atOp "::" next) || atOp "::" ts || atOp "<" ts || atWord "Self" ts ||
      atWord "super" ts || atWord "crate" ts then pathPattern g
  else if atWord "_" ts then pure (.node .patWild [noAttributes, ← anyWord])
  else if atWord "box" ts then
    let _ ← kw "box"
    let _ ← g.pattern
    pure (.node .patVerbatim [.verbatim (← since ts)])
  else if atOp "-" ts || atLiteral ts || atWord "const" ts then
    let start ← rangeBound? g
    if start.isNone then failure
    else if atOp ".." (← rest) then rangeFrom g start
    else pure (.node .patExpr [start])
  else if atWord "ref" ts || atWord "mut" ts || atWord "self" ts || atIdent ts then identPattern g
  else if atOp "&" ts then
    let amp ← op "&"
    let mutable ← kw? "mut"
    pure (.node .patRef [noAttributes, amp, mutable, ← g.pattern])
  else if atGroup .paren ts then parenPattern g
  else if atGroup .bracket ts then
    let list ← group .bracket (terminated "," (multiPattern g))
    if list.elems.any isOpenRange then failure
    else pure (.node .patSlice [noAttributes, .group .bracket [list]])
  else if atOp ".." ts && !atOp "..." ts then
    let limits ← rangeLimits false
    let stop ← rangeBound? g
    if stop.isSome then pure (.node .patRange [noAttributes, .none, limits, stop])
    else if limits.isText ".." then pure (.node .patRest [noAttributes, limits])
    else failure
  else failure

end Scaffold.Syntax.Parser
