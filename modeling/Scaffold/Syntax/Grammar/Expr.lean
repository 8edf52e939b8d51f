import Scaffold.Syntax.Grammar.Pattern

/-!
# Expressions

Binary operators are read by precedence climbing over operands; an operand is an atom with its
trailers (calls, fields, indices, `?`) and prefix operators.  The flag `allowStruct` is off where
a brace begins a block, as after `if` and `match`.
-/

namespace Scaffold.Syntax.Parser

/-! ### Precedence -/

/-- The binary operator at the head. -/
def atBinaryOp? (ts : List Token) : Option (String × Precedence) :=
  Precedence.binaryOps.find? (atOp ·.1 ts)

/-- The precedence of what stands at the head. -/
def nextPrecedence (ts : List Token) : Precedence :=
  match atBinaryOp? ts with
  | some (_, prec) => prec
  | none =>
    if atOp "=" ts && !atOp "=>" ts then .assign
    else if atOp ".." ts then .range
    else if atWord "as" ts then .cast
    else .jump

/-! ### Parts of expressions -/

/-- Adds attributes before those of an expression or pattern.  What is kept as mere tokens has no
place for them. -/
def addAttributes (attrs : Node) : Node → Node
  | .node .exprVerbatim parts => .node .exprVerbatim parts
  | .node .patVerbatim parts => .node .patVerbatim parts
  | .node .patExpr [.node kind (.node .list own :: parts)] =>
    .node .patExpr [.node kind (.list (attrs.children ++ own) :: parts)]
  | .node kind (.node .list own :: parts) => .node kind (.list (attrs.children ++ own) :: parts)
  | n => n

/-- Whether the expression is a range. -/
def isRange (e : Node) : Bool := e.isKind .exprRange

/-- Whether an expression may begin here. -/
def atExpr (ts : List Token) : Bool :=
  (atAnyWord ts && !atWord "as" ts) || atGroup .paren ts || atGroup .bracket ts ||
    atGroup .brace ts || atLiteral ts || (atOp "!" ts && !atOp "!=" ts) ||
    (atOp "-" ts && !atOp "-=" ts && !atOp "->" ts) || (atOp "*" ts && !atOp "*=" ts) ||
    (atOp "|" ts && !atOp "|=" ts) || (atOp "&" ts && !atOp "&=" ts) || atOp ".." ts ||
    (atOp "<" ts && !atOp "<=" ts && !atOp "<<=" ts) || atOp "::" ts || atLifetime ts ||
    atOp "#" ts

/-- Whether an open range ends here, so that it has no end. -/
def atRangeStop (allowStruct : Bool) (ts : List Token) : Bool :=
  ts.isEmpty || atOp "," ts || atOp ";" ts || (atOp "." ts && !atOp ".." ts) || atOp "?" ts ||
    atOp "=>" ts || (!allowStruct && atGroup .brace ts) ||
    atAnyOp ["=", "+", "/", "%", "^", ">", "<=", "!=", "-=", "*=", "&=", "|=", "<<="] ts ||
    atWord "as" ts

/-- The end of a range, where there is one. -/
def rangeEnd (g : Grammar) (allowStruct : Bool) (limits : Node) : Parser Node := do
  if limits.isText ".." && atRangeStop allowStruct (← rest) then pure .none
  else g.operand allowStruct .range

/-- Whether a trailer follows a cast, which needs parentheses. -/
def atCastTrailer (ts : List Token) : Bool :=
  (atOp "." ts && !atOp ".." ts) || atOp "?" ts || atGroup .bracket ts || atGroup .paren ts

/-- Whether the expression compares. -/
def isComparison (e : Node) : Bool :=
  match e with
  | .node .exprBinary [_, _, .op marks, _] => Precedence.ofOperator marks = .comparison
  | _ => false

/-! ### Binary operators -/

/-- The operators after `lhs` that bind at least as tightly as `base`. -/
def binary (g : Grammar) (allowStruct : Bool) (base : Precedence) (lhs : Node) : Parser Node :=
  loop (fun (lhs : Node) => do
    let ts ← rest
    if isRange lhs then pure (.inr lhs)
    else match atBinaryOp? ts with
      | some (marks, prec) =>
        if prec < base then pure (.inr lhs)
        else if prec = .comparison && isComparison lhs then failure
        else
          let sign ← op marks
          let rhs ← g.operand allowStruct prec
          pure (.inl (.node .exprBinary [noAttributes, lhs, sign, rhs]))
      | none =>
        if base ≤ .assign && atOp "=" ts && !atOp "=>" ts then
          let eq ← op "="
          let rhs ← g.operand allowStruct .assign
          pure (.inl (.node .exprAssign [noAttributes, lhs, eq, rhs]))
        else if base ≤ .range && atOp ".." ts then
          let limits ← rangeLimits false
          let stop ← rangeEnd g allowStruct limits
          pure (.inl (.node .exprRange [noAttributes, lhs, limits, stop]))
        else if base ≤ .cast && atWord "as" ts then
          let keyword ← kw "as"
          let type ← g.type false
          if atCastTrailer (← rest) then failure
          else pure (.inl (.node .exprCast [noAttributes, lhs, keyword, type]))
        else pure (.inr lhs)) lhs

/-- The right operand of an operator of precedence `prec`, with what binds more tightly. -/
def operand (g : Grammar) (allowStruct : Bool) (prec : Precedence) : Parser Node := do
  let first ← g.unary allowStruct
  loop (fun (rhs : Node) => do
    let before ← rest
    let next := nextPrecedence before
    if prec < next || (next = prec && prec = .assign) then
      let rhs ← binary g allowStruct next rhs
      if (← rest).length = before.length then pure (.inr rhs) else pure (.inl rhs)
    else pure (.inr rhs)) first

/-! ### Trailers -/

/-- The arguments of a call. -/
def callArgs (g : Grammar) : Parser Node :=
  groupNode .paren (do pure [← terminated "," (g.expr true)])

/-- The fields that a floating-point number after a point names, and whether a point is left. -/
def floatFields (e : Node) (dot : Node) (text : String) : Option (Node × Bool) := do
  let pieces := Text.splitAtChar '.' text.toList
  let trailing := pieces.getLast? = some []
  let pieces := if trailing then pieces.dropLast else pieces
  let indices ← pieces.mapM fun piece => fieldIndex? (String.ofList piece)
  pure (indices.foldl (fun e index => .node .exprField [noAttributes, e, dot, index]) e, trailing)

/-- A method call, field or `await` after its point. -/
def afterDot (g : Grammar) (e dot : Node) : Parser Node := do
  if atWord "await" (← rest) then pure (.node .exprAwait [noAttributes, e, dot, ← kw "await"])
  else
    let name ← member
    let turbofish ←
      if isNamedMember name && atOp "::" (← rest) then angleArguments g else pure .none
    if isNamedMember name && (turbofish.isSome || atGroup .paren (← rest)) then
      pure (.node .exprMethod [noAttributes, e, dot, name, turbofish, ← callArgs g])
    else if turbofish.isSome then failure
    else pure (.node .exprField [noAttributes, e, dot, name])

/-- The trailers of an expression. -/
def trailers (g : Grammar) (e : Node) : Parser Node :=
  loop (fun (e : Node) => do
    let ts ← rest
    if atGroup .paren ts then pure (.inl (.node .exprCall [noAttributes, e, ← callArgs g]))
    else if atOp "." ts && !atOp ".." ts && !isRange e then
      let dot ← op "."
      match ← rest with
      | .literal text :: tail =>
        if isFloatLiteral text then
          match floatFields e dot text with
          | some (e, trailing) =>
            set tail
            if trailing then pure (.inl (← afterDot g e dot)) else pure (.inl e)
          | none => failure
        else pure (.inl (← afterDot g e dot))
      | _ => pure (.inl (← afterDot g e dot))
    else if atGroup .bracket ts then
      let index ← groupNode .bracket (do pure [← g.expr true])
      pure (.inl (.node .exprIndex [noAttributes, e, index]))
    else if atOp "?" ts && !isRange e then
      pure (.inl (.node .exprTry [noAttributes, e, ← op "?"]))
    else pure (.inr e)) e

/-! ### Control flow -/

/-- A label before a loop or block. -/
def label? : Parser Node := do
  if atLifetime (← rest) then pure (.node .label [← lifetime, ← op ":"]) else pure .none

/-- An `if` expression.  Nothing after the block of an alternative belongs to the alternative
alone, so the alternatives are read in a row; `close` builds what has been read around the last. -/
def ifExpr (g : Grammar) : Parser Node :=
  loop (fun (close : Node → Node) => do
    let keyword ← kw "if"
    let cond ← g.expr false
    let body ← g.block false
    let close (alternative : Node) : Node :=
      close (.node .exprIf [noAttributes, keyword, cond, body, alternative])
    if atWord "else" (← rest) then
      let keyword ← kw "else"
      let ts ← rest
      if atWord "if" ts then pure (.inl fun other => close (.node .elseClause [keyword, other]))
      else if atGroup .brace ts then
        pure (.inr (close (.node .elseClause
          [keyword, .node .exprBlock [noAttributes, .none, ← g.block false]])))
      else failure
    else pure (.inr (close .none))) id

/-- A `while` loop. -/
def whileExpr (g : Grammar) (name : Node) : Parser Node := do
  let keyword ← kw "while"
  let cond ← g.expr false
  pure (.node .exprWhile [noAttributes, name, keyword, cond, ← g.block true])

/-- A `for` loop. -/
def forExpr (g : Grammar) (name : Node) : Parser Node := do
  let keyword ← kw "for"
  let pat ← multiPattern g
  let within ← kw "in"
  let source ← g.expr false
  pure (.node .exprFor [noAttributes, name, keyword, pat, within, source, ← g.block true])

/-- A `loop`. -/
def loopExpr (g : Grammar) (name : Node) : Parser Node := do
  pure (.node .exprLoop [noAttributes, name, ← kw "loop", ← g.block true])

/-- A loop or block after its label. -/
def labelledExpr (g : Grammar) : Parser Node := do
  let name ← label?
  let ts ← rest
  if atWord "while" ts then whileExpr g name
  else if atWord "for" ts then forExpr g name
  else if atWord "loop" ts then loopExpr g name
  else if atGroup .brace ts then pure (.node .exprBlock [noAttributes, name, ← g.block true])
  else failure

/-- Whether an arm with this body needs no comma after it, and a statement no semicolon. -/
def endsItself (e : Node) : Bool :=
  match e with
  | .node kind _ =>
    [Kind.exprIf, .exprMatch, .exprBlock, .exprUnsafe, .exprWhile, .exprLoop, .exprFor,
      .exprTryBlock, .exprConst].contains kind
  | _ => false

/-- An arm of a `match`. -/
def matchArm (g : Grammar) : Parser Node := do
  let attrs ← outerAttributes g
  let pat ← multiPattern g
  let guard ←
    if atWord "if" (← rest) then do pure (.node .guard [← kw "if", ← g.expr true])
    else pure .none
  let arrow ← op "=>"
  let body ← g.exprEarly
  let comma ←
    if !endsItself body && !(← rest).isEmpty then op "," else op? ","
  pure (.node .arm [attrs, pat, guard, arrow, body, comma])

/-- A `match` expression. -/
def matchExpr (g : Grammar) : Parser Node := do
  let keyword ← kw "match"
  let subject ← g.expr false
  let body ← groupNode .brace do
    let inner ← innerAttributes g
    let arms ← manyToEnd (matchArm g)
    pure [inner, .list arms]
  pure (.node .exprMatch [noAttributes, keyword, subject, body])

/-- A `let` in a condition. -/
def letExpr (g : Grammar) (allowStruct : Bool) : Parser Node := do
  let keyword ← kw "let"
  let pat ← multiPattern g
  let eq ← op "="
  let value ← g.unary allowStruct
  let value ← binary g allowStruct .comparison value
  pure (.node .exprLet [noAttributes, keyword, pat, eq, value])

/-- A `break`, perhaps with a label and a value. -/
def breakExpr (g : Grammar) (allowStruct : Bool) : Parser Node := do
  let keyword ← kw "break"
  let ts ← rest
  if atLifetime ts && atOp ":" (after1 ts) then failure
  else
    let name ← lifetime?
    let ts ← rest
    let value ←
      if atExpr ts && (allowStruct || !atGroup .brace ts) then g.expr true else pure .none
    pure (.node .exprBreak [noAttributes, keyword, name, value])

/-! ### Closures -/

/-- A parameter of a closure. -/
def closureParam (g : Grammar) : Parser Node := do
  let attrs ← outerAttributes g
  let pat ← g.pattern
  if atOp ":" (← rest) then
    let colon ← op ":"
    pure (.node .patType [attrs, pat, colon, ← g.type true])
  else pure (addAttributes attrs pat)

/-- A closure. -/
def closure (g : Grammar) (allowStruct : Bool) : Parser Node := do
  let binder ← binder? g
  let constness ← kw? "const"
  let pinned ← kw? "static"
  let asyncness ← kw? "async"
  let capture ← kw? "move"
  let first ← op "|"
  let params ← sepUntil (atOp "|") "," (closureParam g) .separated
  let second ← op "|"
  let head := [noAttributes, binder, constness, pinned, asyncness, capture, first, params, second]
  if atOp "->" (← rest) then
    let output ← returnType? g true
    let body : Node := .node .exprBlock [noAttributes, .none, ← g.block false]
    pure (.node .exprClosure (head ++ [output, body]))
  else pure (.node .exprClosure (head ++ [.none, ← g.expr allowStruct]))

/-! ### Atoms -/

/-- A field of a struct literal. -/
def fieldValue (g : Grammar) : Parser Node := do
  let attrs ← outerAttributes g
  let name ← member
  if atOp ":" (← rest) || !isNamedMember name then
    pure (.node .fieldValue [attrs, name, ← op ":", ← g.expr true])
  else pure (.node .fieldShort [attrs, name])

/-- The fields of a struct literal; two dots and a base may end them. -/
def structFields (g : Grammar) : Parser Node :=
  loop (fun (acc : List Node) => do
    let ts ← rest
    if ts.isEmpty then pure (.inr (.node .separated acc.reverse))
    else if atOp ".." ts then
      let dots ← op ".."
      let base ← if (← rest).isEmpty then pure .none else g.expr true
      pure (.inr (.node .separated (.node .structRest [dots, base] :: acc).reverse))
    else
      let field ← fieldValue g
      if (← rest).isEmpty then pure (.inr (.node .separated (field :: acc).reverse))
      else pure (.inl ((← op ",") :: field :: acc))) []

/-- An expression that begins with a path. -/
def pathHeaded (g : Grammar) (allowStruct : Bool) : Parser Node := do
  let path ← qualifiedPath g true
  let ts ← rest
  if path.isKind .path && atOp "!" ts && !atOp "!=" ts && isModPath path then
    let bang ← op "!"
    let (_, tokens) ← anyGroup
    pure (.node .exprMac [noAttributes, path, bang, tokens])
  else if allowStruct && atGroup .brace ts then
    pure (.node .exprStruct
      [noAttributes, path, ← groupNode .brace (do pure [← structFields g])])
  else pure (pathExpr path)

/-- A parenthesised expression or a tuple. -/
def parenOrTuple (g : Grammar) : Parser Node := do
  let list ← group .paren (terminated "," (g.expr true))
  match list with
  | .node .separated [single] => pure (.node .exprParen [noAttributes, .group .paren [single]])
  | _ => pure (.node .exprTuple [noAttributes, .group .paren [list]])

/-- An array, by its elements or by one element and a length. -/
def arrayExpr (g : Grammar) : Parser Node := do
  group .bracket do
    if (← rest).isEmpty then
      pure (.node .exprArray [noAttributes, .group .bracket [.node .separated []]])
    else
      let first ← g.expr true
      let ts ← rest
      if ts.isEmpty then
        pure (.node .exprArray [noAttributes, .group .bracket [.node .separated [first]]])
      else if atOp "," ts then
        let comma ← op ","
        let more ← terminated "," (g.expr true)
        pure (.node .exprArray
          [noAttributes, .group .bracket [.node .separated (first :: comma :: more.children)]])
      else
        let semi ← op ";"
        pure (.node .exprRepeat [noAttributes, .group .bracket [first, semi, ← g.expr true]])

/-- An expression without prefix operators and trailers. -/
def atom (g : Grammar) (allowStruct : Bool) : Parser Node := do
  let ts ← rest
  let next := after1 ts
  if atLiteral ts then pure (.node .exprLit [noAttributes, ← literal])
  else if atWord "async" ts &&
      (atGroup .brace next || (atWord "move" next && atGroup .brace (after1 next))) then
    let keyword ← kw "async"
    let capture ← kw? "move"
    pure (.node .exprAsync [noAttributes, keyword, capture, ← g.block false])
  else if atWord "try" ts && atGroup .brace next then
    pure (.node .exprTryBlock [noAttributes, ← kw "try", ← g.block false])
  else if atOp "|" ts || atWord "move" ts || (atWord "for" ts && atGenericParams next) ||
      (atWord "const" ts && !atGroup .brace next) || atWord "static" ts ||
      (atWord "async" ts && (atOp "|" next || atWord "move" next)) then closure g allowStruct
  else if atWord "builtin" ts && atOp "#" next then
    let _ ← ident
    let _ ← op "#"
    let _ ← ident
    let _ ← group .paren (do set ([] : List Token))
    pure (.node .exprVerbatim [.verbatim (← since ts)])
  else if atIdent ts || atOp "::" ts || atOp "<" ts || atPathWord ts ||
      (atWord "try" ts && (atOp "!" next || atOp "::" next)) then pathHeaded g allowStruct
  else if atGroup .paren ts then parenOrTuple g
  else if atWord "break" ts then breakExpr g allowStruct
  else if atWord "continue" ts then
    pure (.node .exprContinue [noAttributes, ← kw "continue", ← lifetime?])
  else if atWord "return" ts then
    let keyword ← kw "return"
    let value ← if atExpr (← rest) then g.expr true else pure .none
    pure (.node .exprReturn [noAttributes, keyword, value])
  else if atWord "become" ts then
    let _ ← kw "become"
    let _ ← g.expr true
    pure (.node .exprVerbatim [.verbatim (← since ts)])
  else if atGroup .bracket ts then arrayExpr g
  else if atWord "let" ts then letExpr g allowStruct
  else if atWord "if" ts then ifExpr g
  else if atWord "while" ts then whileExpr g .none
  else if atWord "for" ts then forExpr g .none
  else if atWord "loop" ts then loopExpr g .none
  else if atWord "match" ts then matchExpr g
  else if atWord "yield" ts then
    let keyword ← kw "yield"
    let value ← if atExpr (← rest) then g.expr true else pure .none
    pure (.node .exprYield [noAttributes, keyword, value])
  else if atWord "unsafe" ts then
    pure (.node .exprUnsafe [noAttributes, ← kw "unsafe", ← g.block true])
  else if atWord "const" ts then
    pure (.node .exprConst [noAttributes, ← kw "const", ← g.block true])
  else if atGroup .brace ts then pure (.node .exprBlock [noAttributes, .none, ← g.block true])
  else if atOp ".." ts then
    let limits ← rangeLimits false
    let stop ← rangeEnd g allowStruct limits
    pure (.node .exprRange [noAttributes, .none, limits, stop])
  else if atWord "_" ts then pure (.node .exprInfer [noAttributes, ← anyWord])
  else if atLifetime ts then labelledExpr g
  else failure

/-- An operand: prefix operators, an atom and its trailers. -/
def unary (g : Grammar) (allowStruct : Bool) : Parser Node := do
  let start ← rest
  let attrs ← outerAttributes g
  let ts ← rest
  if atOp "&" ts then
    let amp ← op "&"
    let ts ← rest
    if atWord "raw" ts && (atWord "mut" (after1 ts) || atWord "const" (after1 ts)) then
      let raw ← anyWord
      let qualifier ← anyWord
      pure (.node .exprRawAddr [attrs, amp, raw, qualifier, ← g.unary allowStruct])
    else
      let mutable ← kw? "mut"
      pure (.node .exprRef [attrs, amp, mutable, ← g.unary allowStruct])
  else if atOp "*" ts || (atOp "!" ts) || atOp "-" ts then
    let sign ← if atOp "*" ts then op "*" else if atOp "!" ts then op "!" else op "-"
    pure (.node .exprUnary [attrs, sign, ← g.unary allowStruct])
  else
    let e ← atom g allowStruct
    let e ← trailers g e
    if e.isKind .exprVerbatim then pure (.node .exprVerbatim [.verbatim (← since start)])
    else if attrs.children.isEmpty then pure e
    else if isRange e then failure
    else pure (addAttributes attrs e)

/-- **An expression.** -/
def expr (g : Grammar) (allowStruct : Bool) : Parser Node := do
  let first ← unary g allowStruct
  binary g allowStruct .jump first

/-- An expression at the head of a statement: one that ends with its own block is not continued
by an operator, but may be by a trailer. -/
def exprEarly (g : Grammar) : Parser Node := do
  let attrs ← outerAttributes g
  let ts ← rest
  let next := after1 ts
  let complete : Option (Parser Node) :=
    if atWord "if" ts then some (ifExpr g)
    else if atWord "while" ts then some (whileExpr g .none)
    else if atWord "for" ts && !atGenericParams next then some (forExpr g .none)
    else if atWord "loop" ts then some (loopExpr g .none)
    else if atWord "match" ts then some (matchExpr g)
    else if (atWord "try" ts && atGroup .brace next) || atWord "unsafe" ts ||
        (atWord "const" ts && atGroup .brace next) || atGroup .brace ts then some (atom g true)
    else if atLifetime ts then some (labelledExpr g)
    else none
  match complete with
  | none =>
    let e ← unary g true
    binary g true .jump (addAttributes attrs e)
  | some p =>
    let e ← p
    let ts ← rest
    if (atOp "." ts && !atOp ".." ts) || atOp "?" ts then
      let e ← trailers g e
      binary g true .jump (addAttributes attrs e)
    else pure (addAttributes attrs e)

end Scaffold.Syntax.Parser
