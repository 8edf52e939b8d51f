import Scaffold.Syntax.Grammar.Item

/-!
# Statements and blocks

A statement is a `let`, an item, a macro call in braces, or an expression.  An expression that
does not end with its own block needs a semicolon unless it is the last of its block.
-/

namespace Scaffold.Syntax.Parser

/-- Whether an item and not an expression begins here. -/
def atItem (ts : List Token) : Bool :=
  let second := after1 ts
  let third := after2 ts
  let functionAfterAsync := atWord "unsafe" third || atWord "extern" third || atWord "fn" third
  ["pub", "extern", "use", "fn", "mod", "type", "struct", "enum", "trait", "impl", "macro"].any
      (atWord · ts) ||
    (atWord "crate" ts && !atOp "::" second) ||
    (atWord "static" ts && (atWord "mut" second ||
      (atIdent second && !(atWord "async" second && (atWord "move" third || atOp "|" third))))) ||
    (atWord "const" ts && !(atGroup .brace second || atWord "static" second ||
      (atWord "async" second && !functionAfterAsync) || atWord "move" second ||
      atOp "|" second)) ||
    (atWord "unsafe" ts && !atGroup .brace second) ||
    (atWord "async" ts &&
      (atWord "unsafe" second || atWord "extern" second || atWord "fn" second)) ||
    (atWord "union" ts && atIdent second) ||
    (atWord "auto" ts && atWord "trait" second) ||
    (atWord "default" ts && (atWord "unsafe" second || atWord "impl" second))

/-- Whether the last token is a group in braces. -/
def endsWithBrace (ts : List Token) : Bool :=
  match ts.getLast? with
  | some (.group .brace _) => true
  | _ => false

/-- A `let` statement after its attributes.  A value that ends with braces has no `else`. -/
def localStatement (g : Grammar) (attrs : Node) : Parser Node := do
  let keyword ← kw "let"
  let pat ← g.pattern
  let pat ←
    if atOp ":" (← rest) then do
      pure (.node .patType [noAttributes, pat, ← op ":", ← g.type true])
    else pure pat
  let init ←
    if atOp "=" (← rest) then do
      let eq ← op "="
      let start ← rest
      let value ← g.expr true
      let otherwise ←
        if !endsWithBrace (← since start) && atWord "else" (← rest) then do
          pure (.node .letElse [← kw "else", ← g.block false])
        else pure .none
      pure (.node .localInit [eq, value, otherwise])
    else pure .none
  pure (.node .stmtLocal [attrs, keyword, pat, init, ← op ";"])

/-- Adds attributes to the operand that stands leftmost in an assignment, a binary operation or a
cast, since they are written before it. -/
def addLeftmost (attrs : Node) : Node → Node
  | .node .exprAssign [own, lhs, eq, rhs] =>
    .node .exprAssign [own, addLeftmost attrs lhs, eq, rhs]
  | .node .exprBinary [own, lhs, sign, rhs] =>
    .node .exprBinary [own, addLeftmost attrs lhs, sign, rhs]
  | .node .exprCast [own, lhs, keyword, type] =>
    .node .exprCast [own, addLeftmost attrs lhs, keyword, type]
  | n => addAttributes attrs n

/-- Whether a macro call has its tokens in braces. -/
def isBraceMac (e : Node) : Bool :=
  match e with
  | .node .exprMac [_, _, _, .verbatim [.group delim _]] => delim = .brace
  | _ => false

/-- An expression statement after its attributes. -/
def exprStatement (g : Grammar) (attrs : Node) : Parser Node := do
  let e ← g.exprEarly
  let e := if attrs.children.isEmpty then e else addLeftmost attrs e
  let semi ← op? ";"
  match e with
  | .node .exprMac [own, path, bang, tokens] =>
    if semi.isSome || isBraceMac e then pure (.node .stmtMac [own, path, bang, tokens, semi])
    else pure (.node .stmtExpr [e, semi])
  | _ => pure (.node .stmtExpr [e, semi])

/-- A statement. -/
def statement (g : Grammar) : Parser Node := do
  let start ← rest
  let attrs ← outerAttributes g
  let ts ← rest
  let (itemCall, braceCall) :=
    match modPath.run ts with
    | some (_, after) =>
      let second := after1 after
      let third := after2 after
      let named := atOp "!" after && (atIdent second || atWord "try" second)
      let continued := (atOp "." third && !atOp ".." third) || atOp "?" third
      (named, atOp "!" after && !named && atGroup .brace second && !continued)
    | none => (false, false)
  if braceCall then
    let path ← modPath
    let bang ← op "!"
    let (_, tokens) ← anyGroup
    pure (.node .stmtMac [attrs, path, bang, tokens, ← op? ";"])
  else if atWord "let" ts then localStatement g attrs
  else if atItem ts || itemCall then
    pure (.node .stmtItem [← itemAfter g start attrs])
  else exprStatement g attrs

/-- Whether nothing may follow the statement without a semicolon. -/
def needsSemicolon (s : Node) : Bool :=
  match s with
  | .node .stmtExpr [e, semi] => semi.isNone && !endsItself e && !isBraceMac e
  | .node .stmtMac [_, _, _, .verbatim [.group delim _], semi] => semi.isNone && delim ≠ .brace
  | _ => false

/-- The statements of a block. -/
def statements (g : Grammar) : Parser (List Node) :=
  loop (fun (acc : List Node) => do
    let ts ← rest
    if atOp ";" ts then pure (.inl (.node .stmtEmpty [← op ";"] :: acc))
    else if ts.isEmpty then pure (.inr acc.reverse)
    else
      let s ← statement g
      if (← rest).isEmpty then pure (.inr (s :: acc).reverse)
      else if needsSemicolon s then failure
      else pure (.inl (s :: acc))) []

/-- **A block:** braces around inner attributes, where they are allowed, and statements. -/
def block (g : Grammar) (innerAttrs : Bool) : Parser Node := do
  let content ← groupNode .brace do
    let inner ← if innerAttrs then innerAttributes g else pure noAttributes
    pure [inner, .list (← statements g)]
  pure (.node .block [content])

end Scaffold.Syntax.Parser
