import Scaffold.Layout.Pattern
import Scaffold.Syntax.Grammar.Basic

/-!
# Expressions

Most of the rules are about what holds an expression together when it does not fit on a line.  A
chain of calls and fields breaks before its points; one that begins a statement keeps a short
first name on the line of the next (`self.a`).  The body of a closure and of a match arm gets
braces only where it goes on to a line of its own: they stand before and after the breaks around
it, so they are written exactly when those end a line.
-/

namespace Scaffold.Layout

open Syntax

/-! ### Kinds of expressions -/

/-- Whether an expression ends itself as an arm, so that no comma need follow it. -/
def endsItself (e : Node) : Bool :=
  match e with
  | .node kind _ =>
    [Kind.exprIf, .exprMatch, .exprBlock, .exprUnsafe, .exprWhile, .exprLoop, .exprFor,
      .exprTryBlock, .exprConst].contains kind
  | _ => false

/-- Whether an expression ends itself as a statement, so that no operator goes on after it. -/
def endsStatement (e : Node) : Bool :=
  match e with
  | .node .exprMac [_, _, _, .verbatim [.group delim _]] => delim = .brace
  | _ => endsItself e

/-- Whether an expression that begins a statement is read as the same expression. -/
def beginsStatement : Node → Bool
  | .node .exprAssign [_, lhs, _, _] => beginsStatement lhs
  | .node .exprAwait [_, base, _, _] => beginsStatement base
  | .node .exprField [_, base, _, _] => beginsStatement base
  | .node .exprMethod [_, base, _, _, _, _] => beginsStatement base
  | .node .exprTry [_, base, _] => beginsStatement base
  | .node .exprBinary [_, lhs, _, _] => !endsStatement lhs && beginsStatement lhs
  | .node .exprCall [_, func, _] => !endsStatement func && beginsStatement func
  | .node .exprCast [_, e, _, _] => !endsStatement e && beginsStatement e
  | .node .exprIndex [_, base, _] => !endsStatement base && beginsStatement base
  | .node .exprRange [_, start, _, _] =>
    start.isNone || (!endsStatement start && beginsStatement start)
  | .node .exprLet _ => false
  | _ => true

/-- Whether an expression stands directly between the parentheses of a call. -/
def isBlocklike (e : Node) : Bool :=
  match e with
  | .node kind _ =>
    [Kind.exprArray, .exprAsync, .exprBlock, .exprClosure, .exprConst, .exprStruct, .exprTryBlock,
      .exprTuple, .exprUnsafe].contains kind && e.isUnmarked
  | _ => false

/-- Whether a condition that does not fit on its line leaves the brace to the next one. -/
def breaksBeforeBrace : Node → Bool
  | .node .exprAssign _ => true
  | .node .exprAwait _ => true
  | .node .exprBinary _ => true
  | .node .exprCast _ => true
  | .node .exprField _ => true
  | .node .exprIndex _ => true
  | .node .exprMethod _ => true
  | .node .exprBreak [_, _, _, value] => breaksBeforeBrace value
  | .node .exprCall [_, func, _] => breaksBeforeBrace func
  | .node .exprLet [_, _, _, _, value] => breaksBeforeBrace value
  | .node .exprParen [_, .group _ [inner]] => breaksBeforeBrace inner
  | .node .exprRange [_, _, _, stop] => breaksBeforeBrace stop
  | .node .exprRawAddr [_, _, _, _, e] => breaksBeforeBrace e
  | .node .exprRef [_, _, _, e] => breaksBeforeBrace e
  | .node .exprReturn [_, _, value] => breaksBeforeBrace value
  | .node .exprTry [_, e, _] => breaksBeforeBrace e
  | .node .exprUnary [_, _, e] => breaksBeforeBrace e
  | .node .exprYield [_, _, value] => breaksBeforeBrace value
  | _ => false

/-- The operators that assign what they compute. -/
def assigningOps : List String :=
  ["+=", "-=", "*=", "/=", "%=", "^=", "&=", "|=", "<<=", ">>="]

/-- Whether a last expression without a value gets a semicolon. -/
def getsSemicolon (e : Node) : Bool :=
  match e with
  | .node .exprAssign _ => true
  | .node .exprBreak _ => true
  | .node .exprContinue _ => true
  | .node .exprReturn _ => true
  | .node .exprYield _ => true
  | .node .exprBinary [_, _, .op marks, _] => assigningOps.contains marks
  | _ => false

/-- Whether a statement loses its semicolon. -/
def losesSemicolon : Node → Bool
  | .node .exprFor _ => true
  | .node .exprWhile _ => true
  | .node .exprIf [_, _, _, _, .node .elseClause [_, other]] => losesSemicolon other
  | .node .exprIf _ => true
  | _ => false

/-- Whether an expression is a name that is no longer than the indentation. -/
def isShortName (e : Node) : Bool :=
  match e with
  | .node .exprPath [attrs, .node .path [lead, .node .separated [.node .segment [name, args]]]] =>
    attrs.children.isEmpty && lead.isNone && args.isNone &&
      ((leafText name).utf8ByteSize : Int) ≤ indent
  | _ => false

/-- Whether an expression is a whole number, a character, a byte or a truth value; arrays of such
are filled line by line. -/
def isPlainElement (e : Node) : Bool :=
  match e with
  | .node .exprLit [_, .literal text] =>
    Parser.isIntLiteral text || "'".isPrefixOf text || "b'".isPrefixOf text
  | .node .exprLit [_, .word _ _] => true
  | _ => false

/-! ### Blocks -/

/-- The statements of a body, each on lines of its own. -/
def bodyStatements (l : Layouts) (attrs stmts : List Node) : List Doc :=
  shiftLast (-indent) (hardBreakIfNonempty ++ innerAttrs l (.list attrs) ++
    each l.statement stmts)

/-- The inner attributes and statements of a block. -/
def blockParts (b : Node) : List Node × List Node :=
  match b with
  | .node .block [.group _ [attrs, .node .list stmts]] => (attrs.children, stmts)
  | _ => ([], [])

/-- A block that may stand on one line if it holds one expression.  It belongs into a box. -/
def smallBlock (l : Layouts) (b : Node) : List Doc :=
  let (attrs, stmts) := blockParts b
  let inner :=
    if attrs.isEmpty && stmts.isEmpty then []
    else
      let content :=
        match stmts with
        | [.node .stmtExpr [e, semi]] =>
          if semi.isNone then ibox 0 (l.expr true e) ++ space else each l.statement stmts
        | _ => each l.statement stmts
      shiftLast (-indent) (space ++ innerAttrs l (.list attrs) ++ content)
  word "\x7b" ++ inner ++ word "\x7d"

/-- A block as the body of something, its brace at the end of the line. -/
def bodyBlock (l : Layouts) (b : Node) : List Doc :=
  let (attrs, stmts) := blockParts b
  word "\x7b" ++ neverBreak ++ cbox indent (bodyStatements l attrs stmts) ++ word "\x7d"

/-- A label. -/
def label (n : Node) : List Doc :=
  if n.isSome then leaf (n.part 0) ++ word ": " else []

/-- A condition, up to the brace after it. -/
def condition (l : Layouts) (e : Node) : List Doc :=
  cbox 0 (l.expr false e ++ (if breaksBeforeBrace e then space else word " "))

/-- An `if` and what follows it, without the box around it. -/
def ifParts (l : Layouts) (cond body otherwise : Node) : List Doc :=
  word "if " ++ cbox (-indent) (condition l cond) ++
    match otherwise with
    | .node .elseClause [_, other] => smallBlock l body ++ word " else " ++ l.alternative other
    | _ => []

/-- What stands after `else`. -/
def alternative (l : Layouts) (e : Node) : List Doc :=
  match e with
  | .node .exprIf [_, _, cond, body, otherwise] =>
    if otherwise.isSome then ifParts l cond body otherwise
    else word "if " ++ cbox (-indent) (condition l cond) ++ smallBlock l body
  | .node .exprBlock [_, _, b] => smallBlock l b
  | _ => []

/-- An `if`. -/
def ifExpr (l : Layouts) (cond body otherwise : Node) : List Doc :=
  let stmts := (blockParts body).2
  cbox indent (ifParts l cond body otherwise ++
    if otherwise.isSome then []
    else if stmts.isEmpty then word "\x7b\x7d"
    else word "\x7b" ++ shiftLast (-indent) (hardBreak ++ each l.statement stmts) ++ word "\x7d")

/-! ### Calls -/

/-- The arguments of a call. -/
def callArgs (l : Layouts) (args : List Node) : List Doc :=
  let list :=
    cbox indent (shiftLast (-indent)
      (softBreak ++ each (fun last a => l.expr false a ++ comma last) args))
  match args with
  | [single] => if isBlocklike single then l.expr false single else list
  | _ => list

/-- What stands before a point, and the break between them; a blank keeps the point apart from a
number that ends with one. -/
def beforePoint (l : Layouts) (leading : Bool) (base : Node) : List Doc :=
  let written := l.head leading base
  if leading && isShortName base then written
  else
    let inline := if listEndsWithPoint? written = some true then " " else ""
    written ++ [.brk { inline := inline }]

/-- A call, field, index, `?` or `await` after what stands before it; nothing for other
expressions.  Arguments begin further left where they follow a short name. -/
def trailer? (l : Layouts) (leading hang : Bool) (e : Node) : Option (List Doc) :=
  match e with
  | .node .exprCall [_, func, .group _ [args]] =>
    some (l.head false func ++ word "(" ++ callArgs l args.elems ++ word ")")
  | .node .exprMethod [_, base, _, name, turbofish, .group _ [args]] =>
    some (beforePoint l leading base ++ word "." ++ leaf name ++ angleArgs l .expr turbofish ++
      cbox (if hang then -indent else 0) (word "(" ++ callArgs l args.elems ++ word ")"))
  | .node .exprField [_, base, _, name] =>
    some (beforePoint l leading base ++ word "." ++ leaf name)
  | .node .exprIndex [_, base, .group _ [index]] =>
    some (l.head leading base ++ word "[" ++ l.expr false index ++ word "]")
  | .node .exprTry [_, base, _] => some (l.head leading base ++ word "?")
  | .node .exprAwait [_, base, _, _] => some (beforePoint l leading base ++ word ".await")
  | _ => none

/-- **What stands before a call, field, index or `?`.** -/
def head (l : Layouts) (leading : Bool) (e : Node) : List Doc :=
  (trailer? l leading false e).getD (cbox (-indent) (l.expr false e))

/-! ### Closures and arms -/

/-- An expression with breaks around it; braces stand before and after where lines end, or
parentheses where braces would change what is read. -/
def braced (l : Layouts) (leading : Bool) (closing : String) (inline : String) (e : Node) :
    List Doc :=
  let brace := beginsStatement e
  cbox indent
    ([.brk { before := if brace then "\x7b" else "(" }] ++ l.expr (leading && brace) e ++
      [.brk {
        offset := -indent, before := if brace && getsSemicolon e then ";" else "",
        after := if brace then "\x7d" else closing, inline := inline }])

/-- A closure. -/
def closure (l : Layouts) (lead : List Doc) (params : List Node) (output body : Node) :
    List Doc :=
  let inputs :=
    match params with
    | [] => []
    | _ => softBreak ++ separated (word "," ++ space) l.pattern params
  ibox 0 (lead ++
    match output with
    | .node .returnType [_, t] =>
      cbox indent (word "|" ++
        (if params.isEmpty then [] else shiftLast (-indent) (inputs ++ comma true)) ++
        word "|") ++
        word " -> " ++ l.type t ++ word " " ++ neverBreak ++ l.expr false body
    | _ =>
      let plain :=
        if body.isKind .exprMatch || body.isKind .exprCall then body.isUnmarked
        else isBlocklike body
      cbox indent (word "|" ++ inputs ++ word "|" ++ shiftLast (-indent) space) ++ neverBreak ++
        if plain then l.expr false body else braced l false ")" "" body)

/-- The body of an arm: an expression that stands alone in a block stands for the block. -/
def unwrapped : Node → Node
  | .node .exprBlock [attrs, name, .node .block [.group d [inner, .node k [.node s [e, semi]]]]] =>
    if attrs.children.isEmpty && name.isNone && inner.children.isEmpty && k = .list &&
        s = .stmtExpr && semi.isNone then unwrapped e
    else
      .node .exprBlock [attrs, name, .node .block [.group d [inner, .node k [.node s [e, semi]]]]]
  | e => e

/-- The empty tuple as the body of an arm stands for an empty block. -/
def asEmptyBlock (e : Node) : Node :=
  match e with
  | .node .exprTuple [attrs, .group _ [list]] =>
    if attrs.children.isEmpty && list.elems.isEmpty then
      .node .exprBlock [.list [], .none, .node .block [.group .brace [.list [], .list []]]]
    else e
  | _ => e

/-- An arm. -/
def arm (l : Layouts) (n : Node) : List Doc :=
  match n with
  | .node .arm [attrs, pat, guard, _, body, _] =>
    let body := asEmptyBlock (unwrapped body)
    outerAttrs l attrs ++
      ibox 0 (l.pattern pat ++
        (if guard.isSome then word " if " ++ l.expr false (guard.part 1) else []) ++
        word " => " ++
        match body with
        | .node .exprBlock [_, name, b] => label name ++ bodyBlock l b
        | _ =>
          neverBreak ++ braced l true ")," (if endsItself body then "" else ",") body)
  | _ => []

/-- The arms of a match. -/
def arms (l : Layouts) (content : List Node) : List Doc :=
  match content with
  | [inner, .node .list list] =>
    shiftLast (-indent) (hardBreakIfNonempty ++ innerAttrs l inner ++
      list.flatMap fun a => arm l a ++ hardBreak)
  | _ => []

/-! ### Struct literals and arrays -/

/-- A field of a struct literal. -/
def fieldValue (l : Layouts) (f : Node) : List Doc :=
  match f with
  | .node .fieldValue [attrs, name, _, value] =>
    outerAttrs l attrs ++ leaf name ++ word ": " ++ ibox 0 (l.expr false value)
  | .node .fieldShort [attrs, name] => outerAttrs l attrs ++ leaf name
  | _ => []

/-- The fields of a struct literal and the base that ends them; two dots without a base are not
written. -/
def structFields (l : Layouts) (fields : List Node) : List Doc :=
  let fields := fields.filter fun f => !(f.isKind .structRest && (f.part 1).isNone)
  each (fun last f =>
    match f with
    | .node .structRest [_, base] => word ".." ++ l.expr false base ++ space
    | _ => fieldValue l f ++ commaOrSpace last) fields

/-- The widest struct literal on one line, between its name and its closing brace. -/
def widestStruct : Nat := 34

/-- An array by its elements. -/
def array (l : Layouts) (elems : List Node) : List Doc :=
  if elems.isEmpty then word "[]"
  else if elems.all isPlainElement then
    let inner := ibox 0 (separated (word "," ++ space) (l.expr false) elems)
    cbox indent (word "[" ++ softBreak ++ inner ++ shiftLast (-indent) (comma true) ++ word "]")
  else bracketed "[" "]" false (l.expr false) elems

/-! ### Expressions -/

/-- Two operands and what stands between them. -/
def infixed (l : Layouts) (lhs : Node) (operator : List Doc) : List Doc :=
  ibox indent (ibox (-indent) (l.expr false lhs) ++ space ++ operator)

/-- A keyword and an operand that may be absent. -/
def withValue (l : Layouts) (keyword : List Doc) (value : Node) : List Doc :=
  keyword ++ (if value.isSome then word " " ++ l.expr false value else [])

/-- An expression without its attributes. -/
def exprBody (l : Layouts) (leading : Bool) (e : Node) : List Doc :=
  match e with
  | .node .exprLit [_, text] => leaf text
  | .node .exprPath [_, name] => path l .expr name
  | .node .exprUnary [_, sign, operand] => leaf sign ++ l.expr false operand
  | .node .exprBinary [_, lhs, sign, rhs] =>
    infixed l lhs (leaf sign ++ word " " ++ l.expr false rhs)
  | .node .exprAssign [_, lhs, _, rhs] =>
    ibox 0 (l.expr false lhs ++ word " = " ++ neverBreak ++ l.expr false rhs)
  | .node .exprCast [_, operand, _, t] => infixed l operand (word "as " ++ l.type t)
  | .node .exprRange [_, start, limits, stop] =>
    (if start.isSome then l.expr false start else []) ++ leaf limits ++
      (if stop.isSome then l.expr false stop else [])
  | .node .exprRef [_, _, mutable, operand] =>
    word "&" ++ ifThere mutable "mut " ++ l.expr false operand
  | .node .exprRawAddr [_, _, _, qualifier, operand] =>
    word "&raw " ++ word (leafText qualifier ++ " ") ++ l.expr false operand
  | .node .exprCall [_, func, .group _ [args]] =>
    l.expr false func ++ word "(" ++ callArgs l args.elems ++ word ")"
  | .node .exprMethod (_ :: base :: _) =>
    cbox indent ((trailer? l leading (leading && isShortName base) e).getD [])
  | .node .exprField _ => cbox indent ((trailer? l leading false e).getD [])
  | .node .exprIndex [_, base, .group _ [index]] =>
    l.expr leading base ++ word "[" ++ l.expr false index ++ word "]"
  | .node .exprTry [_, base, _] => l.expr leading base ++ word "?"
  | .node .exprAwait _ => cbox indent ((trailer? l leading false e).getD [])
  | .node .exprParen [_, .group _ [inner]] => word "(" ++ l.expr false inner ++ word ")"
  | .node .exprTuple [_, .group _ [list]] =>
    bracketed "(" ")" (list.elems.length = 1) (l.expr false) list.elems
  | .node .exprArray [_, .group _ [list]] => array l list.elems
  | .node .exprRepeat [_, .group _ [elem, _, len]] =>
    word "[" ++ l.expr false elem ++ word "; " ++ l.expr false len ++ word "]"
  | .node .exprStruct [_, name, .group _ [list]] =>
    cboxAtMost widestStruct indent (ibox (-indent) (path l .expr name) ++ word " \x7b" ++
      shiftLast (-indent) (spaceIfNonempty ++ structFields l list.elems)) ++ word "\x7d"
  | .node .exprBlock [_, name, b] => label name ++ cbox indent (smallBlock l b)
  | .node .exprUnsafe [_, _, b] => word "unsafe " ++ cbox indent (smallBlock l b)
  | .node .exprConst [_, _, b] => word "const " ++ cbox indent (smallBlock l b)
  | .node .exprAsync [_, _, capture, b] =>
    word "async " ++ ifThere capture "move " ++ cbox indent (smallBlock l b)
  | .node .exprTryBlock [_, _, b] => word "try " ++ cbox indent (smallBlock l b)
  | .node .exprLoop [_, name, _, b] =>
    let (attrs, stmts) := blockParts b
    label name ++ word "loop \x7b" ++ cbox indent (bodyStatements l attrs stmts) ++ word "\x7d"
  | .node .exprWhile [_, name, _, cond, b] =>
    label name ++ word "while " ++ condition l cond ++ bodyBlock l b
  | .node .exprFor [_, name, _, pat, _, source, b] =>
    ibox 0 (label name ++ word "for " ++ l.pattern pat ++ word " in " ++ neverBreak ++
      condition l source ++ bodyBlock l b)
  | .node .exprIf [_, _, cond, body, otherwise] => ifExpr l cond body otherwise
  | .node .exprLet [_, _, pat, _, value] =>
    ibox 0 (word "let " ++ ibox 0 (l.pattern pat) ++ word " = " ++ neverBreak ++
      ibox 0 (l.expr false value))
  | .node .exprMatch [_, _, subject, .group _ content] =>
    ibox 0 (word "match " ++ condition l subject ++ word "\x7b" ++ neverBreak ++
      cbox indent (arms l content) ++ word "\x7d")
  | .node .exprClosure
      [_, lifetimes, constness, pinned, asyncness, capture, _, params, _, output, body] =>
    closure l
      (binder (genericParam l) lifetimes ++ ifThere constness "const " ++
        ifThere pinned "static " ++ ifThere asyncness "async " ++ ifThere capture "move ")
      params.elems output body
  | .node .exprReturn [_, _, value] => withValue l (word "return") value
  | .node .exprBreak [_, _, name, value] =>
    withValue l (word "break" ++ (if name.isSome then word " " ++ leaf name else [])) value
  | .node .exprContinue [_, _, name] =>
    word "continue" ++ (if name.isSome then word " " ++ leaf name else [])
  | .node .exprYield [_, _, value] => withValue l (word "yield") value
  | .node .exprInfer _ => word "_"
  | .node .exprMac [_, name, _, tokens] => macCall l name .none tokens false
  | _ => []

/-- **An expression.** -/
def expr (l : Layouts) (leading : Bool) (e : Node) : List Doc :=
  outerAttrs l (e.part 0) ++ exprBody l leading e

end Scaffold.Layout
