import Scaffold.Syntax.Node
import Scaffold.Syntax.Precedence

/-!
# Parentheses

The tree of an expression knows which operand belongs to which operator; its text needs
parentheses where the tokens alone would be read otherwise.  `grouped` adds them to a tree as nodes
of their own, so that the tokens of the result are read as the tree.

Whether an operand needs parentheses depends on its *place*: the operator that it follows as a
right operand and the operator that follows it.  Precedence alone settles most cases.  The others
have an operand whose right end is loose, such as `return a` or `|x| x`: what follows would be read
as a part of it, unless its end takes nothing more, as in `return ..`.  `Place.scan` follows the
forms along the right end of an expression (`forms`) to tell the two apart.

A brace after a condition begins the body, so a block that begins the end of a range there is
written in parentheses: `..=({ n })`.
-/

namespace Scaffold.Syntax

/-! ### Places -/

/-- What stands around an expression that is written without parentheses. -/
structure Place where
  /-- The operator whose right operand ends the text before the expression; a jump where there is
  none. -/
  before : Precedence := .jump
  /-- The operator that follows; a jump where there is none. -/
  after : Precedence := .jump
  /-- Whether what follows could also begin an expression, as `-` and `&` can. -/
  ambiguous : Bool := false
  /-- Whether an operator follows. -/
  continued : Bool := false
  /-- Whether the body of a closure may end with a brace of its own, so that nothing is known of
  its end. -/
  braced : Bool := false
  /-- Whether the expression belongs to a condition, after which a brace begins the body. -/
  conditional : Bool := false
  /-- Whether the expression begins the end of a range in a condition. -/
  beginsEnd : Bool := false

namespace Place

/-- The place of an expression that stands alone. -/
def alone (p : Place) : Place := { braced := p.braced }

/-- The place of the left operand of an operator. -/
def left (p : Place) (operator : Precedence) (ambiguous : Bool) : Place :=
  { p with after := operator, ambiguous := ambiguous, continued := true }

/-- The place of what stands before a point, `?` or an index. -/
def receiver (p : Place) : Place := p.left .closed false

/-- The place of the right operand of an operator. -/
def right (p : Place) (operator : Precedence) : Place :=
  { p with before := operator, beginsEnd := false }

/-- The place of the end of a range. -/
def rangeEnd (p : Place) : Place := { p.right .range with beginsEnd := p.conditional }

/-- The place of what a jump takes along, where a brace begins no body. -/
def value (p : Place) : Place := { p.right .jump with conditional := false }

/-- The place of the condition of a loop, `if` or `match`. -/
def condition (p : Place) : Place := { p.alone with conditional := true }

/-- The place inside parentheses, where there are any. -/
def within (p : Place) (parens : Bool) : Place := if parens then p.alone else p

end Place

/-! ### Forms of expressions -/

/-- The outermost form of an expression, as far as parentheses depend on it. -/
inductive Form where
  | assign
  | binary (operator : Precedence)
  | cast
  /-- An operator before its operand. -/
  | sign
  /-- A range that may have a start and an end. -/
  | range (started ended : Bool)
  /-- `return`, `yield` or `break`, perhaps with a value. -/
  | jump (valued : Bool)
  /-- A closure, perhaps with the type of its result, which makes its body a block. -/
  | closure (typed marked : Bool)
  /-- `let` in a condition. -/
  | binding
  /-- An expression that is closed on both sides, perhaps with attributes before it. -/
  | closed (marked : Bool)
  deriving DecidableEq

/-- **The forms along the right end of an expression:** its own, then that of its last operand,
and so on. -/
def forms : Node → List Form
  | .node .exprAssign [_, _, _, rhs] => .assign :: forms rhs
  | .node .exprBinary [_, _, .op marks, rhs] => .binary (.ofOperator marks) :: forms rhs
  | .node .exprCast _ => [.cast]
  | .node .exprUnary [_, _, operand] => .sign :: forms operand
  | .node .exprRef [_, _, _, operand] => .sign :: forms operand
  | .node .exprRawAddr [_, _, _, _, operand] => .sign :: forms operand
  | .node .exprRange [_, start, _, stop] => .range start.isSome stop.isSome :: forms stop
  | .node .exprReturn [_, _, value] => .jump value.isSome :: forms value
  | .node .exprYield [_, _, value] => .jump value.isSome :: forms value
  | .node .exprBreak [_, _, _, value] => .jump value.isSome :: forms value
  | .node .exprClosure [attrs, _, _, _, _, _, _, _, _, output, body] =>
    .closure output.isSome (!attrs.children.isEmpty) :: forms body
  | .node .exprLet [_, _, _, _, value] => .binding :: forms value
  | .node _ (attrs :: _) => [.closed (!attrs.children.isEmpty)]
  | _ => [.closed false]

namespace Form

/-- The precedence of an expression of the form.  Attributes before one that is otherwise closed
count as an operator before it. -/
def precedence : Form → Precedence
  | .assign => .assign
  | .binary operator => operator
  | .cast => .cast
  | .sign => .sign
  | .range _ _ => .range
  | .jump valued => if valued then .jump else .closed
  | .closure typed marked => if !typed then .jump else if marked then .sign else .closed
  | .binding => .binding
  | .closed marked => if marked then .sign else .closed

/-- Whether the expression extends as far as it can, so that it is as good as closed where nothing
follows. -/
def reachesEnd : Form → Bool
  | .jump _ => true
  | .closure _ _ => true
  | .binding => true
  | .range started _ => !started
  | _ => false

/-- The first of some forms. -/
def first (fs : List Form) : Form := fs.headD (.closed false)

end Form

/-! ### The right end of an expression -/

/-- What becomes of the operator that follows an expression. -/
inductive Fate where
  /-- It is read as a part of the expression. -/
  | taken
  /-- The expression ends before it. -/
  | left
  /-- The expression ends before it, and so does all whose right end it is: an open range takes no
  operator. -/
  | refused
  deriving DecidableEq

namespace Place

/-- The precedence of an expression in its place.  A jump without a value would take what follows
for one. -/
def precedence (p : Place) (form : Form) : Precedence :=
  if p.ambiguous && form = .jump false then .jump
  else if !p.continued && form.reachesEnd then .sign
  else form.precedence

/-- Whether the outermost operator of an expression gets its left operand from the expression and
not from the text before it. -/
def holdsLeft (p : Place) : Form → Bool
  | .assign => p.before ≤ .assign
  | .binary operator => if operator = .assign then p.before ≤ .assign else p.before < operator
  | .cast => p.before < .cast
  | .range started _ => !started || p.before < .assign
  | _ => true

/-- The precedence of a right operand in its place, given what becomes of the operator that follows
it. -/
def rightPrecedence (p : Place) (fate : Unit → Fate) (form : Form) : Precedence :=
  let own := p.precedence form
  let loose : Bool :=
    if p.before = .assign ∨ p.before = .binding ∨ p.before = .sign then own < p.before
    else own ≤ p.before
  let settled := p.after = .range || p.after = .disjunction || p.after = .conjunction || !p.ambiguous
  if loose && settled && fate () ≠ .taken && p.holdsLeft form then .sign else own

/-- **What becomes of the operator after an expression** with the given forms, where the last
operator before it has the precedence `bound`.  `refusals` and `ends` count the ways in which the
expression may be refused, or end, without a difference to the outcome. -/
def scan (p : Place) (bound : Precedence) (refusals ends : Nat) : List Form → Fate
  | form :: rest =>
    let tighter : Bool :=
      if bound = .assign ∨ bound = .comparison then bound ≤ p.after else bound < p.after
    let byPrecedence : Fate := if tighter || p.after = .jump then .taken else .left
    -- no operator but a point or its like follows
    let pointed : Bool := p.after = .closed
    let settled : Bool :=
      if pointed then 2 ≤ refusals && (byPrecedence = .taken || 1 ≤ ends) else 1 ≤ ends
    let refusalsRight := if pointed then refusals else 1
    let endsRight := if byPrecedence = .taken then 1 else 0
    let ending : Fate := if pointed then .refused else .left
    match form with
    | .assign =>
      if (if pointed then 2 ≤ refusals else 1 ≤ ends) then .taken
      else match scan (p.right .assign) .assign refusalsRight 1 rest with
        | .refused => ending
        | _ => .taken
    | .binary operator =>
      let q := p.right operator
      if settled || (operator = .comparison && p.after = .comparison) then .taken
      else match scan q operator refusalsRight endsRight rest with
        | .taken => .taken
        | .left => byPrecedence
        | .refused =>
          if operator ≠ .assign &&
              q.rightPrecedence (fun _ => scan q operator 1 0 rest) (.first rest) ≤ operator then
            byPrecedence
          else ending
    | .sign =>
      let q := p.right .sign
      if settled then .taken
      else match scan q bound refusalsRight endsRight rest with
        | .taken => .taken
        | .left => byPrecedence
        | .refused =>
          if q.rightPrecedence (fun _ => scan q .sign 1 0 rest) (.first rest) < .sign then
            byPrecedence
          else ending
    | .range _ ended =>
      let q := p.right .range
      let yields := p.after = .assign || p.after = .range
      if !ended then if p.ambiguous then .taken else .refused
      else if 2 ≤ refusals then .taken
      else
        let fate := scan q .range refusals (if yields then 0 else 1) rest
        if fate = .taken || (fate = .left && !yields) then .taken
        else if q.rightPrecedence (fun _ => scan q .range 1 0 rest) (.first rest) ≤ .range then
          .taken
        else .refused
    | .jump valued =>
      if !valued then if p.after = .assign && .assign < bound then .refused else .taken
      else if 1 ≤ ends || scan (p.right .jump) .jump 1 1 rest ≠ .refused then .taken
      else .left
    | .closure _ _ =>
      if p.braced || 1 ≤ ends || scan (p.right .jump) .jump 1 1 rest ≠ .refused then .taken
      else .left
    | .binding =>
      let q := p.right .binding
      let looser : Bool := p.after < .binding
      if 1 ≤ ends then .taken
      else
        let fate := scan q .binding 1 (if looser then 0 else 1) rest
        if fate = .taken then .taken
        else if looser then .left
        else if q.rightPrecedence (fun _ => scan q .binding 1 0 rest) (.first rest) < .binding then
          .taken
        else if fate = .refused then .left
        else .taken
    | .cast => byPrecedence
    | .closed _ => byPrecedence
  | [] => .taken

/-- The precedence of an expression as a left operand. -/
def leftOperand (p : Place) (e : Node) : Precedence :=
  let fs := forms e
  if (!p.ambiguous || p.after = .range) && p.scan .jump 0 0 fs = .left && p.holdsLeft (.first fs) then
    .closed
  else p.precedence (.first fs)

/-- The precedence of an expression as a right operand. -/
def rightOperand (p : Place) (e : Node) : Precedence :=
  let fs := forms e
  p.rightPrecedence (fun _ => p.scan p.before 1 0 fs) (.first fs)

end Place

/-! ### Adding the parentheses -/

/-- An expression in parentheses, where it needs them. -/
def enclosed (parens : Bool) (e : Node) : Node :=
  if parens then .node .exprParen [.list [], .group .paren [e]] else e

/-- Whether a binary operator could begin an expression too. -/
def isAmbiguous (marks : String) : Bool :=
  ["-", "*", "&&", "||", "&", "|", "<<", "<"].contains marks

/-- Whether the left operand of a binary operator needs parentheses. -/
def needsLeft (operator operand : Precedence) : Bool :=
  if operator = .assign then operand ≤ .range
  else if operator = .comparison then operand ≤ operator
  else operand < operator

mutual

/-- **A tree with the parentheses that its text needs.**  `p` is its place, if it is an
expression. -/
def grouped (p : Place) : Node → Node
  | .node .exprAssign [attrs, lhs, eq, rhs] =>
    let l := p.left .assign false
    let parens := needsLeft .assign (l.leftOperand lhs)
    .node .exprAssign [grouped p.alone attrs, enclosed parens (grouped (l.within parens) lhs), eq,
      grouped (p.right .assign) rhs]
  | .node .exprBinary [attrs, lhs, .op marks, rhs] =>
    let own := Precedence.ofOperator marks
    let l := p.left own (isAmbiguous marks)
    let r := p.right own
    let parensL := needsLeft own (l.leftOperand lhs)
    let parensR := own ≠ .assign && r.rightOperand rhs ≤ own
    .node .exprBinary [grouped p.alone attrs, enclosed parensL (grouped (l.within parensL) lhs),
      .op marks, enclosed parensR (grouped (r.within parensR) rhs)]
  | .node .exprCast [attrs, operand, keyword, type] =>
    let l := p.left .cast false
    let parens : Bool := l.leftOperand operand < .cast
    .node .exprCast [grouped p.alone attrs, enclosed parens (grouped (l.within parens) operand),
      keyword, grouped p.alone type]
  | .node .exprRange [attrs, start, limits, stop] =>
    let marked := !attrs.children.isEmpty
    let p := p.within marked
    let l := p.left .range true
    let r := p.rangeEnd
    let parensL : Bool := start.isSome && l.leftOperand start ≤ .range
    let parensR : Bool := stop.isSome && r.rightOperand stop ≤ .range
    let start := enclosed parensL (grouped (l.within parensL) start)
    let stop := enclosed parensR (grouped (r.within parensR) stop)
    let attrs := grouped p.alone attrs
    if marked then
      .node .exprParen [attrs, .group .paren [.node .exprRange [.list [], start, limits, stop]]]
    else .node .exprRange [attrs, start, limits, stop]
  | .node .patRange [attrs, start, limits, stop] =>
    let start := grouped p.alone start
    let stop := grouped p.alone stop
    if attrs.children.isEmpty then .node .patRange [attrs, start, limits, stop]
    else
      .node .patParen [grouped p.alone attrs,
        .group .paren [.node .patRange [.list [], start, limits, stop]]]
  | .node .exprUnary [attrs, sign, operand] =>
    let r := p.right .sign
    let parens : Bool := r.rightOperand operand < .sign
    .node .exprUnary
      [grouped p.alone attrs, sign, enclosed parens (grouped (r.within parens) operand)]
  | .node .exprRef [attrs, amp, mutable, operand] =>
    let r := p.right .sign
    let parens : Bool := r.rightOperand operand < .sign
    .node .exprRef
      [grouped p.alone attrs, amp, mutable, enclosed parens (grouped (r.within parens) operand)]
  | .node .exprRawAddr [attrs, amp, raw, qualifier, operand] =>
    let r := p.right .sign
    let parens : Bool := r.rightOperand operand < .sign
    .node .exprRawAddr [grouped p.alone attrs, amp, raw, qualifier,
      enclosed parens (grouped (r.within parens) operand)]
  | .node .exprLet [attrs, keyword, pattern, eq, value] =>
    let r := p.right .binding
    let parens : Bool := r.rightOperand value < .binding
    .node .exprLet [grouped p.alone attrs, keyword, grouped p.alone pattern, eq,
      enclosed parens (grouped (r.within parens) value)]
  | .node .exprReturn [attrs, keyword, value] =>
    .node .exprReturn [grouped p.alone attrs, keyword, grouped p.value value]
  | .node .exprYield [attrs, keyword, value] =>
    .node .exprYield [grouped p.alone attrs, keyword, grouped p.value value]
  | .node .exprBreak [attrs, keyword, label, value] =>
    .node .exprBreak [grouped p.alone attrs, keyword, label, grouped p.value value]
  | .node .exprClosure
      [attrs, binder, constness, pinned, asyncness, capture, first, params, second, output, body] =>
    .node .exprClosure [grouped p.alone attrs, grouped p.alone binder, constness, pinned, asyncness,
      capture, first, grouped p.alone params, second, grouped p.alone output,
      grouped (p.right .jump) body]
  | .node .exprCall (attrs :: func :: parts) =>
    let l := p.left .closed true
    let parens : Bool := l.leftOperand func < .closed
    .node .exprCall (grouped p.alone attrs :: enclosed parens (grouped (l.within parens) func) ::
      groupedParts p.alone parts)
  | .node .exprIndex (attrs :: base :: parts) =>
    let l := p.left .closed true
    let parens : Bool := l.leftOperand base < .closed
    .node .exprIndex (grouped p.alone attrs :: enclosed parens (grouped (l.within parens) base) ::
      groupedParts p.alone parts)
  | .node .exprMethod (attrs :: base :: parts) =>
    let parens : Bool := p.receiver.leftOperand base < .closed
    .node .exprMethod (grouped p.alone attrs ::
      enclosed parens (grouped (p.receiver.within parens) base) :: groupedParts p.alone parts)
  | .node .exprField (attrs :: base :: parts) =>
    let parens : Bool := p.receiver.leftOperand base < .closed
    .node .exprField (grouped p.alone attrs ::
      enclosed parens (grouped (p.receiver.within parens) base) :: groupedParts p.alone parts)
  | .node .exprTry (attrs :: base :: parts) =>
    let parens : Bool := p.receiver.leftOperand base < .closed
    .node .exprTry (grouped p.alone attrs ::
      enclosed parens (grouped (p.receiver.within parens) base) :: groupedParts p.alone parts)
  | .node .exprAwait (attrs :: base :: parts) =>
    let parens : Bool := p.receiver.leftOperand base < .closed
    .node .exprAwait (grouped p.alone attrs ::
      enclosed parens (grouped (p.receiver.within parens) base) :: groupedParts p.alone parts)
  | .node .exprIf (attrs :: keyword :: cond :: parts) =>
    .node .exprIf (grouped p.alone attrs :: keyword :: grouped p.condition cond ::
      groupedParts p.alone parts)
  | .node .exprWhile (attrs :: name :: keyword :: cond :: parts) =>
    .node .exprWhile (grouped p.alone attrs :: name :: keyword :: grouped p.condition cond ::
      groupedParts p.alone parts)
  | .node .exprFor [attrs, name, keyword, pattern, within, source, body] =>
    .node .exprFor [grouped p.alone attrs, name, keyword, grouped p.alone pattern, within,
      grouped p.condition source, grouped p.alone body]
  | .node .exprMatch (attrs :: keyword :: subject :: parts) =>
    .node .exprMatch (grouped p.alone attrs :: keyword :: grouped p.condition subject ::
      groupedParts p.alone parts)
  | .node .exprBlock (attrs :: name :: parts) =>
    let bare := (Node.node .exprBlock (attrs :: name :: parts)).isUnmarked && name.isNone
    enclosed (p.beginsEnd && bare)
      (.node .exprBlock (grouped p.alone attrs :: name :: groupedParts p.alone parts))
  | .node kind parts => .node kind (groupedParts p.alone parts)
  | .group delim parts => .group delim (groupedParts p.alone parts)
  | n => n

/-- Trees that stand alone, with their parentheses. -/
def groupedParts (p : Place) : List Node → List Node
  | [] => []
  | n :: ns => grouped p n :: groupedParts p ns

end

end Scaffold.Syntax
