import Scaffold.Syntax.Node
import Scaffold.Syntax.Precedence
import Scaffold.Syntax.Keyword
import Scaffold.Text.Numeral

/-!
# Reading a token list

A parser takes the tokens that are left and returns a value with the tokens after it, or fails.
Decisions look ahead with the `at…` predicates on the token list, so a parser fails only where
the text is wrong, and alternatives are tried one after the other only in the few places where
the grammar asks for it.

Loops are bounded by the number of tokens that are left, since each round takes at least one.
Nesting goes through a record of the parsers that the grammar calls recursively, `Grammar`, which
is closed at a given depth in `Scaffold.Syntax.Grammar.Entry`.
-/

namespace Scaffold.Syntax

/-- A parser over token lists. -/
abbrev Parser := StateT (List Token) Option

namespace Parser

/-! ### Looking ahead -/

/-- Whether the marks of an operator stand at the head; all but its last mark must be joint. -/
def atMarks : List Char → List Token → Bool
  | [], _ => false
  | [c], .punct d _ :: _ => c = d
  | c :: cs, .punct d joint :: ts => c = d && joint && atMarks cs ts
  | _, _ => false

/-- Whether the operator `marks` stands at the head. -/
def atOp (marks : String) (ts : List Token) : Bool :=
  atMarks marks.toList ts

/-- Whether one of the operators stands at the head. -/
def atAnyOp (ops : List String) (ts : List Token) : Bool :=
  ops.any (atOp · ts)

/-- Whether the keyword `w` stands at the head. -/
def atWord (w : String) : List Token → Bool
  | t :: _ => t.isWord w
  | [] => false

/-- Whether an identifier stands at the head: a raw word, or one that is no keyword. -/
def atIdent : List Token → Bool
  | .word raw name :: _ => raw || !isKeyword name
  | _ => false

/-- Whether any word stands at the head. -/
def atAnyWord : List Token → Bool
  | .word _ _ :: _ => true
  | _ => false

/-- Whether one of the words that may begin a path stands at the head. -/
def atPathWord (ts : List Token) : Bool :=
  ["super", "self", "Self", "crate"].any (atWord · ts)

/-- Whether a lifetime stands at the head. -/
def atLifetime : List Token → Bool
  | .lifetime _ _ :: _ => true
  | _ => false

/-- Whether a group stands at the head. -/
def atGroup (delim : Delimiter) : List Token → Bool
  | .group d _ :: _ => d = delim
  | _ => false

/-- The tokens after the first. -/
def after1 (ts : List Token) : List Token := ts.drop 1

/-- The tokens after the second. -/
def after2 (ts : List Token) : List Token := ts.drop 2

/-! ### Literals -/

/-- Whether a literal is a number that is not a float: an integer of any base. -/
def isIntLiteral (text : String) : Bool :=
  match text.toList with
  | '0' :: 'x' :: _ => true
  | '0' :: 'o' :: _ => true
  | '0' :: 'b' :: _ => true
  | c :: cs =>
    if Text.isAsciiDigit c then
      let rest := cs.dropWhile (fun d => Text.isAsciiDigit d || d = '_')
      match rest with
      | '.' :: _ => false
      | e :: digits =>
        if e = 'e' ∨ e = 'E' then
          -- an exponent makes a float; a letter that begins a suffix does not
          let tail := digits.dropWhile (· = '_')
          match tail with
          | d :: more =>
            if d = '+' ∨ d = '-' then false
            else if Text.isAsciiDigit d then
              let suffix := more.dropWhile (fun x => Text.isAsciiDigit x || x = '_')
              match suffix with
              | [] => false
              | s :: _ => !(s = '+' || s = '-' || Text.isIdentStart s)
            else true
          | [] => true
        else true
      | [] => true
    else false
  | [] => false

/-- Whether a literal is a floating-point number. -/
def isFloatLiteral (text : String) : Bool :=
  match text.toList with
  | c :: _ => Text.isAsciiDigit c && !isIntLiteral text
  | [] => false

/-- Whether a literal is a string of characters, raw or not. -/
def isStringLiteral (text : String) : Bool :=
  match text.toList with
  | '"' :: _ => true
  | 'r' :: _ => true
  | _ => false

/-- Whether a literal stands at the head: one token, `true`, `false`, or a negative number. -/
def atLiteral : List Token → Bool
  | .literal _ :: _ => true
  | .word false name :: _ => name == "true" || name == "false"
  | .punct '-' _ :: .literal text :: _ => isIntLiteral text || isFloatLiteral text
  | _ => false

/-! ### Taking tokens -/

/-- The tokens that are left. -/
def rest : Parser (List Token) := get

/-- Asks for the end of the tokens. -/
def done : Parser Unit := do
  if (← rest).isEmpty then pure () else failure

/-- Takes the operator `marks`. -/
def op (marks : String) : Parser Node := do
  if atOp marks (← rest) then
    modify (·.drop marks.length)
    pure (.op marks)
  else failure

/-- Takes the operator `marks` where it stands there. -/
def op? (marks : String) : Parser Node := do
  if atOp marks (← rest) then op marks else pure .none

/-- Takes the keyword `w`. -/
def kw (w : String) : Parser Node := do
  match ← rest with
  | t :: ts => if t.isWord w then set ts; pure (.word false w) else failure
  | [] => failure

/-- Takes the keyword `w` where it stands there. -/
def kw? (w : String) : Parser Node := do
  if atWord w (← rest) then kw w else pure .none

/-- Takes an identifier. -/
def ident : Parser Node := do
  match ← rest with
  | .word raw name :: ts =>
    if raw || !isKeyword name then set ts; pure (.word raw name) else failure
  | _ => failure

/-- Takes any word. -/
def anyWord : Parser Node := do
  match ← rest with
  | .word raw name :: ts => set ts; pure (.word raw name)
  | _ => failure

/-- Takes an identifier, or one of the words `also`. -/
def identOr (also : List String) : Parser Node := do
  if also.any (atWord · (← StateT.get)) then anyWord else ident

/-- Takes a lifetime. -/
def lifetime : Parser Node := do
  match ← rest with
  | .lifetime raw name :: ts => set ts; pure (.lifetime raw name)
  | _ => failure

/-- Takes a lifetime where one stands there. -/
def lifetime? : Parser Node := do
  if atLifetime (← rest) then lifetime else pure .none

/-- Takes a literal. -/
def literal : Parser Node := do
  match ← rest with
  | .literal text :: ts => set ts; pure (.literal text)
  | .word false name :: ts =>
    if name == "true" || name == "false" then set ts; pure (.word false name) else failure
  | .punct '-' _ :: .literal text :: ts =>
    if isIntLiteral text || isFloatLiteral text then
      set ts
      pure (.list [.op "-", .literal text])
    else failure
  | _ => failure

/-- Takes the group in `delim` and reads its whole content with `p`. -/
def group {α : Type} (delim : Delimiter) (p : Parser α) : Parser α := do
  match ← rest with
  | .group d content :: ts =>
    if d = delim then
      match p.run content with
      | some (a, []) => set ts; pure a
      | _ => failure
    else failure
  | _ => failure

/-- Takes the group in `delim` as a node whose parts are what `p` reads. -/
def groupNode (delim : Delimiter) (p : Parser (List Node)) : Parser Node := do
  pure (.group delim (← group delim p))

/-- Takes a group of any delimiter with its tokens as they are. -/
def anyGroup : Parser (Delimiter × Node) := do
  match ← rest with
  | .group d content :: ts => set ts; pure (d, .verbatim [.group d content])
  | _ => failure

/-- Runs `p` without taking anything, and tells whether it succeeds. -/
def succeeds {α : Type} (p : Parser α) : Parser Bool := do
  pure (p.run (← rest)).isSome

/-- The tokens between a beginning and the tokens that are left now. -/
def since (start : List Token) : Parser (List Token) := do
  pure (start.take (start.length - (← rest).length))

/-! ### Loops -/

/-- Repeats `step` until it gives a result, at most `fuel` times. -/
def loopFor {σ β : Type} (step : σ → Parser (σ ⊕ β)) : Nat → σ → Parser β
  | 0, _ => failure
  | fuel + 1, s => do
    match ← step s with
    | .inl s => loopFor step fuel s
    | .inr b => pure b

/-- Repeats `step`, which takes at least one token in every round but the last. -/
def loop {σ β : Type} (step : σ → Parser (σ ⊕ β)) (s : σ) : Parser β := do
  loopFor step ((← rest).length + 2) s

/-- Reads elements while `more` holds of the tokens that are left. -/
def manyWhile (more : List Token → Bool) (p : Parser Node) : Parser (List Node) :=
  loop (fun (acc : List Node) => do
    if more (← rest) then pure (.inl ((← p) :: acc)) else pure (.inr acc.reverse)) []

/-- Reads elements to the end of the tokens. -/
def manyToEnd (p : Parser Node) : Parser (List Node) :=
  manyWhile (!·.isEmpty) p

/-- Reads elements separated by `sep`, up to where `stop` holds: before an element or after one.
A separator may stand at the end. -/
def sepUntil (stop : List Token → Bool) (sep : String) (p : Parser Node) (kind : Kind) :
    Parser Node :=
  loop (fun (acc : List Node) => do
    if stop (← rest) then pure (.inr (.node kind acc.reverse))
    else
      let n ← p
      if stop (← rest) then pure (.inr (.node kind (n :: acc).reverse))
      else pure (.inl ((← op sep) :: n :: acc))) []

/-- Reads elements separated by `sep` to the end of the tokens. -/
def terminated (sep : String) (p : Parser Node) : Parser Node :=
  sepUntil (·.isEmpty) sep p .separated

/-- Reads elements up to where `stop` holds or no separator follows.  A separator may stand at
the end. -/
def sepWhile (stop : List Token → Bool) (sep : String) (p : Parser Node) : Parser Node :=
  loop (fun (acc : List Node) => do
    if stop (← rest) then pure (.inr (.node .separated acc.reverse))
    else
      let n ← p
      if atOp sep (← rest) then pure (.inl ((← op sep) :: n :: acc))
      else pure (.inr (.node .separated (n :: acc).reverse))) []

end Parser

/-- The parsers that the grammar calls recursively. -/
structure Grammar where
  /-- A type; the flag allows `+` between bounds. -/
  type : (allowPlus : Bool) → Parser Node
  /-- An expression; the flag allows a struct literal at its head. -/
  expr : (allowStruct : Bool) → Parser Node
  /-- An expression at the head of a statement or as the body of an arm. -/
  exprEarly : Parser Node
  /-- An operand with its prefix operators. -/
  unary : (allowStruct : Bool) → Parser Node
  /-- The right operand of an operator of the given precedence. -/
  operand : (allowStruct : Bool) → Precedence → Parser Node
  /-- A pattern without alternatives. -/
  pattern : Parser Node
  /-- Braces around inner attributes and statements. -/
  block : (innerAttrs : Bool) → Parser Node
  /-- An item. -/
  item : Parser Node
  /-- Named fields in braces. -/
  fields : Parser Node
  /-- A bound; the flags allow a capture list and a `const` modifier. -/
  bound : (allowCapture allowConst : Bool) → Parser Node
  /-- A use tree; the flag allows `::` before the trees of a group. -/
  useTree : (allowRoot : Bool) → Parser Node
  deriving Inhabited

/-- The grammar that accepts nothing. -/
def Grammar.empty : Grammar where
  type := fun _ => failure
  expr := fun _ => failure
  exprEarly := failure
  unary := fun _ => failure
  operand := fun _ _ => failure
  pattern := failure
  block := fun _ => failure
  item := failure
  fields := failure
  bound := fun _ _ => failure
  useTree := fun _ => failure

end Scaffold.Syntax
