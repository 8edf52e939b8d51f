import Scaffold.Layout.Tokens

/-!
# Paths and their arguments
-/

namespace Scaffold.Layout

open Syntax

/-- How the arguments of a path are written. -/
inductive PathStyle where
  /-- Not at all. -/
  | simple
  /-- Directly after the name. -/
  | type
  /-- After `::`. -/
  | expr
  deriving DecidableEq

/-! ### Generic arguments -/

/-- Lifetimes before all else, otherwise in order. -/
def lifetimesFirst (elems : List Node) : List Node :=
  let (first, second) := elems.partition Node.isLifetimeLike
  first ++ second

/-- Bounds on a line, or one a line. -/
def inlineBounds (l : Layouts) (lead : List Doc) (bounds : Node) : List Doc :=
  match bounds.elems with
  | [] => []
  | b :: bs => lead ++ l.bound b ++ bs.flatMap fun b => space ++ word "+ " ++ l.bound b

/-- A generic argument. -/
def genericArgument (l : Layouts) (arg : Node) : List Doc :=
  match arg with
  | .lifetime _ _ => leaf arg
  | .node .constArg [e] => l.expr false e
  | .node .assocType [name, args, _, type] =>
    leaf name ++ l.arguments args ++ word " = " ++ l.type type
  | .node .assocConst [name, args, _, .node _ [e]] =>
    leaf name ++ l.arguments args ++ word " = " ++ l.expr false e
  | .node .constraint [name, args, _, bounds] =>
    leaf name ++ l.arguments args ++ ibox indent (inlineBounds l (word ": ") bounds)
  | _ => l.type arg

/-- Arguments in angle brackets. -/
def angleArgs (l : Layouts) (style : PathStyle) (args : Node) : List Doc :=
  match args with
  | .node .angleArgs [_, _, list, _] =>
    if style = .simple || list.elems.isEmpty then []
    else
      let inner := each (fun last a => genericArgument l a ++ comma last) (lifetimesFirst list.elems)
      word (if style = .expr then "::<" else "<") ++
        cbox indent (shiftLast (-indent) (softBreak ++ inner)) ++ word ">"
  | _ => []

/-- The type after an arrow. -/
def returnType (l : Layouts) (output : Node) : List Doc :=
  match output with
  | .node .returnType [_, type] => word " -> " ++ l.type type
  | _ => []

/-- The arguments of a segment. -/
def segmentArgs (l : Layouts) (style : PathStyle) (args : Node) : List Doc :=
  match args with
  | .node .parenArgs [.group _ [inputs], output] =>
    let list := each (fun last t => l.type t ++ comma last) inputs.elems
    cbox indent (word "(" ++ shiftLast (-indent) (softBreak ++ list) ++ word ")" ++
      returnType l output)
  | _ => angleArgs l style args

/-! ### Paths -/

/-- A segment. -/
def segment (l : Layouts) (style : PathStyle) (seg : Node) : List Doc :=
  leaf (seg.part 0) ++ segmentArgs l style (seg.part 1)

/-- A path; one that begins with a type in angle brackets names the type first. -/
def path (l : Layouts) (style : PathStyle) (p : Node) : List Doc :=
  match p with
  | .node .path [lead, segments] =>
    ifThere lead "::" ++ separated (word "::") (segment l style) segments.elems
  | .node .qualifiedPath [_, type, trait_, _, _, segments] =>
    let as_ :=
      match trait_ with
      | .node .asClause [_, .node .path [lead, segs]] =>
        word " as " ++ ifThere lead "::" ++ separated (word "::") (segment l .type) segs.elems
      | _ => []
    word "<" ++ l.type type ++ as_ ++ word ">" ++
      segments.elems.flatMap fun seg => word "::" ++ segment l style seg
  | _ => []

/-- The path that is left of one that begins with a type in angle brackets without the type: the
trait and what follows it. -/
def pathWithoutType (l : Layouts) (p : Node) : List Doc :=
  match p with
  | .node .qualifiedPath [_, _, trait_, _, _, segments] =>
    let own := separated (word "::") (segment l .expr) segments.elems
    match trait_ with
    | .node .asClause [_, .node .path [lead, segs]] =>
      ifThere lead "::" ++ separated (word "::") (segment l .expr) segs.elems ++ word "::" ++ own
    | _ => word "::" ++ own
  | _ => path l .expr p

/-! ### Macro calls -/

/-- The tokens between the delimiters of a macro call. -/
def macroContent (tokens : Node) : List Token :=
  match tokens with
  | .verbatim [.group _ content] => content
  | _ => []

/-- Whether a path with a name after it declares a macro by rules. -/
def declaresRules (p name : Node) : Bool :=
  match p with
  | .node .path [lead, .node .separated [.node .segment [.word false w, _]]] =>
    lead.isNone && name.isSome && w == "macro_rules"
  | _ => false

/-- A call of a macro, or the rules of one. -/
def macCall (l : Layouts) (p name tokens : Node) (semicolon : Bool) : List Doc :=
  if declaresRules p name then
    let rules := (macroRules? .start (macroContent tokens)).getD []
    word "macro_rules! " ++ leaf name ++ word " \x7b" ++
      cbox indent (shiftLast (-indent) (hardBreakIfNonempty ++ rules)) ++ word "\x7d"
  else
    let group :=
      match tokens with
      | .verbatim ts => macroGroup ts
      | _ => []
    path l .simple p ++ word "!" ++ (if name.isSome then word " " ++ leaf name else []) ++ group ++
      (if semicolon then word ";" else [])

end Scaffold.Layout
