import Scaffold.Layout.Type

/-!
# Patterns
-/

namespace Scaffold.Layout

open Syntax

/-- Whether a pattern is a literal or an underscore; alternatives of such are filled line by
line, others stand one a line where they do not fit on one. -/
def isPlainPattern (p : Node) : Bool :=
  match p with
  | .node .patExpr [.node .exprLit _] => true
  | .node .patWild _ => true
  | _ => false

/-- A field of a struct pattern. -/
def fieldPattern (l : Layouts) (f : Node) : List Doc :=
  match f with
  | .node .fieldPat [attrs, name, _, pat] =>
    outerAttrs l attrs ++ leaf name ++ word ": " ++ l.pattern pat
  | .node .fieldPatShort [attrs, pat] => outerAttrs l attrs ++ l.pattern pat
  | _ => []

/-- The fields of a struct pattern; two dots that end them have no comma. -/
def structPatternFields (l : Layouts) (fields : List Node) : List Doc :=
  each (fun last f =>
    match f with
    | .node .patRest [attrs, _] => outerAttrs l attrs ++ word ".." ++ space
    | _ => fieldPattern l f ++ commaOrSpace last) fields

/-- **A pattern.** -/
def pattern (l : Layouts) (p : Node) : List Doc :=
  match p with
  | .node .patIdent [attrs, byRef, mutable, name, sub] =>
    outerAttrs l attrs ++ ifThere byRef "ref " ++ ifThere mutable "mut " ++ leaf name ++
      (if sub.isSome then word " @ " ++ l.pattern (sub.part 1) else [])
  | .node .patWild [attrs, _] => outerAttrs l attrs ++ word "_"
  | .node .patRest [attrs, _] => outerAttrs l attrs ++ word ".."
  | .node .patPath [attrs, name] => outerAttrs l attrs ++ path l .expr name
  | .node .patExpr [e] => l.expr false e
  | .node .patRange [attrs, start, limits, stop] =>
    outerAttrs l attrs ++ (if start.isSome then l.expr false start else []) ++
      word (if limits.isText ".." then ".." else "..=") ++
      (if stop.isSome then l.expr false stop else [])
  | .node .patRef [attrs, _, mutable, inner] =>
    outerAttrs l attrs ++ word "&" ++ ifThere mutable "mut " ++ l.pattern inner
  | .node .patTuple [attrs, .group _ [list]] =>
    let inner :=
      match list.elems with
      | [single] =>
        l.pattern single ++ (if list.endsWithSeparator then word "," else []) ++ softBreak
      | elems => each (fun last e => l.pattern e ++ comma last) elems
    outerAttrs l attrs ++ word "(" ++
      cbox indent (shiftLast (-indent) (softBreak ++ inner)) ++ word ")"
  | .node .patParen [attrs, .group _ [inner]] =>
    outerAttrs l attrs ++ word "(" ++ l.pattern inner ++ word ")"
  | .node .patSlice [attrs, .group _ [list]] =>
    outerAttrs l attrs ++ word "[" ++
      each (fun last e => l.pattern e ++ comma last) list.elems ++ word "]"
  | .node .patTupleStruct [attrs, name, .group _ [list]] =>
    outerAttrs l attrs ++ pathWithoutType l name ++ bracketed "(" ")" false l.pattern list.elems
  | .node .patStruct [attrs, name, .group _ [list]] =>
    outerAttrs l attrs ++
      cbox indent (pathWithoutType l name ++ word " \x7b" ++
        shiftLast (-indent) (spaceIfNonempty ++ structPatternFields l list.elems)) ++ word "\x7d"
  | .node .patOr [attrs, _, cases] =>
    let inner := separated (space ++ word "| ") l.pattern cases.elems
    outerAttrs l attrs ++
      (if cases.elems.all isPlainPattern then ibox 0 inner else cbox 0 inner)
  | .node .patMac [attrs, name, _, tokens] =>
    outerAttrs l attrs ++ macCall l name .none tokens false
  | .node .patType [attrs, inner, _, t] =>
    outerAttrs l attrs ++ l.pattern inner ++ word ": " ++ l.type t
  | _ => []

end Scaffold.Layout
