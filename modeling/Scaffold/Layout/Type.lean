import Scaffold.Layout.Attribute

/-!
# Types, bounds and generic parameters
-/

namespace Scaffold.Layout

open Syntax

/-! ### Bounds -/

/-- Lifetimes or types bound by `for`; `param` lays out a parameter. -/
def binder (param : Node → List Doc) (n : Node) : List Doc :=
  match n with
  | .node .forLifetimes [_, _, params, _] =>
    word "for<" ++ separated (word ", ") param params.elems ++ word "> "
  | _ => []

/-- A lifetime parameter. -/
def lifetimeParam (l : Layouts) (param : Node) : List Doc :=
  match param with
  | .node .lifetimeParam [attrs, name, bounds] =>
    outerAttrs l attrs ++ leaf name ++
      (match (bounds.part 1).elems with
        | [] => []
        | b :: bs => word ": " ++ leaf b ++ bs.flatMap fun b => word " + " ++ leaf b)
  | _ => []

/-- A generic parameter. -/
def genericParam (l : Layouts) (param : Node) : List Doc :=
  match param with
  | .node .typeParam [attrs, name, bounds, default] =>
    outerAttrs l attrs ++ leaf name ++
      ibox indent (inlineBounds l (word ": ") (bounds.part 1) ++
        (if default.isSome then space ++ word "= " ++ l.type (default.part 1) else []))
  | .node .constParam [attrs, _, name, _, type, default] =>
    outerAttrs l attrs ++ word "const " ++ leaf name ++ word ": " ++ l.type type ++
      (if default.isSome then word " = " ++ l.expr false ((default.part 1).part 0) else [])
  | _ => lifetimeParam l param

/-- A trait as a bound. -/
def traitBound (l : Layouts) (b : Node) : List Doc :=
  match b with
  | .node .traitBound [lifetimes, maybe, .node .path [lead, segments]] =>
    ifThere maybe "?" ++ binder (genericParam l) lifetimes ++ ifThere lead "::" ++
      separated (word "::") (segment l .type) segments.elems
  | _ => []

/-- A bound. -/
def bound (l : Layouts) (b : Node) : List Doc :=
  match b with
  | .lifetime _ _ => leaf b
  | .node .parenBound [.group _ [inner]] => word "(" ++ traitBound l inner ++ word ")"
  | .node .capture [_, _, params, _] =>
    word "use<" ++ separated (word ", ") leaf params.elems ++ word ">"
  | _ => traitBound l b

/-- Bounds on one line. -/
def plusBounds (l : Layouts) (bounds : Node) : List Doc :=
  separated (word " + ") l.bound bounds.elems

/-- Generic parameters. -/
def generics (l : Layouts) (g : Node) : List Doc :=
  let params := (g.part 1).elems
  if params.isEmpty then []
  else
    let inner := each (fun last p => genericParam l p ++ comma last) (lifetimesFirst params)
    word "<" ++ cbox 0 (shiftLast (-indent) (softBreak ++ inner)) ++ word ">"

/-! ### Where clauses -/

/-- A predicate of a where clause. -/
def predicate (l : Layouts) (p : Node) : List Doc :=
  match p with
  | .node .predicateType [lifetimes, type, _, bounds] =>
    binder (genericParam l) lifetimes ++ l.type type ++ word ":" ++
      ibox (if bounds.elems.length = 1 then 0 else indent) (inlineBounds l (word " ") bounds)
  | .node .predicateLifetime [name, _, bounds] =>
    let list :=
      match bounds.elems with
      | [] => []
      | b :: bs => word " " ++ leaf b ++ bs.flatMap fun b => space ++ word "+ " ++ leaf b
    leaf name ++ word ":" ++ ibox indent list
  | _ => []

/-- A where clause with its predicates on lines of their own; `semi` tells that a semicolon and
not a body follows. -/
def whereLines (l : Layouts) (semi : Bool) (clause : Node) : List Doc :=
  let predicates := (clause.part 1).elems
  if predicates.isEmpty then word (if semi then ";" else " ")
  else
    let list := each (fun last p =>
      predicate l p ++ (if last && semi then word ";" else word "," ++ hardBreak)) predicates
    shiftLast (-indent) hardBreak ++ word "where" ++
      (if semi then hardBreak ++ list else shiftLast (-indent) (hardBreak ++ list))

/-- A where clause on the line, where it fits. -/
def whereInline (l : Layouts) (semi : Bool) (clause : Node) : List Doc :=
  let predicates := (clause.part 1).elems
  if predicates.isEmpty then word (if semi then ";" else " ")
  else
    let list := each (fun last p =>
      predicate l p ++ (if last && semi then word ";" else commaOrSpace last)) predicates
    shiftLast (-indent) space ++ word "where" ++
      (if semi then space ++ list else shiftLast (-indent) (space ++ list))

/-! ### Types -/

/-- The foreign interface of a function. -/
def abi (n : Node) : List Doc :=
  match n with
  | .node .abi [_, name] =>
    word "extern " ++ (if name.isSome then leaf name ++ word " " else [])
  | _ => []

/-- An argument of a function pointer. -/
def fnPointerArg (l : Layouts) (arg : Node) : List Doc :=
  let name (n : Node) : List Doc := if n.isSome then leaf (n.part 0) ++ word ": " else []
  match arg with
  | .node .typeArg [attrs, n, type] => outerAttrs l attrs ++ name n ++ l.type type
  | .node .variadic [attrs, n, _] => outerAttrs l attrs ++ name n ++ word "..."
  | _ => []

/-- Arguments that may end with dots, which have no comma. -/
def argList (f : Node → List Doc) (args : List Node) : List Doc :=
  each (fun last a => f a ++ (if a.isKind .variadic then softBreak else comma last)) args

/-- **A type.** -/
def type (l : Layouts) (t : Node) : List Doc :=
  match t with
  | .node .typePath [p] => path l .type p
  | .node .typeTuple [.group _ [list]] =>
    bracketed "(" ")" (list.elems.length = 1) l.type list.elems
  | .node .typeParen [.group _ [inner]] => word "(" ++ l.type inner ++ word ")"
  | .node .typeSlice [.group _ [elem]] => word "[" ++ l.type elem ++ word "]"
  | .node .typeArray [.group _ [elem, _, len]] =>
    word "[" ++ l.type elem ++ word "; " ++ l.expr false len ++ word "]"
  | .node .typeRef [_, name, mutable, elem] =>
    word "&" ++ (if name.isSome then leaf name ++ word " " else []) ++ ifThere mutable "mut " ++
      l.type elem
  | .node .typePtr [_, qualifier, elem] =>
    word "*" ++ word (leafText qualifier ++ " ") ++ l.type elem
  | .node .typeFn [lifetimes, unsafety, interface, _, .group _ [args], output] =>
    binder (genericParam l) lifetimes ++ ifThere unsafety "unsafe " ++ abi interface ++
      word "fn(" ++
      cbox indent (shiftLast (-indent) (softBreak ++ argList (fnPointerArg l) args.elems)) ++
      word ")" ++ returnType l output
  | .node .typeNever _ => word "!"
  | .node .typeInfer _ => word "_"
  | .node .typeImpl [_, bounds] => word "impl " ++ plusBounds l bounds
  | .node .typeDyn [_, bounds] => word "dyn " ++ plusBounds l bounds
  | .node .typeMac [p, _, tokens] => macCall l p .none tokens false
  | _ => []

end Scaffold.Layout
