import Scaffold.Layout.Expr

/-!
# Statements and items

Every statement and every item ends its line.
-/

namespace Scaffold.Layout

open Syntax

/-! ### Statements -/

/-- Whether a macro call needs a semicolon after it, as those without braces do. -/
def needsSemicolon (tokens : Node) : Bool :=
  match tokens with
  | .verbatim [.group delim _] => delim ≠ .brace
  | _ => false

/-- **A statement.** -/
def statement (l : Layouts) (last : Bool) (s : Node) : List Doc :=
  match s with
  | .node .stmtLocal [attrs, _, pat, init, _] =>
    let head := word "let " ++ l.pattern pat
    let line :=
      match init with
      | .node .localInit [_, value, otherwise] =>
        let head := head ++ word " = " ++ neverBreak ++ l.expr false value
        match otherwise with
        | .node .letElse [_, b] =>
          ibox 0 (head ++ space ++ word "else ") ++ neverBreak ++ cbox indent (smallBlock l b)
        | _ => ibox 0 head
      | _ => ibox 0 head
    outerAttrs l attrs ++ line ++ word ";" ++ hardBreak
  | .node .stmtItem [i] => l.item i
  | .node .stmtExpr [e, semi] =>
    let semicolon := if semi.isSome then !losesSemicolon e else getsSemicolon e
    ibox 0 (l.expr true e ++ (if semicolon then word ";" else [])) ++ hardBreak
  | .node .stmtMac [attrs, name, _, tokens, semi] =>
    outerAttrs l attrs ++
      macCall l name .none tokens (semi.isSome || (!last && needsSemicolon tokens)) ++ hardBreak
  | _ => []

/-! ### Parts of items -/

/-- Whether a path is one of the words that restrict a visibility by themselves. -/
def isScopeWord (p : Node) : Bool :=
  match p with
  | .node .path [lead, .node .separated [.node .segment [.word false w, _]]] =>
    lead.isNone && ["self", "super", "crate"].contains w
  | _ => false

/-- A visibility. -/
def visibility (l : Layouts) (v : Node) : List Doc :=
  match v with
  | .node .visibility [_, .group _ [_, name]] =>
    word "pub(" ++ (if isScopeWord name then [] else word "in ") ++ path l .simple name ++ word ") "
  | .node .visibility _ => word "pub "
  | _ => []

/-- A body in braces after `head`, which begins its line. -/
def braceBody (head content : List Doc) : List Doc :=
  cbox indent (head ++ word "\x7b" ++ shiftLast (-indent) (hardBreakIfNonempty ++ content)) ++
    word "\x7d"

/-- The inner attributes of a body in braces, and its members. -/
def bodyItems (l : Layouts) (f : Node → List Doc) (content : Node) : List Doc :=
  match content with
  | .group _ [inner, .node .list items] => innerAttrs l inner ++ items.flatMap f
  | _ => []

/-- A field. -/
def field (l : Layouts) (f : Node) : List Doc :=
  match f with
  | .node .field [attrs, vis, name, _, t] =>
    outerAttrs l attrs ++ visibility l vis ++ leaf name ++ word ": " ++ l.type t
  | .node .fieldUnnamed [attrs, vis, t] => outerAttrs l attrs ++ visibility l vis ++ l.type t
  | _ => []

/-- Named fields, one a line. -/
def fieldLines (l : Layouts) (fields : List Node) : List Doc :=
  fields.flatMap fun f => field l f ++ word "," ++ hardBreak

/-- Fields in parentheses.  They belong into a box. -/
def tupleFields (l : Layouts) (fields : List Node) : List Doc :=
  word "(" ++
    shiftLast (-indent) (softBreak ++ each (fun last f => field l f ++ comma last) fields) ++
    word ")"

/-- A variant. -/
def variant (l : Layouts) (v : Node) : List Doc :=
  match v with
  | .node .variant [attrs, name, fields, discriminant] =>
    let list :=
      match fields with
      | .node .fieldsNamed [.group _ [list]] =>
        let inner := space ++ each (fun last f => field l f ++ commaOrSpace last) list.elems
        word " " ++ word "\x7b" ++ cbox indent (shiftLast (-indent) inner) ++ word "\x7d"
      | .node .fieldsUnnamed [.group _ [list]] => cbox indent (tupleFields l list.elems)
      | _ => []
    outerAttrs l attrs ++ leaf name ++ list ++
      (if discriminant.isSome then word " = " ++ l.expr false (discriminant.part 1) else [])
  | _ => []

/-- An argument of a function. -/
def fnArg (l : Layouts) (arg : Node) : List Doc :=
  match arg with
  | .node .receiver [attrs, amp, name, mutable, _, type] =>
    outerAttrs l attrs ++ ifThere amp "&" ++
      (if name.isSome then leaf name ++ word " " else []) ++ ifThere mutable "mut " ++
      word "self" ++ (if type.isSome then word ": " ++ l.type (type.part 1) else [])
  | .node .variadic [attrs, name, _] =>
    outerAttrs l attrs ++
      (if name.isSome then l.pattern (name.part 0) ++ word ": " else []) ++ word "..."
  | _ => l.pattern arg

/-- A signature, without its where clause. -/
def signature (l : Layouts) (s : Node) : List Doc :=
  match s with
  | .node .signature
      [constness, asyncness, safety, interface, _, name, params, .group _ [args], output, _] =>
    ifThere constness "const " ++ ifThere asyncness "async " ++ ifThere safety "unsafe " ++
      abi interface ++ word "fn " ++ leaf name ++ generics l params ++ word "(" ++ neverBreak ++
      cbox 0 (shiftLast (-indent) (softBreak ++ argList (fnArg l) args.elems)) ++ word ")" ++
      cbox (-indent) (returnType l output)
  | _ => []

/-- The where clause of a signature. -/
def signatureClause (s : Node) : Node := s.part 9

/-- A function, or a method, with its body. -/
def fnBody (l : Layouts) (head : List Doc) (sig body : Node) : List Doc :=
  let (attrs, stmts) := blockParts body
  braceBody (head ++ signature l sig ++ whereLines l false (signatureClause sig))
    (innerAttrs l (.list attrs) ++ each l.statement stmts) ++ hardBreak

/-- A function without a body. -/
def fnHead (l : Layouts) (head : List Doc) (sig : Node) : List Doc :=
  cbox indent (head ++ signature l sig ++ whereLines l true (signatureClause sig)) ++ hardBreak

/-- A constant or static: what stands before the colon, the type and the value. -/
def valueLine (l : Layouts) (head : List Doc) (t value : Node) : List Doc :=
  cbox 0 (head ++ word ": " ++ l.type t ++
    (if value.isSome then word " = " ++ neverBreak ++ l.expr false value else []) ++ word ";") ++
    hardBreak

/-- A definition after the name of an associated type. -/
def associated (l : Layouts) (t : Node) : List Doc :=
  if t.isSome then word " = " ++ neverBreak ++ ibox (-indent) (l.type (t.part 1)) else []

/-- The bounds of a trait, with the `sep` between them. -/
def supertraits (l : Layouts) (sep : List Doc) (clause : Node) : List Doc :=
  match (clause.part 1).elems with
  | [] => []
  | b :: bs => word ": " ++ l.bound b ++ bs.flatMap fun b => sep ++ l.bound b

/-- A macro call as an item. -/
def macItem (l : Layouts) (attrs p name tokens : Node) : List Doc :=
  outerAttrs l attrs ++ macCall l p name tokens (needsSemicolon tokens) ++ hardBreak

/-! ### Members -/

/-- A member of a trait. -/
def traitMember (l : Layouts) (m : Node) : List Doc :=
  match m with
  | .node .traitFn [attrs, sig, body, _] =>
    outerAttrs l attrs ++ (if body.isSome then fnBody l [] sig body else fnHead l [] sig)
  | .node .traitConst [attrs, _, name, _, t, value, _] =>
    outerAttrs l attrs ++ valueLine l (word "const " ++ leaf name) t (value.part 1)
  | .node .traitType [attrs, _, name, params, bounds, default, clause, _] =>
    outerAttrs l attrs ++
      cbox indent (word "type " ++ leaf name ++ generics l params ++
        supertraits l (space ++ word "+ ") bounds ++ associated l default ++
        whereInline l true clause) ++ hardBreak
  | .node .memberMac [attrs, p, _, tokens, _] => macItem l attrs p .none tokens
  | _ => []

/-- A member of an implementation. -/
def implMember (l : Layouts) (m : Node) : List Doc :=
  let lead (vis default : Node) : List Doc := visibility l vis ++ ifThere default "default "
  match m with
  | .node .implFn [attrs, vis, default, sig, body] =>
    outerAttrs l attrs ++ fnBody l (lead vis default) sig body
  | .node .implConst [attrs, vis, default, _, name, _, t, value, _] =>
    outerAttrs l attrs ++
      valueLine l (lead vis default ++ word "const " ++ leaf name) t (value.part 1)
  | .node .implType [attrs, vis, default, _, name, params, definition, clause, _] =>
    outerAttrs l attrs ++
      cbox indent (lead vis default ++ word "type " ++ leaf name ++ generics l params ++
        associated l definition ++ whereInline l true clause) ++ hardBreak
  | .node .memberMac [attrs, p, _, tokens, _] => macItem l attrs p .none tokens
  | _ => []

/-- A member of a foreign block. -/
def foreignMember (l : Layouts) (m : Node) : List Doc :=
  match m with
  | .node .foreignFn [attrs, vis, sig, _] =>
    outerAttrs l attrs ++ fnHead l (visibility l vis) sig
  | .node .foreignStatic [attrs, vis, _, mutable, name, _, t, _] =>
    outerAttrs l attrs ++
      valueLine l (visibility l vis ++ word "static " ++ ifThere mutable "mut " ++ leaf name) t
        .none
  | .node .foreignType [attrs, vis, _, name, params, _, _] =>
    outerAttrs l attrs ++
      cbox 0 (visibility l vis ++ word "type " ++ leaf name ++ generics l params ++ word ";") ++
      hardBreak
  | .node .memberMac [attrs, p, _, tokens, _] => macItem l attrs p .none tokens
  | _ => []

/-! ### Use trees -/

/-- Whether a use tree ends with a group. -/
def endsWithGroup : Node → Bool
  | .node .usePath [_, _, tree] => endsWithGroup tree
  | .node .useGroup _ => true
  | _ => false

/-- Whether a use tree names what the tree around it names. -/
def namesSelf : Node → Bool
  | .node .useName [name] => name.isText "self"
  | .node .useRename (name :: _) => name.isText "self"
  | _ => false

/-- **A use tree.**  A group of one tree is written as the tree, unless that stands for what
encloses the group. -/
def useTree (l : Layouts) (t : Node) : List Doc :=
  match t with
  | .node .usePath [name, _, tree] => leaf name ++ word "::" ++ l.useTree tree
  | .node .useName [name] => leaf name
  | .node .useRename [name, _, bound] => leaf name ++ word " as " ++ leaf bound
  | .node .useGlob _ => word "*"
  | .node .useGroup [.group _ [list]] =>
    let group :=
      let inner := each (fun last t =>
        l.useTree t ++
          (if last then [] else word "," ++ (if endsWithGroup t then hardBreak else space)))
        list.elems
      word "\x7b" ++
        cbox indent (softBreak ++ ibox 0 inner ++ shiftLast (-indent) (comma true)) ++ word "\x7d"
    match list.elems with
    | [single] => if namesSelf single then group else l.useTree single
    | _ => group
  | _ => []

/-! ### Items -/

/-- An implementation, up to the brace. -/
def implHead (l : Layouts) (default safety params trait_ target clause : Node) : List Doc :=
  let tr :=
    match trait_ with
    | .node .implTrait [negation, p, _] =>
      ifThere negation "!" ++ path l .type p ++ space ++ word "for "
    | _ => []
  ibox (-indent)
    (cbox indent (ifThere default "default " ++ ifThere safety "unsafe " ++ word "impl" ++
      generics l params) ++ word " " ++ tr ++ l.type target) ++
    whereLines l false clause

/-- An item without its attributes. -/
def itemBody (l : Layouts) (i : Node) : List Doc :=
  let name_ (vis : Node) (keyword : String) (name params : Node) : List Doc :=
    visibility l vis ++ word keyword ++ leaf name ++ generics l params
  match i with
  | .node .itemConst [_, vis, _, name, _, t, _, value, _] =>
    valueLine l (visibility l vis ++ word "const " ++ leaf name) t value
  | .node .itemStatic [_, vis, _, mutable, name, _, t, _, value, _] =>
    valueLine l (visibility l vis ++ word "static " ++ ifThere mutable "mut " ++ leaf name) t value
  | .node .itemEnum [_, vis, _, name, params, clause, .group _ [variants]] =>
    braceBody (name_ vis "enum " name params ++ whereLines l false clause)
      (variants.elems.flatMap fun v => variant l v ++ word "," ++ hardBreak) ++ hardBreak
  | .node .itemUnion [_, vis, _, name, params, clause, .node .fieldsNamed [.group _ [fields]]] =>
    braceBody (name_ vis "union " name params ++ whereLines l false clause)
      (fieldLines l fields.elems) ++ hardBreak
  | .node .itemStruct [_, vis, _, name, params, before, fields, after, _] =>
    let head := name_ vis "struct " name params
    match fields with
    | .node .fieldsNamed [.group _ [fields]] =>
      braceBody (head ++ whereLines l false before) (fieldLines l fields.elems) ++ hardBreak
    | .node .fieldsUnnamed [.group _ [fields]] =>
      cbox indent (head ++ tupleFields l fields.elems ++ whereLines l true after) ++ hardBreak
    | _ => cbox indent (head ++ whereLines l true before) ++ hardBreak
  | .node .itemExternCrate [_, vis, _, _, name, asName, _] =>
    visibility l vis ++ word "extern crate " ++ leaf name ++
      (if asName.isSome then word " as " ++ leaf (asName.part 1) else []) ++ word ";" ++ hardBreak
  | .node .itemFn [_, vis, sig, body] => fnBody l (visibility l vis) sig body
  | .node .itemForeign [_, safety, interface, content] =>
    braceBody (ifThere safety "unsafe " ++ abi interface)
      (bodyItems l (foreignMember l) content) ++ hardBreak
  | .node .itemImpl [_, default, safety, _, params, trait_, target, clause, content] =>
    braceBody (implHead l default safety params trait_ target clause)
      (bodyItems l (implMember l) content) ++ hardBreak
  | .node .itemMod [_, vis, safety, _, name, content] =>
    let head := visibility l vis ++ ifThere safety "unsafe " ++ word "mod " ++ leaf name
    (match content with
      | .group _ _ => braceBody (head ++ word " ") (bodyItems l l.item content)
      | _ => cbox indent (head ++ word ";")) ++ hardBreak
  | .node .itemTrait [_, vis, safety, auto, _, name, params, bounds, clause, content] =>
    braceBody (visibility l vis ++ ifThere safety "unsafe " ++ ifThere auto "auto " ++
        word "trait " ++ leaf name ++ generics l params ++ supertraits l (word " + ") bounds ++
        whereLines l false clause)
      (bodyItems l (traitMember l) content) ++ hardBreak
  | .node .itemTraitAlias [_, vis, _, name, params, _, bounds, clause, _] =>
    cbox indent (name_ vis "trait " name params ++ word " = " ++ neverBreak ++
      separated (space ++ word "+ ") l.bound bounds.elems ++ whereLines l true clause) ++ hardBreak
  | .node .itemType [_, vis, _, name, params, clause, _, t, _] =>
    cbox indent (name_ vis "type " name params ++ whereInline l false clause ++ word "= " ++
      neverBreak ++ ibox (-indent) (l.type t) ++ word ";") ++ hardBreak
  | .node .itemUse [_, vis, _, lead, tree, _] =>
    visibility l vis ++ word "use " ++ ifThere lead "::" ++ l.useTree tree ++ word ";" ++ hardBreak
  | .node .itemMac [_, p, _, name, tokens, _] =>
    macCall l p name tokens (needsSemicolon tokens) ++ hardBreak
  | _ => []

/-- **An item.** -/
def item (l : Layouts) (i : Node) : List Doc :=
  outerAttrs l (i.part 0) ++ itemBody l i

end Scaffold.Layout
