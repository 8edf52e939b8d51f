import Scaffold.Syntax.Grammar.Expr

/-!
# Items

An item is told by its keyword, after its attributes and visibility.  Forms that are read but
have no place in the tree, such as a function without a body, become verbatim items, which keep
their tokens and nothing else.

Functions come first, since traits, implementations and foreign blocks hold them too; the members
of those follow, then the items themselves.
-/

namespace Scaffold.Syntax.Parser

/-! ### Parts that many items share -/

/-- Whether a path without arguments may begin here. -/
def atModPath (ts : List Token) : Bool :=
  atIdent ts || atWord "self" ts || atWord "super" ts || atWord "crate" ts || atOp "::" ts

/-- A visibility, where there is one.  Parentheses after `pub` restrict it only if they hold one
of the words `crate`, `self` and `super`, or a path after `in`. -/
def visibility? : Parser Node := do
  if atWord "pub" (← rest) then
    let keyword ← kw "pub"
    match ← rest with
    | .group .paren [.word false w] :: ts =>
      if ["crate", "self", "super"].contains w then
        set ts
        pure (.node .visibility
          [keyword, .group .paren [.none, wordPath (.word false w)]])
      else pure (.node .visibility [keyword, .none])
    | .group .paren (.word false "in" :: _) :: _ =>
      let path ← group .paren (do pure [← kw "in", ← modPath])
      pure (.node .visibility [keyword, .group .paren path])
    | _ => pure (.node .visibility [keyword, .none])
  else pure .none

/-- Bounds separated by `+`, up to where `stop` holds. -/
def boundsUntil (g : Grammar) (stop : List Token → Bool) : Parser Node :=
  sepUntil stop "+" (g.bound false true) .separated

/-- A body in braces: inner attributes and what `p` reads to the end. -/
def body (g : Grammar) (p : Parser Node) : Parser Node :=
  groupNode .brace do
    let inner ← innerAttributes g
    pure [inner, .list (← manyToEnd p)]

/-- Everything taken since `start`, as one node of kind `kind`. -/
def verbatimSince (kind : Kind) (start : List Token) : Parser Node := do
  pure (.node kind [.verbatim (← since start)])

/-- A name, or an underscore. -/
def identOrUnderscore : Parser Node := identOr ["_"]

/-! ### Functions -/

/-- The tokens after the keyword `w`, where it stands there. -/
def skipWord (w : String) (ts : List Token) : List Token :=
  if atWord w ts then after1 ts else ts

/-- The tokens after the qualifiers that stand before the safety of a function. -/
def afterAsync (ts : List Token) : List Token :=
  skipWord "async" (skipWord "const" ts)

/-- Whether the qualifiers of a function and `fn` stand at the head. -/
def atSignature (allowSafe : Bool) (ts : List Token) : Bool :=
  let ts := afterAsync ts
  let ts := if allowSafe && atWord "safe" ts then after1 ts else skipWord "unsafe" ts
  let ts :=
    if atWord "extern" ts then
      match after1 ts with
      | .literal text :: more => if isStringLiteral text then more else .literal text :: more
      | more => more
    else ts
  atWord "fn" ts

/-- A receiver: `self` with what may stand around it. -/
def receiver (g : Grammar) (attrs : Node) : Parser Node := do
  let amp ← op? "&"
  let name ← if amp.isSome then lifetime? else pure .none
  let mutable ← kw? "mut"
  let self ← kw "self"
  let type ←
    if amp.isNone && atOp ":" (← rest) then do
      pure (.node .typeClause [← op ":", ← g.type true])
    else pure .none
  pure (.node .receiver [attrs, amp, name, mutable, self, type])

/-- An argument of a function after its attributes, and whether nothing may follow it. -/
def fnArg (g : Grammar) (attrs : Node) : Parser (Node × Bool) := do
  let ts ← rest
  match (receiver g attrs).run ts with
  | some (n, ts) => set ts; pure (n, false)
  | none =>
    if atOp "..." ts then pure (.node .variadic [attrs, .none, ← op "..."], true)
    else if atIdent ts && atOp "<" (after1 ts) then
      let wild : Node := .node .patWild [noAttributes, .word false "_"]
      pure (.node .patType [attrs, wild, .op ":", ← g.type true], false)
    else
      let pat ← g.pattern
      let colon ← op ":"
      if atOp "..." (← rest) then
        pure (.node .variadic [attrs, .node .argName [pat, colon], ← op "..."], true)
      else pure (.node .patType [attrs, pat, colon, ← g.type true], false)

/-- The arguments of a function.  A receiver must be the first. -/
def fnArgs (g : Grammar) : Parser Node :=
  loop (fun (acc : List Node) => do
    if (← rest).isEmpty then pure (.inr (.node .separated acc.reverse))
    else
      let attrs ← outerAttributes g
      let (arg, final) ← fnArg g attrs
      if arg.isKind .receiver && !acc.isEmpty then failure
      else if (← rest).isEmpty then pure (.inr (.node .separated (arg :: acc).reverse))
      else
        let comma ← op ","
        if final then pure (.inr (.node .separated (comma :: arg :: acc).reverse))
        else pure (.inl (comma :: arg :: acc))) []

/-- A signature; `safe` is read where it is allowed and leaves nothing in the tree. -/
def signature (g : Grammar) (allowSafe : Bool) : Parser Node := do
  let constness ← kw? "const"
  let asyncness ← kw? "async"
  let safety ←
    if allowSafe && atWord "safe" (← rest) then do
      let _ ← kw "safe"
      pure .none
    else kw? "unsafe"
  let abi ← abi?
  let keyword ← kw "fn"
  let name ← ident
  let params ← generics? g
  let args ← groupNode .paren (do pure [← fnArgs g])
  let output ← returnType? g true
  let where_ ← whereClause? g
  pure (.node .signature
    [constness, asyncness, safety, abi, keyword, name, params, args, output, where_])

/-! ### Fields -/

/-- A named field; the name `_` may stand before an anonymous struct or union. -/
def namedField (g : Grammar) : Parser Node := do
  let attrs ← outerAttributes g
  let vis ← visibility?
  let anonymous := atWord "_" (← rest)
  let name ← if anonymous then anyWord else ident
  let colon ← op ":"
  let start ← rest
  if anonymous && (atWord "struct" start || (atWord "union" start && atGroup .brace (after1 start)))
  then
    let _ ← anyWord
    let _ ← g.fields
    pure (.node .field [attrs, vis, name, colon, ← verbatimSince .typeVerbatim start])
  else pure (.node .field [attrs, vis, name, colon, ← g.type true])

/-- A field of a tuple. -/
def unnamedField (g : Grammar) : Parser Node := do
  let attrs ← outerAttributes g
  let vis ← visibility?
  pure (.node .fieldUnnamed [attrs, vis, ← g.type true])

/-- Named fields in braces. -/
def namedFields (g : Grammar) : Parser Node := do
  pure (.node .fieldsNamed [← groupNode .brace (do pure [← terminated "," (namedField g)])])

/-- Fields of a tuple in parentheses. -/
def unnamedFields (g : Grammar) : Parser Node := do
  pure (.node .fieldsUnnamed [← groupNode .paren (do pure [← terminated "," (unnamedField g)])])

/-- A variant; a visibility before it is read and dropped. -/
def enumVariant (g : Grammar) : Parser Node := do
  let attrs ← outerAttributes g
  let _ ← visibility?
  let name ← ident
  let ts ← rest
  let fields ←
    if atGroup .brace ts then namedFields g
    else if atGroup .paren ts then unnamedFields g
    else pure .none
  let discriminant ←
    if atOp "=" (← rest) then do pure (.node .discriminant [← op "=", ← g.expr true])
    else pure .none
  pure (.node .variant [attrs, name, fields, discriminant])

/-! ### Type members -/

/-- Where the where clause of a type may stand. -/
inductive ClausePlace where
  | beforeEq
  | afterEq
  | both
  deriving DecidableEq

/-- A type declaration after its visibility: `type`, name, generics, bounds, the where clause and
definition, and the semicolon. -/
def typeDecl (g : Grammar) (place : ClausePlace) : Parser (List Node) := do
  let keyword ← kw "type"
  let name ← ident
  let params ← generics? g
  let bounds ←
    if atOp ":" (← rest) then do
      let colon ← op ":"
      let list ← boundsUntil g (fun ts => atWord "where" ts || atOp "=" ts || atOp ";" ts)
      pure (.node .boundsClause [colon, list])
    else pure .none
  let before ← if place = .afterEq then pure .none else whereClause? g
  let default ←
    if atOp "=" (← rest) then do pure (.node .defaultClause [← op "=", ← g.type true])
    else pure .none
  let after ←
    if place = .afterEq || (place = .both && before.isNone) then whereClause? g else pure .none
  let semi ← op ";"
  pure [keyword, name, params, bounds, before, default, after, semi]

/-! ### Constants -/

/-- A constant after its visibility: the parts of a plain one, or nothing where it has parameters,
a where clause, or no value although one is needed. -/
def constDecl (g : Grammar) (needsValue : Bool) : Parser (Option (List Node)) := do
  let keyword ← kw "const"
  let name ← identOrUnderscore
  let params ← generics? g
  let colon ← op ":"
  let type ← g.type true
  let value ←
    if atOp "=" (← rest) then do pure (.node .defaultClause [← op "=", ← g.expr true])
    else pure .none
  let where_ ← whereClause? g
  let semi ← op ";"
  if params.isSome || where_.isSome || (needsValue && value.isNone) then pure none
  else pure (some [keyword, name, colon, type, value, semi])

/-! ### Macro calls as members -/

/-- A macro call that stands among members, after its attributes. -/
def memberMac (attrs : Node) : Parser Node := do
  let path ← modPath
  let bang ← op "!"
  let (delim, tokens) ← anyGroup
  let semi ← if delim = .brace then pure .none else op ";"
  pure (.node .memberMac [attrs, path, bang, tokens, semi])

/-! ### Members of traits -/

/-- A member of a trait.  One with a visibility or `default` is kept verbatim. -/
def traitMember (g : Grammar) : Parser Node := do
  let start ← rest
  let attrs ← outerAttributes g
  let vis ← visibility?
  let default ← kw? "default"
  let plain := vis.isNone && default.isNone
  let ts ← rest
  let member ←
    if atSignature false ts then do
      let sig ← signature g false
      if atOp ";" (← rest) then pure (.node .traitFn [attrs, sig, .none, ← op ";"])
      else pure (.node .traitFn [attrs, sig, ← g.block true, .none])
    else if atWord "const" ts then do
      match ← constDecl g false with
      | some parts => pure (.node .traitConst (attrs :: parts))
      | none => verbatimSince .itemVerbatim start
    else if atWord "type" ts then do
      match ← typeDecl g .afterEq with
      | [keyword, name, params, bounds, _, default, where_, semi] =>
        pure (.node .traitType [attrs, keyword, name, params, bounds, default, where_, semi])
      | _ => failure
    else if plain && atModPath ts then memberMac attrs
    else failure
  if plain then pure member else verbatimSince .itemVerbatim start

/-! ### Members of implementations -/

/-- A member of an implementation.  A function without a body, a constant with parameters or
without a value, and a type without a definition are kept verbatim. -/
def implMember (g : Grammar) : Parser Node := do
  let start ← rest
  let attrs ← outerAttributes g
  let vis ← visibility?
  let ts ← rest
  let default ← if atWord "default" ts && !atOp "!" (after1 ts) then kw "default" else pure .none
  let ts ← rest
  if atSignature false ts then
    let sig ← signature g false
    if atOp ";" (← rest) then
      let _ ← op ";"
      verbatimSince .itemVerbatim start
    else pure (.node .implFn [attrs, vis, default, sig, ← g.block true])
  else if atWord "const" ts then
    match ← constDecl g true with
    | some parts => pure (.node .implConst (attrs :: vis :: default :: parts))
    | none => verbatimSince .itemVerbatim start
  else if atWord "type" ts then
    match ← typeDecl g .afterEq with
    | [keyword, name, params, bounds, _, definition, where_, semi] =>
      if bounds.isSome || definition.isNone then verbatimSince .itemVerbatim start
      else pure (.node .implType
        [attrs, vis, default, keyword, name, params, definition, where_, semi])
    | _ => failure
  else if vis.isNone && default.isNone && atModPath ts then memberMac attrs
  else failure

/-! ### Members of foreign blocks -/

/-- A member of a foreign block.  A function with a body, a static with a value or a safety
qualifier, and a type with bounds or a definition are kept verbatim. -/
def foreignMember (g : Grammar) : Parser Node := do
  let start ← rest
  let attrs ← outerAttributes g
  let vis ← visibility?
  let ts ← rest
  if atSignature true ts then
    let sig ← signature g true
    let safe := atWord "safe" (afterAsync ts)
    if atGroup .brace (← rest) then
      let _ ← g.block true
      verbatimSince .itemVerbatim start
    else
      let semi ← op ";"
      if safe then verbatimSince .itemVerbatim start
      else pure (.node .foreignFn [attrs, vis, sig, semi])
  else if atWord "static" ts ||
      ((atWord "unsafe" ts || atWord "safe" ts) && atWord "static" (after1 ts)) then
    let qualified := !atWord "static" ts
    if qualified then let _ ← anyWord
    let keyword ← kw "static"
    let mutable ← kw? "mut"
    let name ← ident
    let colon ← op ":"
    let type ← g.type true
    let hasValue := atOp "=" (← rest)
    if hasValue then
      let _ ← op "="
      let _ ← g.expr true
    let semi ← op ";"
    if qualified || hasValue then verbatimSince .itemVerbatim start
    else pure (.node .foreignStatic [attrs, vis, keyword, mutable, name, colon, type, semi])
  else if atWord "type" ts then
    match ← typeDecl g .both with
    | [keyword, name, params, bounds, before, definition, after, semi] =>
      if bounds.isSome || definition.isSome then verbatimSince .itemVerbatim start
      else
        let where_ := if before.isSome then before else after
        pure (.node .foreignType [attrs, vis, keyword, name, params, where_, semi])
    | _ => failure
  else if vis.isNone && atModPath ts then memberMac attrs
  else failure

/-! ### Use trees -/

/-- A name after `as`. -/
def rename : Parser Node := do
  pure (.node .rename [← kw "as", ← identOrUnderscore])

/-- **A use tree.**  A tree in a group that begins with `::` leaves no node; neither does a group
that holds one. -/
def useTree (g : Grammar) (allowRoot : Bool) : Parser Node := do
  let ts ← rest
  if atIdent ts || atPathWord ts && !atWord "Self" ts || atWord "try" ts then
    let name ← anyWord
    let ts ← rest
    if atOp "::" ts then
      let colons ← op "::"
      let tree ← g.useTree false
      pure (.node .usePath [name, colons, tree])
    else if atWord "as" ts then
      pure (.node .useRename [name, ← kw "as", ← identOrUnderscore])
    else pure (.node .useName [name])
  else if atOp "*" ts then pure (.node .useGlob [← op "*"])
  else if atGroup .brace ts then
    let step (state : List Node × Bool) : Parser ((List Node × Bool) ⊕ (List Node × Bool)) := do
      let (acc, rooted) := state
      if (← rest).isEmpty then pure (.inr (acc, rooted))
      else
        let root ← if allowRoot then op? "::" else pure .none
        let tree ← g.useTree (allowRoot && root.isNone)
        let rooted := rooted || root.isSome || tree.isNone
        if (← rest).isEmpty then pure (.inr (tree :: acc, rooted))
        else pure (.inl ((← op ",") :: tree :: acc, rooted))
    let (acc, rooted) ← group .brace (loop step ([], false))
    if rooted then pure .none
    else pure (.node .useGroup [.group .brace [.node .separated acc.reverse]])
  else failure

/-! ### The items -/

/-- Items that begin with `use`, after attributes and visibility. -/
def useItem (g : Grammar) (start : List Token) (attrs vis : Node) : Parser Node := do
  let keyword ← kw "use"
  let lead ← op? "::"
  let tree ← g.useTree lead.isNone
  let semi ← op ";"
  if tree.isNone then verbatimSince .itemVerbatim start
  else pure (.node .itemUse [attrs, vis, keyword, lead, tree, semi])

/-- A static, after attributes and visibility. -/
def staticItem (g : Grammar) (start : List Token) (attrs vis : Node) : Parser Node := do
  let keyword ← kw "static"
  let mutable ← kw? "mut"
  let name ← ident
  if atOp "=" (← rest) then
    let _ ← op "="
    let _ ← g.expr true
    let _ ← op ";"
    verbatimSince .itemVerbatim start
  else
    let colon ← op ":"
    let type ← g.type true
    if atOp ";" (← rest) then
      let _ ← op ";"
      verbatimSince .itemVerbatim start
    else
      let eq ← op "="
      let value ← g.expr true
      let semi ← op ";"
      pure (.node .itemStatic
        [attrs, vis, keyword, mutable, name, colon, type, eq, value, semi])

/-- A constant, after attributes and visibility. -/
def constItem (g : Grammar) (start : List Token) (attrs vis : Node) : Parser Node := do
  match ← constDecl g true with
  | some [keyword, name, colon, type, .node .defaultClause [eq, value], semi] =>
    pure (.node .itemConst [attrs, vis, keyword, name, colon, type, eq, value, semi])
  | _ => verbatimSince .itemVerbatim start

/-- A function, after attributes and visibility. -/
def fnItem (g : Grammar) (start : List Token) (attrs vis : Node) : Parser Node := do
  let sig ← signature g false
  if atOp ";" (← rest) then
    let _ ← op ";"
    verbatimSince .itemVerbatim start
  else pure (.node .itemFn [attrs, vis, sig, ← g.block true])

/-- The declaration of a crate, after attributes and visibility. -/
def externCrateItem (attrs vis : Node) : Parser Node := do
  let keyword ← kw "extern"
  let crate ← kw "crate"
  let name ← identOr ["self"]
  let asName ← if atWord "as" (← rest) then rename else pure .none
  pure (.node .itemExternCrate [attrs, vis, keyword, crate, name, asName, ← op ";"])

/-- A foreign block, after its attributes. -/
def foreignItem (g : Grammar) (attrs : Node) : Parser Node := do
  let safety ← kw? "unsafe"
  if atWord "extern" (← rest) then
    let abi ← abi?
    pure (.node .itemForeign [attrs, safety, abi, ← body g (foreignMember g)])
  else failure

/-- A module, after attributes and visibility. -/
def modItem (g : Grammar) (attrs vis : Node) : Parser Node := do
  let safety ← kw? "unsafe"
  let keyword ← kw "mod"
  let name ← identOr ["try"]
  let content ← if atOp ";" (← rest) then op ";" else body g g.item
  pure (.node .itemMod [attrs, vis, safety, keyword, name, content])

/-- The declaration of a type, after attributes and visibility. -/
def typeItem (g : Grammar) (start : List Token) (attrs vis : Node) : Parser Node := do
  match ← typeDecl g .beforeEq with
  | [keyword, name, params, bounds, where_, .node .defaultClause [eq, type], _, semi] =>
    if bounds.isSome then verbatimSince .itemVerbatim start
    else pure (.node .itemType [attrs, vis, keyword, name, params, where_, eq, type, semi])
  | _ => verbatimSince .itemVerbatim start

/-- A struct, after attributes and visibility. -/
def structItem (g : Grammar) (attrs vis : Node) : Parser Node := do
  let keyword ← kw "struct"
  let name ← ident
  let params ← generics? g
  let before ← whereClause? g
  let ts ← rest
  let head := [attrs, vis, keyword, name, params, before]
  if before.isNone && atGroup .paren ts then
    let fields ← unnamedFields g
    let after ← whereClause? g
    pure (.node .itemStruct (head ++ [fields, after, ← op ";"]))
  else if atGroup .brace ts then
    pure (.node .itemStruct (head ++ [← namedFields g, .none, .none]))
  else pure (.node .itemStruct (head ++ [.none, .none, ← op ";"]))

/-- An enumeration, after attributes and visibility. -/
def enumItem (g : Grammar) (attrs vis : Node) : Parser Node := do
  let keyword ← kw "enum"
  let name ← ident
  let params ← generics? g
  let where_ ← whereClause? g
  let variants ← groupNode .brace (do pure [← terminated "," (enumVariant g)])
  pure (.node .itemEnum [attrs, vis, keyword, name, params, where_, variants])

/-- A union, after attributes and visibility. -/
def unionItem (g : Grammar) (attrs vis : Node) : Parser Node := do
  let keyword ← kw "union"
  let name ← ident
  let params ← generics? g
  let where_ ← whereClause? g
  pure (.node .itemUnion [attrs, vis, keyword, name, params, where_, ← namedFields g])

/-- A trait or, where `allowAlias`, an alias of bounds, after attributes and visibility. -/
def traitItem (g : Grammar) (allowAlias : Bool) (attrs vis : Node) : Parser Node := do
  let safety ← kw? "unsafe"
  let auto ← kw? "auto"
  let keyword ← kw "trait"
  let name ← ident
  let params ← generics? g
  if allowAlias && atOp "=" (← rest) then
    let eq ← op "="
    let bounds ← boundsUntil g (fun ts => atWord "where" ts || atOp ";" ts)
    let where_ ← whereClause? g
    pure (.node .itemTraitAlias [attrs, vis, keyword, name, params, eq, bounds, where_, ← op ";"])
  else
    let supertraits ←
      if atOp ":" (← rest) then do
        let colon ← op ":"
        let list ← boundsUntil g (fun ts => atWord "where" ts || atGroup .brace ts)
        pure (.node .boundsClause [colon, list])
      else pure .none
    let where_ ← whereClause? g
    pure (.node .itemTrait
      [attrs, vis, safety, auto, keyword, name, params, supertraits, where_,
        ← body g (traitMember g)])

/-- An implementation, after attributes and visibility.  One with a visibility, a `const` before
its trait, or a trait that is no path, is kept verbatim; only one of a trait may be negative. -/
def implItem (g : Grammar) (start : List Token) (attrs vis : Node) : Parser Node := do
  let default ← kw? "default"
  let safety ← kw? "unsafe"
  let keyword ← kw "impl"
  let params ← if atGenericParams (← rest) then generics? g else pure .none
  let ts ← rest
  let isConst := atWord "const" ts || (atOp "?" ts && atWord "const" (after1 ts))
  if isConst then
    let _ ← op? "?"
    let _ ← kw "const"
  let ts ← rest
  let negation ← if atOp "!" ts && !atGroup .brace (after1 ts) then op "!" else pure .none
  let first ← g.type true
  let isFor := atWord "for" (← rest)
  let head : Node × Node ←
    if isFor then do
      let keyword ← kw "for"
      let target ← g.type true
      match first with
      | .node .typePath [path] =>
        if path.isKind .path then
          pure (.node .implTrait [negation, path, keyword], target)
        else pure (.none, target)
      | _ => pure (.none, target)
    else if negation.isSome then failure
    else pure (.none, first)
  let where_ ← whereClause? g
  let content ← body g (implMember g)
  if vis.isSome || isConst || (isFor && head.1.isNone) then verbatimSince .itemVerbatim start
  else
    pure (.node .itemImpl
      [attrs, default, safety, keyword, params, head.1, head.2, where_, content])

/-- A declaration of a macro by patterns, after its visibility: kept verbatim. -/
def macDecl (start : List Token) : Parser Node := do
  let _ ← kw "macro"
  let _ ← ident
  if atGroup .paren (← rest) then let _ ← anyGroup
  let (delim, _) ← anyGroup
  if delim = .brace then verbatimSince .itemVerbatim start else failure

/-- A macro call as an item, after its attributes; a name may stand before its tokens. -/
def macItem (attrs : Node) : Parser Node := do
  let path ← modPath
  let bang ← op "!"
  let ts ← rest
  let name ← if atIdent ts || atWord "try" ts then anyWord else pure .none
  let (delim, tokens) ← anyGroup
  let semi ← if delim = .brace then pure .none else op ";"
  pure (.node .itemMac [attrs, path, bang, name, tokens, semi])

/-- An item after its attributes; `start` is where they began. -/
def itemAfter (g : Grammar) (start : List Token) (attrs : Node) : Parser Node := do
  let vis ← visibility?
  let ts ← rest
  let next := after1 ts
  if atSignature false ts then fnItem g start attrs vis
  else if atWord "extern" ts then
    if atWord "crate" next then externCrateItem attrs vis
    else if vis.isSome then failure
    else foreignItem g attrs
  else if atWord "use" ts then useItem g start attrs vis
  else if atWord "static" ts then staticItem g start attrs vis
  else if atWord "const" ts then constItem g start attrs vis
  else if atWord "unsafe" ts then
    if atWord "trait" next || (atWord "auto" next && atWord "trait" (after1 next)) then
      traitItem g false attrs vis
    else if atWord "impl" next then implItem g start attrs vis
    else if atWord "extern" next then if vis.isSome then failure else foreignItem g attrs
    else if atWord "mod" next then modItem g attrs vis
    else failure
  else if atWord "mod" ts then modItem g attrs vis
  else if atWord "type" ts then typeItem g start attrs vis
  else if atWord "struct" ts then structItem g attrs vis
  else if atWord "enum" ts then enumItem g attrs vis
  else if atWord "union" ts && atIdent next then unionItem g attrs vis
  else if atWord "trait" ts then traitItem g true attrs vis
  else if atWord "auto" ts && atWord "trait" next then traitItem g false attrs vis
  else if atWord "impl" ts || (atWord "default" ts && !atOp "!" next) then
    implItem g start attrs vis
  else if atWord "macro" ts then macDecl start
  else if vis.isNone && atModPath ts then macItem attrs
  else failure

/-- **An item.** -/
def item (g : Grammar) : Parser Node := do
  let start ← rest
  let attrs ← outerAttributes g
  itemAfter g start attrs

end Scaffold.Syntax.Parser
