import Scaffold.Syntax.Token

/-!
# Syntax trees

A parsed text is a tree whose leaves are its tokens and whose inner nodes say what they form.
Every node lists its parts in the order in which they are written, so the tokens of a tree are
the tokens at its leaves and nothing has to be remembered beside it.

A part that may be left out keeps its place as an `absent` node, so each kind has a fixed number
of parts; they are given with the kind.  Sequences with separators are `separated` nodes, whose
elements are the parts that are not operators.
-/

namespace Scaffold.Syntax

/-- What a node forms; the comments list the parts, `?` after those that may be absent. -/
inductive Kind where
  /-- No parts: stands for a part that is left out. -/
  | absent
  /-- Any number of parts. -/
  | list
  /-- Elements with the operators that separate them. -/
  | separated
  /-- Generic parameters or arguments: like `separated`, but lifetimes are written first. -/
  | genericList
  -- attributes
  /-- Parts: `#`, `!`?, bracket group of the content. -/
  | attr
  /-- A path alone. -/
  | metaPath
  /-- A path and a group of tokens. -/
  | metaList
  /-- A path, `=` and an expression. -/
  | metaValue
  -- paths
  /-- Parts: `::`?, separated segments. -/
  | path
  /-- Parts: `<`, type, `asClause`?, `>`, `::`, separated segments. -/
  | qualifiedPath
  /-- Parts: `as`, path. -/
  | asClause
  /-- Parts: word, arguments?. -/
  | segment
  /-- Parts: `::`?, `<`, generic list, `>`. -/
  | angleArgs
  /-- Parts: parenthesised separated types, `returnType`?. -/
  | parenArgs
  /-- An expression as a generic argument. -/
  | constArg
  /-- Parts: word, `angleArgs`?, `=`, type. -/
  | assocType
  /-- Parts: word, `angleArgs`?, `=`, `constArg`. -/
  | assocConst
  /-- Parts: word, `angleArgs`?, `:`, separated bounds. -/
  | constraint
  -- types
  /-- A path. -/
  | typePath
  /-- Parenthesised separated types. -/
  | typeTuple
  /-- One parenthesised type. -/
  | typeParen
  /-- A bracketed type. -/
  | typeSlice
  /-- Brackets around type, `;`, expression. -/
  | typeArray
  /-- Parts: `&`, lifetime?, `mut`?, type. -/
  | typeRef
  /-- Parts: `*`, `const` or `mut`, type. -/
  | typePtr
  /-- Parts: `forLifetimes`?, `unsafe`?, `abi`?, `fn`, parenthesised arguments, `returnType`?. -/
  | typeFn
  /-- Parts: attributes, `argName`?, type. -/
  | typeArg
  /-- Parts: pattern or word, `:`. -/
  | argName
  /-- Parts: attributes, `argName`?, `...`. -/
  | variadic
  /-- The exclamation mark. -/
  | typeNever
  /-- The underscore. -/
  | typeInfer
  /-- Parts: `impl`, separated bounds. -/
  | typeImpl
  /-- Parts: `dyn`?, separated bounds. -/
  | typeDyn
  /-- Parts: path, `!`, group of tokens. -/
  | typeMac
  /-- Tokens that form no other kind of type. -/
  | typeVerbatim
  /-- Parts: `->`, type. -/
  | returnType
  /-- Parts: `extern`, string?. -/
  | abi
  /-- Parts: `for`, `<`, separated parameters, `>`. -/
  | forLifetimes
  -- bounds and generics
  /-- Parts: `forLifetimes`?, `?`?, path. -/
  | traitBound
  /-- A parenthesised `traitBound`. -/
  | parenBound
  /-- Parts: `use`, `<`, separated words and lifetimes, `>`. -/
  | capture
  /-- Tokens that form no other kind of bound. -/
  | boundVerbatim
  /-- Parts: `<`, generic list, `>`. -/
  | generics
  /-- Parts: attributes, lifetime, `boundsClause`?. -/
  | lifetimeParam
  /-- Parts: attributes, word, `boundsClause`?, `defaultClause`?. -/
  | typeParam
  /-- Parts: attributes, `const`, word, `:`, type, `defaultClause`?. -/
  | constParam
  /-- Parts: `:`, separated bounds. -/
  | boundsClause
  /-- Parts: `=`, type or expression. -/
  | defaultClause
  /-- Parts: `where`, separated predicates. -/
  | whereClause
  /-- Parts: `forLifetimes`?, type, `:`, separated bounds. -/
  | predicateType
  /-- Parts: lifetime, `:`, separated lifetimes. -/
  | predicateLifetime
  -- patterns
  /-- Parts: attributes, `ref`?, `mut`?, word, `subPattern`?. -/
  | patIdent
  /-- Parts: `@`, pattern. -/
  | subPattern
  /-- Parts: attributes, underscore. -/
  | patWild
  /-- Parts: attributes, two dots. -/
  | patRest
  /-- Parts: attributes, path. -/
  | patPath
  /-- An expression as a pattern. -/
  | patExpr
  /-- Parts: attributes, pattern expression?, range operator, pattern expression?. -/
  | patRange
  /-- Parts: attributes, `&`, `mut`?, pattern. -/
  | patRef
  /-- Parts: attributes, parenthesised separated patterns. -/
  | patTuple
  /-- Parts: attributes, one parenthesised pattern. -/
  | patParen
  /-- Parts: attributes, bracketed separated patterns. -/
  | patSlice
  /-- Parts: attributes, path, parenthesised separated patterns. -/
  | patTupleStruct
  /-- Parts: attributes, path, braced separated `fieldPat`s and `patRest`. -/
  | patStruct
  /-- Parts: attributes, member, `:`, pattern. -/
  | fieldPat
  /-- Parts: attributes, pattern: the field's name is the pattern's. -/
  | fieldPatShort
  /-- Parts: attributes, `|`?, separated patterns. -/
  | patOr
  /-- Parts: attributes, path, `!`, group of tokens. -/
  | patMac
  /-- Parts: attributes, pattern, `:`, type. -/
  | patType
  /-- Tokens that form no other kind of pattern. -/
  | patVerbatim
  -- expressions; every kind begins with its attributes
  /-- A literal. -/
  | exprLit
  /-- A path. -/
  | exprPath
  /-- Parts: operator, operand. -/
  | exprUnary
  /-- Parts: operand, operator, operand. -/
  | exprBinary
  /-- Parts: target, `=`, value. -/
  | exprAssign
  /-- Parts: operand, `as`, type. -/
  | exprCast
  /-- Parts: start?, range operator, end?. -/
  | exprRange
  /-- Parts: `&`, `mut`?, operand. -/
  | exprRef
  /-- Parts: `&`, `raw`, `const` or `mut`, operand. -/
  | exprRawAddr
  /-- Parts: callee, parenthesised separated arguments. -/
  | exprCall
  /-- Parts: receiver, `.`, word, `angleArgs`?, parenthesised separated arguments. -/
  | exprMethod
  /-- Parts: base, `.`, word or index. -/
  | exprField
  /-- Parts: base, bracketed index. -/
  | exprIndex
  /-- Parts: operand, `?`. -/
  | exprTry
  /-- Parts: operand, `.`, `await`. -/
  | exprAwait
  /-- One parenthesised expression. -/
  | exprParen
  /-- Parenthesised separated expressions. -/
  | exprTuple
  /-- Bracketed separated expressions. -/
  | exprArray
  /-- Brackets around expression, `;`, expression. -/
  | exprRepeat
  /-- Parts: path, braced separated `fieldValue`s and `structRest`. -/
  | exprStruct
  /-- Parts: attributes, member, `:`, expression. -/
  | fieldValue
  /-- Parts: attributes, word. -/
  | fieldShort
  /-- Parts: `..`, expression?. -/
  | structRest
  /-- Parts: `label`?, block. -/
  | exprBlock
  /-- Parts: `unsafe`, block. -/
  | exprUnsafe
  /-- Parts: `const`, block. -/
  | exprConst
  /-- Parts: `async`, `move`?, block. -/
  | exprAsync
  /-- Parts: `try`, block. -/
  | exprTryBlock
  /-- Parts: `label`?, `loop`, block. -/
  | exprLoop
  /-- Parts: `label`?, `while`, condition, block. -/
  | exprWhile
  /-- Parts: `label`?, `for`, pattern, `in`, expression, block. -/
  | exprFor
  /-- Parts: `if`, condition, block, `elseClause`?. -/
  | exprIf
  /-- Parts: `else`, expression. -/
  | elseClause
  /-- Parts: `let`, pattern, `=`, expression. -/
  | exprLet
  /-- Parts: `match`, expression, braces around the lists of attributes and arms. -/
  | exprMatch
  /-- Parts: attributes, pattern, `guard`?, `=>`, body, `,`?. -/
  | arm
  /-- Parts: `if`, expression. -/
  | guard
  /-- Parts: `forLifetimes`?, `const`?, `static`?, `async`?, `move`?, `|`, separated patterns, `|`,
  `returnType`?, body. -/
  | exprClosure
  /-- Parts: `return`, expression?. -/
  | exprReturn
  /-- Parts: `break`, lifetime?, expression?. -/
  | exprBreak
  /-- Parts: `continue`, lifetime?. -/
  | exprContinue
  /-- Parts: `yield`, expression?. -/
  | exprYield
  /-- The underscore. -/
  | exprInfer
  /-- Parts: path, `!`, group of tokens. -/
  | exprMac
  /-- Tokens that form no other kind of expression. -/
  | exprVerbatim
  /-- Parts: lifetime, `:`. -/
  | label
  -- statements
  /-- Braces around the lists of inner attributes and statements. -/
  | block
  /-- Parts: attributes, `let`, pattern, `localInit`?, `;`. -/
  | stmtLocal
  /-- Parts: `=`, expression, `letElse`?. -/
  | localInit
  /-- Parts: `else`, block. -/
  | letElse
  /-- An item. -/
  | stmtItem
  /-- Parts: expression, `;`?. -/
  | stmtExpr
  /-- Parts: attributes, path, `!`, group of tokens, `;`?. -/
  | stmtMac
  /-- A semicolon. -/
  | stmtEmpty
  -- items; every kind begins with its attributes
  /-- Parts: `pub`, restriction? (parentheses around `in`? and a path). -/
  | visibility
  /-- Parts: visibility?, `const`, word, `:`, type, `=`, expression, `;`. -/
  | itemConst
  /-- Parts: visibility?, `static`, `mut`?, word, `:`, type, `=`, expression, `;`. -/
  | itemStatic
  /-- Parts: visibility?, `enum`, word, `generics`?, `whereClause`?, braced separated variants. -/
  | itemEnum
  /-- Parts: attributes, word, fields?, `discriminant`?. -/
  | variant
  /-- Parts: `=`, expression. -/
  | discriminant
  /-- Braces around separated `field`s. -/
  | fieldsNamed
  /-- Parentheses around separated `field`s. -/
  | fieldsUnnamed
  /-- Parts: attributes, visibility?, word, `:`, type. -/
  | field
  /-- Parts: attributes, visibility?, type. -/
  | fieldUnnamed
  /-- Parts: visibility?, `extern`, `crate`, word, `rename`?, `;`. -/
  | itemExternCrate
  /-- Parts: `as`, word. -/
  | rename
  /-- Parts: visibility?, signature, block. -/
  | itemFn
  /-- Parts: `const`?, `async`?, `unsafe`?, `abi`?, `fn`, word, `generics`?, parenthesised separated
  arguments, `returnType`?, `whereClause`?. -/
  | signature
  /-- Parts: attributes, `&`?, lifetime?, `mut`?, `self`, `typeClause`?. -/
  | receiver
  /-- Parts: `:`, type. -/
  | typeClause
  /-- Parts: `unsafe`?, `abi`, braces around the lists of attributes and items. -/
  | itemForeign
  /-- Parts: `default`?, `unsafe`?, `impl`, `generics`?, `implTrait`?, type, `whereClause`?, braces
  around the lists of attributes and items. -/
  | itemImpl
  /-- Parts: `!`?, path, `for`. -/
  | implTrait
  /-- Parts: path, `!`, word?, group of tokens, `;`?. -/
  | itemMac
  /-- Parts: visibility?, `unsafe`?, `mod`, word, `;` or braces around the lists of attributes and
  items. -/
  | itemMod
  /-- Parts: visibility?, `struct`, word, `generics`?, `whereClause`?, fields?, `whereClause`?,
  `;`?. -/
  | itemStruct
  /-- Parts: visibility?, `unsafe`?, `auto`?, `trait`, word, `generics`?, `boundsClause`?,
  `whereClause`?, braces around the lists of attributes and items. -/
  | itemTrait
  /-- Parts: visibility?, `trait`, word, `generics`?, `=`, separated bounds, `whereClause`?, `;`. -/
  | itemTraitAlias
  /-- Parts: visibility?, `type`, word, `generics`?, `whereClause`?, `=`, type, `;`. -/
  | itemType
  /-- Parts: visibility?, `union`, word, `generics`?, `whereClause`?, fields. -/
  | itemUnion
  /-- Parts: visibility?, `use`, `::`?, use tree, `;`. -/
  | itemUse
  /-- Tokens that form no other kind of item. -/
  | itemVerbatim
  /-- Parts: word, `::`, use tree. -/
  | usePath
  /-- A word. -/
  | useName
  /-- Parts: word, `as`, word. -/
  | useRename
  /-- A star. -/
  | useGlob
  /-- Braces around separated use trees. -/
  | useGroup
  -- members of traits, implementations and foreign blocks; every kind begins with its attributes
  /-- Parts: signature, block?, `;`?. -/
  | traitFn
  /-- Parts: `const`, word, `:`, type, `defaultClause`?, `;`. -/
  | traitConst
  /-- Parts: `type`, word, `generics`?, `boundsClause`?, `defaultClause`?, `whereClause`?, `;`. -/
  | traitType
  /-- Parts: visibility?, `default`?, signature, block. -/
  | implFn
  /-- Parts: visibility?, `default`?, `const`, word, `:`, type, `=`, expression, `;`. -/
  | implConst
  /-- Parts: visibility?, `default`?, `type`, word, `generics`?, `=`, type, `whereClause`?, `;`. -/
  | implType
  /-- Parts: visibility?, signature, `;`. -/
  | foreignFn
  /-- Parts: visibility?, `static`, `mut`?, word, `:`, type, `;`. -/
  | foreignStatic
  /-- Parts: visibility?, `type`, word, `generics`?, `whereClause`?, `;`. -/
  | foreignType
  /-- Parts: path, `!`, group of tokens, `;`?. -/
  | memberMac
  /-- Parts: lists of inner attributes and items. -/
  | file
  deriving DecidableEq, Inhabited

/-- A syntax tree. -/
inductive Node where
  /-- An identifier or keyword. -/
  | word (raw : Bool) (name : String)
  /-- A lifetime or label. -/
  | lifetime (raw : Bool) (name : String)
  /-- An operator or separator. -/
  | op (marks : String)
  /-- A literal, spelled as in the source. -/
  | literal (text : String)
  /-- Tokens that are kept as they were written. -/
  | verbatim (tokens : List Token)
  /-- A delimited group whose content was parsed. -/
  | group (delim : Delimiter) (children : List Node)
  /-- A node of a kind. -/
  | node (kind : Kind) (children : List Node)
  deriving Inhabited

namespace Node

/-- The part that stands for one left out. -/
def none : Node := .node .absent []

/-- A list of parts. -/
def list (children : List Node) : Node := .node .list children

/-- Whether the node is of kind `kind`. -/
def isKind (kind : Kind) : Node → Bool
  | .node k _ => k = kind
  | _ => false

/-- Whether the part was left out. -/
def isNone (n : Node) : Bool := n.isKind .absent

/-- Whether the part is there. -/
def isSome (n : Node) : Bool := !n.isNone

/-- Whether the node is an operator. -/
def isOp : Node → Bool
  | .op _ => true
  | _ => false

/-- The parts of a node or group. -/
def children : Node → List Node
  | .group _ cs => cs
  | .node _ cs => cs
  | _ => []

/-- The `i`-th part; `none` where there is no such part. -/
def part (n : Node) (i : Nat) : Node := (n.children[i]?).getD none

/-- The elements of a sequence: its parts without the separators. -/
def elems (n : Node) : List Node := n.children.filter (!·.isOp)

/-- Whether a sequence ends with a separator. -/
def endsWithSeparator (n : Node) : Bool :=
  match n.children.getLast? with
  | some last => last.isOp
  | _ => false

/-- The name of a word or lifetime, without its raw mark. -/
def name : Node → String
  | .word _ name => name
  | .lifetime _ name => name
  | _ => ""

/-- Whether the node is the word `w` or the operator `w`. -/
def isText (w : String) : Node → Bool
  | .word false name => name == w
  | .op marks => marks == w
  | _ => false

/-- Whether an element of a generic list is a lifetime or a lifetime parameter. -/
def isLifetimeLike : Node → Bool
  | .lifetime _ _ => true
  | .node .lifetimeParam _ => true
  | _ => false

/-- The attributes at the beginning of the body of a block or match. -/
def bodyAttributes : Node → List Node
  | .node .exprBlock [_, _, .node .block [.group _ (inner :: _)]] => inner.children
  | .node .exprUnsafe [_, _, .node .block [.group _ (inner :: _)]] => inner.children
  | .node .exprConst [_, _, .node .block [.group _ (inner :: _)]] => inner.children
  | .node .exprMatch [_, _, _, .group _ (inner :: _)] => inner.children
  | _ => []

/-- Whether an expression has no attributes, neither before it nor at the beginning of its body. -/
def isUnmarked (e : Node) : Bool :=
  (e.part 0).children.isEmpty && e.bodyAttributes.isEmpty

end Node

end Scaffold.Syntax
