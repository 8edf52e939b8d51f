import Scaffold.Layout.Path
import Scaffold.Text.Unquoted

/-!
# Attributes

An attribute stands on a line of its own.  One that holds documentation, or a comment, is written
as such: on one line where the text has one line, and between comment marks where it has more and
nothing in it would end the comment early.
-/

namespace Scaffold.Layout

open Syntax

/-! ### Comments -/

/-- Drops blanks at the end. -/
def trimEnd (cs : List Char) : List Char :=
  (cs.reverse.dropWhile (· = ' ')).reverse

/-- Drops blanks at the end of every line but the last. -/
def trimLines (cs : List Char) : List Char :=
  match (Text.splitAtChar '\n' cs).reverse with
  | last :: before => (before.reverse.flatMap fun line => trimEnd line ++ ['\n']) ++ last
  | [] => []

/-- Whether the comment marks in a text are paired; `depth` of them are open. -/
def marksPaired : (depth : Nat) → List Char → Bool
  | depth, '/' :: '*' :: cs => marksPaired (depth + 1) cs
  | depth, '*' :: '/' :: cs => 0 < depth && marksPaired (depth - 1) cs
  | depth, _ :: cs => marksPaired depth cs
  | depth, [] => depth = 0

/-- Whether a text can stand between comment marks. -/
def canBeBlock (cs : List Char) : Bool :=
  marksPaired 0 cs && cs.getLast? ≠ some '/'

/-- The text that an attribute of the given name has for a value. -/
def textValue? (name : String) (content : Node) : Option (List Char) :=
  match content with
  | .node .metaValue
      [.node .path [lead, .node .separated [.node .segment [.word false w, args]]], _,
        .node .exprLit [attrs, .literal text]] =>
    if lead.isNone && args.isNone && attrs.children.isEmpty && w == name then
      (Text.Unquoted.literalValue? text).map String.toList
    else none
  | _ => none

/-- A comment between its marks, or nothing where the text does not allow it. -/
def comment? (text : List Char) (line opening : String) (noLine noBlock : List Char) :
    Option (List Doc) :=
  let beginsWith (bad : List Char) : Bool := text.head?.any bad.contains
  if !text.contains '\n' && !beginsWith noLine then
    some (word line ++ word (String.ofList (trimEnd text)) ++ hardBreak)
  else if !text.isEmpty && canBeBlock text && !beginsWith noBlock then
    some (word opening ++ word (String.ofList (trimLines text)) ++ word "*/" ++ hardBreak)
  else none

/-! ### Attributes -/

/-- What an attribute holds. -/
def attributeContent (l : Layouts) (content : Node) : List Doc :=
  match content with
  | .node .metaList [p, .verbatim tokens] =>
    path l .simple p ++ (attrTokens (word " ") .word tokens).1
  | .node .metaValue [p, _, value] => path l .simple p ++ word " = " ++ l.expr false value
  | .node .metaPath [p] => path l .simple p
  | _ => []

/-- An attribute; `inner` tells that it belongs to what encloses it. -/
def attrLine (l : Layouts) (inner : Bool) (attr : Node) : List Doc :=
  let content :=
    match attr with
    | .node .attr [_, _, .group _ [content]] => content
    | _ => .none
  let comment :=
    match textValue? "doc" content with
    | some text =>
      if inner then comment? text "//!" "/*!" [] []
      else comment? text "///" "/**" ['/'] ['*', '/']
    | none =>
      match textValue? "comment" content with
      | some text => comment? text "//" "/*" [] ['*', '!']
      | none => none
  comment.getD
    (word (if inner then "#!" else "#") ++ word "[" ++ attributeContent l content ++ word "]" ++
      space)

/-- The attributes before something. -/
def outerAttrs (l : Layouts) (attrs : Node) : List Doc :=
  attrs.children.flatMap (attrLine l false)

/-- The attributes at the beginning of a body. -/
def innerAttrs (l : Layouts) (attrs : Node) : List Doc :=
  attrs.children.flatMap (attrLine l true)

end Scaffold.Layout
