import Scaffold.Failure
import Scaffold.Layout.Item
import Scaffold.Syntax.Grouping

/-!
# Files

`Layouts.ofDepth n` lays out trees that are at most `n` deep, so the layouts of that depth lay out
a file wholly.  A tree with a part that is kept as mere tokens has no layout, and neither has one
with a macro whose rules are none.
-/

namespace Scaffold.Layout

open Syntax

/-! ### Closing the layouts -/

/-- The layouts of trees one level deeper than those of `l`. -/
def Layouts.step (l : Layouts) : Layouts where
  type := Layout.type l
  expr := Layout.expr l
  head := Layout.head l
  alternative := Layout.alternative l
  pattern := Layout.pattern l
  arguments := Layout.angleArgs l .type
  bound := Layout.bound l
  statement := Layout.statement l
  item := Layout.item l
  useTree := Layout.useTree l

/-- The layouts of trees that are at most `depth` deep. -/
def Layouts.ofDepth : (depth : Nat) → Layouts
  | 0 => .empty
  | depth + 1 => (Layouts.ofDepth depth).step

mutual

/-- How deep a tree is. -/
def nodeDepth : Node → Nat
  | .group _ children => listDepth children + 1
  | .node _ children => listDepth children + 1
  | _ => 1

/-- The depth of the deepest of some trees. -/
def listDepth : List Node → Nat
  | [] => 0
  | n :: ns => max (nodeDepth n) (listDepth ns)

end

/-! ### Parts without a layout -/

/-- The kinds that keep mere tokens. -/
def tokenKinds : List Kind :=
  [.typeVerbatim, .boundVerbatim, .patVerbatim, .exprVerbatim, .itemVerbatim]

/-- Whether the rules of a macro, where a node declares one, have a layout. -/
def rulesHaveLayout : Node → Bool
  | .node .itemMac [_, p, _, name, tokens, _] =>
    !declaresRules p name || (macroRules? .start (macroContent tokens)).isSome
  | _ => true

mutual

/-- Whether a tree has a layout. -/
def hasLayout : Node → Bool
  | .group _ children => allHaveLayout children
  | .node kind children =>
    !tokenKinds.contains kind && rulesHaveLayout (.node kind children) && allHaveLayout children
  | _ => true

/-- Whether some trees have layouts. -/
def allHaveLayout : List Node → Bool
  | [] => true
  | n :: ns => hasLayout n && allHaveLayout ns

end

/-! ### Files -/

/-- The layout of a file: its attributes and its items. -/
def file (n : Node) : List Doc :=
  let l := Layouts.ofDepth (nodeDepth n)
  match n with
  | .node .file [attrs, .node .list items] =>
    cbox 0 (innerAttrs l attrs ++ items.flatMap l.item)
  | _ => []

/-- **The text of a file.**  A closure whose body does not fit on a line gets braces around it, so
nothing is known of its end. -/
def fileText (n : Node) : Except Breakdown String :=
  if hasLayout n then .ok (render (file (grouped { braced := true } n))) else .error .layout

end Scaffold.Layout
