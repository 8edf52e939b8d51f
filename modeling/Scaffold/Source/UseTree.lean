import Scaffold.Syntax.Node

/-!
# What a use declaration binds

A use tree has a leaf for every name that it brings into scope, and one for every glob.
`UseTree.bindings` lists them in order, each with the full path from the root of the tree.
-/

namespace Scaffold.Source

open Syntax

/-- A use tree; names are written without their raw mark. -/
inductive UseTree where
  /-- A segment and the tree below it. -/
  | path (name : String) (tree : UseTree)
  /-- A name; `self` stands for the path so far. -/
  | name (name : String)
  /-- A name under another one. -/
  | rename (name bound : String)
  /-- Everything. -/
  | glob
  /-- Several trees. -/
  | group (trees : List UseTree)
  deriving Inhabited

/-- What a leaf brings into scope. -/
inductive Binding where
  /-- The path under a name. -/
  | name (bound : String) (path : List String)
  /-- Everything in the path. -/
  | glob (path : List String)
  deriving DecidableEq, Inhabited, Repr

namespace UseTree

mutual

/-- The use tree that a node forms. -/
def ofNode : Node → UseTree
  | .node .usePath [word, _, tree] => .path word.name (ofNode tree)
  | .node .useName [word] => .name word.name
  | .node .useRename [word, _, bound] => .rename word.name bound.name
  | .node .useGroup [.group _ [.node _ parts]] => .group (ofParts parts)
  | _ => .glob

/-- The use trees among the parts of a sequence. -/
def ofParts : List Node → List UseTree
  | [] => []
  | n :: ns => if n.isOp then ofParts ns else ofNode n :: ofParts ns

end

/-- What the leaf `word` binds below `root`: `self` is the last segment of the root itself. -/
def bindName (root : List String) (word : String) : List Binding :=
  if word = "self" then
    match root.getLast? with
    | some last => [.name last root]
    | none => []
  else [.name word (root ++ [word])]

/-- What a renamed leaf binds below `root`: nothing under `_`. -/
def bindAlias (root : List String) (word bound : String) : List Binding :=
  if bound = "_" then []
  else if word = "self" then [.name bound root]
  else [.name bound (root ++ [word])]

mutual

/-- **The bindings of a tree below the path `root`,** in the order of its leaves. -/
def bindings (root : List String) : UseTree → List Binding
  | .path word tree => bindings (root ++ [word]) tree
  | .name word => bindName root word
  | .rename word bound => bindAlias root word bound
  | .glob => [.glob root]
  | .group trees => groupBindings root trees

/-- The bindings of several trees below one path. -/
def groupBindings (root : List String) : List UseTree → List Binding
  | [] => []
  | tree :: trees => bindings root tree ++ groupBindings root trees

end

end UseTree

end Scaffold.Source
