import Scaffold.Syntax.Grouping

/-!
# From trees to tokens

`Node.tokens` writes a tree.  The tokens are those at its leaves, in their order, with the
parentheses that the expressions in it need.  Generic lists name lifetimes first, and a list of
parameters, bounds or predicates that is empty is not written at all.
-/

namespace Scaffold.Syntax

/-- Pairs the elements of a sequence with the tokens of the separator that follows each. -/
def pairElements : List (Node × List Token) → List (Bool × List Token × List Token)
  | (.op _, _) :: rest => pairElements rest
  | (n, ts) :: (.op _, sep) :: rest => (n.isLifetimeLike, ts, sep) :: pairElements rest
  | (n, ts) :: rest => (n.isLifetimeLike, ts, []) :: pairElements rest
  | [] => []

/-- Joins elements and separators; a comma is supplied where an element that had none after it
is no longer the last. -/
def joinElements : List (List Token × List Token) → List Token
  | [] => []
  | [(ts, sep)] => ts ++ sep
  | (ts, sep) :: rest => ts ++ (if sep.isEmpty then [.punct ',' false] else sep) ++ joinElements rest

/-- The tokens of a generic list: lifetimes first, otherwise in the given order. -/
def arrangeGeneric (parts : List (Node × List Token)) : List Token :=
  let pairs := pairElements parts
  let (first, second) := pairs.partition (·.1)
  joinElements ((first ++ second).map (·.2))

mutual

/-- The tokens at the leaves of a tree. -/
def Node.leaves : Node → List Token
  | .word raw name => [.word raw name]
  | .lifetime raw name => [.lifetime raw name]
  | .op marks => Token.ofOperator marks.toList
  | .literal text => [.literal text]
  | .verbatim tokens => tokens
  | .group delim children => [.group delim (Node.partLeaves children).flatten]
  | .node .generics [_, .node .genericList [], _] => []
  | .node .boundsClause [_, .node .separated []] => []
  | .node .whereClause [_, .node .separated []] => []
  | .node .genericList children =>
    arrangeGeneric (children.zip (Node.partLeaves children))
  | .node _ children => (Node.partLeaves children).flatten

/-- The tokens at the leaves of each part. -/
def Node.partLeaves : List Node → List (List Token)
  | [] => []
  | n :: ns => n.leaves :: Node.partLeaves ns

end

/-- **The tokens of a tree,** in the order in which they are written. -/
def Node.tokens (n : Node) : List Token :=
  (grouped {} n).leaves

end Scaffold.Syntax
