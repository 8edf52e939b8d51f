/-!
# Paths as lists of segments

A path is written with `::` between its segments.  `segments` cuts a text there and `ofSegments`
joins it again; every text has at least one segment, which may be empty.

A text is cut from the right, so that what is added to a path after `::` is a segment of its own even
where the path ends with a colon.
-/

namespace Scaffold.Text

/-- Cuts `cs` at every `::`, from the left. -/
def splitColons : List Char → List (List Char)
  | [] => [[]]
  | [c] => [[c]]
  | c :: d :: cs =>
    if c = ':' ∧ d = ':' then [] :: splitColons cs
    else match splitColons (d :: cs) with
      | [] => [[c]]
      | piece :: pieces => (c :: piece) :: pieces
termination_by cs => cs.length

/-- The segments of a path, cut at every `::` from the right. -/
def segments (path : String) : List String :=
  (splitColons path.toList.reverse).reverse.map fun piece => String.ofList piece.reverse

/-- The path with the given segments. -/
def ofSegments (segments : List String) : String :=
  "::".intercalate segments

end Scaffold.Text
