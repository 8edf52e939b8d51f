import Scaffold.Host

/-!
# Pairing members

A mapping carries every member that can be read from the source to the member of the same name
that can be written in the destination.  Where a name can be reached in more than one way, the
first one that is declared counts, on either side; types are not compared.
-/

namespace Scaffold

/-- A member of the source and the member of the destination that receives it. -/
structure MemberPair where
  source : String
  sourceAccess : MemberKind
  dest : String
  destAccess : MemberKind
  deriving DecidableEq, Inhabited, Repr

/-- Keeps the first element of each key, except those whose key was seen before. -/
def distinctBy {α κ : Type} [BEq κ] (key : α → κ) : (seen : List κ) → List α → List α
  | _, [] => []
  | seen, a :: as =>
    if seen.contains (key a) then distinctBy key seen as
    else a :: distinctBy key (key a :: seen) as

/-- The destination member of the name of `s`, paired with it. -/
def pairWith (dest : List TypeMember) (s : TypeMember) : Option MemberPair :=
  (dest.find? fun d => d.isWritable && d.name == s.name).map fun d =>
    ⟨s.name, s.kind, d.name, d.kind⟩

/-- **The pairs of two lists of members,** in the order of the source. -/
def matchMembers (source dest : List TypeMember) : List MemberPair :=
  (distinctBy (·.name) [] (source.filter (·.isReadable))).filterMap (pairWith dest)

end Scaffold
