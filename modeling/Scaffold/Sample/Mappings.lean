/-!
# Sample mappings

Three types that are mapped to one another in a circle.  A mapping starts from the defaults of its
destination, carries over what both types have, and ends with what the caller adds.
-/

namespace Scaffold.Sample

/-- A thing with tags. -/
structure Thing where
  name : String := ""
  size : Int32 := 0
  tags : List String := []

/-- A thing with a label. -/
structure Stuff where
  name : String := ""
  size : Int32 := 0
  label : String := ""

/-- A thing whose size is never negative. -/
structure Junk where
  name : String := ""
  size : Int32 := 0

/-- Sets the size; a negative one counts as zero. -/
def Junk.setSize (j : Junk) (size : Int32) : Junk :=
  { j with size := if size < 0 then 0 else size }

/-- Stuff from a thing. -/
def Thing.toStuff (t : Thing) (more : Thing → Stuff → Stuff := fun _ s => s) : Stuff :=
  more t { ({} : Stuff) with name := t.name, size := t.size }

/-- Junk from stuff. -/
def Stuff.toJunk (s : Stuff) (more : Stuff → Junk → Junk := fun _ j => j) : Junk :=
  more s (({ ({} : Junk) with name := s.name } : Junk).setSize s.size)

/-- A thing from junk. -/
def Junk.toThing (j : Junk) : Thing := { ({} : Thing) with name := j.name, size := j.size }

/-- A value on the way round. -/
inductive Value where
  | thing (t : Thing)
  | stuff (s : Stuff)
  | junk (j : Junk)

/-- A step on the way; the marked ones add to what the mapping makes. -/
inductive Step where
  | toStuff
  | toStuffMore
  | toJunk
  | toJunkMore
  | toThing
  deriving DecidableEq

/-- The value after a step, where the step starts from a value of this type.  Sizes wrap. -/
def Value.after (extra : Int32) : Value → Step → Option Value
  | .thing t, .toStuff => some (.stuff t.toStuff)
  | .thing t, .toStuffMore =>
    some (.stuff (t.toStuff fun t s =>
      { s with label := ",".intercalate t.tags, size := s.size + extra }))
  | .stuff s, .toJunk => some (.junk s.toJunk)
  | .stuff s, .toJunkMore => some (.junk (s.toJunk fun s j => j.setSize (s.size - extra)))
  | .junk j, .toThing => some (.thing j.toThing)
  | _, _ => none

/-- **The values on the way,** from the first one on. -/
def Value.follow (extra : Int32) (v : Value) : List Step → List Value
  | [] => [v]
  | step :: steps =>
    match v.after extra step with
    | some next => v :: next.follow extra steps
    | none => [v]

end Scaffold.Sample
