import Scaffold.Diagnostics.Level
import Scaffold.Text.Quoted

/-!
# Events

An event is reported by its message, followed by its fields in order as `name=value`.
-/

namespace Scaffold.Diagnostics

/-- The value of a field. -/
inductive FieldValue where
  | int (n : Int)
  | bool (b : Bool)
  /-- A text that stands for itself. -/
  | text (s : String)
  /-- A text that is shown between quotes. -/
  | quoted (s : String)
  deriving DecidableEq, Inhabited, Repr

/-- The text of a value. -/
def FieldValue.toText : FieldValue → String
  | .int n => toString n
  | .bool true => "true"
  | .bool false => "false"
  | .text s => s
  | .quoted s => Text.Quoted.shown s

/-- Something that has happened. -/
structure Event where
  level : Level
  /-- The part of the program that it happened in. -/
  target : String
  message : Option String
  fields : List (String × FieldValue) := []
  deriving DecidableEq, Inhabited, Repr

/-- An event as it is reported. -/
structure Record where
  level : Level
  target : String
  message : String
  deriving DecidableEq, Inhabited, Repr

/-- **The report of an event.** -/
def Event.record (e : Event) : Record where
  level := e.level
  target := e.target
  message := " ".intercalate
    (e.message.toList ++ e.fields.map fun (name, value) => name ++ "=" ++ value.toText)

/-- The reports of those events that are reported from a level on. -/
def recordsFrom (threshold : Level) (events : List Event) : List Record :=
  (events.filter fun e => e.level.reachedFrom threshold).map Event.record

end Scaffold.Diagnostics
