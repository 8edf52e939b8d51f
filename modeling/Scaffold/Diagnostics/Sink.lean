import Scaffold.Diagnostics.Event
import Scaffold.Text.CharClass

/-!
# Sinks

A channel passes records on to its sink from a level on; calls change the sink and the level.  The
sink for builds writes a warning or an error as one directive line, which the build tool shows, and
anything else to the error output.
-/

namespace Scaffold.Diagnostics

/-- What a sink causes. -/
structure Delivery where
  recorded : List Record := []
  stdout : String := ""
  stderr : String := ""
  deriving DecidableEq, Inhabited, Repr

/-- One after the other. -/
def Delivery.append (d e : Delivery) : Delivery where
  recorded := d.recorded ++ e.recorded
  stdout := d.stdout ++ e.stdout
  stderr := d.stderr ++ e.stderr

instance : Append Delivery := ⟨Delivery.append⟩

/-- All of them, one after another. -/
def Delivery.join (ds : List Delivery) : Delivery := ds.foldr (· ++ ·) {}

/-- Where records go. -/
inductive Sink where
  /-- They are kept. -/
  | keep
  /-- They are written for the build tool. -/
  | build
  deriving DecidableEq, Inhabited, Repr

/-- Drops the carriage return at the end of a line. -/
def dropReturn (line : List Char) : List Char :=
  match line.reverse with
  | '\r' :: rest => rest.reverse
  | _ => line

/-- The lines of a text, given the pieces between its line feeds.  A carriage return belongs to
the line feed after it, and a last piece without characters is no line. -/
def linesOfPieces : List (List Char) → List (List Char)
  | [] => []
  | [last] => if last.isEmpty then [] else [last]
  | piece :: pieces => dropReturn piece :: linesOfPieces pieces

/-- A text on one line: its lines with blanks between them. -/
def flattened (text : String) : String :=
  " ".intercalate ((linesOfPieces (Text.splitAtChar '\n' text.toList)).map String.ofList)

/-- **The directive line for a message.** -/
def warningLine (level : Level) (message : String) : String :=
  (if level = .error then "cargo:warning=error: " else "cargo:warning=") ++ flattened message

/-- What a sink does with a record. -/
def Sink.deliver : Sink → Record → Delivery
  | .keep, r => { recorded := [r] }
  | .build, r =>
    if r.level.reachedFrom .warn then { stdout := warningLine r.level r.message ++ "\n" }
    else { stderr := "[" ++ r.level.name ++ "] " ++ r.target ++ ": " ++ r.message ++ "\n" }

/-- A sink, perhaps, and the level from which on it gets records. -/
structure Channel (σ : Type := Sink) where
  sink : Option σ := none
  /-- The number of the level. -/
  number : Nat := Level.info.number
  deriving DecidableEq, Inhabited, Repr

/-- A call on a channel. -/
inductive ChannelCall (σ : Type := Sink) where
  | setSink (sink : Option σ)
  | setLevel (level : Level)
  | emit (r : Record)
  deriving DecidableEq, Inhabited, Repr

namespace Channel

variable {σ : Type}

/-- The level from which on records are passed on. -/
def level (c : Channel σ) : Level := .ofNumber c.number

/-- Whether records of a level are passed on. -/
def isEnabled (c : Channel σ) (level : Level) : Bool := level.reachedFrom c.level

/-- The sink that a record is passed on to, if it is. -/
def sinkFor? (c : Channel σ) (r : Record) : Option σ :=
  if c.isEnabled r.level then c.sink else none

/-- The channel after a call. -/
def after (c : Channel σ) : ChannelCall σ → Channel σ
  | .setSink sink => { c with sink := sink }
  | .setLevel level => { c with number := level.number }
  | .emit _ => c

/-- What a call hands to a sink: the record that it passes on, if it does. -/
def handOver (c : Channel σ) : ChannelCall σ → List (σ × Record)
  | .emit r => (c.sinkFor? r).toList.map (·, r)
  | _ => []

/-- **What calls hand to sinks,** one after another. -/
def handOverAll (c : Channel σ) : List (ChannelCall σ) → List (σ × Record)
  | [] => []
  | call :: calls => c.handOver call ++ (c.after call).handOverAll calls

/-- Passes a record on. -/
def emit (c : Channel) (r : Record) : Delivery :=
  match c.sinkFor? r with
  | some sink => sink.deliver r
  | none => {}

/-- What a call causes. -/
def perform (c : Channel) : ChannelCall → Delivery
  | .emit r => c.emit r
  | _ => {}

/-- **What calls cause,** one after another. -/
def performAll (c : Channel) : List ChannelCall → Delivery
  | [] => {}
  | call :: calls => c.perform call ++ (c.after call).performAll calls

/-- Passes the record of an event on, if the channel asks for events of its level. -/
def observe (c : Channel) (e : Event) : Delivery :=
  if c.isEnabled e.level then c.emit e.record else {}

/-- Passes the records of events on, one after another. -/
def emitEvents (c : Channel) (events : List Event) : Delivery :=
  .join (events.map c.observe)

/-- The channel with a sink that reports from a level on. -/
def reporting (sink : σ) (level : Level := .info) : Channel σ := ⟨some sink, level.number⟩

end Channel

end Scaffold.Diagnostics
