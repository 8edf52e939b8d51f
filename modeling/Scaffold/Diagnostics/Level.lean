/-!
# Levels of diagnostics

Levels are numbered from the most detailed to `off`, which no event has: at that level nothing is
reported.
-/

namespace Scaffold.Diagnostics

/-- How severe an event is, or from where on events are reported. -/
inductive Level where
  | trace
  | debug
  | info
  | warn
  | error
  | off
  deriving DecidableEq, Inhabited, Repr

namespace Level

/-- The number of a level. -/
def number : Level → Nat
  | .trace => 0
  | .debug => 1
  | .info => 2
  | .warn => 3
  | .error => 4
  | .off => 5

/-- The level with a number; all numbers beyond the last level stand for `off`. -/
def ofNumber : Nat → Level
  | 0 => .trace
  | 1 => .debug
  | 2 => .info
  | 3 => .warn
  | 4 => .error
  | _ => .off

theorem ofNumber_number (l : Level) : ofNumber l.number = l := by cases l <;> rfl

/-- The name of a level. -/
def name : Level → String
  | .trace => "TRACE"
  | .debug => "DEBUG"
  | .info => "INFO"
  | .warn => "WARN"
  | .error => "ERROR"
  | .off => "OFF"

/-- How two levels compare. -/
def compare (a b : Level) : Ordering := Ord.compare a.number b.number

/-- Whether events of the level are reported where reporting begins at `threshold`. -/
def reachedFrom (level threshold : Level) : Bool :=
  level ≠ .off && threshold.number ≤ level.number

end Level

end Scaffold.Diagnostics
