/-!
# Precedence

An operator of a higher precedence takes its operands before one of a lower.  What is closed on
both sides, such as a name or a call, counts as the highest, and what extends as far to the right
as it can, such as a `return` with its value, as the lowest.
-/

namespace Scaffold.Syntax

/-- How tightly an operator binds, from the loosest on. -/
inductive Precedence where
  /-- `return`, `break`, `yield` and closures, and the place where no operator binds. -/
  | jump
  /-- `=` and the operators that assign what they compute. -/
  | assign
  /-- Two dots. -/
  | range
  | disjunction
  | conjunction
  /-- `let` in a condition. -/
  | binding
  | comparison
  | bitOr
  | bitXor
  | bitAnd
  | shift
  | sum
  | product
  | cast
  /-- Operators that stand before their operand. -/
  | sign
  /-- Expressions that are closed on both sides. -/
  | closed
  deriving DecidableEq, Inhabited, Repr

namespace Precedence

/-- The place of a precedence in their order. -/
def rank : Precedence → Nat
  | .jump => 0
  | .assign => 1
  | .range => 2
  | .disjunction => 3
  | .conjunction => 4
  | .binding => 5
  | .comparison => 6
  | .bitOr => 7
  | .bitXor => 8
  | .bitAnd => 9
  | .shift => 10
  | .sum => 11
  | .product => 12
  | .cast => 13
  | .sign => 14
  | .closed => 15

instance : LT Precedence := ⟨fun a b => a.rank < b.rank⟩

instance : LE Precedence := ⟨fun a b => a.rank ≤ b.rank⟩

instance (a b : Precedence) : Decidable (a < b) := inferInstanceAs (Decidable (a.rank < b.rank))

instance (a b : Precedence) : Decidable (a ≤ b) := inferInstanceAs (Decidable (a.rank ≤ b.rank))

/-- The binary operators; of two that begin alike the longer comes first. -/
def binaryOps : List (String × Precedence) :=
  [("+=", .assign), ("-=", .assign), ("*=", .assign), ("/=", .assign), ("%=", .assign),
    ("^=", .assign), ("&=", .assign), ("|=", .assign), ("<<=", .assign), (">>=", .assign),
    ("&&", .conjunction), ("||", .disjunction), ("<<", .shift), (">>", .shift),
    ("==", .comparison), ("<=", .comparison), ("!=", .comparison), (">=", .comparison),
    ("+", .sum), ("-", .sum), ("*", .product), ("/", .product), ("%", .product), ("^", .bitXor),
    ("&", .bitAnd), ("|", .bitOr), ("<", .comparison), (">", .comparison)]

/-- The precedence of a binary operator. -/
def ofOperator (marks : String) : Precedence :=
  (binaryOps.lookup marks).getD .jump

end Precedence

end Scaffold.Syntax
