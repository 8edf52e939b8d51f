import Scaffold.Text.CharClass

/-!
# Numerals

What digits write, and whether a number written with a fraction and an exponent fits a
double-precision float.
-/

namespace Scaffold.Text

/-- The number that decimal digits write. -/
def decimal (ds : List Char) : Nat :=
  ds.foldl (fun n d => 10 * n + hexDigitValue d) 0

/-- The number that digits of a base write; underscores may stand among them. -/
def digits? (base : Nat) (cs : List Char) : Option Nat :=
  let digits := cs.filter (· ≠ '_')
  if !digits.isEmpty && digits.all (fun d => isHexDigit d && hexDigitValue d < base) then
    some (digits.foldl (fun n d => base * n + hexDigitValue d) 0)
  else none

/-- The number that an integer literal without a suffix writes. -/
def wholeNumber? (text : String) : Option Nat :=
  match text.toList with
  | '0' :: 'x' :: cs => digits? 16 cs
  | '0' :: 'o' :: cs => digits? 8 cs
  | '0' :: 'b' :: cs => digits? 2 cs
  | cs => digits? 10 cs

/-- The least number that no double-precision float comes near. -/
def floatBound : Nat := Nat.pow 2 1024 - Nat.pow 2 970

/-- Whether `whole.fraction` times ten to the exponent fits a double-precision float. -/
def fitsFloat (whole fraction : List Char) (negative : Bool) (exponent : List Char) : Bool :=
  let significand := decimal (whole ++ fraction)
  let shift := decimal exponent
  if significand = 0 then true
  else if negative then
    let places := fraction.length + shift
    whole.length ≤ shift || significand < floatBound * Nat.pow 10 places
  else if fraction.length ≤ shift then
    let zeros := shift - fraction.length
    zeros ≤ 400 && significand * Nat.pow 10 zeros < floatBound
  else significand < floatBound * Nat.pow 10 (fraction.length - shift)

end Scaffold.Text
