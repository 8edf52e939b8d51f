import Scaffold.Document
import Scaffold.Text.Numeral

/-!
# Scalars of TOML

Truth values, numbers, dates and times, each given as the whole text of the scalar.  Digits may
have single underscores between them.  A whole part has no leading zeros.
-/

namespace Scaffold.Toml

open Text

/-! ### Numbers -/

/-- Digits without the underscores between them; `isDigit` tells the digits. -/
def plainDigits (isDigit : Char → Bool) : List Char → Option (List Char)
  | [] => none
  | [c] => if isDigit c then some [c] else none
  | c :: d :: cs =>
    if !isDigit c then none
    else (plainDigits isDigit (if d = '_' then cs else d :: cs)).map (c :: ·)
termination_by cs => cs.length
decreasing_by
  split <;> simp only [List.length_cons] <;> omega

/-- Cuts off a sign: whether it is a minus, and what follows. -/
def cutSign : List Char → Bool × List Char
  | '-' :: cs => (true, cs)
  | '+' :: cs => (false, cs)
  | cs => (false, cs)

/-- The digits of a whole part. -/
def wholeDigits (cs : List Char) : Option (List Char) :=
  match plainDigits isAsciiDigit cs with
  | some ('0' :: _ :: _) => none
  | ds => ds

/-- Whether digits write a number in `base` of at most 128 bits. -/
def isBased (base : Nat) (isDigit : Char → Bool) (cs : List Char) : Bool :=
  match plainDigits isDigit cs with
  | some ds => ds.foldl (fun n d => base * n + hexDigitValue d) 0 < Nat.pow 2 128
  | none => false

/-- Whether a text writes an integer. -/
def isInteger : List Char → Bool
  | '0' :: 'x' :: cs => isBased 16 isHexDigit cs
  | '0' :: 'o' :: cs => isBased 8 (fun c => '0' ≤ c && c ≤ '7') cs
  | '0' :: 'b' :: cs => isBased 2 (fun c => c = '0' || c = '1') cs
  | cs =>
    let (negative, digits) := cutSign cs
    match wholeDigits digits with
    | some ds => if negative then decimal ds ≤ Nat.pow 2 127 else decimal ds < Nat.pow 2 128
    | none => false

/-- Cuts a text at the first character that `isMark` tells; there may be none. -/
def cutAt (isMark : Char → Bool) (cs : List Char) : List Char × Option (List Char) :=
  match cs.dropWhile (!isMark ·) with
  | [] => (cs, none)
  | _ :: rest => (cs.takeWhile (!isMark ·), some rest)

/-- Whether a text writes a float.  One that no double-precision float comes near is none. -/
def isFloat (cs : List Char) : Bool :=
  let (_, unsigned) := cutSign cs
  if unsigned = "inf".toList ∨ unsigned = "nan".toList then true
  else
    let (significand, exponent) := cutAt (fun c => c = 'e' || c = 'E') unsigned
    let (whole, fraction) := cutAt (· = '.') significand
    if fraction.isNone ∧ exponent.isNone then false
    else
      let (negative, power) := cutSign (exponent.getD ['0'])
      let parts : Option (List Char × List Char × List Char) := do
        pure (← wholeDigits whole, ← plainDigits isAsciiDigit (fraction.getD ['0']),
          ← plainDigits isAsciiDigit power)
      match parts with
      | some (whole, fraction, power) => fitsFloat whole fraction negative power
      | none => false

/-! ### Dates and times -/

/-- The number that `count` digits at the head write, and what follows. -/
def takeDigits (count : Nat) (cs : List Char) : Option (Nat × List Char) :=
  let ds := cs.take count
  if ds.length = count ∧ ds.all isAsciiDigit then some (decimal ds, cs.drop count) else none

/-- What follows the character `c` at the head. -/
def takeMark (c : Char) : List Char → Option (List Char)
  | d :: cs => if c = d then some cs else none
  | [] => none

/-- The number of days of a month. -/
def daysOfMonth (year month : Nat) : Nat :=
  if month = 2 then
    if year % 4 = 0 ∧ (year % 100 ≠ 0 ∨ year % 400 = 0) then 29 else 28
  else if month = 4 ∨ month = 6 ∨ month = 9 ∨ month = 11 then 30
  else 31

/-- What follows a date. -/
def takeDate (cs : List Char) : Option (List Char) := do
  let (year, cs) ← takeDigits 4 cs
  let cs ← takeMark '-' cs
  let (month, cs) ← takeDigits 2 cs
  let cs ← takeMark '-' cs
  let (day, cs) ← takeDigits 2 cs
  if 1 ≤ month ∧ month ≤ 12 ∧ 1 ≤ day ∧ day ≤ daysOfMonth year month then some cs else none

/-- What follows the fraction of a second, where there is one. -/
def takeFraction : List Char → Option (List Char)
  | '.' :: cs => if (cs.takeWhile isAsciiDigit).isEmpty then none
    else some (cs.dropWhile isAsciiDigit)
  | cs => some cs

/-- What follows a time of day; its seconds may be left out. -/
def takeTime (cs : List Char) : Option (List Char) := do
  let (hour, cs) ← takeDigits 2 cs
  let cs ← takeMark ':' cs
  let (minute, cs) ← takeDigits 2 cs
  if 23 < hour ∨ 59 < minute then none
  else match cs with
    | ':' :: cs => do
      let (second, cs) ← takeDigits 2 cs
      if 60 < second then none else takeFraction cs
    | _ => some cs

/-- Whether a text is an offset from universal time. -/
def isOffset : List Char → Bool
  | [c] => c = 'Z' || c = 'z'
  | sign :: cs =>
    let minutes : Option Nat := do
      let (hour, cs) ← takeDigits 2 cs
      let (minute, cs) ← takeDigits 2 (← takeMark ':' cs)
      if cs.isEmpty ∧ minute ≤ 59 then some (60 * hour + minute) else none
    (sign = '+' || sign = '-') && minutes.any (· ≤ 24 * 60)
  | [] => false

/-- Whether a text is a date, a time, or both. -/
def isDateTime (cs : List Char) : Bool :=
  match takeDate cs with
  | some [] => true
  | some (c :: cs) =>
    (c = 'T' || c = 't' || c = ' ') &&
      match takeTime cs with
      | some rest => rest.isEmpty || isOffset rest
      | none => false
  | none => takeTime cs = some []

/-- The name under which a date or time stands as a table of one entry. -/
def dateTimeName : String := "$__toml_private_datetime"

/-- A date or time as it is told: the marks in it are capitals. -/
def dateTimeText (cs : List Char) : String :=
  String.ofList (cs.map fun c => if c = ' ' ∨ c = 't' then 'T' else if c = 'z' then 'Z' else c)

/-- **What a scalar denotes.** -/
def scalar? (cs : List Char) : Option Document :=
  if cs = "true".toList then some (.bool true)
  else if cs = "false".toList then some (.bool false)
  else if isInteger cs || isFloat cs then some (.scalar (String.ofList cs))
  else if isDateTime cs then some (.table [(dateTimeName, .text (dateTimeText cs))])
  else none

end Scaffold.Toml
