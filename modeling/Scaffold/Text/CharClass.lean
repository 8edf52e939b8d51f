import Scaffold.Text.CharTable

/-!
# Character classes

The classes of characters that names, source text and quoted text depend on: which characters
may begin and continue an identifier, which have a case and what their lower-case form is, which
count as blank, and which are shown as they are inside quotes.

Every class decides ASCII by comparison and consults a table of ranges beyond it, so a statement
about ASCII text never opens a table.
-/

namespace Scaffold.Text

/-! ### Ranges read from character data -/

/-- The value of a hexadecimal digit; other characters count as zero. -/
def hexDigitValue (c : Char) : Nat :=
  if '0' ≤ c ∧ c ≤ '9' then c.toNat - '0'.toNat
  else if 'a' ≤ c ∧ c ≤ 'f' then c.toNat - 'a'.toNat + 10
  else if 'A' ≤ c ∧ c ≤ 'F' then c.toNat - 'A'.toNat + 10
  else 0

/-- Whether `c` is a hexadecimal digit of either case. -/
def isHexDigit (c : Char) : Bool :=
  ('0' ≤ c && c ≤ '9') || ('a' ≤ c && c ≤ 'f') || ('A' ≤ c && c ≤ 'F')

/-- The number that a sequence of hexadecimal digits writes. -/
def hexValue (digits : List Char) : Nat :=
  digits.foldl (fun n c => 16 * n + hexDigitValue c) 0

/-- Cuts `cs` at every `sep`: one more piece than there are separators. -/
def splitAtChar (sep : Char) : List Char → List (List Char)
  | [] => [[]]
  | c :: cs =>
    match splitAtChar sep cs with
    | [] => [[c]]
    | piece :: pieces => if c = sep then [] :: piece :: pieces else (c :: piece) :: pieces

/-- A closed range of code points. -/
structure CodeRange where
  first : Nat
  last : Nat

/-- Whether the code point `n` lies in the range. -/
def CodeRange.contains (r : CodeRange) (n : Nat) : Bool :=
  r.first ≤ n && n ≤ r.last

/-- Reads `first-last`, or a single code point. -/
def CodeRange.ofText (text : List Char) : CodeRange :=
  let first := hexValue (text.takeWhile (· ≠ '-'))
  match text.dropWhile (· ≠ '-') with
  | [] => ⟨first, first⟩
  | _ :: last => ⟨first, hexValue last⟩

/-- The blank-separated entries of a table. -/
def tableEntries (lines : List String) : List (List Char) :=
  lines.flatMap fun line => splitAtChar ' ' line.toList

/-- Reads a table of ranges. -/
def rangesOfText (lines : List String) : Array CodeRange :=
  ((tableEntries lines).map CodeRange.ofText).toArray

/-- A run of lower-case mappings: every `step`-th code point of `range` moves by `distance`. -/
structure CaseRun where
  range : CodeRange
  step : Nat
  distance : Int

/-- Reads `first-last/2+distance`; the step is one when it is left out. -/
def CaseRun.ofText (text : List Char) : CaseRun :=
  let isSign := fun c => c = '+' || c = '~'
  let source := text.takeWhile (fun c => !isSign c)
  let distance : Int :=
    match text.dropWhile (fun c => !isSign c) with
    | '+' :: digits => hexValue digits
    | _ :: digits => -(hexValue digits : Int)
    | [] => 0
  ⟨CodeRange.ofText (source.takeWhile (· ≠ '/')), if source.contains '/' then 2 else 1, distance⟩

/-- The image of the code point `n`, where the run covers it. -/
def CaseRun.image? (run : CaseRun) (n : Nat) : Option Nat :=
  if run.range.contains n && (n - run.range.first) % run.step == 0 then
    some (n + run.distance).toNat
  else none

def wordStartRanges : Array CodeRange := rangesOfText CharTable.wordStart
def wordContinueRanges : Array CodeRange := rangesOfText CharTable.wordContinue
def upperRanges : Array CodeRange := rangesOfText CharTable.upper
def lowerRanges : Array CodeRange := rangesOfText CharTable.lower
def graphemeExtendRanges : Array CodeRange := rangesOfText CharTable.graphemeExtend
def unprintableRanges : Array CodeRange := rangesOfText CharTable.unprintable

/-- The lower-case mappings beyond ASCII. -/
def lowerRuns : Array CaseRun :=
  ((tableEntries CharTable.lowerMap).map CaseRun.ofText).toArray

/-- Whether `c` lies beyond ASCII and in one of the ranges. -/
def inRanges (ranges : Array CodeRange) (c : Char) : Bool :=
  ranges.any (·.contains c.toNat)

/-! ### ASCII -/

/-- An ASCII letter. -/
def isAsciiLetter (c : Char) : Bool :=
  ('a' ≤ c && c ≤ 'z') || ('A' ≤ c && c ≤ 'Z')

/-- An ASCII digit. -/
def isAsciiDigit (c : Char) : Bool :=
  '0' ≤ c && c ≤ '9'

/-- Whether `c` is one of the 128 ASCII characters. -/
def isAscii (c : Char) : Bool :=
  c.toNat < 128

/-! ### Classes -/

/-- A character that may begin an identifier: a letter or an underscore. -/
def isIdentStart (c : Char) : Bool :=
  if isAscii c then isAsciiLetter c || c = '_' else inRanges wordStartRanges c

/-- A character that may follow in an identifier. -/
def isIdentContinue (c : Char) : Bool :=
  if isAscii c then isAsciiLetter c || isAsciiDigit c || c = '_' else inRanges wordContinueRanges c

/-- An upper-case character. -/
def isUpper (c : Char) : Bool :=
  if isAscii c then 'A' ≤ c && c ≤ 'Z' else inRanges upperRanges c

/-- A lower-case character. -/
def isLower (c : Char) : Bool :=
  if isAscii c then 'a' ≤ c && c ≤ 'z' else inRanges lowerRanges c

/-- The lower-case form of one character; only the dotted capital I has two characters. -/
def lowerOf (c : Char) : List Char :=
  if isAscii c then [c.toLower]
  else if c.toNat = 0x130 then ['i', Char.ofNat 0x307]
  else [((lowerRuns.findSome? (·.image? c.toNat)).map Char.ofNat).getD c]

/-- A blank character: the characters with the property `White_Space`. -/
def isBlank (c : Char) : Bool :=
  let n := c.toNat
  (9 ≤ n && n ≤ 13) || n = 0x20 || n = 0x85 || n = 0xa0 || n = 0x1680 ||
    (0x2000 ≤ n && n ≤ 0x200a) || n = 0x2028 || n = 0x2029 || n = 0x202f || n = 0x205f ||
    n = 0x3000

/-- A character that attaches to the one before it. -/
def isGraphemeExtend (c : Char) : Bool :=
  !isAscii c && inRanges graphemeExtendRanges c

/-- A character that is shown as it is. -/
def isPrintable (c : Char) : Bool :=
  if isAscii c then 0x20 ≤ c.toNat && c.toNat < 0x7f else !inRanges unprintableRanges c

/-! ### Text -/

/-- Drops blanks at both ends. -/
def trimBlank (cs : List Char) : List Char :=
  ((cs.dropWhile isBlank).reverse.dropWhile isBlank).reverse

end Scaffold.Text
