import Scaffold.Text.CharClass

/-!
# Lower case of whole texts

Every character has a lower-case form of its own, except the capital sigma: it takes the final
form at the end of a word.  A word ends where no letter with a case follows, and begins where none
stands before; characters such as accents and apostrophes are passed over on either side.
-/

namespace Scaffold.Text

def caseIgnorableRanges : Array CodeRange := rangesOfText CharTable.caseIgnorable

/-- A character that is passed over when the end of a word is looked for. -/
def isCaseIgnorable (c : Char) : Bool :=
  if isAscii c then "'.:^`".toList.contains c else inRanges caseIgnorableRanges c

/-- A letter that is the title-case form of two. -/
def isTitle (c : Char) : Bool :=
  let n := c.toNat
  n = 0x1c5 || n = 0x1c8 || n = 0x1cb || n = 0x1f2 || (0x1f88 ≤ n && n ≤ 0x1f8f) ||
    (0x1f98 ≤ n && n ≤ 0x1f9f) || (0x1fa8 ≤ n && n ≤ 0x1faf) || n = 0x1fbc || n = 0x1fcc ||
    n = 0x1ffc

/-- A letter with a case. -/
def isCased (c : Char) : Bool := isLower c || isUpper c || isTitle c

/-- Whether the next character that is not passed over has a case. -/
def meetsCased (cs : List Char) : Bool :=
  (cs.find? fun c => !isCaseIgnorable c).any isCased

/-- The lower case of a text after the characters of `before`, last one first. -/
def lowerAfter (before : List Char) : List Char → List Char
  | [] => []
  | c :: cs =>
    (if c = 'Σ' then if meetsCased before && !meetsCased cs then ['ς'] else ['σ']
      else lowerOf c) ++ lowerAfter (c :: before) cs

/-- **The lower case of a text.** -/
def lowercase (text : String) : String :=
  String.ofList (lowerAfter [] text.toList)

end Scaffold.Text
