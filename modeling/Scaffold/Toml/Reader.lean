import Scaffold.Toml.Scalar
import Scaffold.Toml.Table

/-!
# Reading TOML

A text is read line by line: headers and assignments, blanks and comments.  `read` gives the
document of a text, which is a table.  Arrays and inline tables stand inside one another at most
eighty deep.
-/

namespace Scaffold.Toml

open Text

/-- A reader of TOML text. -/
abbrev Reader := StateT (List Char) Option

namespace Reader

/-- Gives up. -/
def fail {α : Type} : Reader α := fun _ => none

/-- The text that is left. -/
def left : Reader (List Char) := get

/-- Takes the characters of `word`. -/
def word (text : String) : Reader Unit := do
  let cs ← left
  if text.toList.isPrefixOf cs then set (cs.drop text.length) else fail

/-! ### Blanks -/

/-- Whether `c` separates what stands on one line. -/
def isGap (c : Char) : Bool := c = ' ' || c = '\t'

/-- Whether a text may hold `c` as it is: no control character but the tab. -/
def isPlain (c : Char) : Bool := c = '\t' || (0x20 ≤ c.toNat && c.toNat ≠ 0x7f)

/-- Skips blanks on the line. -/
def gaps : Reader Unit := modify (·.dropWhile isGap)

/-- What follows a line end at the head. -/
def dropLineEnd? : List Char → Option (List Char)
  | '\n' :: cs => some cs
  | '\r' :: '\n' :: cs => some cs
  | _ => none

/-- Skips a comment, where there is one. -/
def comment : Reader Unit := do
  match ← left with
  | '#' :: cs => set (cs.dropWhile isPlain)
  | _ => pure ()

/-- Takes the end of a line, or of the text, with the blanks and the comment before it. -/
def lineEnd : Reader Unit := do
  gaps
  comment
  match ← left with
  | [] => pure ()
  | cs =>
    match dropLineEnd? cs with
    | some rest => set rest
    | none => fail

/-- Skips blanks, comments and line ends, at most `fuel` lines. -/
def blankLines : (fuel : Nat) → Reader Unit
  | 0 => pure ()
  | fuel + 1 => do
    gaps
    comment
    match dropLineEnd? (← left) with
    | some rest =>
      set rest
      blankLines fuel
    | none => pure ()

/-- Skips blanks, comments and line ends. -/
def blanks : Reader Unit := do
  blankLines ((← left).length + 1)

/-! ### Strings -/

/-- The character that `count` hexadecimal digits denote. -/
def codeEscape (count : Nat) : Reader Char := do
  let cs ← left
  let ds := cs.take count
  let code := hexValue ds
  if ds.length = count ∧ ds.all isHexDigit ∧ code.isValidChar then
    set (cs.drop count)
    pure (Char.ofNat code)
  else fail

/-- The character that an escape denotes, after its backslash. -/
def escape : Reader Char := do
  match ← left with
  | [] => fail
  | c :: cs =>
    set cs
    if c = 'b' then pure (Char.ofNat 8)
    else if c = 't' then pure '\t'
    else if c = 'n' then pure '\n'
    else if c = 'f' then pure (Char.ofNat 12)
    else if c = 'r' then pure '\r'
    else if c = 'e' then pure (Char.ofNat 27)
    else if c = '"' ∨ c = '\\' then pure c
    else if c = 'x' then codeEscape 2
    else if c = 'u' then codeEscape 4
    else if c = 'U' then codeEscape 8
    else fail

/-- The rest of a string on one line, up to the quote that closes it.  Without `escapes`, a
backslash stands for itself. -/
def lineBody (quote : Char) (escapes : Bool) : (fuel : Nat) → (done : List Char) → Reader String
  | 0, _ => fail
  | fuel + 1, done => do
    match ← left with
    | [] => fail
    | c :: cs =>
      set cs
      if c = quote then pure (String.ofList done.reverse)
      else if escapes && c = '\\' then lineBody quote escapes fuel ((← escape) :: done)
      else if isPlain c then lineBody quote escapes fuel (c :: done)
      else fail

/-- What follows a backslash that ends a line, up to the next character that is no blank. -/
def dropFold? (cs : List Char) : Option (List Char) :=
  (dropLineEnd? (cs.dropWhile isGap)).map
    (·.dropWhile fun c => isGap c || c = '\n' || c = '\r')

/-- The rest of a string on many lines, up to the three quotes that close it.  Up to two more
quotes before them belong to the string. -/
def linesBody (quote : Char) (escapes : Bool) : (fuel : Nat) → (done : List Char) → Reader String
  | 0, _ => fail
  | fuel + 1, done => do
    let cs ← left
    let quotes := (cs.takeWhile (· = quote)).length
    if 3 ≤ quotes then
      let inner := min (quotes - 3) 2
      set (cs.drop (inner + 3))
      pure (String.ofList (List.replicate inner quote ++ done).reverse)
    else match cs with
      | [] => fail
      | c :: rest =>
        match dropLineEnd? cs with
        | some rest =>
          set rest
          linesBody quote escapes fuel ('\n' :: done)
        | none =>
          set rest
          if escapes && c = '\\' then
            match dropFold? rest with
            | some rest =>
              set rest
              linesBody quote escapes fuel done
            | none => linesBody quote escapes fuel ((← escape) :: done)
          else if isPlain c then linesBody quote escapes fuel (c :: done)
          else fail

/-- A string on one line, after its opening quote. -/
def lineString (quote : Char) : Reader String := do
  lineBody quote (quote = '"') ((← left).length + 1) []

/-- A string on many lines, after its opening quotes.  A line end right there is left out. -/
def linesString (quote : Char) : Reader String := do
  modify fun cs => (dropLineEnd? cs).getD cs
  linesBody quote (quote = '"') ((← left).length + 1) []

/-- A string, after its first quote. -/
def string (quote : Char) : Reader String := do
  match ← left with
  | c :: d :: cs =>
    if c = quote ∧ d = quote then
      set cs
      linesString quote
    else lineString quote
  | _ => lineString quote

/-! ### Keys -/

/-- Whether a key may hold `c` without quotes. -/
def isBare (c : Char) : Bool := isAsciiLetter c || isAsciiDigit c || c = '_' || c = '-'

/-- A key without dots. -/
def simpleKey : Reader String := do
  match ← left with
  | [] => fail
  | c :: cs =>
    if c = '"' ∨ c = '\'' then
      set cs
      lineString c
    else
      let bare := (c :: cs).takeWhile isBare
      if bare.isEmpty then fail
      else
        set ((c :: cs).dropWhile isBare)
        pure (String.ofList bare)

/-- The keys of a dotted key from the second on, at most `fuel` of them. -/
def moreKeys : (fuel : Nat) → Key → Reader Key
  | 0, _ => fail
  | fuel + 1, key => do
    gaps
    match ← left with
    | '.' :: cs =>
      set cs
      gaps
      moreKeys fuel ⟨key.path ++ [key.last], ← simpleKey⟩
    | _ => pure key

/-- A dotted key, with the blanks around it. -/
def dottedKey : Reader Key := do
  gaps
  let first ← simpleKey
  moreKeys ((← left).length + 1) ⟨[], first⟩

/-! ### Values -/

/-- Whether a scalar may hold `c`. -/
def isScalarChar (c : Char) : Bool := isBare c || c = '+' || c = '.' || c = ':'

/-- A scalar that is no string.  A blank may stand between a date and a time. -/
def scalar : Reader Document := do
  let cs ← left
  let first := cs.takeWhile isScalarChar
  let rest := cs.dropWhile isScalarChar
  let (text, rest) : List Char × List Char :=
    match rest with
    | ' ' :: d :: more =>
      if takeDate first = some [] ∧ isAsciiDigit d then
        (first ++ ' ' :: (d :: more).takeWhile isScalarChar, (d :: more).dropWhile isScalarChar)
      else (first, rest)
    | _ => (first, rest)
  match scalar? text with
  | some d =>
    set rest
    pure d
  | none => fail

/-- The elements of an array or inline table up to the bracket that closes it, at most `fuel` of
them.  A comma may follow the last. -/
def elements {α : Type} (close : Char) (element : Reader α) :
    (fuel : Nat) → (done : List α) → Reader (List α)
  | 0, _ => fail
  | fuel + 1, done => do
    blanks
    if (← left).head? = some close then
      modify (·.drop 1)
      pure done.reverse
    else
      let a ← element
      blanks
      match ← left with
      | c :: cs =>
        set cs
        if c = ',' then elements close element fuel (a :: done)
        else if c = close then pure (a :: done).reverse
        else fail
      | [] => fail

/-- An assignment, given the reader of its value. -/
def assignment (value : Reader Document) : Reader Assignment := do
  let key ← dottedKey
  word "="
  gaps
  pure ⟨key, ← value⟩

/-- A value; `inner` reads those inside arrays and inline tables, which may not be there without
it. -/
def valueOver (inner : Option (Reader Document)) : Reader Document := do
  match ← left with
  | [] => fail
  | c :: cs =>
    if c = '"' ∨ c = '\'' then
      set cs
      pure (.text (← string c))
    else if c = '[' ∨ c = '\x7b' then
      match inner with
      | none => fail
      | some inner =>
        set cs
        if c = '[' then pure (.list (← elements ']' inner (cs.length + 1) []))
        else
          let assignments ← elements '\x7d' (assignment inner) (cs.length + 1) []
          match assignments.foldlM Entries.assign [] with
          | some entries => pure (.table (documentEntries entries))
          | none => fail
    else scalar

/-- A value, with at most `depth` arrays and inline tables inside one another. -/
def value : (depth : Nat) → Reader Document
  | 0 => valueOver none
  | depth + 1 => valueOver (some (value depth))

/-! ### Texts -/

/-- A header, after its first bracket. -/
def header : Reader Header := do
  match ← left with
  | '[' :: cs =>
    set cs
    let key ← dottedKey
    word "]]"
    pure (.element key)
  | _ =>
    let key ← dottedKey
    word "]"
    pure (.table key)

/-- The sections of a text from the current one on, at most `fuel` lines. -/
def sections : (fuel : Nat) → Section → Reader (List Section)
  | 0, _ => fail
  | fuel + 1, current => do
    blanks
    match ← left with
    | [] => pure [current]
    | '[' :: cs =>
      set cs
      let next ← header
      lineEnd
      pure (current :: (← sections fuel { header := next }))
    | _ =>
      let a ← assignment (value 80)
      lineEnd
      sections fuel { current with assignments := current.assignments ++ [a] }

end Reader

/-- **The document of a text.**  A mark of the byte order may stand at its beginning. -/
def read (text : String) : Option Document := do
  let cs :=
    match text.toList with
    | c :: cs => if c.toNat = 0xfeff then cs else c :: cs
    | [] => []
  let (sections, _) ← (Reader.sections (cs.length + 1) {}).run cs
  ofSections sections

end Scaffold.Toml
