import Scaffold.Failure
import Scaffold.Text.Numeral

/-!
# Reading JSON of a known shape

Readers take JSON text apart and build the values that are asked for as they go, so the first
fault in the text is the one that is reported: text that ends too early, text that is no JSON, or
JSON of another shape.  Values that nobody asks for are skipped with less scrutiny: their numbers
may be out of range and their strings may hold halves of surrogate pairs.
-/

namespace Scaffold.Json

/-- A reader of JSON text. -/
abbrev Reader := StateT (List Char) (Except JsonFault)

namespace Reader

/-- Stops with a fault. -/
def fail {α : Type} (fault : JsonFault) : Reader α := fun _ => .error fault

/-- The text that is left. -/
def left : Reader (List Char) := get

/-- Whether `c` is a blank of JSON. -/
def isBlank (c : Char) : Bool := c = ' ' || c = '\n' || c = '\t' || c = '\r'

/-- The next character that is no blank; it stays. -/
def peek : Reader (Option Char) := do
  modify (·.dropWhile isBlank)
  pure (← left).head?

/-- Drops a character. -/
def skip : Reader Unit := modify (·.drop 1)

/-- Takes the characters of `word`. -/
def word : List Char → Reader Unit
  | [] => pure ()
  | c :: cs => do
    match ← left with
    | [] => fail .eof
    | d :: rest => if c = d then set rest; word cs else fail .syntaxFault

/-! ### Numbers -/

/-- Takes digits. -/
def digits : Reader (List Char) := do
  let text ← left
  set (text.dropWhile Text.isAsciiDigit)
  pure (text.takeWhile Text.isAsciiDigit)

/-- A fault where digits are missing: the end of the text counts as such only where a number is
asked for. -/
def missingDigits {α : Type} (strict : Bool) : Reader α := do
  fail (if strict && (← left).isEmpty then .eof else .syntaxFault)

/-- The whole part of a number. -/
def wholePart (strict : Bool) : Reader (List Char) := do
  let ds ← digits
  match ds with
  | [] => missingDigits strict
  | '0' :: _ :: _ => fail .syntaxFault
  | _ => pure ds

/-- The fraction of a number, where there is one. -/
def fraction (strict : Bool) : Reader (List Char) := do
  match ← left with
  | '.' :: rest =>
    set rest
    let ds ← digits
    if ds.isEmpty then missingDigits strict else pure ds
  | _ => pure []

/-- The exponent of a number, where there is one: its sign and digits. -/
def exponent (strict : Bool) : Reader (Bool × List Char) := do
  match ← left with
  | e :: rest =>
    if e = 'e' ∨ e = 'E' then
      let (negative, rest) : Bool × List Char :=
        match rest with
        | '+' :: rest => (false, rest)
        | '-' :: rest => (true, rest)
        | _ => (false, rest)
      set rest
      let ds ← digits
      if ds.isEmpty then missingDigits strict else pure (negative, ds)
    else pure (false, [])
  | [] => pure (false, [])

/-- Skips a number after its sign. -/
def skipNumber (strict : Bool) : Reader Unit := do
  let whole ← wholePart strict
  let fraction ← fraction strict
  let (negative, exponent) ← exponent strict
  if strict && !Text.fitsFloat whole fraction negative exponent then fail .syntaxFault else pure ()

/-! ### Strings -/

/-- The four hexadecimal digits of an escape: they are missing only where fewer than four bytes
are left. -/
def hexEscape : Reader Nat := do
  let text ← left
  if (String.ofList (text.take 4)).utf8ByteSize < 4 then fail .eof
  else
    let ds := text.take 4
    if ds.length = 4 && ds.all Text.isHexDigit then
      set (text.drop 4)
      pure (Text.hexValue ds)
    else fail .syntaxFault

/-- Takes the character `c`, where the text is not at its end. -/
def need (c : Char) : Reader Unit := do
  match ← left with
  | [] => fail .eof
  | d :: rest => if c = d then set rest else fail .syntaxFault

/-- The character that an escape by code units denotes. -/
def unicodeEscape : Reader Char := do
  let high ← hexEscape
  if 0xdc00 ≤ high ∧ high ≤ 0xdfff then fail .syntaxFault
  else if high < 0xd800 ∨ 0xdbff < high then pure (Char.ofNat high)
  else
    need '\\'
    need 'u'
    let low ← hexEscape
    if low < 0xdc00 ∨ 0xdfff < low then fail .syntaxFault
    else pure (Char.ofNat ((high - 0xd800) * 1024 + (low - 0xdc00) + 0x10000))

/-- The character that a letter after a backslash stands for. -/
def simpleEscape (c : Char) : Option Char :=
  if c = '"' ∨ c = '\\' ∨ c = '/' then some c
  else if c = 'b' then some (Char.ofNat 8)
  else if c = 'f' then some (Char.ofNat 12)
  else if c = 'n' then some '\n'
  else if c = 'r' then some '\r'
  else if c = 't' then some '\t'
  else none

/-- The rest of a string after its opening quote; `strict` asks for whole characters. -/
def stringBody (strict : Bool) : Nat → (done : List Char) → Reader String
  | 0, _ => fail .eof
  | fuel + 1, done => do
    match ← left with
    | [] => fail .eof
    | c :: rest =>
      set rest
      if c = '"' then pure (String.ofList done.reverse)
      else if c = '\\' then
        match rest with
        | [] => fail .eof
        | e :: rest =>
          set rest
          if e = 'u' then
            let c ← if strict then unicodeEscape else do
              let _ ← hexEscape
              pure e
            stringBody strict fuel (c :: done)
          else match simpleEscape e with
            | some c => stringBody strict fuel (c :: done)
            | none => fail .syntaxFault
      else if c.toNat < 0x20 then fail .syntaxFault
      else stringBody strict fuel (c :: done)

/-- The rest of a string after its opening quote. -/
def stringRest (strict : Bool) : Reader String := do
  stringBody strict ((← left).length + 1) []

/-! ### Values that are not asked for -/

/-- The fault of a value that is there but not of the shape that is asked for. -/
def otherShape {α : Type} : Reader α := do
  match ← peek with
  | none => fail .eof
  | some c =>
    if c = 'n' then word "null".toList
    else if c = 't' then word "true".toList
    else if c = 'f' then word "false".toList
    else if c = '-' then
      skip
      skipNumber true
    else if Text.isAsciiDigit c then skipNumber true
    else if c = '"' then
      skip
      let _ ← stringRest true
    else if c = '[' ∨ c = '\x7b' then pure ()
    else fail .syntaxFault
    fail .data

/-- Skips a scalar; a bracket or brace is left, and is returned. -/
def skipScalar : Reader (Option Char) := do
  match ← peek with
  | none => fail .eof
  | some c =>
    if c = 'n' then word "null".toList; pure none
    else if c = 't' then word "true".toList; pure none
    else if c = 'f' then word "false".toList; pure none
    else if c = '-' then skip; skipNumber false; pure none
    else if Text.isAsciiDigit c then skipNumber false; pure none
    else if c = '"' then
      skip
      let _ ← stringRest false
      pure none
    else if c = '[' ∨ c = '\x7b' then pure (some c)
    else fail .syntaxFault

/-- Skips the name of an entry and its colon. -/
def skipName : Reader Unit := do
  match ← peek with
  | none => fail .eof
  | some c => if c = '"' then skip else fail .syntaxFault
  let _ ← stringRest false
  match ← peek with
  | none => fail .eof
  | some c => if c = ':' then skip else fail .syntaxFault

/-- Closes brackets, innermost first, up to a comma or, where `first` says that the innermost has
just been opened, its first element.  What is still open is returned. -/
def closeBrackets : Nat → (first : Bool) → List Char → Reader (List Char)
  | 0, _, _ => fail .eof
  | _ + 1, _, [] => pure []
  | fuel + 1, first, b :: opened => do
    match ← peek with
    | none => fail .eof
    | some c =>
      if c = ',' && !first then
        skip
        pure (b :: opened)
      else if (c = ']' && b = '[') || (c = '\x7d' && b = '\x7b') then
        skip
        closeBrackets fuel false opened
      else if first then pure (b :: opened)
      else fail .syntaxFault

/-- Skips a value inside the brackets `opened`, innermost first, and all that follows up to the
end of the outermost. -/
def skipNested : Nat → (opened : List Char) → Reader Unit
  | 0, _ => fail .eof
  | fuel + 1, opened => do
    let (first, opened) ← do
      match ← skipScalar with
      | none => pure (false, opened)
      | some b =>
        skip
        pure (true, b :: opened)
    match ← closeBrackets ((← left).length + opened.length + 1) first opened with
    | [] => pure ()
    | b :: opened =>
      if b = '\x7b' then skipName
      skipNested fuel (b :: opened)

/-- Skips a value. -/
def skipValue : Reader Unit := do
  skipNested ((← left).length + 1) []

/-! ### Shapes -/

/-- A string. -/
def string : Reader String := do
  if (← peek) = some '"' then
    skip
    stringRest true
  else otherShape

/-- A truth value. -/
def bool : Reader Bool := do
  match ← peek with
  | some 't' => word "true".toList; pure true
  | some 'f' => word "false".toList; pure false
  | _ => otherShape

/-- Goes to the next element of an array, and tells whether there is one. -/
def nextElement (first : Bool) : Reader Bool := do
  match ← peek with
  | none => fail .eof
  | some c =>
    if c = ']' then pure false
    else if first then pure true
    else if c = ',' then
      skip
      match ← peek with
      | none => fail .eof
      | some c => if c = ']' then fail .syntaxFault else pure true
    else fail .syntaxFault

/-- The elements of an array after its bracket, at most `fuel` of them. -/
def elements {α : Type} (p : Reader α) : Nat → (done : List α) → Reader (List α)
  | 0, _ => fail .eof
  | fuel + 1, done => do
    if ← nextElement done.isEmpty then elements p fuel ((← p) :: done)
    else
      skip
      pure done.reverse

/-- An array. -/
def array {α : Type} (p : Reader α) : Reader (List α) := do
  if (← peek) = some '[' then
    skip
    elements p ((← left).length + 1) []
  else otherShape

/-- Goes to the next entry of an object, and takes its name if there is one. -/
def nextName (first : Bool) : Reader (Option String) := do
  let name : Reader (Option String) := do
    skip
    pure (some (← stringRest true))
  match ← peek with
  | none => fail .eof
  | some c =>
    if c = '\x7d' then pure none
    else if first then if c = '"' then name else fail .syntaxFault
    else if c = ',' then
      skip
      match ← peek with
      | none => fail .eof
      | some c => if c = '"' then name else fail .syntaxFault
    else fail .syntaxFault

/-- Takes the colon after a name. -/
def colon : Reader Unit := do
  match ← peek with
  | none => fail .eof
  | some c => if c = ':' then skip else fail .syntaxFault

/-- A field of a record: its name, and a reader of its value into the record, which fails where
the record has the field already. -/
structure Field (σ : Type) where
  name : String
  isSet : σ → Bool
  read : σ → Reader σ

/-- The entries of an object after its brace, at most `fuel` of them. -/
def entries {σ : Type} (fields : List (Field σ)) : Nat → (first : Bool) → σ → Reader σ
  | 0, _, _ => fail .eof
  | fuel + 1, first, s => do
    match ← nextName first with
    | none => pure s
    | some name =>
      match fields.find? (·.name == name) with
      | some field =>
        if field.isSet s then fail .data
        else
          colon
          entries fields fuel false (← field.read s)
      | none =>
        colon
        skipValue
        entries fields fuel false s

/-- The elements of an array as the fields of a record in order; later ones may be left out. -/
def positional {σ : Type} : List (Field σ) → (first : Bool) → σ → Reader σ
  | [], _, s => pure s
  | field :: fields, first, s => do
    if ← nextElement first then positional fields false (← field.read s) else pure s

/-- Takes the end of an array or object. -/
def close (bracket : Char) : Reader Unit := do
  match ← peek with
  | none => fail .eof
  | some c => if c = bracket then skip else fail .syntaxFault

/-- A record: an object, or the array of its fields.  `finish` asks for the fields that may not be
left out, before the end of the object or array is looked for. -/
def record {σ α : Type} (fields : List (Field σ)) (start : σ) (finish : σ → Option α) :
    Reader α := do
  let finished (s : σ) : Reader α :=
    match finish s with
    | some a => pure a
    | none => fail .data
  match ← peek with
  | some '[' =>
    skip
    let a ← finished (← positional fields true start)
    close ']'
    pure a
  | some '\x7b' =>
    skip
    let a ← finished (← entries fields ((← left).length + 1) true start)
    close '\x7d'
    pure a
  | _ => otherShape

/-- Reads a whole text. -/
def whole {α : Type} (p : Reader α) (text : String) : Except JsonFault α := do
  let (a, rest) ← p.run text.toList
  match rest.dropWhile isBlank with
  | [] => pure a
  | _ => throw .syntaxFault

end Reader

end Scaffold.Json
