/-!
# Tokens

A source text is a list of token trees: words, lifetimes, single punctuation marks, literals and
delimited groups.  A punctuation mark knows whether another mark follows it immediately (it is
*joint*), which is what tells `a < -b` from an arrow and keeps the marks of one operator together
when the tokens are written out again.

`Token.listText` is the canonical text of a token list: one blank between neighbours, none after
a joint mark, and none inside parentheses and brackets.
-/

namespace Scaffold.Syntax

/-- The brackets around a group. -/
inductive Delimiter where
  | paren
  | bracket
  | brace
  deriving DecidableEq, Inhabited

/-- A token tree. -/
inductive Token where
  /-- An identifier or a keyword; `raw` ones are written with `r#` and are never keywords. -/
  | word (raw : Bool) (name : String)
  /-- A lifetime or a label, without its apostrophe. -/
  | lifetime (raw : Bool) (name : String)
  /-- One punctuation mark, and whether another one follows it immediately. -/
  | punct (mark : Char) (joint : Bool)
  /-- A literal, spelled as in the source. -/
  | literal (text : String)
  /-- A delimited group. -/
  | group (delim : Delimiter) (content : List Token)
  deriving Inhabited

namespace Delimiter

/-- The text that opens a group; a brace keeps a blank inside. -/
def opening : Delimiter → List Char
  | .paren => ['(']
  | .bracket => ['[']
  | .brace => ['\x7b', ' ']

/-- The text that closes a group, without the blank inside a brace. -/
def closing : Delimiter → Char
  | .paren => ')'
  | .bracket => ']'
  | .brace => '\x7d'

/-- The delimiter that `c` opens. -/
def ofOpening? (c : Char) : Option Delimiter :=
  if c = '(' then some .paren else if c = '[' then some .bracket
  else if c = '\x7b' then some .brace else none

/-- The delimiter that `c` closes. -/
def ofClosing? (c : Char) : Option Delimiter :=
  if c = ')' then some .paren else if c = ']' then some .bracket
  else if c = '\x7d' then some .brace else none

end Delimiter

namespace Token

/-- The spelling of a word, `r#` included. -/
def spelling (raw : Bool) (name : String) : String :=
  if raw then "r#" ++ name else name

/-- Whether the next token follows without a blank. -/
def isJoint : Token → Bool
  | .punct _ joint => joint
  | _ => false

/-- Whether the token is the plain word `w`; a raw identifier never is. -/
def isWord (w : String) : Token → Bool
  | .word false name => name == w
  | _ => false

mutual

/-- The characters of one token tree. -/
def chars : Token → List Char
  | .word raw name => (spelling raw name).toList
  | .lifetime raw name => '\'' :: (spelling raw name).toList
  | .punct mark _ => [mark]
  | .literal text => text.toList
  | .group delim content =>
    delim.opening ++ listChars content ++
      (if delim = .brace && !content.isEmpty then [' '] else []) ++ [delim.closing]

/-- The characters of a token list: blanks between neighbours, except after a joint mark. -/
def listChars : List Token → List Char
  | [] => []
  | [t] => t.chars
  | t :: u :: ts => t.chars ++ (if t.isJoint then [] else [' ']) ++ listChars (u :: ts)

end

/-- The canonical text of a token list. -/
def listText (ts : List Token) : String :=
  String.ofList (listChars ts)

mutual

/-- The number of tokens in a tree, each group counted with its content. -/
def size : Token → Nat
  | .group _ content => listSize content + 1
  | _ => 1

/-- The number of tokens in a list of trees. -/
def listSize : List Token → Nat
  | [] => 0
  | t :: ts => t.size + listSize ts

end

/-- The marks of one operator: all but the last are joint. -/
def ofOperator : List Char → List Token
  | [] => []
  | [c] => [.punct c false]
  | c :: cs => .punct c true :: ofOperator cs

end Token

end Scaffold.Syntax
