/-!
# Laying out text

A document is text with breaks, grouped in boxes.  A break is a blank or a new line; a box that
fits on the line keeps all its breaks as blanks, and one that does not either turns all of them
into new lines (a *consistent* box) or those whose following text would not fit (an *inconsistent*
one).  The lines of a broken box are indented further than those around it.

Whether something fits is asked of the text up to the next place where a line may end: a box or a
break is as wide as what follows it up to the next break of its own level or an outer one.  Widths
count the bytes of the text.

`Doc.render` writes a document out.
-/

namespace Scaffold.Layout

/-- The width of a line. -/
def margin : Int := 89

/-- The least room on a line, however deep it is indented. -/
def minRoom : Int := 60

/-- The width of what fits on no line. -/
def unbounded : Nat := 0xffff

/-- A place where a line may end. -/
structure Break where
  /-- How much further the next line is indented. -/
  offset : Int := 0
  /-- The blanks that stand here where the line does not end. -/
  blanks : Nat := 0
  /-- What stands before the end of the line, and only there. -/
  before : String := ""
  /-- What stands at the beginning of the next line, and only there. -/
  after : String := ""
  /-- What stands here where the line does not end. -/
  inline : String := ""
  /-- Whether the break counts only if something follows it in its box. -/
  ifNonempty : Bool := false
  /-- Whether the line never ends here. -/
  never : Bool := false
  deriving DecidableEq, Inhabited, Repr

/-- A document. -/
inductive Doc where
  /-- Text of a given width. -/
  | text (s : String) (width : Nat)
  | brk (b : Break)
  | box (offset : Int) (consistent : Bool) (content : List Doc)
  /-- A consistent box that is too wide for one line, however much room there is.  What closes it is
  written only where one of the lines so far has room for the text before it. -/
  | wide (offset : Int) (content closing : List Doc)
  deriving Inhabited

/-! ### Building documents -/

/-- A text. -/
def word (s : String) : List Doc := [.text s s.utf8ByteSize]

/-- A break with `n` blanks. -/
def blanks (n : Nat) : List Doc := [.brk { blanks := n }]

/-- A break without a blank. -/
def softBreak : List Doc := blanks 0

/-- A break with a blank. -/
def space : List Doc := blanks 1

/-- A break where the line always ends. -/
def hardBreak : List Doc := blanks unbounded

/-- A hard break, unless nothing follows it in its box. -/
def hardBreakIfNonempty : List Doc := [.brk { blanks := unbounded, ifNonempty := true }]

/-- A break with a blank, unless nothing follows it in its box. -/
def spaceIfNonempty : List Doc := [.brk { blanks := 1, ifNonempty := true }]

/-- A place where no line ends, but up to which the text before it is measured. -/
def neverBreak : List Doc := [.brk { never := true }]

/-- The end of an element of a list: a comma and a break, or, after the last element, a break
with a comma that is written only where the line ends. -/
def comma (last : Bool) : List Doc :=
  if last then [.brk { before := "," }] else word "," ++ space

/-- The end of an element in braces, where the last break leaves a blank. -/
def commaOrSpace (last : Bool) : List Doc :=
  if last then [.brk { blanks := 1, before := "," }] else word "," ++ space

/-- Moves the last break by `offset`; a document that ends otherwise stays. -/
def shiftLast (offset : Int) (ds : List Doc) : List Doc :=
  match ds.reverse with
  | .brk b :: rest => (Doc.brk { b with offset := b.offset + offset } :: rest).reverse
  | _ => ds

/-- Splits off the break at the end of a document that counts only if something follows it. -/
def splitOptional (ds : List Doc) : List Doc × List Doc :=
  match ds.reverse with
  | .brk b :: rest => if b.ifNonempty then (rest.reverse, [.brk b]) else (ds, [])
  | _ => (ds, [])

/-- A box.  A break that is all its content vanishes with it, and so does a last break that counts
only if something follows it. -/
def boxed (offset : Int) (consistent : Bool) (content : List Doc) : List Doc :=
  match content with
  | [.brk _] => []
  | _ => [.box offset consistent (splitOptional content).1]

/-- A box in which all breaks are alike. -/
def cbox (offset : Int) (content : List Doc) : List Doc := boxed offset true content

/-- A box that is filled line by line. -/
def ibox (offset : Int) (content : List Doc) : List Doc := boxed offset false content

/-! ### Widths -/

mutual

/-- The width of a document whose lines do not end. -/
def Doc.width : Doc → Nat
  | .text _ width => width
  | .brk b => b.blanks
  | .box _ _ content => listWidth content
  | .wide _ content closing => listWidth content + listWidth closing + unbounded

/-- The width of documents that follow one another. -/
def listWidth : List Doc → Nat
  | [] => 0
  | d :: ds => d.width + listWidth ds

end

/-- A consistent box that also breaks where its content is wider than `most`. -/
def cboxAtMost (most : Nat) (offset : Int) (content : List Doc) : List Doc :=
  if most < listWidth content then
    let (content, closing) := splitOptional content
    [.wide offset content closing]
  else cbox offset content

/-- The width up to the next break of the level of `ds`; `after` is the width of what follows
`ds` up to the next break of an outer level. -/
def widthToBreak (after : Nat) : List Doc → Nat
  | [] => after
  | .brk _ :: _ => 0
  | d :: ds => d.width + widthToBreak after ds

mutual

/-- Whether the last text of a document ends with a point. -/
def Doc.endsWithPoint? : Doc → Option Bool
  | .text s _ => some (s.toList.getLast? = some '.')
  | .brk _ => none
  | .box _ _ content => listEndsWithPoint? content
  | .wide _ content closing => (listEndsWithPoint? closing).or (listEndsWithPoint? content)

/-- Whether the last text of some documents ends with a point; nothing where they have no text. -/
def listEndsWithPoint? : List Doc → Option Bool
  | [] => none
  | d :: ds => (listEndsWithPoint? ds).or d.endsWithPoint?

end

/-! ### Writing out -/

/-- What has been written: the pieces, last one first, the room that is left on the line, and the
blanks that have to be written before the next text. -/
structure Sheet where
  pieces : List String := []
  room : Int := margin
  /-- The most room that would be left if one of the lines so far, this one among them, went on to
  here. -/
  reach : Int := margin
  pending : Nat := 0

namespace Sheet

/-- Writes the blanks that are due. -/
def indent (s : Sheet) : Sheet :=
  if s.pending = 0 then s
  else { s with pieces := "".pushn ' ' s.pending :: s.pieces, pending := 0 }

/-- Writes a text. -/
def text (s : Sheet) (t : String) (width : Nat) : Sheet :=
  let s := s.indent
  { s with pieces := t :: s.pieces, room := s.room - width, reach := s.reach - width }

/-- Goes on after a break where the line does not end. -/
def stay (s : Sheet) (b : Break) : Sheet :=
  let s :=
    { s with
      pending := s.pending + b.blanks, room := s.room - b.blanks, reach := s.reach - b.blanks }
  if b.inline.isEmpty then s
  else { s with pieces := b.inline :: s.pieces, room := s.room - b.inline.utf8ByteSize }

/-- Ends the line and indents the next one. -/
def newLine (s : Sheet) (indent : Int) (b : Break) : Sheet :=
  let s := if b.before.isEmpty then s else
    let s := s.indent
    { s with pieces := b.before :: s.pieces }
  let indent := indent + b.offset
  let room := max (margin - indent) minRoom
  let s : Sheet :=
    { pieces := "\n" :: s.pieces, room := room, reach := max (s.reach - b.blanks) room,
      pending := indent.toNat }
  if b.after.isEmpty then s
  else
    let s := s.indent
    { s with pieces := b.after :: s.pieces, room := s.room - b.after.utf8ByteSize }

end Sheet

/-- How the breaks of a box are treated. -/
inductive Mode where
  /-- The box fits. -/
  | fits
  /-- All lines end. -/
  | consistent
  /-- Lines end where the text up to the next break would not fit. -/
  | inconsistent
  deriving DecidableEq

/-- Writes a break of the given width. -/
def Sheet.brk (s : Sheet) (mode : Mode) (indent : Int) (b : Break) (width : Nat) : Sheet :=
  let stays := b.never ||
    match mode with
    | .fits => true
    | .consistent => false
    | .inconsistent => (width : Int) ≤ s.room
  if stays then s.stay b else s.newLine indent b

mutual

/-- Writes a document that is followed by `after` up to the next break. -/
def Doc.put (mode : Mode) (indent : Int) (after : Nat) (s : Sheet) : Doc → Sheet
  | .text t width => s.text t width
  | .brk b => s.brk mode indent b (b.blanks + after)
  | .box offset consistent content =>
    if s.room < ((listWidth content + after : Nat) : Int) then
      putAll (if consistent then .consistent else .inconsistent) (indent + offset) after s content
    else putAll .fits indent after s content
  | .wide offset content closing =>
    let fits := ((listWidth content : Nat) : Int) ≤ s.reach
    let within := if fits then widthToBreak after closing else after
    let s := putAll .consistent (indent + offset) within s content
    if fits then putAll .consistent (indent + offset) after s closing else s

/-- Writes documents one after another. -/
def putAll (mode : Mode) (indent : Int) (after : Nat) (s : Sheet) : List Doc → Sheet
  | [] => s
  | d :: ds => putAll mode indent after (d.put mode indent (widthToBreak after ds) s) ds

end

/-- **The text of a document.** -/
def render (ds : List Doc) : String :=
  String.join ((putAll .inconsistent 0 0 {} ds).pieces.reverse)

end Scaffold.Layout
