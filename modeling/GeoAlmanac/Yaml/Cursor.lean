/-! Places in a text and the white space of YAML. -/

namespace GeoAlmanac.Yaml

/-- A character that a stream may hold. -/
def isAllowed (c : Char) : Bool :=
  let n := c.toNat
  n == 0x09 || n == 0x0A || n == 0x0D || (0x20 ≤ n && n ≤ 0x7E) || n == 0x85
    || (0xA0 ≤ n && n ≤ 0xFFFD) || 0x10000 ≤ n

def isBlank (c : Char) : Bool :=
  c == ' ' || c == '\t'

def isBreak (c : Char) : Bool :=
  c == '\n' || c == '\r' || c == '\x85' || c == '\u2028' || c == '\u2029'

def isSpacing (c : Char) : Bool :=
  isBlank c || isBreak c

/-- Whether white space or nothing comes next. -/
def isSpaced : List Char → Bool
  | [] => true
  | c :: _ => isSpacing c

/-- A letter of names, handles and anchors. -/
def isWordChar (c : Char) : Bool :=
  c.isAlphanum || c == '_' || c == '-'

/-- A bracket or a comma, which stand for themselves within brackets. -/
def isFlowMark (c : Char) : Bool :=
  c == ',' || c == '[' || c == ']' || c == '\x7b' || c == '\x7d'

/-- A place in a text: what follows and its length, and the count of the lines before it and of the
characters before it on its line. -/
structure Cursor where
  rest : List Char
  left : Nat
  line : Nat
  column : Nat

namespace Cursor

def start (text : List Char) : Cursor :=
  ⟨text, text.length, 0, 0⟩

/-- Whether nothing is before the place. -/
def isStart (c : Cursor) : Bool :=
  c.line == 0 && c.column == 0

def advance (c : Cursor) (n : Nat) : Cursor :=
  { c with rest := c.rest.drop n, left := c.left - n, column := c.column + n }

def advanceWhile (p : Char → Bool) (c : Cursor) : Cursor :=
  c.advance (c.rest.takeWhile p).length

/-- A line break at this place as it counts in a scalar, and the place after it. All breaks but the
line and the paragraph separator count as line feeds. -/
def lineBreak? (c : Cursor) : Option (Char × Cursor) :=
  match c.rest with
  | '\r' :: '\n' :: rest => some ('\n', ⟨rest, c.left - 2, c.line + 1, 0⟩)
  | b :: rest =>
    if isBreak b then
      some (if b == '\u2028' || b == '\u2029' then b else '\n', ⟨rest, c.left - 1, c.line + 1, 0⟩)
    else none
  | [] => none

def skipComment (c : Cursor) : Cursor :=
  let c := c.advanceWhile isBlank
  match c.rest with
  | '#' :: _ => c.advanceWhile fun x => !isBreak x
  | _ => c

/-- The place after the end of a line, which blanks and a comment may precede. -/
def endOfLine? (c : Cursor) : Option Cursor :=
  let c := c.skipComment
  match c.rest, c.lineBreak? with
  | [], _ => some c
  | _, some (_, next) => some next
  | _, none => none

/-- Whether three characters of a kind begin the line alone. -/
def isMarker (mark : Char) (c : Cursor) : Bool :=
  c.column == 0 && c.rest.take 3 == [mark, mark, mark] && isSpaced (c.rest.drop 3)

/-- Whether a document begins or ends on this line. -/
def atMarker (c : Cursor) : Bool :=
  c.isMarker '-' || c.isMarker '.'

end Cursor

/-- White space between words: the blanks before its first line break, and its line breaks. -/
structure Gap where
  blanks : List Char
  breaks : List Char

/-- What a gap amounts to. One line break is a space, the first of several vanishes. -/
def Gap.text (g : Gap) : List Char :=
  match g.breaks with
  | [] => g.blanks
  | ['\n'] => [' ']
  | '\n' :: more => more
  | breaks => breaks

/-- The gap at a place, at most `fuel` characters of it, and the place after it. After a line break
blanks do not count, and a tab may not stand left of the column `indent`. -/
def gapWithin (indent : Nat) : Nat → Bool → Cursor → Option (Gap × Cursor)
  | 0, _, c => some (⟨[], []⟩, c)
  | fuel + 1, isBroken, c =>
    match c.rest, c.lineBreak? with
    | [], _ => some (⟨[], []⟩, c)
    | _, some (b, next) =>
      (gapWithin indent fuel true next).map fun (g, c) => ({ g with breaks := b :: g.breaks }, c)
    | b :: _, none =>
      if !isBlank b then some (⟨[], []⟩, c)
      else if isBroken && b == '\t' && c.column < indent then none
      else (gapWithin indent fuel isBroken (c.advance 1)).map fun (g, c) =>
        (if isBroken then g else { g with blanks := b :: g.blanks }, c)

/-- The gap at a place. `isBroken` tells that a line break has gone before. -/
def Cursor.gap? (c : Cursor) (indent : Nat) (isBroken : Bool) : Option (Gap × Cursor) :=
  gapWithin indent c.left isBroken c

end GeoAlmanac.Yaml
