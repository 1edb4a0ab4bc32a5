import GeoAlmanac.Text.Hex
import GeoAlmanac.Yaml.Cursor

/-! The scalars of YAML: plain, quoted and in blocks. Each reader answers the text of a scalar and
the place after it. -/

namespace GeoAlmanac.Yaml

inductive Style where
  | plain
  | quoted
  | literal
  | folded
  deriving DecidableEq

def escaped? : Char → Option Char
  | '0' => some '\x00'
  | 'a' => some '\x07'
  | 'b' => some '\x08'
  | 't' | '\t' => some '\t'
  | 'n' => some '\n'
  | 'v' => some '\x0b'
  | 'f' => some '\x0c'
  | 'r' => some '\r'
  | 'e' => some '\x1b'
  | ' ' => some ' '
  | '"' => some '"'
  | '/' => some '/'
  | '\\' => some '\\'
  | 'N' => some '\x85'
  | '_' => some '\xa0'
  | 'L' => some '\u2028'
  | 'P' => some '\u2029'
  | _ => none

/-- Puts a character, written with `width` characters, before a word and its width. -/
def joinChar (c : Char) (width : Nat) (word : List Char × Nat) : List Char × Nat :=
  (c :: word.1, word.2 + width)

/-- A word between apostrophes and its width. Two apostrophes stand for one. -/
def singleQuotedWord : List Char → List Char × Nat
  | '\'' :: '\'' :: rest => joinChar '\'' 2 (singleQuotedWord rest)
  | c :: rest =>
    if c == '\'' || isSpacing c then ([], 0) else joinChar c 1 (singleQuotedWord rest)
  | [] => ([], 0)

/-- A word between quotation marks and its width. It ends before a backslash at a line break. -/
def doubleQuotedWord : List Char → Option (List Char × Nat)
  | '\\' :: 'x' :: a :: b :: rest => do
    some (joinChar (← Text.charOfHex? [a, b]) 4 (← doubleQuotedWord rest))
  | '\\' :: 'u' :: a :: b :: c :: d :: rest => do
    some (joinChar (← Text.charOfHex? [a, b, c, d]) 6 (← doubleQuotedWord rest))
  | '\\' :: 'U' :: a :: b :: c :: d :: e :: f :: g :: h :: rest => do
    some (joinChar (← Text.charOfHex? [a, b, c, d, e, f, g, h]) 10
      (← doubleQuotedWord rest))
  | '\\' :: c :: rest =>
    if isBreak c then some ([], 0)
    else do some (joinChar (← escaped? c) 2 (← doubleQuotedWord rest))
  | c :: rest =>
    if c == '"' || isSpacing c then some ([], 0)
    else if c == '\\' then none
    else (doubleQuotedWord rest).map (joinChar c 1)
  | [] => some ([], 0)

/-- A quoted scalar after its opening mark, of at most `fuel` words. Line breaks between words are
folded; one after a backslash joins its two lines. -/
def quotedWithin (mark : Char) : Nat → Cursor → Option (List Char × Cursor)
  | 0, _ => none
  | fuel + 1, c =>
    if c.atMarker then none
    else do
      let (word, width) ← if mark == '"' then doubleQuotedWord c.rest
        else some (singleQuotedWord c.rest)
      let c := c.advance width
      match c.rest with
      | [] => none
      | next :: _ =>
        if next == mark then some (word, c.advance 1)
        else if next == '\\' then do
          let (_, c) ← (c.advance 1).lineBreak?
          let (gap, c) ← c.gap? 0 true
          let (more, c) ← quotedWithin mark fuel c
          some (word ++ gap.breaks ++ more, c)
        else do
          let (gap, c) ← c.gap? 0 false
          let (more, c) ← quotedWithin mark fuel c
          some (word ++ gap.text ++ more, c)

def quoted (mark : Char) (c : Cursor) : Option (List Char × Cursor) :=
  quotedWithin mark c.left (c.advance 1)

/-- The length of a plain word. A colon before white space ends it, and within brackets any bracket
or comma; there a colon may not stand directly before one. -/
def plainWidth (inFlow : Bool) : List Char → Option Nat
  | [] => some 0
  | c :: rest =>
    let beforeMark := match rest with
      | d :: _ => isFlowMark d || d == '?'
      | [] => false
    if isSpacing c then some 0
    else if inFlow && c == ':' && beforeMark then none
    else if (c == ':' && isSpaced rest) || (inFlow && isFlowMark c) then some 0
    else (plainWidth inFlow rest).map (· + 1)

/-- A plain scalar from a word on that comes after a gap, of at most `fuel` words: its text, the
place after the white space that follows it, and whether that goes beyond the line. Lines that
continue it reach the column `indent` outside brackets. -/
def plainWithin (inFlow : Bool) (indent : Nat) : Nat → Gap → Cursor →
    Option (List Char × Bool × Cursor)
  | 0, _, _ => none
  | fuel + 1, gap, c => do
    let isBroken := !gap.breaks.isEmpty
    let ends := (isBroken && !inFlow && c.column < indent) || c.atMarker
      || c.rest.head? == some '#'
    if ends then some ([], isBroken, c)
    else do
      let width ← plainWidth inFlow c.rest
      if width = 0 then some ([], isBroken, c)
      else do
        let text := gap.text ++ c.rest.take width
        let c := c.advance width
        let (gap, next) ← c.gap? indent false
        let (more, isBroken, c) ← plainWithin inFlow indent fuel gap next
        some (text ++ more, isBroken, c)

def plain (inFlow : Bool) (indent : Nat) (c : Cursor) : Option (List Char × Bool × Cursor) :=
  plainWithin inFlow indent (c.left + 1) ⟨[], []⟩ c

/-- What becomes of the line breaks that end a block: none is kept, the first, or all. -/
inductive Chomping where
  | strip
  | clip
  | keep

/-- The indicators after the mark of a block: the chomping and the depth of indentation, in either
order. -/
def blockHeader (c : Cursor) : Option (Chomping × Option Nat × Cursor) :=
  let chomping (c : Cursor) : Option Chomping × Cursor := match c.rest with
    | '+' :: _ => (some .keep, c.advance 1)
    | '-' :: _ => (some .strip, c.advance 1)
    | _ => (none, c)
  let depth (c : Cursor) : Option (Option Nat × Cursor) := match c.rest with
    | d :: _ =>
      if d == '0' then none
      else if d.isDigit then some (some (d.toNat - '0'.toNat), c.advance 1)
      else some (none, c)
    | [] => some (none, c)
  match chomping c with
  | (some chomp, c) => do
    let (n, c) ← depth c
    some (chomp, n, c)
  | (none, c) => do
    match ← depth c with
    | (some n, c) =>
      let (chomp, c) := chomping c
      some (chomp.getD .clip, some n, c)
    | (none, c) => some (.clip, none, c)

/-- The empty lines of a block and the indentation of the line after them, at most `fuel` lines:
the breaks, the deepest column seen and the place. Where `indent` is given spaces count up to it,
and a tab may not stand among them. -/
def emptyLinesWithin (indent : Option Nat) : Nat → Cursor → Option (List Char × Nat × Cursor)
  | 0, _ => none
  | fuel + 1, c => do
    let spaces := (c.rest.takeWhile (· == ' ')).length
    let c := c.advance (match indent with
      | some n => min spaces (n - c.column)
      | none => spaces)
    let isShort := match indent with
      | some n => decide (c.column < n)
      | none => true
    if isShort && c.rest.head? == some '\t' then none
    else match c.lineBreak? with
      | none => some ([], c.column, c)
      | some (b, next) => do
        let (breaks, deepest, last) ← emptyLinesWithin indent fuel next
        some (b :: breaks, max c.column deepest, last)

/-- The empty lines of a block and the indentation of the line after them. -/
def emptyLines (indent : Option Nat) (c : Cursor) : Option (List Char × Nat × Cursor) :=
  emptyLinesWithin indent (c.left + 1) c

/-- What a block has come to before one of its lines: whether the line before begins with a blank,
the break that ends it, and the breaks of the empty lines since. -/
structure BlockGap where
  afterBlank : Bool
  ending : List Char
  empties : List Char

/-- What stands between two lines of a block. In a folded block a single line feed between lines
that begin with no blank is a space. -/
def BlockGap.text (isLiteral beforeBlank : Bool) (g : BlockGap) : List Char :=
  if !isLiteral && g.ending == ['\n'] && !g.afterBlank && !beforeBlank then
    if g.empties.isEmpty then [' '] else g.empties
  else g.ending ++ g.empties

/-- The lines of a block, at most `fuel` of them, and the gap after the last. -/
def blockLines (isLiteral : Bool) (indent : Nat) : Nat → BlockGap → Cursor →
    Option (List Char × BlockGap × Cursor)
  | 0, _, _ => none
  | fuel + 1, gap, c =>
    match c.rest with
    | [] => some ([], gap, c)
    | first :: _ =>
      if c.column ≠ indent then some ([], gap, c)
      else do
        let text := c.rest.takeWhile fun x => !isBreak x
        let c := c.advance text.length
        let (ending, c) := match c.lineBreak? with
          | some (b, c) => ([b], c)
          | none => ([], c)
        let (empties, _, c) ← emptyLines (some indent) c
        let (more, last, c) ← blockLines isLiteral indent fuel ⟨isBlank first, ending, empties⟩ c
        some (gap.text isLiteral (isBlank first) ++ text ++ more, last, c)

/-- A block scalar from its mark on, within collections of which the innermost stands at the column
`parent`. Its lines stand deeper. -/
def block (isLiteral : Bool) (parent : Option Nat) (c : Cursor) :
    Option (List Char × Cursor) := do
  let (chomping, depth, c) ← blockHeader (c.advance 1)
  let c ← c.endOfLine?
  let given := depth.map (· + parent.getD 0)
  let (empties, deepest, c) ← emptyLines given c
  let least := match parent with
    | some n => n + 1
    | none => 1
  let indent := given.getD (max deepest least)
  let (text, gap, c) ← blockLines isLiteral indent (c.left + 1) ⟨false, [], empties⟩ c
  let tail := match chomping with
    | .strip => []
    | .clip => gap.ending
    | .keep => gap.ending ++ gap.empties
  some (text ++ tail, c)

end GeoAlmanac.Yaml
