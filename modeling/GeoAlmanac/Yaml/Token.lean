import GeoAlmanac.Yaml.Scalar
import GeoAlmanac.Yaml.Tag

/-! The tokens of a YAML stream. Indentation appears as tokens that begin and end collections, and a
key that nothing announces is found by the colon after it. -/

namespace GeoAlmanac.Yaml

structure Scalar where
  text : List Char
  style : Style

inductive Token where
  | directive (d : Directive)
  | documentStart
  | documentEnd
  | blockSequenceStart
  | blockMappingStart
  | blockEnd
  | flowSequenceStart
  | flowSequenceEnd
  | flowMappingStart
  | flowMappingEnd
  | blockEntry
  | flowEntry
  | key
  | value
  | alias (name : List Char)
  | anchor (name : List Char)
  | tag (t : TagText)
  | scalar (s : Scalar)

/-- Something that is a key if a colon follows it: the count of the tokens before it, where it
begins, and whether it has to be one. -/
structure KeyCandidate where
  position : Nat
  line : Nat
  column : Nat
  left : Nat
  isRequired : Bool

/-- Whether a candidate is no key any more: a key stands on one line and is not longer than 1024
characters. -/
def KeyCandidate.isStale (k : KeyCandidate) (c : Cursor) : Bool :=
  k.line < c.line || c.left + 1024 < k.left

/-- How far a stream is read: the place, the columns of the open block collections and the
candidates for keys of the open flow collections, innermost first, the candidate outside or within
the innermost of them, whether a key may begin here, and the tokens so far, last first. -/
structure Scan where
  cursor : Cursor
  columns : List Nat
  outer : List (Option KeyCandidate)
  candidate : Option KeyCandidate
  allowsKey : Bool
  tokens : List Token
  count : Nat

namespace Scan

def start (text : List Char) : Scan :=
  ⟨.start text, [], [], none, true, [], 0⟩

def inFlow (s : Scan) : Bool :=
  !s.outer.isEmpty

def emit (s : Scan) (t : Token) : Scan :=
  { s with tokens := t :: s.tokens, count := s.count + 1 }

/-- Inserts tokens before the one at a position; they are given last first. -/
def insert (s : Scan) (position : Nat) (ts : List Token) : Scan :=
  let (later, earlier) := s.tokens.splitAt (s.count - position)
  { s with tokens := later ++ ts ++ earlier, count := s.count + ts.length }

/-- Passes characters that make up a token. -/
def take (s : Scan) (n : Nat) (t : Token) : Scan :=
  { s with cursor := s.cursor.advance n }.emit t

/-- Gives up the candidate for a key. One that has to be a key is an error. -/
def dropCandidate (s : Scan) : Option Scan :=
  match s.candidate with
  | some k => if k.isRequired then none else some { s with candidate := none }
  | none => some s

/-- Gives up a candidate that is stale. -/
def refresh (c : Cursor) : Option KeyCandidate → Option (Option KeyCandidate)
  | none => some none
  | some k => if !k.isStale c then some (some k) else if k.isRequired then none else some none

/-- Gives up the candidates that are stale. -/
def dropStale (s : Scan) : Option Scan := do
  some { s with
    candidate := ← refresh s.cursor s.candidate
    outer := ← s.outer.mapM (refresh s.cursor) }

/-- Takes the next token for a candidate where a key may begin. In a block it has to be a key at the
column of the collection. -/
def noteCandidate (s : Scan) : Option Scan :=
  if s.allowsKey then do
    let s ← s.dropCandidate
    let c := s.cursor
    let isRequired := !s.inFlow && s.columns.head? == some c.column
    some { s with candidate := some ⟨s.count, c.line, c.column, c.left, isRequired⟩ }
  else some s

/-- Ends the block collections right of a column; without one, all of them. -/
def endBlocks (s : Scan) (column : Option Nat) : Scan :=
  if s.inFlow then s
  else
    let (ended, columns) := match column with
      | some n => s.columns.span fun m => n < m
      | none => (s.columns, [])
    ended.foldl (fun s _ => s.emit .blockEnd) { s with columns := columns }

/-- Whether a block collection begins at a column: if it lies right of the innermost one. -/
def beginsBlock (s : Scan) (column : Nat) : Bool :=
  !s.inFlow && match s.columns with
    | [] => true
    | n :: _ => n < column

/-- Begins a block collection at this column unless one stands there. -/
def beginBlock (s : Scan) (t : Token) : Scan :=
  let column := s.cursor.column
  if s.beginsBlock column then { s with columns := column :: s.columns }.emit t else s

/-- The place of the next token, at most `fuel` lines further. Blanks, comments and line breaks are
passed, but no tab where a key may begin in a block. A line break lets a key begin in a block. -/
def skipGapsWithin : Nat → Scan → Scan
  | 0, s => s
  | fuel + 1, s =>
    let c := s.cursor
    let c := if c.isStart && c.rest.head? == some '\ufeff' then c.advance 1 else c
    let c := c.advanceWhile fun x => x == ' ' || (x == '\t' && (s.inFlow || !s.allowsKey))
    let c := match c.rest with
      | '#' :: _ => c.advanceWhile fun x => !isBreak x
      | _ => c
    match c.lineBreak? with
    | some (_, next) =>
      skipGapsWithin fuel { s with cursor := next, allowsKey := s.allowsKey || !s.inFlow }
    | none => { s with cursor := c }

def skipGaps (s : Scan) : Scan :=
  skipGapsWithin (s.cursor.left + 1) s

/-- What a document marker or a directive begins with: all blocks end and no key may begin. -/
def leaveDocument (s : Scan) : Option Scan := do
  some { ← (s.endBlocks none).dropCandidate with allowsKey := false }

/-- A marker that begins or ends a document. -/
def marker (s : Scan) (t : Token) : Option Scan := do
  some ((← s.leaveDocument).take 3 t)

def directive (s : Scan) : Option Scan := do
  let s ← s.leaveDocument
  let (d, c) ← directive? s.cursor
  some ({ s with cursor := c }.emit (.directive d))

def openFlow (s : Scan) (t : Token) : Option Scan := do
  let s ← s.noteCandidate
  some ({ s with outer := s.candidate :: s.outer, candidate := none, allowsKey := true }.take 1 t)

/-- A closing bracket. The candidate is then the one outside the brackets. -/
def closeFlow (s : Scan) (t : Token) : Option Scan := do
  let s ← s.dropCandidate
  let s := match s.outer with
    | k :: outer => { s with candidate := k, outer := outer }
    | [] => s
  some ({ s with allowsKey := false }.take 1 t)

def flowEntry (s : Scan) : Option Scan := do
  some ({ ← s.dropCandidate with allowsKey := true }.take 1 .flowEntry)

def blockEntry (s : Scan) : Option Scan :=
  if !s.inFlow && !s.allowsKey then none
  else do
    let s ← (s.beginBlock .blockSequenceStart).dropCandidate
    some ({ s with allowsKey := true }.take 1 .blockEntry)

def explicitKey (s : Scan) : Option Scan :=
  if !s.inFlow && !s.allowsKey then none
  else do
    let s ← (s.beginBlock .blockMappingStart).dropCandidate
    some ({ s with allowsKey := !s.inFlow }.take 1 .key)

/-- A colon before a value. It makes the candidate a key, which begins a mapping at its column. -/
def mappingValue (s : Scan) : Option Scan :=
  match s.candidate with
  | some k =>
    let s := { s with candidate := none, allowsKey := false }
    let s := if s.beginsBlock k.column
      then { s with columns := k.column :: s.columns }.insert k.position
        [.key, .blockMappingStart]
      else s.insert k.position [.key]
    some (s.take 1 .value)
  | none =>
    if !s.inFlow && !s.allowsKey then none
    else
      let s := s.beginBlock .blockMappingStart
      some ({ s with allowsKey := !s.inFlow }.take 1 .value)

/-- An anchor or an alias: an indicator and a name, which some characters may follow. -/
def name (s : Scan) (token : List Char → Token) : Option Scan := do
  let s ← s.noteCandidate
  let name := (s.cursor.rest.drop 1).takeWhile isWordChar
  let c := s.cursor.advance (1 + name.length)
  let isEnded := match c.rest with
    | [] => true
    | d :: _ => isSpacing d || "?:,]\x7d%@\x60".toList.contains d
  if name.isEmpty || !isEnded then none
  else some ({ s with cursor := c, allowsKey := false }.emit (token name))

def tag (s : Scan) : Option Scan := do
  let s ← s.noteCandidate
  let (t, c) ← tagText? s.inFlow s.cursor
  some ({ s with cursor := c, allowsKey := false }.emit (.tag t))

def quotedScalar (s : Scan) (mark : Char) : Option Scan := do
  let s ← s.noteCandidate
  let (text, c) ← quoted mark s.cursor
  some ({ s with cursor := c, allowsKey := false }.emit (.scalar ⟨text, .quoted⟩))

/-- A plain scalar. If it ends beyond its line, a key may begin after it. -/
def plainScalar (s : Scan) : Option Scan := do
  let s ← s.noteCandidate
  let indent := match s.columns with
    | [] => 0
    | n :: _ => n + 1
  let (text, isBroken, c) ← plain s.inFlow indent s.cursor
  some ({ s with cursor := c, allowsKey := isBroken }.emit (.scalar ⟨text, .plain⟩))

def blockScalar (s : Scan) (isLiteral : Bool) : Option Scan := do
  let s ← s.dropCandidate
  let (text, c) ← block isLiteral s.columns.head? s.cursor
  let style := if isLiteral then Style.literal else .folded
  some ({ s with cursor := c, allowsKey := true }.emit (.scalar ⟨text, style⟩))

def isIndicator (c : Char) : Bool :=
  "-?:,[]\x7b\x7d#&*!|>'\"%@\x60".toList.contains c

/-- The token at the place, which the character `c` begins and `rest` follows. -/
def token (s : Scan) (c : Char) (rest : List Char) : Option Scan :=
  if s.cursor.column == 0 && c == '%' then s.directive
  else if s.cursor.isMarker '-' then s.marker .documentStart
  else if s.cursor.isMarker '.' then s.marker .documentEnd
  else if c == '[' then s.openFlow .flowSequenceStart
  else if c == '\x7b' then s.openFlow .flowMappingStart
  else if c == ']' then s.closeFlow .flowSequenceEnd
  else if c == '\x7d' then s.closeFlow .flowMappingEnd
  else if c == ',' then s.flowEntry
  else if c == '-' && isSpaced rest then s.blockEntry
  else if c == '?' && (s.inFlow || isSpaced rest) then s.explicitKey
  else if c == ':' && (s.inFlow || isSpaced rest) then s.mappingValue
  else if c == '*' then s.name .alias
  else if c == '&' then s.name .anchor
  else if c == '!' then s.tag
  else if c == '|' && !s.inFlow then s.blockScalar true
  else if c == '>' && !s.inFlow then s.blockScalar false
  else if c == '\'' || c == '"' then s.quotedScalar c
  else if (!isSpacing c && !isIndicator c) || c == '-' || c == '?' || c == ':' then s.plainScalar
  else none

/-- The scan to the end of the stream, of at most `fuel` tokens. -/
def finish : Nat → Scan → Option Scan
  | 0, _ => none
  | fuel + 1, s => do
    let s ← s.skipGaps.dropStale
    let s := s.endBlocks (some s.cursor.column)
    match s.cursor.rest with
    | [] => (s.endBlocks none).dropCandidate
    | c :: rest => finish fuel (← s.token c rest)

end Scan

/-- The tokens of a stream, if it has any reading at all. Every token takes a character at least. -/
def tokens? (text : List Char) : Option (List Token) :=
  if text.all isAllowed then
    (Scan.finish (text.length + 1) (.start text)).map fun s => s.tokens.reverse
  else none

end GeoAlmanac.Yaml
