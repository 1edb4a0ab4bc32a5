import GeoAlmanac.Files.Path
import GeoAlmanac.Text.Hex
import GeoAlmanac.Yaml.Cursor

/-! Tags of nodes, the handles that abbreviate them and the directives of a document. -/

namespace GeoAlmanac.Yaml

/-- The bytes of a tag; escapes in a tag need not spell readable text. -/
abbrev Tag := List UInt8

def floatTag : Tag := bytesOf "tag:yaml.org,2002:float"

def nullTag : Tag := bytesOf "tag:yaml.org,2002:null"

/-- A tag as it is written: a handle and what follows it. Without a handle it is written in full. -/
structure TagText where
  handle : List Char
  suffix : Tag

/-- A character of a tag. Within angle brackets commas and square brackets belong to it. -/
def isTagChar (inBrackets : Bool) (c : Char) : Bool :=
  isWordChar c || ";/?:@&=+$.%!~*'()".toList.contains c
    || (inBrackets && (c == ',' || c == '[' || c == ']'))

/-- The byte that two hexadecimal digits after a percent sign spell. -/
def octet? : List Char → Option (UInt8 × List Char)
  | '%' :: a :: b :: rest => do
    some ((16 * (← Text.hexValue? a) + (← Text.hexValue? b)).toUInt8, rest)
  | _ => none

/-- Further bytes of an escaped character. -/
def moreOctets : Nat → List Char → Option (Tag × List Char)
  | 0, cs => some ([], cs)
  | n + 1, cs => do
    let (b, rest) ← octet? cs
    if b &&& 0xC0 = 0x80 then do
      let (more, rest) ← moreOctets n rest
      some (b :: more, rest)
    else none

/-- An escaped character: as many bytes as the first one announces. -/
def escapedChar? (cs : List Char) : Option (Tag × List Char) := do
  let (b, rest) ← octet? cs
  let further : Option Nat :=
    if b &&& 0x80 = 0 then some 0
    else if b &&& 0xE0 = 0xC0 then some 1
    else if b &&& 0xF0 = 0xE0 then some 2
    else if b &&& 0xF8 = 0xF0 then some 3
    else none
  let (more, rest) ← moreOctets (← further) rest
  some (b :: more, rest)

/-- The bytes of a tag's characters, at most `fuel` of them, and how many characters they take. -/
def tagBytes (inBrackets : Bool) : Nat → List Char → Option (Tag × Nat)
  | 0, _ | _, [] => some ([], 0)
  | fuel + 1, c :: cs =>
    if !isTagChar inBrackets c then some ([], 0)
    else if c == '%' then do
      let (b, rest) ← escapedChar? (c :: cs)
      let (more, width) ← tagBytes inBrackets fuel rest
      some (b ++ more, 3 * b.length + width)
    else do
      let (more, width) ← tagBytes inBrackets fuel cs
      some (bytesOf c.toString ++ more, width + 1)

/-- The characters of a tag at a place and how many they are. A zero byte ends the tag. -/
def tagAt (inBrackets : Bool) (c : Cursor) : Option (Tag × Nat) := do
  let (bytes, width) ← tagBytes inBrackets c.left c.rest
  some (bytes.takeWhile (· ≠ 0), width)

/-- A handle at a place: an exclamation mark, word characters, and a second mark if it is there. -/
def handleAt (c : Cursor) : List Char × Cursor :=
  let word := (c.rest.drop 1).takeWhile isWordChar
  let next := c.advance (1 + word.length)
  match next.rest with
  | '!' :: _ => ('!' :: word ++ ['!'], next.advance 1)
  | _ => ('!' :: word, next)

/-- A tag at its exclamation mark. White space follows it, or a comma within brackets. -/
def tagText? (inFlow : Bool) (c : Cursor) : Option (TagText × Cursor) := do
  let (tag, c) ← match c.rest with
    | '!' :: '<' :: _ => do
      let (suffix, width) ← tagAt true (c.advance 2)
      let c := c.advance (2 + width)
      if width = 0 then none
      else match c.rest with
        | '>' :: _ => some (TagText.mk [] suffix, c.advance 1)
        | _ => none
    | _ =>
      let (handle, next) := handleAt c
      if handle.length > 1 ∧ handle.getLast? = some '!' then do
        let (suffix, width) ← tagAt false next
        if width = 0 then none else some (TagText.mk handle suffix, next.advance width)
      else do
        let (rest, width) ← tagAt false next
        let suffix := bytesOf (String.ofList (handle.drop 1)) ++ rest
        some (if suffix.isEmpty then TagText.mk [] (bytesOf "!") else TagText.mk ['!'] suffix,
          next.advance width)
  let isEnded := isSpaced c.rest || (inFlow && c.rest.head? == some ',')
  if isEnded then some (tag, c) else none

/-- A directive of a document: the version of the language, or what a handle abbreviates. -/
inductive Directive where
  | version (major minor : Nat)
  | handle (name : List Char) (meaning : Tag)

/-- A number of at most nine digits. -/
def versionPart (c : Cursor) : Option (Nat × Cursor) :=
  let digits := c.rest.takeWhile Char.isDigit
  if digits.isEmpty || 9 < digits.length then none
  else some (digits.foldl (fun n d => 10 * n + (d.toNat - '0'.toNat)) 0, c.advance digits.length)

/-- A directive at its percent sign, up to and with the end of its line. -/
def directive? (c : Cursor) : Option (Directive × Cursor) := do
  let c := c.advance 1
  let name := c.rest.takeWhile isWordChar
  let c := c.advance name.length
  if !isSpaced c.rest then none
  else do
    let c := c.advanceWhile isBlank
    let (d, c) ← match String.ofList name with
      | "YAML" => do
        let (major, c) ← versionPart c
        match c.rest with
        | '.' :: _ => do
          let (minor, c) ← versionPart (c.advance 1)
          some (Directive.version major minor, c)
        | _ => none
      | "TAG" => do
        if c.rest.head? ≠ some '!' then none
        else do
          let (handle, c) := handleAt c
          let isWhole := handle = ['!'] ∨ (1 < handle.length ∧ handle.getLast? = some '!')
          let blanks := (c.rest.takeWhile isBlank).length
          if ¬ isWhole ∨ blanks = 0 then none
          else do
            let c := c.advance blanks
            let (meaning, width) ← tagAt true c
            let c := c.advance width
            if width = 0 || !isSpaced c.rest then none
            else some (Directive.handle handle meaning, c)
      | _ => none
    some (d, ← c.endOfLine?)

end GeoAlmanac.Yaml
