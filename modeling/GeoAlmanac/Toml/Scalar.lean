import GeoAlmanac.Decimal.Reader
import GeoAlmanac.Text.Hex

/-! The scalars of TOML 1.0: strings, numbers, truth values, dates and times. A reader takes a
scalar from the head of a text and answers it with the rest. -/

namespace GeoAlmanac.Toml

/-- Takes something from the head of a text: what it is, and the rest. -/
abbrev Reader (β : Type) := List Char → Option (β × List Char)

def after? : List Char → List Char → Option (List Char)
  | [], cs => some cs
  | a :: as, c :: cs => if a = c then after? as cs else none
  | _ :: _, [] => none

/-- A character that may stand in a comment or a string: a tab, or what is no control character. -/
def isTextChar (c : Char) : Bool :=
  c == '\t' || (0x20 ≤ c.toNat && c.toNat != 0x7F)

def escaped? : Char → Option Char
  | 'b' => some '\x08'
  | 't' => some '\t'
  | 'n' => some '\n'
  | 'f' => some '\x0c'
  | 'r' => some '\r'
  | '"' => some '"'
  | '\\' => some '\\'
  | _ => none

/-- Puts a character before what a reader takes. -/
def before (c : Char) (r : Option (List Char × List Char)) : Option (List Char × List Char) :=
  r.map fun (cs, rest) => (c :: cs, rest)

def basicString : Reader (List Char)
  | '"' :: rest => some ([], rest)
  | '\\' :: 'u' :: a :: b :: c :: d :: rest => do
    before (← Text.charOfHex? [a, b, c, d]) (basicString rest)
  | '\\' :: 'U' :: a :: b :: c :: d :: e :: f :: g :: h :: rest => do
    before (← Text.charOfHex? [a, b, c, d, e, f, g, h]) (basicString rest)
  | '\\' :: c :: rest => do before (← escaped? c) (basicString rest)
  | c :: rest => if isTextChar c && c != '\\' then before c (basicString rest) else none
  | [] => none

def literalString : Reader (List Char)
  | '\'' :: rest => some ([], rest)
  | c :: rest => if isTextChar c then before c (literalString rest) else none
  | [] => none

/-- Where the reader of a string of several lines stands: in its text, after a backslash that has
to end its line, or in the blanks skipped after such a line. -/
inductive LineState where
  | text
  | lineEnding
  | skipping
  deriving DecidableEq

/-- A string of several lines, after its three opening quotation marks. Up to two marks may stand
before the three that close it. -/
def multilineString : LineState → Reader (List Char)
  | .lineEnding, ' ' :: rest | .lineEnding, '\t' :: rest => multilineString .lineEnding rest
  | .lineEnding, '\n' :: rest | .lineEnding, '\r' :: '\n' :: rest => multilineString .skipping rest
  | .lineEnding, _ => none
  | .skipping, ' ' :: rest | .skipping, '\t' :: rest | .skipping, '\n' :: rest
  | .skipping, '\r' :: '\n' :: rest => multilineString .skipping rest
  | _, '"' :: '"' :: '"' :: '"' :: '"' :: rest => some (['"', '"'], rest)
  | _, '"' :: '"' :: '"' :: '"' :: rest => some (['"'], rest)
  | _, '"' :: '"' :: '"' :: rest => some ([], rest)
  | _, '\n' :: rest | _, '\r' :: '\n' :: rest => before '\n' (multilineString .text rest)
  | _, '\\' :: 'u' :: a :: b :: c :: d :: rest => do
    before (← Text.charOfHex? [a, b, c, d]) (multilineString .text rest)
  | _, '\\' :: 'U' :: a :: b :: c :: d :: e :: f :: g :: h :: rest => do
    before (← Text.charOfHex? [a, b, c, d, e, f, g, h]) (multilineString .text rest)
  | _, '\\' :: ' ' :: rest | _, '\\' :: '\t' :: rest => multilineString .lineEnding rest
  | _, '\\' :: '\n' :: rest | _, '\\' :: '\r' :: '\n' :: rest => multilineString .skipping rest
  | _, '\\' :: c :: rest => do before (← escaped? c) (multilineString .text rest)
  | _, c :: rest =>
    if isTextChar c && c != '\\' then before c (multilineString .text rest) else none
  | _, [] => none

def multilineLiteral : Reader (List Char)
  | '\'' :: '\'' :: '\'' :: '\'' :: '\'' :: rest => some (['\'', '\''], rest)
  | '\'' :: '\'' :: '\'' :: '\'' :: rest => some (['\''], rest)
  | '\'' :: '\'' :: '\'' :: rest => some ([], rest)
  | '\n' :: rest | '\r' :: '\n' :: rest => before '\n' (multilineLiteral rest)
  | c :: rest => if isTextChar c then before c (multilineLiteral rest) else none
  | [] => none

/-- A line break directly after the opening of a string of several lines does not count. -/
def dropLineBreak : List Char → List Char
  | '\n' :: rest | '\r' :: '\n' :: rest => rest
  | cs => cs

def string : Reader String
  | '"' :: '"' :: '"' :: rest =>
    (multilineString .text (dropLineBreak rest)).map fun (cs, r) => (String.ofList cs, r)
  | '"' :: rest => (basicString rest).map fun (cs, r) => (String.ofList cs, r)
  | '\'' :: '\'' :: '\'' :: rest =>
    (multilineLiteral (dropLineBreak rest)).map fun (cs, r) => (String.ofList cs, r)
  | '\'' :: rest => (literalString rest).map fun (cs, r) => (String.ofList cs, r)
  | _ => none

/-- More digits of a number; an underscore may stand between two of them. -/
def moreDigits (isDigit : Char → Bool) : Reader (List Char)
  | '_' :: c :: rest => if isDigit c then before c (moreDigits isDigit rest) else none
  | ['_'] => none
  | c :: rest =>
    if isDigit c then before c (moreDigits isDigit rest) else some ([], c :: rest)
  | [] => some ([], [])

def digits (isDigit : Char → Bool) : Reader (List Char)
  | c :: rest => if isDigit c then before c (moreDigits isDigit rest) else none
  | [] => none

/-- The digits of a decimal integer; a zero stands alone. -/
def decimalDigits : Reader (List Char)
  | '0' :: rest => some (['0'], rest)
  | cs => digits Char.isDigit cs

inductive Number where
  | integer (n : Int)
  | float (x : Float)

/-- An integer, if 64 bits hold it. -/
def integer? (n : Int) : Option Number :=
  if -0x8000000000000000 ≤ n ∧ n < 0x8000000000000000 then some (.integer n) else none

/-- An unsigned integer to the base 16, 8 or 2, after the letter that tells which. -/
def basedInteger (base : Nat) (cs : List Char) : Option (Number × List Char) := do
  let isDigit (c : Char) : Bool := match Text.hexValue? c with
    | some v => v < base
    | none => false
  let (ds, rest) ← digits isDigit cs
  let n := ds.foldl (fun n c => base * n + (Text.hexValue? c).getD 0) 0
  some (← integer? n, rest)

def exponent : Reader (Option Int)
  | c :: rest =>
    if c = 'e' ∨ c = 'E' then do
      let (negative, rest) := Decimal.spanSign rest
      let (ds, rest) ← digits Char.isDigit rest
      let n : Int := Decimal.natOfDigits ds
      some (some (if negative then -n else n), rest)
    else some (none, c :: rest)
  | [] => some (none, [])

/-- The float of a sign, digits, digits after the point and a power of ten; it may not exceed the
range of doubles. -/
def float? (negative : Bool) (whole fraction : List Char) (e : Int) : Option Number :=
  let magnitude := Decimal.nearest (Decimal.natOfDigits (whole ++ fraction)) (e - fraction.length)
  let x := if negative then -magnitude else magnitude
  if x == 1.0 / 0.0 then none else some (.float x)

def number (cs : List Char) : Option (Number × List Char) :=
  match cs with
  | '0' :: 'x' :: rest => basedInteger 16 rest
  | '0' :: 'o' :: rest => basedInteger 8 rest
  | '0' :: 'b' :: rest => basedInteger 2 rest
  | cs =>
    let (negative, body) := Decimal.spanSign cs
    match after? "inf".toList body, after? "nan".toList body with
    | some rest, _ => some (.float (if negative then -1.0 / 0.0 else 1.0 / 0.0), rest)
    | _, some rest => some (.float (0.0 / 0.0), rest)
    | none, none => do
      let (whole, rest) ← decimalDigits body
      match rest with
      | '.' :: r => do
        let (fraction, r) ← digits Char.isDigit r
        let (e, r) ← exponent r
        some (← float? negative whole fraction (e.getD 0), r)
      | rest => do
        let (e, r) ← exponent rest
        match e with
        | some e => some (← float? negative whole [] e, r)
        | none =>
          let n : Int := Decimal.natOfDigits whole
          some (← integer? (if negative then -n else n), r)

/-- A number of exactly `count` digits, within bounds. -/
def fixedDigits (count low high : Nat) (cs : List Char) : Option (Nat × List Char) :=
  let ds := cs.take count
  let n := Decimal.natOfDigits ds
  if ds.length = count ∧ ds.all Char.isDigit ∧ low ≤ n ∧ n ≤ high then some (n, cs.drop count)
  else none

/-- What follows a time of day. Seconds are required, and a fraction of them may follow. -/
def skipTime (cs : List Char) : Option (List Char) := do
  let (_, cs) ← fixedDigits 2 0 23 cs
  let cs ← after? [':'] cs
  let (_, cs) ← fixedDigits 2 0 59 cs
  let cs ← after? [':'] cs
  let (_, cs) ← fixedDigits 2 0 60 cs
  match cs with
  | '.' :: c :: rest => if c.isDigit then some (rest.dropWhile Char.isDigit) else some cs
  | _ => some cs

/-- What follows an offset from universal time, if one is there. -/
def skipOffset (cs : List Char) : Option (List Char) :=
  match cs with
  | 'Z' :: rest | 'z' :: rest => some rest
  | '+' :: rest | '-' :: rest => do
    let (_, rest) ← fixedDigits 2 0 23 rest
    let rest ← after? [':'] rest
    let (_, rest) ← fixedDigits 2 0 59 rest
    some rest
  | cs => some cs

/-- What follows a date that exists. -/
def skipDate (cs : List Char) : Option (List Char) := do
  let (year, cs) ← fixedDigits 4 0 9999 cs
  let cs ← after? ['-'] cs
  let (month, cs) ← fixedDigits 2 1 12 cs
  let cs ← after? ['-'] cs
  let isLeap := year % 4 = 0 ∧ (year % 100 ≠ 0 ∨ year % 400 = 0)
  let length := if month = 2 then (if isLeap then 29 else 28)
    else if month ∈ [4, 6, 9, 11] then 30 else 31
  let (_, cs) ← fixedDigits 2 1 length cs
  some cs

/-- What follows a date, a time, or both with an offset. -/
def skipDateTime (cs : List Char) : Option (List Char) :=
  match skipDate cs with
  | none => skipTime cs
  | some rest =>
    match rest with
    | c :: r =>
      if c = 'T' ∨ c = 't' ∨ c = ' ' then
        match skipTime r with
        | some r => skipOffset r
        | none => some rest
      else some rest
    | [] => some []

end GeoAlmanac.Toml
