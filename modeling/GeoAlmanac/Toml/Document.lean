import GeoAlmanac.Toml.Table

/-! Documents of TOML 1.0. A document is read line by line, and the lines build up its table. -/

namespace GeoAlmanac.Toml

/-- Arrays, tables and keys nest less deep than this. -/
def depthLimit : Nat := 80

def skipBlanks (cs : List Char) : List Char :=
  cs.dropWhile fun c => c = ' ' ∨ c = '\t'

def isKeyChar (c : Char) : Bool :=
  c.isAlphanum || c == '_' || c == '-'

/-- One part of a key: a bare word or a string on one line. -/
def keyPart : Reader String
  | '"' :: rest => (basicString rest).map fun (cs, r) => (String.ofList cs, r)
  | '\'' :: rest => (literalString rest).map fun (cs, r) => (String.ofList cs, r)
  | cs =>
    let (word, rest) := cs.span isKeyChar
    if word.isEmpty then none else some (String.ofList word, rest)

/-- The parts of a key between dots, at most `fuel` of them; blanks around a part do not count. -/
def keyParts : Nat → Reader (List String)
  | 0, _ => none
  | fuel + 1, cs => do
    let (part, rest) ← keyPart (skipBlanks cs)
    match skipBlanks rest with
    | '.' :: rest => do
      let (parts, rest) ← keyParts fuel rest
      some (part :: parts, rest)
    | rest => some ([part], rest)

/-- A key: all its parts but the last, and the last. -/
def key (cs : List Char) : Option ((List String × String) × List Char) := do
  let (parts, rest) ← keyParts (depthLimit - 1) cs
  some ((parts.dropLast, ← parts.getLast?), rest)

/-- The blanks, line breaks and comments between the items of an array. -/
def skipGaps (inComment : Bool) : List Char → Option (List Char)
  | '\n' :: rest | '\r' :: '\n' :: rest => skipGaps false rest
  | c :: rest =>
    if inComment then (if isTextChar c then skipGaps true rest else none)
    else if c = ' ' ∨ c = '\t' then skipGaps false rest
    else if c = '#' then skipGaps true rest
    else some (c :: rest)
  | [] => if inComment then none else some []

/-- The end of a line after blanks and a comment. -/
def endOfLine (cs : List Char) : Option (List Char) :=
  let rest := match skipBlanks cs with
    | '#' :: r => r.dropWhile isTextChar
    | r => r
  match rest with
  | '\n' :: r | '\r' :: '\n' :: r => some r
  | [] => some []
  | _ => none

mutual

def value : Nat → Nat → Reader Node
  | 0, _, _ => none
  | fuel + 1, depth, cs =>
    match cs with
    | '[' :: rest =>
      if depth + 1 < depthLimit then
        (items fuel (depth + 1) rest).map fun (xs, r) => (.array xs, r)
      else none
    | '\x7b' :: rest =>
      if depth + 1 < depthLimit then do
        let (pairs, r) ← match skipBlanks rest with
          | '\x7d' :: r => some ([], r)
          | r => members fuel (depth + 1) r
        some (← inlineTable? pairs, r)
      else none
    | c :: _ =>
      if c = '"' ∨ c = '\'' then (string cs).map fun (s, r) => (.text s, r)
      else
        match after? "true".toList cs, after? "false".toList cs, skipDateTime cs with
        | some r, _, _ => some (.boolean true, r)
        | _, some r, _ => some (.boolean false, r)
        | _, _, some r => some (.dateTime, r)
        | none, none, none => (number cs).map fun (n, r) => (.number n, r)
    | [] => none

/-- The items of an array up to its closing bracket; the last may be followed by a comma. -/
def items : Nat → Nat → Reader (List Node)
  | 0, _, _ => none
  | fuel + 1, depth, cs => do
    match ← skipGaps false cs with
    | ']' :: rest => some ([], rest)
    | cs => do
      let (x, rest) ← value fuel depth cs
      match ← skipGaps false rest with
      | ',' :: rest => do
        let (xs, rest) ← items fuel depth rest
        some (x :: xs, rest)
      | ']' :: rest => some ([x], rest)
      | _ => none

/-- The pairs of a table up to its closing brace. -/
def members : Nat → Nat → Reader (List (List String × String × Node))
  | 0, _, _ => none
  | fuel + 1, depth, cs => do
    let ((path, name), rest) ← key cs
    let rest ← after? ['='] rest
    let (x, rest) ← value fuel depth (skipBlanks rest)
    match skipBlanks rest with
    | ',' :: rest => do
      let (xs, rest) ← members fuel depth rest
      some ((path, name, x) :: xs, rest)
    | '\x7d' :: rest => some ([(path, name, x)], rest)
    | _ => none

end

/-- A line that says something, up to and with its end. -/
def statement (fuel : Nat) (cs : List Char) : Option (Statement × List Char) :=
  match cs with
  | '[' :: '[' :: rest => do
    let ((path, name), rest) ← key rest
    let rest ← endOfLine (← after? [']', ']'] rest)
    some (.arrayHeader path name, rest)
  | '[' :: rest => do
    let ((path, name), rest) ← key rest
    let rest ← endOfLine (← after? [']'] rest)
    some (.header path name, rest)
  | cs => do
    let ((path, name), rest) ← key cs
    let rest ← after? ['='] rest
    let (x, rest) ← value fuel 0 (skipBlanks rest)
    some (.pair path name x, ← endOfLine rest)

/-- The lines of a document; empty lines and comments say nothing. Every line takes a character
at least, so a document has no more lines than characters. -/
def statements (fuel : Nat) : Nat → List Char → Option (List Statement)
  | 0, _ => none
  | left + 1, cs =>
    match skipBlanks cs with
    | [] => some []
    | '#' :: rest => do statements fuel left (← endOfLine ('#' :: rest))
    | '\n' :: rest | '\r' :: '\n' :: rest => statements fuel left rest
    | cs => do
      let (s, rest) ← statement fuel cs
      some (s :: (← statements fuel left rest))

/-- The table of a document. A byte order mark may begin it. -/
def document? (text : String) : Option Entries := do
  let cs := match text.toList with
    | '\ufeff' :: rest => rest
    | cs => cs
  -- a value takes a character for each two steps of its reading
  assemble? (← statements (2 * cs.length + 2) (cs.length + 1) cs)

end GeoAlmanac.Toml
