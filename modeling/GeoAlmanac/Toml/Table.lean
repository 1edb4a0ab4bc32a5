import GeoAlmanac.Toml.Scalar

/-! Tables of TOML and how headers and dotted keys build them up. -/

namespace GeoAlmanac.Toml

/-- How a table came about: under a header of its own, only as a part of another header, by dotted
keys, or between braces. -/
inductive TableKind where
  | header
  | implied
  | dotted
  | inline
  deriving DecidableEq

inductive Node where
  | text (s : String)
  | number (n : Number)
  | boolean (b : Bool)
  | dateTime
  | array (items : List Node)
  | table (kind : TableKind) (entries : List (String × Node))
  | tables (items : List (List (String × Node)))

/-- The keys of a table with their values, in order of appearance. -/
abbrev Entries := List (String × Node)

/-- The entries with the value of a key that is there replaced. -/
def Entries.replace (es : Entries) (key : String) (v : Node) : Entries :=
  es.map fun e => if e.1 = key then (key, v) else e

/-- The entries with a key that is not there yet. -/
def Entries.add? (es : Entries) (key : String) (v : Node) : Option Entries :=
  match es.lookup key with
  | some _ => none
  | none => some (es ++ [(key, v)])

/-- The entries with the last of an array of tables changed. -/
def changeLast (f : Entries → Option Entries) (items : List Entries) :
    Option (List Entries) :=
  match items.getLast? with
  | some last => (f last).map fun changed => items.dropLast ++ [changed]
  | none => none

/-- Sets a dotted key, of which `path` is all but the last part. Only tables that dotted keys alone
have made may take further keys so. -/
def Entries.set? (key : String) (v : Node) : List String → Entries → Option Entries
  | [], es => es.add? key v
  | part :: path, es =>
    match es.lookup part with
    | none => (Entries.set? key v path []).map fun child => es ++ [(part, .table .dotted child)]
    | some (.table kind child) =>
      if kind = .dotted ∨ (kind = .implied ∧ path ≠ []) then
        (Entries.set? key v path child).map fun child => es.replace part (.table kind child)
      else none
    | some (.tables items) =>
      if path = [] then none
      else (changeLast (Entries.set? key v path) items).map fun items =>
        es.replace part (.tables items)
    | some _ => none

/-- Changes the table that the parts of a header lead to. Missing tables on the way are implied,
and an array of tables leads to its last one. -/
def Entries.change? (f : Entries → Option Entries) : List String → Entries → Option Entries
  | [], es => f es
  | part :: path, es =>
    match es.lookup part with
    | none => (Entries.change? f path []).map fun child => es ++ [(part, .table .implied child)]
    | some (.table kind child) =>
      if kind = .inline then none
      else (Entries.change? f path child).map fun child => es.replace part (.table kind child)
    | some (.tables items) =>
      (changeLast (Entries.change? f path) items).map fun items => es.replace part (.tables items)
    | some _ => none

def inlineTable? (pairs : List (List String × String × Node)) : Option Node :=
  (pairs.foldlM (fun es (path, key, v) => Entries.set? key v path es) []).map (.table .inline)

inductive Statement where
  | pair (path : List String) (key : String) (value : Node)
  | header (path : List String) (key : String)
  | arrayHeader (path : List String) (key : String)

/-- A document under construction: the finished part, and the table that pairs go to, with the
header that opened it. -/
structure Draft where
  root : Entries
  opened : Option (List String × String × Bool)
  current : Entries

/-- The document with the open table put in its place. -/
def Draft.close (d : Draft) : Option Entries :=
  match d.opened with
  | none => some d.current
  | some (path, key, isItem) =>
    d.root.change? (fun es =>
      if isItem then
        match es.lookup key with
        | some (.tables items) => some (es.replace key (.tables (items ++ [d.current])))
        | _ => none
      else es.add? key (.table .header d.current)) path

/-- The entries of a table that a header may still open: one that other headers have implied. -/
def impliedEntries? (es : Entries) (path : List String) (key : String) : Option Entries :=
  match path with
  | [] => match es.lookup key with
    | none => some []
    | some (.table .implied child) => some child
    | some _ => none
  | part :: path => match es.lookup part with
    | none => some []
    | some (.table .inline _) => none
    | some (.table _ child) => impliedEntries? child path key
    | some (.tables items) => match items.getLast? with
      | some last => impliedEntries? last path key
      | none => none
    | some _ => none

/-- The document after one more line. -/
def Draft.add (d : Draft) : Statement → Option Draft
  | .pair path key v => (d.current.set? key v path).map fun current => { d with current }
  | .header path key => do
    let root ← d.close
    let current ← impliedEntries? root path key
    let root ← root.change? (fun es => some (es.filter fun e => e.1 ≠ key)) path
    some ⟨root, some (path, key, false), current⟩
  | .arrayHeader path key => do
    let root ← d.close
    let root ← root.change? (fun es => match es.lookup key with
      | none => some (es ++ [(key, .tables [])])
      | some (.tables _) => some es
      | some _ => none) path
    some ⟨root, some (path, key, true), []⟩

/-- The table that lines build up. -/
def assemble? (lines : List Statement) : Option Entries := do
  (← lines.foldlM Draft.add ⟨[], none, []⟩).close

end GeoAlmanac.Toml
