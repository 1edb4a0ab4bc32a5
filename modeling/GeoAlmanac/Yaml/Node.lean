import GeoAlmanac.Decimal.Reader
import GeoAlmanac.Yaml.Scalar
import GeoAlmanac.Yaml.Tag

/-! The nodes of a YAML document, what their anchors mean, and what scalars stand for. -/

namespace GeoAlmanac.Yaml

/-- A node of a document. An alias stands for the node anchored under a number. -/
inductive Node where
  | scalar (text : String) (style : Style) (tag : Option Tag)
  | sequence (items : List Node)
  | mapping (pairs : List (Node × Node))
  | alias (number : Nat)

/-- A plain scalar without text, which stands where nothing is written. -/
def Node.empty : Node :=
  .scalar "" .plain none

/-- What is known of the anchors of a document: the number of each name, the places of the anchored
nodes by number, last first, and the nodes by place. A place is the count of the anchors before. -/
structure Anchors where
  numbers : List (List Char × Nat)
  places : List (Nat × Nat)
  nodes : List (Nat × Node)

namespace Anchors

def empty : Anchors :=
  ⟨[], [], []⟩

/-- Gives a name its number: how many different names there are before. A name that is there
already gets a new number, and so do later names up to the count of names. -/
def declare (a : Anchors) (name : List Char) : Anchors :=
  let number := a.numbers.length
  { a with
    numbers := (name, number) :: a.numbers.filter fun e => e.1 ≠ name
    places := (number, a.places.length) :: a.places }

def resolve? (a : Anchors) (number : Nat) : Option Node := do
  a.nodes.lookup (← a.places.lookup number)

end Anchors

/-- The node itself or, for an alias, the node it stands for. -/
def Node.follow? (a : Anchors) : Node → Option Node
  | .alias number => a.resolve? number
  | n => some n

/-- The number that a plain text spells in decimal notation, or as infinity or as no number. -/
def numberOf? (text : String) : Option Float :=
  let unsigned := match text.toList with
    | '+' :: rest => rest
    | cs => cs
  if text.startsWith "+" && (unsigned.head? == some '+' || unsigned.head? == some '-') then none
  else if [".inf", ".Inf", ".INF"].contains (String.ofList unsigned) then some (1.0 / 0.0)
  else if ["-.inf", "-.Inf", "-.INF"].contains text then some (-1.0 / 0.0)
  else if [".nan", ".NaN", ".NAN"].contains text then some (0.0 / 0.0)
  else (Decimal.read? (String.ofList unsigned)).filter Float.isFinite

def isNull (text : String) : Bool :=
  ["null", "Null", "NULL", "~"].contains text

/-- The text of a scalar, however it is written. -/
def Node.text? : Node → Option String
  | .scalar text .. => some text
  | _ => none

/-- The number of a scalar. It is plain, or tagged as a number and written in a literal block. -/
def Node.number? : Node → Option Float
  | .scalar text style tag =>
    if style = .plain ∨ (style = .literal ∧ tag = some floatTag) then numberOf? text else none
  | _ => none

/-- The number of a scalar, or that there is none, which a plain scalar tells by being empty or by
its text. A tag for the absent value admits no other text. -/
def Node.optionalNumber? (n : Node) : Option (Option Float) :=
  match n with
  | .scalar text .plain none =>
    if text.isEmpty || isNull text then some none else n.number?.map some
  | .scalar text .plain (some tag) =>
    if tag = nullTag then (if isNull text then some none else none) else n.number?.map some
  | n => n.number?.map some

end GeoAlmanac.Yaml
