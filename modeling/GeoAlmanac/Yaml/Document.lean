import GeoAlmanac.Yaml.Node
import GeoAlmanac.Yaml.Token

/-! The document of a YAML stream, read from its tokens. -/

namespace GeoAlmanac.Yaml

/-- A document: its root, if it has one, and its anchors. -/
structure Document where
  root : Option Node
  anchors : Anchors

/-- What is left to read, and what is known. -/
structure Reading where
  tokens : List Token
  anchors : Anchors
  handles : List (List Char × Tag)

abbrev Parse := StateT Reading Option

namespace Parse

def peek : Parse (Option Token) := do
  return (← get).tokens.head?

def skip : Parse Unit :=
  modify fun r => { r with tokens := r.tokens.tail }

/-- A tag in full. The handle has to be known. -/
def tag (t : TagText) : Parse Tag := do
  if t.handle.isEmpty then return t.suffix
  else match (← get).handles.lookup t.handle with
    | some meaning => return meaning ++ t.suffix
    | none => failure

def anchor? : Parse (Option (List Char)) := do
  match ← peek with
  | some (.anchor name) =>
    skip
    return some name
  | _ => return none

def tag? : Parse (Option TagText) := do
  match ← peek with
  | some (.tag t) =>
    skip
    return some t
  | _ => return none

/-- The anchor and the tag before a node, in either order. -/
def properties : Parse (Option (List Char) × Option Tag) := do
  match ← anchor? with
  | some name =>
    let t ← tag?
    return (some name, ← t.mapM tag)
  | none =>
    let t ← tag?
    let name ← if t.isSome then anchor? else pure none
    return (name, ← t.mapM tag)

/-- Keeps an anchored node that is read, so that aliases find it. -/
def anchored (name : Option (List Char)) (content : Parse Node) : Parse Node := do
  match name with
  | none => content
  | some name =>
    let place := (← get).anchors.places.length
    modify fun r => { r with anchors := r.anchors.declare name }
    let node ← content
    modify fun r =>
      { r with anchors := { r.anchors with nodes := (place, node) :: r.anchors.nodes } }
    return node

/-- An alias; its name has to be anchored before. -/
def aliasNode (name : List Char) : Parse Node := do
  match (← get).anchors.numbers.lookup name with
  | some number => return .alias number
  | none => failure

/-- Where a node stands: in a block, in a block as key or value, where a sequence needs no deeper
indentation, or within brackets. -/
inductive Context where
  | block
  | pair
  | flow
  deriving DecidableEq

mutual

/-- A node with its properties. -/
def node (context : Context) : Nat → Parse Node
  | 0 => failure
  | fuel + 1 => do
    match ← peek with
    | some (.alias name) =>
      skip
      aliasNode name
    | _ =>
      let (name, tag) ← properties
      anchored name (content context (name.isSome || tag.isSome) tag fuel)

/-- The content of a node. It may be missing after properties. -/
def content (context : Context) (hasProperties : Bool) (tag : Option Tag) : Nat → Parse Node
  | 0 => failure
  | fuel + 1 => do
    match ← peek, context with
    | some (.scalar s), _ =>
      skip
      let tag := if tag = some (bytesOf "!") then none else tag
      return .scalar (String.ofList s.text) s.style tag
    | some .blockEntry, .pair => return .sequence (← indentlessItems fuel)
    | some .flowSequenceStart, _ =>
      skip
      return .sequence (← flowItems true fuel)
    | some .flowMappingStart, _ =>
      skip
      return .mapping (← flowPairs true fuel)
    | some .blockSequenceStart, .block | some .blockSequenceStart, .pair =>
      skip
      return .sequence (← blockItems fuel)
    | some .blockMappingStart, .block | some .blockMappingStart, .pair =>
      skip
      return .mapping (← blockPairs fuel)
    | _, _ => if hasProperties then return .scalar "" .plain tag else failure

/-- The items of a block sequence up to its end. -/
def blockItems : Nat → Parse (List Node)
  | 0 => failure
  | fuel + 1 => do
    match ← peek with
    | some .blockEntry =>
      skip
      let isEmpty := match ← peek with
        | some .blockEntry | some .blockEnd => true
        | _ => false
      let item ← if isEmpty then pure Node.empty else node .block fuel
      return item :: (← blockItems fuel)
    | some .blockEnd =>
      skip
      return []
    | _ => failure

/-- The items of a sequence that stands at the column of its key. Nothing marks its end. -/
def indentlessItems : Nat → Parse (List Node)
  | 0 => failure
  | fuel + 1 => do
    match ← peek with
    | some .blockEntry =>
      skip
      let isEmpty := match ← peek with
        | some .blockEntry | some .key | some .value | some .blockEnd => true
        | _ => false
      let item ← if isEmpty then pure Node.empty else node .block fuel
      return item :: (← indentlessItems fuel)
    | _ => return []

/-- The key or the value of a pair in a block, after its token. -/
def blockPart : Nat → Parse Node
  | 0 => failure
  | fuel + 1 => do
    match ← peek with
    | some .key | some .value | some .blockEnd => return .empty
    | _ => node .pair fuel

/-- The pairs of a block mapping up to its end. -/
def blockPairs : Nat → Parse (List (Node × Node))
  | 0 => failure
  | fuel + 1 => do
    match ← peek with
    | some .key =>
      skip
      let k ← blockPart fuel
      let v ← match ← peek with
        | some .value =>
          skip
          blockPart fuel
        | _ => pure .empty
      return (k, v) :: (← blockPairs fuel)
    | some .blockEnd =>
      skip
      return []
    | _ => failure

/-- The items of a sequence in brackets up to its end. A comma goes before each but the first. -/
def flowItems (isFirst : Bool) : Nat → Parse (List Node)
  | 0 => failure
  | fuel + 1 => do
    if !isFirst then
      match ← peek with
      | some .flowEntry => skip
      | some .flowSequenceEnd => pure ()
      | _ => failure
    match ← peek with
    | some .flowSequenceEnd =>
      skip
      return []
    | some .key =>
      skip
      let item ← flowPair fuel
      return item :: (← flowItems false fuel)
    | _ =>
      let item ← node .flow fuel
      return item :: (← flowItems false fuel)

/-- A mapping of one pair in a sequence in brackets, after the token of its key. An empty key takes
the token after it away. -/
def flowPair : Nat → Parse Node
  | 0 => failure
  | fuel + 1 => do
    let k ← match ← peek with
      | some .value | some .flowEntry | some .flowSequenceEnd =>
        skip
        pure Node.empty
      | _ => node .flow fuel
    let v ← match ← peek with
      | some .value =>
        skip
        match ← peek with
        | some .flowEntry | some .flowSequenceEnd => pure Node.empty
        | _ => node .flow fuel
      | _ => pure .empty
    return .mapping [(k, v)]

/-- The key or the value of a pair in a mapping in braces, after its token. -/
def flowPart (isKey : Bool) : Nat → Parse Node
  | 0 => failure
  | fuel + 1 => do
    match ← peek with
    | some .flowEntry | some .flowMappingEnd => return .empty
    | some .value => if isKey then return .empty else node .flow fuel
    | _ => node .flow fuel

/-- The pairs of a mapping in braces up to its end. A comma goes before each but the first. -/
def flowPairs (isFirst : Bool) : Nat → Parse (List (Node × Node))
  | 0 => failure
  | fuel + 1 => do
    if !isFirst then
      match ← peek with
      | some .flowEntry => skip
      | some .flowMappingEnd => pure ()
      | _ => failure
    match ← peek with
    | some .flowMappingEnd =>
      skip
      return []
    | some .key =>
      skip
      let k ← flowPart true fuel
      let v ← match ← peek with
        | some .value =>
          skip
          flowPart false fuel
        | _ => pure .empty
      return (k, v) :: (← flowPairs false fuel)
    | _ =>
      let k ← node .flow fuel
      return (k, .empty) :: (← flowPairs false fuel)

end

end Parse

/-- The handles that the directives of a document define, before the two that every document has.
A version is given once at most and is 1.1 or 1.2, and every handle is defined once at most. -/
def handles? (ds : List Directive) : Option (List (List Char × Tag)) :=
  let versions := ds.filterMap fun d => match d with
    | .version major minor => some (major, minor)
    | .handle .. => none
  let handles := ds.filterMap fun d => match d with
    | .version .. => none
    | .handle name meaning => some (name, meaning)
  let areVersionsFine := versions.length ≤ 1 ∧ ∀ v ∈ versions, v = (1, 1) ∨ v = (1, 2)
  if areVersionsFine ∧ (handles.map Prod.fst).Nodup then
    some (handles ++ [(['!'], bytesOf "!"), (['!', '!'], bytesOf "tag:yaml.org,2002:")])
  else none

/-- The directives at the head of the tokens, and what follows them. -/
def spanDirectives : List Token → List Directive × List Token
  | .directive d :: rest =>
    let (ds, rest) := spanDirectives rest
    (d :: ds, rest)
  | ts => ([], ts)

/-- Whether nothing stands between the beginning of a document and these tokens. -/
def isVoid : List Token → Bool
  | [] | .directive _ :: _ | .documentStart :: _ | .documentEnd :: _ => true
  | _ => false

/-- The document that the tokens from its first node on make up. Nothing but markers of its end may
follow it. -/
def finishDocument (handles : List (List Char × Tag)) (tokens : List Token) :
    Option Document := do
  -- a call of the readers for each token and four that take none between two of them
  let (root, r) ← (Parse.node .block (5 * tokens.length + 5)).run ⟨tokens, .empty, handles⟩
  let isOver := r.tokens.all fun t => match t with
    | .documentEnd => true
    | _ => false
  if isOver then some ⟨some root, r.anchors⟩ else none

/-- The document of a stream that holds one document at most. -/
def document? (text : String) : Option Document := do
  let tokens ← tokens? text.toList
  let (directives, rest) := spanDirectives tokens
  let handles ← handles? directives
  match rest with
  | .documentStart :: rest =>
    if isVoid rest then
      if rest.all fun t => match t with
        | .documentEnd => true
        | _ => false
      then some ⟨some .empty, .empty⟩ else none
    else finishDocument handles rest
  | [] => if directives.isEmpty then some ⟨none, .empty⟩ else none
  | rest => if directives.isEmpty then finishDocument handles rest else none

end GeoAlmanac.Yaml
