/-! Paths as texts of bytes, read as sequences of names between slashes. -/

namespace GeoAlmanac

/-- A name in a directory: bytes, not all of which need be readable text. -/
abbrev Name := List UInt8

def bytesOf (text : String) : List UInt8 :=
  text.toUTF8.toList

/-- The text that bytes spell in UTF-8, if they do. -/
def textOf? (bytes : List UInt8) : Option String :=
  String.fromUTF8? ⟨bytes.toArray⟩

structure Path where
  bytes : List UInt8
  deriving DecidableEq

inductive Component where
  | root
  | here
  | up
  | name (n : Name)
  deriving DecidableEq

namespace Path

def slash : UInt8 := 0x2F

def dot : Name := [0x2E]

def dotDot : Name := [0x2E, 0x2E]

def ofText (text : String) : Path :=
  ⟨bytesOf text⟩

/-- The path as a text; bytes that spell none are shown by the replacement character. -/
def text (p : Path) : String :=
  (textOf? p.bytes).getD
    (String.ofList (p.bytes.map fun b => if b < 0x80 then Char.ofUInt8 b else '\ufffd'))

def isRooted (p : Path) : Bool :=
  p.bytes.head? == some slash

/-- The pieces between slashes, empty ones included. -/
def split : List UInt8 → List Name
  | [] => [[]]
  | b :: rest =>
    if b = slash then [] :: split rest
    else match split rest with
      | [] => [[b]]
      | first :: others => (b :: first) :: others

/-- The pieces after the slash of the root. -/
def segments (p : Path) : List Name :=
  split (if p.isRooted then p.bytes.tail else p.bytes)

def ofSegments (rooted : Bool) (segments : List Name) : Path :=
  ⟨(if rooted then [slash] else []) ++ List.intercalate [slash] segments⟩

/-- Whether a piece names nothing: an empty one, and a dot that does not begin the path. -/
def isIdle (rooted : Bool) (before : List Name) (segment : Name) : Bool :=
  segment.isEmpty || (segment == dot && (rooted || !before.isEmpty))

/-- Reversed pieces without the idle ones at the end of the path. -/
def settle (rooted : Bool) : List Name → List Name
  | [] => []
  | s :: before => if isIdle rooted before s then settle rooted before else s :: before

/-- Reversed pieces without any idle one. -/
def withoutIdle (rooted : Bool) : List Name → List Name
  | [] => []
  | s :: before =>
    if isIdle rooted before s then withoutIdle rooted before
    else s :: withoutIdle rooted before

def componentOf (segment : Name) : Component :=
  if segment = dot then .here else if segment = dotDot then .up else .name segment

/-- The components of a path. Two spellings are the same path when their components agree. -/
def components (p : Path) : List Component :=
  (if p.isRooted then [.root] else [])
    ++ ((withoutIdle p.isRooted p.segments.reverse).reverse.map componentOf)

def same (p q : Path) : Bool :=
  p.components == q.components

/-- Components sort by kind first, names then by their bytes. -/
def sortKey : Component → List UInt8
  | .root => [0]
  | .here => [1]
  | .up => [2]
  | .name n => 3 :: n

/-- Paths sort component by component. -/
def sortsBefore (p q : Path) : Bool :=
  decide (p.components.map sortKey ≤ q.components.map sortKey)

/-- The path without its last component; the root and the empty path have none. -/
def parent? (p : Path) : Option Path :=
  match settle p.isRooted p.segments.reverse with
  | [] => none
  | _ :: before => some (ofSegments p.isRooted (settle p.isRooted before).reverse)

def fileName? (p : Path) : Option Name :=
  match settle p.isRooted p.segments.reverse with
  | s :: _ => if s = dot ∨ s = dotDot then none else some s
  | [] => none

/-- The parts of a name before and after its last dot. A dot that begins the name parts nothing. -/
def splitAtDot? (n : Name) : Option (Name × Name) :=
  let (after, rest) := n.reverse.span (· ≠ 0x2E)
  match rest with
  | [] | [_] => none
  | _ :: before => some (before.reverse, after.reverse)

/-- The last name without its extension. -/
def stem? (p : Path) : Option Name :=
  p.fileName?.map fun n => match splitAtDot? n with
    | some (before, _) => before
    | none => n

/-- What follows the last dot of the last name. -/
def extension? (p : Path) : Option Name :=
  (p.fileName?.bind splitAtDot?).map (·.2)

/-- The path of a name in the directory that `p` names. -/
def join (p : Path) (n : Name) : Path :=
  match p.bytes.getLast? with
  | none => ⟨n⟩
  | some b => if b = slash then ⟨p.bytes ++ n⟩ else ⟨p.bytes ++ slash :: n⟩

/-- The steps a system takes along the path; a dot is a step that stays. -/
def steps (p : Path) : List Component :=
  (if p.isRooted then [.root] else [])
    ++ ((p.segments.filter fun s => !s.isEmpty).map componentOf)

def endsWithSlash (p : Path) : Bool :=
  p.bytes.getLast? == some slash

end Path
end GeoAlmanac
