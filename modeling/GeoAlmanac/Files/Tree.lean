import GeoAlmanac.Files.Path

/-! A tree of files and directories as a value. Operations answer the tree afterwards. -/

namespace GeoAlmanac

inductive IoError where
  | notFound
  | alreadyExists
  | notDirectory
  | isDirectory
  | nameTooLong
  | zeroByte
  | notText
  | system (description : String)
  deriving DecidableEq

def IoError.message : IoError → String
  | .notFound => "No such file or directory (os error 2)"
  | .alreadyExists => "File exists (os error 17)"
  | .notDirectory => "Not a directory (os error 20)"
  | .isDirectory => "Is a directory (os error 21)"
  | .nameTooLong => "File name too long (os error 36)"
  | .zeroByte => "file name contained an unexpected NUL byte"
  | .notText => "stream did not contain valid UTF-8"
  | .system description => description

/-- A place in the tree: the names on the way from the root. -/
abbrev Location := List Name

/-- What stands at a place. A closed file is one that cannot be opened, with the error of trying. -/
inductive Entry where
  | directory
  | file (content : ByteArray)
  | closed (e : IoError)

/-- Files and directories by place, and the directory that relative paths start from. -/
structure FileTree where
  entries : List (Location × Entry)
  workingDirectory : Location

namespace FileTree

/-- What stands at a place; the root is always a directory. -/
def entry? (t : FileTree) (place : Location) : Option Entry :=
  if place = [] then some .directory else t.entries.lookup place

/-- The tree with an entry put at a place. -/
def insert (t : FileTree) (place : Location) (e : Entry) : FileTree :=
  { t with entries := (place, e) :: t.entries.filter fun x => x.1 ≠ place }

/-- The place one step leads to; the root is its own parent. -/
def move (place : Location) : Component → Location
  | .root => []
  | .here => place
  | .up => place.dropLast
  | .name n => place ++ [n]

/-- A name longer than a directory can hold. -/
def isTooLong : Component → Bool
  | .name n => decide (255 < n.length)
  | _ => false

/-- The place that steps lead to, all on directories but the last, which need not exist. -/
def walk (t : FileTree) (place : Location) : List Component → Except IoError Location
  | [] => .ok place
  | [last] => if isTooLong last then .error .nameTooLong else .ok (move place last)
  | step :: rest =>
    if isTooLong step then .error .nameTooLong
    else match t.entry? (move place step) with
      | some .directory => t.walk (move place step) rest
      | some _ => .error .notDirectory
      | none => .error .notFound

/-- The place a path names. The empty path names none. -/
def locate (t : FileTree) (p : Path) : Except IoError Location :=
  if p.bytes.contains 0 then .error .zeroByte
  else if p.bytes.isEmpty then .error .notFound
  else if 4096 ≤ p.bytes.length then .error .nameTooLong
  else t.walk t.workingDirectory p.steps

def isDirectory (t : FileTree) (p : Path) : Bool :=
  match t.locate p with
  | .ok place => match t.entry? place with
    | some .directory => true
    | _ => false
  | .error _ => false

def read (t : FileTree) (p : Path) : Except IoError ByteArray :=
  match t.locate p with
  | .error e => .error e
  | .ok place => match t.entry? place with
    | none => .error .notFound
    | some .directory => .error .isDirectory
    | some (.file content) => if p.endsWithSlash then .error .notDirectory else .ok content
    | some (.closed e) => if p.endsWithSlash then .error .notDirectory else .error e

def readText (t : FileTree) (p : Path) : Except IoError String :=
  match t.read p with
  | .error e => .error e
  | .ok content => match String.fromUTF8? content with
    | some s => .ok s
    | none => .error .notText

def names (t : FileTree) (place : Location) : List Name :=
  t.entries.filterMap fun x => match x.1.getLast? with
    | some n => if x.1 = place ++ [n] then some n else none
    | none => none

/-- The paths of what stands in a directory, in no order. -/
def list (t : FileTree) (p : Path) : Except IoError (List Path) :=
  match t.locate p with
  | .error e => .error e
  | .ok place => match t.entry? place with
    | none => .error .notFound
    | some .directory => .ok ((t.names place).map p.join)
    | some _ => .error .notDirectory

/-- Writes a file, new or in place of one that is there. -/
def write (t : FileTree) (p : Path) (content : ByteArray) : Except IoError FileTree :=
  match t.locate p with
  | .error e => .error e
  | .ok place =>
    if p.endsWithSlash then .error .isDirectory
    else match t.entry? place with
      | some .directory => .error .isDirectory
      | some (.closed e) => .error e
      | _ => .ok (t.insert place (.file content))

/-- Makes one directory, in a directory that is there. -/
def makeDirectory (t : FileTree) (p : Path) : Except IoError FileTree :=
  match t.locate p with
  | .error e => .error e
  | .ok place => match t.entry? place with
    | some _ => .error .alreadyExists
    | none => .ok (t.insert place .directory)

/-- The tree after an operation, with the error that ended it. -/
abbrev Outcome := FileTree × Option IoError

/-- The outcome of making a directory where one that is there will do. -/
def ensured (t : FileTree) (p : Path) : Except IoError FileTree → Outcome
  | .ok made => (made, none)
  | .error e => if t.isDirectory p then (t, none) else (t, some e)

/-- Makes a directory and the missing ones above it, at most `levels` of them. -/
def makeDirectoriesWithin (t : FileTree) (p : Path) : Nat → Outcome
  | 0 => (t, some .notFound)
  | levels + 1 =>
    if p.bytes.isEmpty then (t, none)
    else match t.makeDirectory p with
      | .error .notFound =>
        match p.parent? with
        | none => (t, some .notFound)
        | some parent =>
          match t.makeDirectoriesWithin parent levels with
          | (above, some e) => (above, some e)
          | (above, none) => above.ensured p (above.makeDirectory p)
      | result => t.ensured p result

/-- Makes a directory and the missing ones above it. A path has at most one level more than it has
pieces. -/
def makeDirectories (t : FileTree) (p : Path) : Outcome :=
  t.makeDirectoriesWithin p (p.segments.length + 2)

/-- Writes a file after making the directories above it. -/
def place (t : FileTree) (p : Path) (content : ByteArray) : Outcome :=
  let (above, failure) := match p.parent? with
    | some parent => t.makeDirectories parent
    | none => (t, none)
  match failure with
  | some e => (above, some e)
  | none => match above.write p content with
    | .ok written => (written, none)
    | .error e => (above, some e)

/-- What is new in `after` or differs from what stands there in `before`. -/
def changes (before after : FileTree) : List (Location × Entry) :=
  after.entries.filter fun x => match x.2, before.entry? x.1 with
    | .file new, some (.file old) => new != old
    | .directory, some .directory => false
    | .closed _, some (.closed _) => false
    | _, _ => true

end FileTree
end GeoAlmanac
