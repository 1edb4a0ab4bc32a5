import GeoAlmanac.CommandLine.Usage

/-! The grammar of command lines: options with one value each, and commands with options of their
own. What the arguments ask for is read into settings. -/

namespace GeoAlmanac.CommandLine

/-- An option with its value, `--name value` or `--name=value`. Only some values may begin with a
dash where they stand alone. A value that is read changes the settings. -/
structure OptionRule (σ : Type) where
  name : String
  takesDashes : Bool
  read : String → Except Refusal (σ → σ)

def OptionRule.text {σ : Type} (o : OptionRule σ) : String :=
  "--" ++ o.name ++ " <" ++ o.name.toUpper ++ ">"

/-- The options of a command: which of them have to be given, which need another one, and which
exclude each other. -/
structure Command (σ : Type) where
  options : List (OptionRule σ)
  required : List String
  companions : List (String × String)
  conflicts : List (String × String)
  hasVersion : Bool

/-- Why nothing is carried out: an error, no argument where a command has to be named, or a
request for help or for the version. -/
inductive Stop where
  | error (e : UsageError)
  | noArguments
  | help
  | version

/-- How far arguments are read: the options given so far, what they change, and the option that is
read, with its value once that is there. -/
structure Progress (σ : Type) where
  given : List (OptionRule σ)
  change : σ → σ
  current : Option (OptionRule σ × Option String)

namespace Progress
variable {σ : Type}

def empty : Progress σ :=
  ⟨[], id, none⟩

def has (p : Progress σ) (name : String) : Bool :=
  p.given.any fun o => o.name == name

def awaited (p : Progress σ) : Option (OptionRule σ) :=
  match p.current with
  | some (o, none) => some o
  | _ => none

/-- Takes an option with its value. An option is given once. -/
def accept (p : Progress σ) (o : OptionRule σ) (value : String) :
    Except UsageError (Progress σ) :=
  if p.has o.name then .error (.repeatedOption o.text)
  else match o.read value with
    | .ok f => .ok { p with given := p.given ++ [o], change := f ∘ p.change }
    | .error r => .error (r.error value o.text)

/-- Takes the option that is read; its value has to be there. -/
def settle (p : Progress σ) : Except UsageError (Progress σ) :=
  match p.current with
  | none => .ok p
  | some (o, none) => .error (.missingValue o.text)
  | some (o, some value) => { p with current := none }.accept o value

end Progress

def splitAtEquals (cs : List Char) : String × Option String :=
  let (name, rest) := cs.span (· ≠ '=')
  (String.ofList name, match rest with
    | [] => none
    | _ :: value => some (String.ofList value))

namespace Command
variable {σ : Type}

/-- An argument that can be neither an option nor a value. -/
def misplaced (names : List String) (arg : String) : UsageError :=
  if names.isEmpty then .unexpectedArgument arg else .unknownCommand arg

/-- An argument after two dashes, where no command is looked for. -/
def trailing (names : List String) (arg : String) : UsageError :=
  if names.contains arg then .unexpectedArgument arg else misplaced names arg

/-- A request for help or for the version, if a flag is one. -/
def flag? (c : Command σ) (name : String) : Option Stop :=
  if name == "help" || name == "h" then some .help
  else if c.hasVersion && (name == "version" || name == "V") then some .version
  else none

/-- Reads an argument that begins with two dashes and has a name after them. -/
def readLong (c : Command σ) (p : Progress σ) (name : String) (value : Option String) :
    Except Stop (Progress σ) :=
  let shown := "--" ++ name
  match c.options.find? (fun o => o.name == name), value with
  | some o, some v =>
    (do (← p.settle).accept o v : Except UsageError (Progress σ)).mapError .error
  | some o, none =>
    match p.settle with
    | .ok p => .ok { p with current := some (o, none) }
    | .error e => .error (.error e)
  | none, value =>
    match (if 1 < name.length then c.flag? name else none), value with
    | none, _ => .error (.error (.unexpectedArgument shown))
    | some _, some v => .error (.error (.unexpectedValue v shown))
    | some stop, none =>
      match p.settle with
      | .ok _ => .error stop
      | .error e => .error (.error e)

/-- Reads an argument that begins with one dash; only its first letter counts. -/
def readShort (c : Command σ) (p : Progress σ) (letter : Char) : Stop :=
  match c.flag? letter.toString with
  | none => .error (.unexpectedArgument ("-" ++ letter.toString))
  | some stop =>
    match p.settle with
    | .ok _ => stop
    | .error e => .error e

/-- Reads arguments up to the name of a command, which is answered with the arguments after it. -/
def scan (c : Command σ) (names : List String) : List String → Progress σ →
    Except Stop (Progress σ × Option (String × List String))
  | [], p => .ok (p, none)
  | arg :: rest, p =>
    let takesAny := match p.awaited with
      | some o => o.takesDashes
      | none => false
    if p.awaited.isNone && names.contains arg then .ok (p, some (arg, rest))
    else match takesAny, arg.toList with
      | false, ['-', '-'] =>
        match rest with
        | [] => .ok (p, none)
        | next :: _ => .error (.error (trailing names next))
      | false, '-' :: '-' :: long =>
        let (name, value) := splitAtEquals long
        match c.readLong p name value with
        | .ok p => scan c names rest p
        | .error stop => .error stop
      | false, '-' :: letter :: _ => .error (c.readShort p letter)
      | _, _ =>
        match p.awaited with
        | some o => scan c names rest { p with current := some (o, some arg) }
        | none => .error (.error (misplaced names arg))

def excluded (c : Command σ) (p : Progress σ) (o : OptionRule σ) : List String :=
  (p.given.filter fun other =>
    c.conflicts.contains (o.name, other.name) || c.conflicts.contains (other.name, o.name)).map
      OptionRule.text

/-- Whether the options given exclude each other or need others. The first one given that is
excluded is reported. -/
def check (c : Command σ) (p : Progress σ) : Except UsageError Unit :=
  match p.given.find? fun o => !(c.excluded p o).isEmpty with
  | some o => .error (.conflict o.text (c.excluded p o))
  | none =>
    let areThere := c.required.all p.has
      && c.companions.all fun (name, companion) => !p.has name || p.has companion
    if areThere then .ok () else .error .missingOptions

/-- The changes that complete arguments make. -/
def finish (c : Command σ) (p : Progress σ) : Except Stop (σ → σ) :=
  (do
    let p ← p.settle
    c.check p
    pure p.change : Except UsageError (σ → σ)).mapError .error

end Command

/-- A program: its own options, and its commands, one of which has to be named where there are
any. -/
structure Program (σ : Type) where
  name : String
  about : String
  root : Command σ
  commands : List (String × Command σ)

namespace Program
variable {σ : Type}

def names (p : Program σ) : List String :=
  if p.commands.isEmpty then [] else p.commands.map Prod.fst ++ ["help"]

/-- What follows a request for help with commands: every name has to be one. -/
def helpWith (p : Program σ) : List String → Stop
  | [] => .help
  | name :: rest =>
    if !p.names.contains name then .error (.unknownCommand name)
    else match rest with
      | [] => .help
      | next :: _ => .error (.unknownCommand next)

/-- The command that arguments name and the changes they make. Options of the command are read
before the last one of the program itself, and override the program's. -/
def read (p : Program σ) (args : List String) : Except Stop (Option String × (σ → σ)) := do
  match ← p.root.scan p.names args .empty with
  | (progress, none) =>
    if p.commands.isEmpty then return (none, ← p.root.finish progress)
    else match progress.settle with
      | .error e => throw (.error e)
      | .ok settled =>
        throw (if settled.given.isEmpty then .noArguments else .error (.noCommand p.name))
  | (progress, some (name, rest)) =>
    match p.commands.lookup name with
    | none => throw (p.helpWith rest)
    | some c =>
      let (inner, _) ← c.scan [] rest .empty
      let change ← c.finish inner
      return (some name, change ∘ (← p.root.finish progress))

end Program
end GeoAlmanac.CommandLine
