import GeoAlmanac.Catalog.Load
import GeoAlmanac.CommandLine.Grammar

/-! What a run of a program comes to. -/

namespace GeoAlmanac.CommandLine

/-- The exit code, what is written to the standard output and to the standard error, and the files
afterwards. -/
structure Outcome where
  code : Nat
  output : String
  errors : String
  files : FileTree

/-- Why a program fails: a message and its causes. The last cause can have more to say, which is
left open. -/
structure Failure where
  message : String
  causes : List String
  isOpen : Bool

def Failure.plain (message : String) : Failure :=
  ⟨message, [], false⟩

/-- The causes of a failure to read a catalog. What a text violates is left open. -/
def Failure.ofCatalog {τ υ : Type} (what : String) (p : Path) (e : Catalog.LoadError τ υ) :
    Failure :=
  let message := "loading " ++ what ++ " catalog " ++ p.text
  match e with
  | .io cause => ⟨message, [e.message, cause.message], false⟩
  | .toml _ | .yaml _ => ⟨message, [e.message], true⟩

/-- The report of a failure. Several causes are numbered. -/
def Failure.report (f : Failure) : String :=
  let isNumbered := f.isOpen || 1 < f.causes.length
  let causes := f.causes.zipIdx.map fun (cause, n) =>
    "\n    " ++ (if isNumbered then toString n ++ ": " else "") ++ cause
  "Error: " ++ f.message
    ++ (if causes.isEmpty then "" else "\n\nCaused by:" ++ String.join causes)
    ++ (if f.isOpen then "" else "\n")

/-- The work of a program: what it has written when it ends or fails, and the files then. -/
structure Work where
  output : String
  files : FileTree
  failure : Option Failure

def Work.outcome (w : Work) : Outcome :=
  match w.failure with
  | none => ⟨0, w.output, "", w.files⟩
  | some f => ⟨1, w.output, f.report, w.files⟩

def version : String :=
  "0.1.0"

def versionLine : String :=
  "geodesy_cli " ++ version ++ "\n"

/-- The outcome where nothing is carried out. Of a help text only the first line is given. -/
def Stop.outcome (about : String) (files : FileTree) : Stop → Outcome
  | .error e => ⟨2, "", e.line, files⟩
  | .noArguments => ⟨2, "", about, files⟩
  | .help => ⟨0, about ++ "\n", "", files⟩
  | .version => ⟨0, versionLine, "", files⟩

def lines (ls : List String) : String :=
  String.join (ls.map (· ++ "\n"))

/-- A line with a label in a column of its own. -/
def labelled (label text : String) : String :=
  label ++ String.ofList (List.replicate (16 - label.length) ' ') ++ ": " ++ text

end GeoAlmanac.CommandLine
