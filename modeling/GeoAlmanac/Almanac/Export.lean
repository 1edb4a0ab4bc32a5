import GeoAlmanac.Almanac.Summary
import GeoAlmanac.Almanac.Table
import GeoAlmanac.Files.Tree

/-! Writing an almanac to two files: the table, and the summary beside it. -/

namespace GeoAlmanac.Almanac

/-- The file of the summary that goes with a table: beside it, under the name of the table without
its extension. A table without a readable name lends it none. -/
def summaryPath (table : Path) : Path :=
  let directory := table.parent?.getD (.ofText ".")
  let stem := match table.stem? with
    | some s => if (textOf? s).isSome then s else bytesOf "almanac"
    | none => bytesOf "almanac"
  directory.join (stem ++ bytesOf "_summary.json")

def isStandardOutput (p : Path) : Bool :=
  p.same (.ofText "-")

inductive ExportError where
  | table (e : IoError)
  | summary (e : IoError)

def ExportError.cause : ExportError → IoError
  | .table e | .summary e => e

/-- Writes the table and then its summary. Where one cannot be written the other is left as it
is. -/
def exportFiles (files : FileTree) (output : Path) (r : Request Float) (entries : List Entry) :
    FileTree × Option ExportError :=
  match files.place output (table r.zenith entries).toUTF8 with
  | (files, some e) => (files, some (.table e))
  | (files, none) =>
    match files.place (summaryPath output) (r.summarize entries).text.toUTF8 with
    | (files, some e) => (files, some (.summary e))
    | (files, none) => (files, none)

end GeoAlmanac.Almanac
