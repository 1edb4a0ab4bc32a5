import GeoAlmanac.CommandLine.SphereProgram
import GeoAlmanac.CommandLine.SunProgram
import Std.Time.DateTime.Timestamp

/-! The programs on the files of the system. What the arguments can mention is looked at first, the
program runs on that, and what it has changed is written. -/

namespace GeoAlmanac.CommandLine

/-- The paths that arguments can mention, with the summaries beside them. -/
def mentioned (args : List String) : List Path :=
  let values := args ++ args.filterMap fun a => (splitAtEquals a.toList).2
  let paths := ("configs/bodies" :: "configs/sites.yaml" :: values).map Path.ofText
  paths ++ paths.map Almanac.summaryPath

def systemPath (place : Location) : String :=
  "/" ++ "/".intercalate (place.map fun n => (textOf? n).getD "")

/-- What stands at a place of the system. -/
def look (place : Location) : IO (Option Entry) := do
  let path := (← IO.currentDir) / systemPath place
  if ← path.isDir then return some .directory
  try return some (.file (← IO.FS.readBinFile path))
  catch e => return if ← path.pathExists then some (.closed (.system e.toString)) else none

def namesAt (place : Location) : IO (List Name) := do
  try
    let items ← ((← IO.currentDir) / systemPath place).readDir
    return items.toList.map fun e => bytesOf e.fileName
  catch _ => return []

/-- The tree of what stands on the way to the paths, and of the catalog files in them. -/
def snapshot (workingDirectory : Location) (paths : List Path) : IO FileTree := do
  let mut tree : FileTree := ⟨[], workingDirectory⟩
  for p in paths do
    let place := p.steps.foldl FileTree.move workingDirectory
    let files := (← namesAt place).filter fun n => Catalog.isToml ⟨n⟩
    let above := (List.range (place.length + 1)).map place.take
    for there in above ++ files.map (fun n => place ++ [n]) do
      if ( tree.entry? there).isNone then
        if let some e ← look there then tree := tree.insert there e
  return tree

def commit (before after : FileTree) : IO Unit := do
  for (place, e) in (before.changes after).reverse do
    match e with
    | .directory => IO.FS.createDirAll (systemPath place)
    | .file content => IO.FS.writeBinFile (systemPath place) content
    | .closed _ => pure ()

def today : IO (Option Date) := do
  let now ← Std.Time.Timestamp.now
  let instant := Instant.ofSeconds? now.toSecondsSinceUnixEpoch.val
  return instant.map fun t => .ofUniversalTime t.universal

end GeoAlmanac.CommandLine

open GeoAlmanac GeoAlmanac.CommandLine in
/-- Runs the program of the name that the executable has. -/
def main (args : List String) : IO UInt32 := do
  let workingDirectory := (Path.ofText (← IO.currentDir).toString).steps.foldl FileTree.move []
  let files ← snapshot workingDirectory (mentioned args)
  let outcome ← match (← IO.appPath).fileName, ← today with
    | some "suntimes", some date => pure (SunProgram.run date files args)
    | _, _ => pure (SphereProgram.run files args)
  commit files outcome.files
  (← IO.getStdout).putStr outcome.output
  let errors := outcome.errors
  (← IO.getStderr).putStr (if errors.isEmpty || errors.endsWith "\n" then errors else errors ++ "\n")
  return outcome.code.toUInt32
