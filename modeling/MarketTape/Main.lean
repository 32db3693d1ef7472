import MarketTape.CommandLine

/-!
# The program

What a run does is decided on a tree of files in memory.  So the program first reads into such a
tree what the run may look at, and afterwards writes the files that the run wrote.

* `Program.gather` reads files and directories along a path.
* `main` runs the command line.
-/

namespace MarketTape.Program

/-- The path of what the given names lead to. -/
def pathOf (names : List String) : String := "/" ++ "/".intercalate names

/-- What lies at the given names, without the entries of a directory. -/
def look (names : List String) : IO (Option Node) := do
  try
    let path ← IO.FS.realPath (pathOf names)
    let info ← path.metadata
    match info.type with
    | .dir => return some (.dir [])
    | _ =>
      let content ← IO.FS.readBinFile path
      let time := info.modified.sec * 1000000000 + info.modified.nsec.toNat
      return some (.file content.toList time)
  catch _ => return none

/-- What lies at the given names, with everything below. -/
partial def lookBelow (names : List String) : IO (Option Node) := do
  match ← look names with
  | some (.dir _) =>
    let path ← IO.FS.realPath (pathOf names)
    let mut entries := #[]
    for entry in ← path.readDir do
      if let some node ← lookBelow (names ++ [entry.fileName]) then
        entries := entries.push (entry.fileName, node)
    return some (.dir entries.toList)
  | found => return found

/-- Adds what lies along the parts of a path, and everything below its end if that is asked for. -/
def gatherParts (below : Bool) : FileTree → List String → List (List Char) → IO FileTree
  | files, names, [] => do
    if below then
      if let some node ← lookBelow names then
        return { files with top := files.top.set names node }
    return files
  | files, names, part :: rest => do
    if part = [] ∨ part = ['.'] then gatherParts below files names rest
    else if part = ['.', '.'] then gatherParts below files names.dropLast rest
    else
      let names := names ++ [String.ofList part]
      if (files.top.get? names).isSome then gatherParts below files names rest
      else
        match ← look names with
        | some node => gatherParts below { files with top := files.top.set names node } names rest
        | none => return files

/-- Adds what lies along a path, and everything below its end if that is asked for. -/
def gather (files : FileTree) (path : String) (below : Bool) : IO FileTree :=
  let (names, parts) := files.split path
  gatherParts below files names parts

/-- The working directory, without its entries. -/
def workingDirectory : IO FileTree := do
  let path ← IO.currentDir
  let names := ((Path.parts path.toString.toList).map String.ofList).filter (· ≠ "")
  return ⟨(Node.dir []).set names (.dir []), names⟩

/-- Writes a file if the run wrote it. -/
def writeBack (before after : FileTree) (path : String) : IO Unit := do
  match after.read path with
  | .bytes content =>
    let unchanged := match before.read path with
      | .bytes old => old == content
      | _ => false
    unless unchanged do IO.FS.writeBinFile path ⟨content.toArray⟩
  | _ => return

/-- The paths that a run may write. -/
def writable (request : CommandLine.Request) (settings : Settings) : List String :=
  settings.backtest.logPath.toList ++ request.reportPath.toList

/-- The paths that a run reads. -/
def readable (settings : Settings) : List String :=
  settings.data.csvPath.toList ++ settings.data.datasetRoot.toList

/-- Reads what a run may look at, and gives the paths that it may write. -/
def prepare (args : List String) : IO (FileTree × List String) := do
  let files ← workingDirectory
  match CommandLine.parse args with
  | .error _ => return (files, [])
  | .ok request =>
    let files ← gather files request.settingsPath false
    match CommandLine.load files request.settingsPath with
    | .error _ => return (files, [])
    | .ok settings =>
      let written := writable request settings
      let files ← written.foldlM (gather · · false) files
      let files ← (readable settings).foldlM (gather · · true) files
      return (files, written)

end MarketTape.Program

/-- Runs the command line: errors go to the error stream, and the status is the program's own. -/
def main (args : List String) : IO UInt32 := do
  let (files, written) ← MarketTape.Program.prepare args
  let exit := MarketTape.CommandLine.run args files
  for path in written do
    MarketTape.Program.writeBack files exit.files path
  for message in exit.errors do
    IO.eprintln message
  IO.print exit.output
  return UInt32.ofNat exit.status
