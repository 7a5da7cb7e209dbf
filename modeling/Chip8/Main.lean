import Chip8.CommandLine
import Chip8.Yaml.Document

/-! # The program

The command on the files of the working directory: the files that the arguments name are read, and
those that the command made or changed are written.
-/

open Chip8 CommandLine

/-- What configurations are read with. Documents have no foreign keys. -/
def documentReader : Config.Reader := ⟨Yaml.readDocument, .ok⟩

/-- The entry at a path. What is no file that can be read, nor closed, counts as a directory. -/
def readEntry (path : String) : IO (Option FileEntry) := do
  try
    return some (.file (← IO.FS.readBinFile path).toList)
  catch
    | .noFileOrDirectory .. => return none
    | .permissionDenied _ number remark => return some (.closedFile number.toNat remark)
    | _ => return some .directory

/-- The beginnings of a path that end before a slash, and the path itself. -/
def stages (path : String) : List String :=
  let parts := path.toList.splitOnP (· = '/')
  ((List.range parts.length).map fun n =>
    String.ofList (['/'].intercalate (parts.take (n + 1)))).filter (· ≠ "")

/-- The entries on the way along some paths. -/
def readTree (paths : List String) : IO FileTree := do
  let found ← (paths.flatMap stages).mapM fun path => do
    return (← readEntry path).map fun entry => ((Location.ofPath path).path, entry)
  return found.filterMap id

/-- The files that the arguments may name. -/
def namedPaths (arguments : List String) : List String :=
  match request .current (arguments.map Text.codesOf) with
  | .ok (.run o) =>
      let named := fun (given : Given Text.CodeText) => match given with
        | .value text => (pathOf? text).toList
        | _ => []
      dumpFile :: usualLogfile :: (pathOf? o.program).toList
        ++ named o.keys ++ named o.config ++ named o.logfile
  | _ => []

/-- The command: prints what it prints and ends with its exit code. -/
def main (arguments : List String) : IO UInt32 := do
  let before ← readTree (namedPaths arguments)
  let result := run documentReader .current before (arguments.map Text.codesOf)
  for (path, entry) in result.files do
    if let .file bytes := entry then
      if before.entry? path != some entry then
        IO.FS.writeBinFile path ⟨bytes.toArray⟩
  IO.print result.output
  if let some line := result.complaint then IO.eprintln (Text.escapedCodes line)
  match result.ending with
  | .ok code => return UInt32.ofNat code
  | .error failure =>
      IO.eprintln (Text.escapedCodes failure.message)
      return 1
