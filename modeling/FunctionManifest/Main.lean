import FunctionManifest.Command.Run
import FunctionManifest.Json.Reader
import FunctionManifest.Source.Notation

/-!
# The command line

Reads the project from the working directory, runs the command and prints what it gives. A file
holds its statements in their JSON notation; a file that does not is taken for bytes.
-/

namespace FunctionManifest.Command

/-- The mark that a text may start with. -/
def byteOrderMark : Char := '\ufeff'

/-- The statements of a text, which may start with a mark. -/
def bodyOfText? (text : String) : Option Body :=
  let marked := text.toList.head? = some byteOrderMark
  let written := if marked then text.toList.drop 1 else text.toList
  match Json.readWithin none (Text.ofChars written) with
  | .error _ => none
  | .ok v =>
    match statementsOfData v with
    | .ok statements => some (.statements marked statements)
    | .error _ => none

def bodyOfBytes (bytes : ByteArray) : Body :=
  ((String.fromUTF8? bytes).bind bodyOfText?).getD (.bytes (bytes.toList.map UInt8.toNat))

/-- The entries at a place and below it. -/
partial def readEntries (place : Location) (entry : IO.FS.DirEntry) :
    IO (List (Location × FileEntry)) := do
  let location := place ++ [Text.ofString entry.fileName]
  if ← entry.path.isDir then
    let below ← entry.path.readDir
    let below ← below.toList.mapM (readEntries location)
    return (location, .directory) :: below.flatten
  else return [(location, .file (bodyOfBytes (← IO.FS.readBinFile entry.path)))]

/-- The project in the working directory. -/
def readProject : IO Project := do
  let directory ← IO.currentDir
  let entries ← (← directory.readDir).toList.mapM (readEntries [])
  let label := Text.ofString directory.toString
  let home := pathParts label
  return { home, label, base := home, entries := entries.flatten }

/-- The variables that the system lists; none where it does not list them. -/
def readEnvironment : IO Environment := do
  try
    let bytes ← IO.FS.readBinFile "/proc/self/environ"
    let listed := Text.Encoded.lettersFrom 0 (bytes.toList.map UInt8.toNat)
    return (Text.split '\x00' listed).filterMap fun text =>
      match splitValue text with
      | (name, some value) => some (name, value)
      | (_, none) => none
  catch _ => return []

/-- The status that the program ends with, once last words are said. -/
def finish (exit : Exit) : IO UInt32 := do
  match exit with
  | .code n => return n.toUInt32
  | .words text =>
    IO.eprintln text.spelled
    return 1
  | .failure failure =>
    IO.eprintln (failure.kind.label ++ ": " ++ failure.message : Text).spelled
    return 1

end FunctionManifest.Command

open FunctionManifest in
def main (arguments : List String) : IO UInt32 := do
  let session := Session.fresh (← Command.readProject) (← Command.readEnvironment)
  let (outcome, _) := (Command.run (arguments.map Text.ofString)).run session
  IO.print outcome.out.spelled
  IO.eprint outcome.err.spelled
  Command.finish outcome.exit
