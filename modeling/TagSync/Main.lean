import Std.Time.DateTime.Timestamp
import TagSync.CommandLine
import TagSync.Hub.Storage
import TagSync.Json.Reader
import TagSync.Log

/-!
The program: runs its command line on the files of the disk.

Of the disk only what the command line names is read. A hub lies in its file as JSON, and it is
written back after the run.
-/

namespace TagSync.Main

open CommandLine

/-- A hub, and whether a log is kept beside it. -/
def hubToJson (tables : Tables) (logged : Bool) : Json :=
  .object [("logged", .bool logged), ("tables", tables.toJson)]

def hubOfJson? : Json → Option FileEntry
  | .object [("logged", .bool logged), ("tables", tables)] =>
    (Tables.ofJson? tables).map (.hub · logged)
  | _ => none

/-- The content of a file. -/
def entryOf (content : ByteArray) : FileEntry :=
  match String.fromUTF8? content with
  | none => .binary
  | some s => ((Json.parse? s).bind hubOfJson?).getD (.text s)

/-- The path of a place. -/
def pathOf (place : Location) : String := "/" ++ "/".intercalate place

/-- Adds what lies at a place, if something does. -/
def loadPlace (files : FileTree) (place : Location) : IO FileTree := do
  let file := (← IO.currentDir) / pathOf place
  if ← file.isDir then return files.put place .directory
  if ← file.pathExists then return files.put place (entryOf (← IO.FS.readBinFile file))
  return files

/-- Adds what lies at a path and on the way to it. -/
def load (files : FileTree) (path : String) : IO FileTree := do
  let (files, _) ← (pathNames path).foldlM (fun (files, here) name => do
    let next := Location.step here name
    return (← loadPlace files next, next)) (files, files.start path)
  return files

/-- Adds the seed files of a directory. -/
def loadSeeds (files : FileTree) (path : String) : IO FileTree := do
  let .ok place := files.locate path | return files
  let file := (← IO.currentDir) / pathOf place
  unless ← file.isDir do return files
  let names := (← file.readDir).toList.map fun e => e.fileName
  (names.filter isSeedName).foldlM (fun files name => loadPlace files (place.step name)) files

/-- Adds what lies at the address of a hub. -/
def loadHub (files : FileTree) (address : String) : IO FileTree := do
  let files ← load files address
  match HubAddress.parse address with
  | .ok a => load (← load files a.path) (a.pattern.getD "")
  | .error _ => return files

/-- Adds all that a command line needs. -/
def loadAll (files : FileTree) (i : Invocation) : IO FileTree := do
  let files ← loadHub files i.db
  match i.command with
  | .importSeed path => loadSeeds (← load files path) path
  | .cloneTag .. => return files

/-- Writes directories, and the hub at an address. -/
def store (files : FileTree) (address : String) : IO Unit := do
  for (place, e) in files.entries do
    if let .directory := e then IO.FS.createDirAll (pathOf place)
  let .ok a := HubAddress.parse address | return
  if a.isVolatile || a.isReadOnly then return
  let some place := files.locateHub a.path | return
  if let some (.hub tables logged) := files.find? place then
    IO.FS.writeFile (pathOf place) ((hubToJson tables logged).render ++ "\n")

/-- A clock that stands at a time. -/
def clockAt (seconds : Float) : Clock := .wall fun _ => seconds

/-- Runs a command line, and returns its exit code. -/
def runOnDisk (words : List String) : IO UInt32 := do
  let values ← [Globals.dbVariable, Globals.userVariable].filterMapM fun name => do
    return (← IO.getEnv name).map fun value => (name, value)
  let env (name : String) : Option String := values.lookup name
  let now := (← Std.Time.Timestamp.now).toNanosecondsSinceUnixEpoch.val
  let random := (← IO.getRandomBytes 10).foldl (fun n b => 256 * n + b.toNat) 0
  let invocation := Invocation.parse env words
  let home := (pathNames (toString (← IO.currentDir))).filter fun name => !name.isEmpty
  let files ← match invocation with
    | .ok i => loadAll { home } i
    | .error _ => pure {}
  let (printed, files) := run
    { files, env, clock := clockAt (Float.ofInt now / 1e9)
      requestId := RunId.ofTime (now.toNat / 1000000) random } words
  if let .ok i := invocation then store files i.db
  IO.print printed.out
  IO.eprint printed.err
  return printed.status.code

end TagSync.Main

def main (words : List String) : IO UInt32 := TagSync.Main.runOnDisk words
