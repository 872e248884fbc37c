import TagSync.Hub.Tables
import TagSync.Sort
import TagSync.Text

/-!
Files and directories, found by paths.

A path is read from the left. All that stands before a slash has to be a directory, also before
the last one. Two dots lead out of the directory that was reached.
-/

namespace TagSync

inductive FileEntry where
  | directory
  | text (content : String)
  /-- Content that is no text. -/
  | binary
  /-- A file that holds a hub, and whether a log is kept beside it when it is used. -/
  | hub (tables : Tables) (logged : Bool)

/-- Why a path leads to no content. -/
inductive FileError where
  | missing
  /-- There is something else where a directory is wanted. -/
  | occupied
  | notDirectory
  | isDirectory
  /-- The path or one of its names is too long. -/
  | tooLong
  | notText
  deriving DecidableEq, Repr

def FileError.message : FileError → String
  | .missing => "No such file or directory (os error 2)"
  | .occupied => "File exists (os error 17)"
  | .notDirectory => "Not a directory (os error 20)"
  | .isDirectory => "Is a directory (os error 21)"
  | .tooLong => "File name too long (os error 36)"
  | .notText => "stream did not contain valid UTF-8"

/-! ### Locations -/

/-- The names that lead to a place from the root. -/
abbrev Location := List String

namespace Location

/-- Whether a name in a path does not lead on. -/
def staysHere (name : String) : Bool := name = "" || name = "."

/-- The place that a name leads to. -/
def step (l : Location) (name : String) : Location :=
  if staysHere name then l else if name = ".." then l.dropLast else l ++ [name]

/-- How many bytes the place takes as a path. -/
def size (l : Location) : Nat := l.foldl (fun n name => n + name.utf8ByteSize + 1) 0

end Location

/-- The names in a path. -/
def pathNames (path : String) : List String := (Text.parts '/' path.toList).map String.ofList

/-- A list of names without those at its end that do not lead on. -/
def withoutTrailing (names : List String) : List String :=
  (names.reverse.dropWhile Location.staysHere).reverse

/-- The names in the path of the directory around what a path leads to. -/
def parentNames (path : String) : List String :=
  withoutTrailing (withoutTrailing (pathNames path)).dropLast

/-- The greatest number of bytes in a name. -/
def nameLimit : Nat := 255

/-- The greatest number of bytes in a path. -/
def pathLimit : Nat := 4095

def isLongName (name : String) : Bool := nameLimit < name.utf8ByteSize

def isLongPath (path : String) : Bool := pathLimit < path.utf8ByteSize

/-! ### Trees -/

structure FileTree where
  /-- The working directory, where a path starts that does not start with a slash. -/
  home : Location := []
  entries : List (Location × FileEntry) := []

namespace FileTree

/-- Where a path starts. -/
def start (t : FileTree) (path : String) : Location := if path.startsWith "/" then [] else t.home

/-- What lies at a place. The working directory and those around it are always there. -/
def find? (t : FileTree) (l : Location) : Option FileEntry :=
  if l.isPrefixOf t.home then some .directory else t.entries.lookup l

def isDirectoryAt (t : FileTree) (l : Location) : Bool :=
  match t.find? l with
  | some .directory => true
  | _ => false

/-- Puts something at a place, instead of what was there. -/
def put (t : FileTree) (l : Location) (e : FileEntry) : FileTree :=
  { t with entries := t.entries.filter (fun p => p.1 != l) ++ [(l, e)] }

/-- Follows names; the last one need not be there. -/
def follow (t : FileTree) : Location → List String → Except FileError Location
  | here, [] => .ok here
  | here, name :: rest =>
    match t.find? here with
    | some .directory => if isLongName name then .error .tooLong else follow t (here.step name) rest
    | some _ => .error .notDirectory
    | none => .error .missing

/-- The place that a path leads to. -/
def locate (t : FileTree) (path : String) : Except FileError Location :=
  if isLongPath path then .error .tooLong else t.follow (t.start path) (pathNames path)

/-- Whether a path leads to something. -/
def isThere (t : FileTree) (path : String) : Bool :=
  match t.locate path with
  | .ok place => !path.isEmpty && (t.find? place).isSome
  | .error _ => false

/-- The text of a file. -/
def read (t : FileTree) (path : String) : Except FileError String := do
  match t.find? (← t.locate path) with
  | some (.text s) => return s
  | some .directory => throw .isDirectory
  | some .binary | some (.hub ..) => throw .notText
  | none => throw .missing

/-- The names in a directory, sorted. -/
def children (t : FileTree) (l : Location) : List String :=
  sortBy id (t.entries.filterMap fun p => if p.1.dropLast = l then p.1.getLast? else none)

/-- Makes the directories on the way from a place; those made before it fails stay. -/
def makeDirectories (t : FileTree) : Location → List String → FileTree × Except FileError Unit
  | _, [] => (t, .ok ())
  | here, name :: rest =>
    let next := here.step name
    if isLongName name then (t, .error .tooLong)
    else
      match t.find? next with
      | some .directory => makeDirectories t next rest
      | some _ => (t, .error (if rest.isEmpty then .occupied else .notDirectory))
      | none => makeDirectories (t.put next .directory) next rest

/-- Makes the directories around what a path leads to. -/
def makeParents (t : FileTree) (path : String) : FileTree × Except FileError Unit :=
  let names := parentNames path
  if isLongPath ("/".intercalate names) then (t, .error .tooLong)
  else t.makeDirectories (t.start path) names

/-- Puts something at a path that names it plainly, with all directories around it. -/
def add (t : FileTree) (path : String) (e : FileEntry) : FileTree :=
  (t.makeParents path).1.put ((pathNames path).foldl Location.step (t.start path)) e

end FileTree

end TagSync
