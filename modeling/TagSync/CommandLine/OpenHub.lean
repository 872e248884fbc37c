import TagSync.FileTree
import TagSync.Hub.Address
import TagSync.Hub.Import

/-!
Opening a hub by its address.

The directories around the hub are made first, by the address as it is written. The path of the
hub itself is then read in a way of its own: dots and doubled slashes drop out, also at the end,
and two dots undo the name before them even if nothing is there. A missing or empty file is a new
hub, and so is a file of a single byte.

The file of a hub may have to be left alone. Then everything can be read and all checks are made as
ever, but the first write fails, and every change starts with one.
-/

namespace TagSync

/-! ### Hubs that can only be read -/

namespace Hub

def readOnlyFailure : Failure := storageFailure "attempt to write a readonly database"

/-- A request with several calls. Those that the user may not make are rejected before anything
is written. -/
def multicallReadOnly (h : Hub) (id : TagId) (operations : List Operation) (flags : CallFlags) :
    Reply Hub (.multicall id operations flags) :=
  match h.tables.getTag (.byId id) none with
  | none => h.multicall id operations flags
  | some tag =>
    if h.mayWrite tag && !operations.isEmpty then ⟨.error readOnlyFailure, h, []⟩
    else h.multicall id operations flags

/-- The session of a hub that can only be read. -/
def readOnlySession : Session Hub := fun h r =>
  match r with
  | .createTag name _ =>
    if (h.tables.tagNamed? name).isSome then ⟨.error (tagExists name), h, []⟩
    else ⟨.error readOnlyFailure, h, []⟩
  | .editTag .. => ⟨.error readOnlyFailure, h, []⟩
  | .multicall id operations flags => h.multicallReadOnly id operations flags
  | r => session h r

/-- Checks a text that is to be imported, which is all that can be done. -/
def importReadOnly (h : Hub) (yaml : String) : Except Failure ImportSummary × Hub :=
  match h.parseSeed yaml with
  | .ok _ => (.error readOnlyFailure, h)
  | .error e => (.error e, h)

end Hub

/-! ### Places of hubs -/

namespace FileTree

/-- Beyond this many bytes a path is not read on. -/
def hubPathBuffer : Nat := 513

/-- The greatest number of bytes in the path of a hub, which leaves room for the name of a
journal beside it. -/
def hubPathLimit : Nat := 504

/-- Reads the names in the path of a hub. -/
def followHub (t : FileTree) : Location → List String → Option Location
  | here, [] => if here.isEmpty || hubPathLimit < here.size then none else some here
  | here, name :: rest =>
    if Location.staysHere name || name = ".." then followHub t (here.step name) rest
    else if hubPathBuffer ≤ here.size + name.utf8ByteSize + 2 then none
    else
      match t.find? here with
      | some .directory => if isLongName name then none else followHub t (here.step name) rest
      | some _ => none
      | none => followHub t (here.step name) rest

/-- The place of a hub. -/
def locateHub (t : FileTree) (path : String) : Option Location :=
  t.followHub [] ((if path.startsWith "/" then [] else t.home) ++ pathNames path)

end FileTree

namespace CommandLine

/-- A hub that was opened. -/
structure OpenHub where
  /-- Its place, unless it lies in no file. -/
  place : Option Location
  tables : Tables
  readOnly : Bool := false
  /-- Whether a log is kept beside its file. -/
  logged : Bool := true

namespace OpenHub

/-- The files after a run that left other content in the hub. -/
def store (o : OpenHub) (files : FileTree) (tables : Tables) : FileTree :=
  match o.place with
  | some place => if o.readOnly then files else files.put place (.hub tables o.logged)
  | none => files

def session (o : OpenHub) : Session Hub := if o.readOnly then Hub.readOnlySession else Hub.session

def importYaml (o : OpenHub) (h : Hub) (yaml : String) : Except Failure ImportSummary × Hub :=
  if o.readOnly then h.importReadOnly yaml else h.importYaml yaml

end OpenHub

/-! ### Failures -/

def noDirectory (e : FileError) : Failure :=
  { kind := .io, op := some "create_db_dir", message := e.message }

/-- There is no such file, or it cannot be made. -/
def cannotOpen (address : String) : Failure :=
  Hub.storageFailure ("unable to open database file: " ++ address)

/-- The hub is open, but no file can be had beside it. -/
def cannotOpenBeside : Failure := Hub.storageFailure "unable to open database file"

def cannotRead : Failure := Hub.storageFailure "disk I/O error"

def notAHub : Failure := Hub.storageFailure "file is not a database"

/-! ### Opening -/

/-- What stands behind the name of a hub in that of its journal. -/
def journalEnding : String := "-journal"

/-- Makes a hub in an empty file. While it is made a journal lies beside it. -/
def newHub (place : Location) (a : HubAddress) : Except Failure OpenHub :=
  if a.isReadOnly then .error Hub.readOnlyFailure
  else if a.lacksIndex || isLongName (place.getLastD "" ++ journalEnding) then
    .error cannotOpenBeside
  else .ok { place, tables := .empty, logged := a.usesLog }

/-- Opens a hub that is there. Where a log may be used it is used from then on; a hub with a log
cannot do without it, unless it never changes. -/
def openKept (place : Location) (a : HubAddress) (tables : Tables) (logged : Bool) :
    Except Failure OpenHub :=
  if a.usesLog then
    if !logged && a.isReadOnly then .error Hub.readOnlyFailure
    else if a.lacksIndex then .error cannotOpenBeside
    else .ok { place, tables, readOnly := a.isReadOnly }
  else if logged && !a.frozen then .error cannotOpenBeside
  else .ok { place, tables, readOnly := a.isReadOnly, logged }

/-- Opens what lies in a hub's file. -/
def openEntry (place : Location) (a : HubAddress) (address : String) :
    FileEntry → Except Failure OpenHub
  | .hub tables logged => openKept place a tables logged
  | .text s => if s.utf8ByteSize ≤ 1 then newHub place a else .error notAHub
  | .binary => .error notAHub
  | .directory =>
    if a.access = .readOnly then .error cannotRead else .error (cannotOpen address)

/-- The greatest number of bytes in the name of a hub that lies in no file. -/
def volatileNameLimit : Nat := 1016

/-- Opens a hub that is gone after the run. -/
def openVolatile (a : HubAddress) (address : String) : Except Failure OpenHub :=
  if a.isNamed && volatileNameLimit < a.path.utf8ByteSize then .error (cannotOpen address)
  else if a.isReadOnly then .error Hub.readOnlyFailure
  else .ok { place := none, tables := .empty }

/-- Opens the hub in the file at a place, which is made if it may be. -/
def openPlace (files : FileTree) (place : Location) (a : HubAddress) (address : String) :
    FileTree × Except Failure OpenHub :=
  if a.pattern.any fun path => !files.isThere path then (files, .error cannotRead)
  else
    match files.find? place with
    | some e => (files, openEntry place a address e)
    | none =>
      if a.access = .create && files.isDirectoryAt place.dropLast then
        (files.put place (.text ""), newHub place a)
      else (files, .error (cannotOpen address))

/-- Opens the hub at an address that was read. -/
def openAt (files : FileTree) (a : HubAddress) (address : String) :
    FileTree × Except Failure OpenHub :=
  if a.isVolatile then (files, openVolatile a address)
  else
    match files.locateHub a.path with
    | none => (files, .error (cannotOpen address))
    | some place => openPlace files place a address

/-- Opens a hub; the directories around it are made, and so is its file. -/
def openHub (files : FileTree) (address : String) : FileTree × Except Failure OpenHub :=
  match files.makeParents address with
  | (files, .error e) => (files, .error (noDirectory e))
  | (files, .ok ()) =>
    match HubAddress.parse address with
    | .error message => (files, .error (Hub.storageFailure message))
    | .ok a =>
      match openAt files a address with
      | (files, .ok o) => (o.store files o.tables, .ok o)
      | (files, .error f) => (files, .error f)

end CommandLine

end TagSync
