import TagSync.CommandLine.Invocation
import TagSync.CommandLine.OpenHub
import TagSync.Json.Printer

/-!
Running a command line.

A run reads and writes nothing but files. It ends with a status, the text it printed and the
files it leaves. Of a hub it keeps what is durable: a transaction that is open at the end is
lost.
-/

namespace TagSync.CommandLine

/-- Where a command line runs. -/
structure Surroundings where
  files : FileTree
  env : String → Option String
  clock : Clock := .steady
  /-- The name of a clone run. -/
  requestId : String

inductive Status where
  | success
  | failure
  /-- What was asked for is refused. -/
  | usage
  /-- The words of the command line are wrong. -/
  | misuse
  deriving DecidableEq, Repr

namespace Status

def code : Status → UInt32
  | .success => 0
  | .failure => 1
  | .usage | .misuse => 2

def ofFailure (f : Failure) : Status := if f.isUsage then .usage else .failure

end Status

/-- What a run has printed, and how it ended. -/
structure Printed where
  out : String := ""
  err : String := ""
  status : Status := .success

namespace Printed

/-- The same with more output in front. -/
def after (out : String) (p : Printed) : Printed := { p with out := out ++ p.out }

def ofFailure (f : Failure) : Printed :=
  ⟨"", "Error: " ++ f.display ++ "\n", .ofFailure f⟩

end Printed

/-! ### Importing seeds -/

/-- What stands behind the last dot of a file's name, if something stands before it. -/
def nameExtension? (name : String) : Option String :=
  let reversed := name.toList.reverse
  match reversed.dropWhile (· ≠ '.') with
  | '.' :: _ :: _ => some (String.ofList (reversed.takeWhile (· ≠ '.')).reverse)
  | _ => none

def isSeedName (name : String) : Bool :=
  match nameExtension? name with
  | some "yaml" | some "yml" => true
  | _ => false

/-- The path of something in a directory. -/
def childPath (directory name : String) : String :=
  if directory.endsWith "/" then directory ++ name else directory ++ "/" ++ name

/-- The seed files that a path stands for: itself, or those of a directory, sorted, so that a
seed can build on earlier ones. -/
def seedPaths (files : FileTree) (path : String) : List String :=
  match files.locate path with
  | .ok place =>
    match files.find? place with
    | some .directory => ((files.children place).filter isSeedName).map (childPath path)
    | _ => [path]
  | .error _ => [path]

def importFile (o : OpenHub) (h : Hub) (files : FileTree) (path : String) :
    Except Failure ImportSummary × Hub :=
  match files.read path with
  | .ok yaml => o.importYaml h yaml
  | .error e => (.error (SeedError.unreadableFile e.message).toFailure, h)

def imported (path : String) (s : ImportSummary) : String :=
  "Imported " ++ path ++ " at event " ++ toString s.event ++ ": " ++ toString s.users ++
    " user(s), " ++ toString s.builds ++ " build(s), " ++ toString s.tags ++
    " tag(s) (digest: " ++ s.digest ++ ")\n"

/-- Imports files in turn, up to the first one that fails. -/
def importAll (o : OpenHub) (files : FileTree) : List String → Hub → Printed × Hub
  | [], h => ({}, h)
  | path :: rest, h =>
    match importFile o h files path with
    | (.ok s, h) =>
      let (p, h) := importAll o files rest h
      (p.after (imported path s), h)
    | (.error f, h) => (.ofFailure f, h)

/-! ### Cloning -/

def noUser : Failure :=
  { kind := .invalidInput, op := some "clone_tag"
    message := "no user given; pass --user or set TAGCLONE_USER" }

/-- The point of history of a run. -/
def cloningAt (e : EventInfo) : String :=
  "Cloning at event " ++ toString e.id ++ " (" ++ e.timestr ++ ")\n"

def appliedLine (dst : TagInfo) (a : ApplyReport) : String :=
  "Applied " ++ toString a.applied ++ " operation(s) to " ++ dst.name ++ " in " ++
    toString a.roundTrips ++ " request(s)" ++
    (if a.configUpdated then ", config updated" else "") ++ "\n"

def failedLine (f : FailedOperation) : String :=
  "Failed: " ++ f.operation.display ++ ": " ++ f.fault.display ++ "\n"

/-- What is printed about a run that succeeds. -/
def printResult (verbose : Bool) (r : CloneResult) : Printed :=
  let event := match verbose, r.event with
    | true, some e => cloningAt e
    | _, _ => ""
  let report := event ++ r.report.getD ""
  if r.dryRun then { out := report ++ "Test mode, nothing written: " ++ r.plan.summary ++ "\n" }
  else
    match r.applied with
    | some a =>
      { out := report ++ appliedLine r.dst a, err := String.join (a.failed.map failedLine) }
    | none => { out := report }

/-- A run with rejected calls counts as a failure. -/
def printClone (verbose json : Bool) (r : CloneResult) : Printed :=
  let p : Printed := if json then { out := r.toJson.renderIndented ++ "\n" }
    else printResult verbose r
  { p with status := if r.faultCount = 0 then .success else .failure }

def cloneTagOn (session : Session Hub) (requestId : String) (options : CloneOptions) (json : Bool)
    (h : Hub) : Printed × Hub :=
  let outcome := (Clone.run ⟨requestId, none⟩ options).run session h
  match outcome.result with
  | .ok r => (printClone options.verbose json r, outcome.state)
  | .error f => (.ofFailure f, outcome.state)

/-! ### Whole runs -/

/-- Works on the hub at an address, and keeps what is durable. -/
def onHub (s : Surroundings) (address user : String)
    (work : OpenHub → FileTree → Hub → Printed × Hub) : Printed × FileTree :=
  match openHub s.files address with
  | (files, .error f) => (.ofFailure f, files)
  | (files, .ok o) =>
    let (p, h) := work o files { tables := o.tables, user, clock := s.clock }
    (p, o.store files h.durable)

/-- Seeds are imported by no user. -/
def Invocation.run (s : Surroundings) (i : Invocation) : Printed × FileTree :=
  match i.command with
  | .importSeed path =>
    onHub s i.db "" fun o files h => importAll o files (seedPaths files path) h
  | .cloneTag options json =>
    match i.user with
    | none => (.ofFailure noUser, s.files)
    | some user => onHub s i.db user fun o _ h => cloneTagOn o.session s.requestId options json h

/-- What a command line prints, and the files it leaves. -/
def run (s : Surroundings) (words : List String) : Printed × FileTree :=
  match Invocation.parse s.env words with
  | .ok i => i.run s
  | .error (.help text) => ({ out := text }, s.files)
  | .error .misuse =>
    ({ err := "Error: wrong arguments; try --help\n", status := .misuse }, s.files)

end TagSync.CommandLine
