import TagSync.Plan.Apply
import TagSync.Plan.Diff
import TagSync.Plan.Report
import TagSync.Snapshot.Fetch

/-!
Clone runs: making one tag see what another one sees.

A run checks its options, the user's permission, the point of history, the source and its lock,
then the destination and its lock. Only after that it may write: it creates a missing
destination, compares the two tags, and applies the plan. A dry run stops before it writes.
-/

namespace TagSync

structure CloneOptions where
  src : TagRef
  dst : TagRef
  selection : ClassSelection := .all
  latestOnly : Bool := false
  inheritBuilds : Bool := false
  /-- Removes what only the destination has. -/
  delete : Bool := true
  /-- The point of history the source is read at; the current state if there is none. -/
  asOf : Option AsOf := none
  /-- Asks for a printed report. -/
  verbose : Bool := false
  dryRun : Bool := false
  flags : CallFlags := {}
  /-- The size of requests as it was given; it is checked first. -/
  batch : Int := 1000

namespace CloneOptions

def diffOptions (o : CloneOptions) : DiffOptions := ⟨o.delete, o.latestOnly⟩

end CloneOptions

/-- The names a run carries through its reports and failures. -/
structure RunContext where
  requestId : String
  traceId : Option String := none

/-- How the destination was found. -/
inductive DestinationState where
  | existing
  | created
  /-- It is missing, and a dry run takes an empty tag for it. -/
  | wouldCreate
  deriving DecidableEq, Repr

def DestinationState.text : DestinationState → String
  | .existing => "existing"
  | .created => "created"
  | .wouldCreate => "would_create"

/-- What a run that succeeds has done. -/
structure CloneResult where
  requestId : String
  event : Option EventInfo
  src : TagInfo
  dst : TagInfo
  destination : DestinationState
  plan : Plan
  /-- The printed plan, if it was asked for. -/
  report : Option String
  /-- Absent after a dry run. -/
  applied : Option ApplyReport
  dryRun : Bool

namespace CloneResult

def faultCount (r : CloneResult) : Nat :=
  match r.applied with
  | some a => a.failed.length
  | none => 0

def toJson (r : CloneResult) : Json :=
  .object [("request_id", .string r.requestId), ("event", .ofOption EventInfo.toJson r.event),
    ("src", r.src.toJson), ("dst", r.dst.toJson), ("destination", .string r.destination.text),
    ("plan", r.plan.toJson), ("report", .ofOptionString r.report),
    ("applied", .ofOption ApplyReport.toJson r.applied), ("dry_run", .bool r.dryRun)]

end CloneResult

namespace Clone

/-- The checks that need no hub. -/
def checkOptions (o : CloneOptions) : Except SyncError BatchSize := do
  if o.src = o.dst then throw (.sameTag o.src.display)
  let size ← BatchSize.ofInt o.batch
  if o.selection.builds && !o.selection.packages then throw .buildsWithoutPackages
  return size

/-- The user must hold one of two permissions; the second is asked for only if need be. -/
def checkPermission : Dialog Unit := do
  let admin : Bool ← Dialog.ask (.hasPerm "admin")
  let allowed : Bool ← if admin then pure true else Dialog.ask (.hasPerm "tag")
  if allowed then return () else Dialog.refuse .permissionDenied

def checkLock (tag : TagInfo) (flags : CallFlags) : Dialog Unit :=
  if tag.isLocked && !flags.force then Dialog.refuse (.tagLocked tag.name) else pure ()

/-- The event the source is read at. -/
def pinEvent (o : CloneOptions) : Dialog (Option EventInfo) := do
  match o.asOf with
  | none => return none
  | some asOf =>
    let e ← Dialog.ask (.resolveEvent asOf)
    Dialog.report (.sourcePinned e)
    return some e

/-- What to do about a destination that does not exist. -/
def createDestination (o : CloneOptions) (src : TagInfo) :
    Dialog (TagInfo × DestinationState) := do
  match o.dst with
  | .byId id => Dialog.refuse (.tagNotFound (TagRef.byId id).display)
  | .byName name =>
    if !o.selection.config then Dialog.refuse (.destinationMissing name)
    else if o.dryRun then return (.planned name src.config, .wouldCreate)
    else
      let created ← Dialog.ask (.createTag name src.config)
      Dialog.report (.destinationCreated created)
      return (← resolveTag (.byId created.id) none, .created)

/-- The destination, unless it turns out to be the source. -/
def findDestination (o : CloneOptions) (src : TagInfo) :
    Dialog (TagInfo × DestinationState) := do
  let (dst, state) ←
    match ← Dialog.ask (.getTag o.dst none) with
    | some dst => do
      checkLock dst o.flags
      pure (dst, DestinationState.existing)
    | none => createDestination o src
  if state ≠ .wouldCreate && src.id == dst.id then Dialog.refuse (.sameTag src.name)
  else return (dst, state)

/-- The plan for two tags. -/
def reconcile (o : CloneOptions) (event : Option EventId) (src dst : TagInfo)
    (state : DestinationState) : Dialog Plan := do
  let s ← Snapshot.fetch src event (.source o.selection o.inheritBuilds o.latestOnly)
  let d ←
    if state = .wouldCreate then pure (Snapshot.ofTag dst)
    else Snapshot.fetch dst none (.destination o.selection)
  let p := Diff.plan s d o.selection o.diffOptions
  Dialog.report (.planComputed p.packages.length p.builds.length p.groups.length p.config.isSome)
  return p

def stages (requestId : String) (o : CloneOptions) : Dialog CloneResult := do
  let size ← ExceptT.mk (pure ((checkOptions o).mapError SyncError.toFailure))
  checkPermission
  let event ← pinEvent o
  let eventId := event.map EventInfo.id
  let src ← resolveTag o.src eventId
  checkLock src o.flags
  let (dst, destination) ← findDestination o src
  let plan ← reconcile o eventId src dst destination
  let report := if o.verbose then some plan.report else none
  let applied ← if o.dryRun then pure none else some <$> plan.apply dst.id size o.flags
  return { requestId, event, src, dst, destination, plan, report, applied, dryRun := o.dryRun }

/-- A failure of a run, with the names of the run. -/
def inContext (c : RunContext) (f : Failure) : Failure :=
  { f with requestId := some c.requestId, traceId := c.traceId.or f.traceId }

/-- A whole run, reported at its start and its end. -/
def run (c : RunContext) (o : CloneOptions) : Script (Except Failure CloneResult) := do
  Script.report (.runStarted c.requestId o.src o.dst o.dryRun) (.done ())
  match ← (stages c.requestId o).run with
  | .ok r =>
    Script.report (.runEnded c.requestId r.plan.operationCount r.faultCount) (.done (.ok r))
  | .error f =>
    let f := inContext c f
    Script.report (.runFailed c.requestId f) (.done (.error f))

end Clone

end TagSync
