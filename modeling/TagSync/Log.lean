import TagSync.Moment
import TagSync.Operation
import TagSync.Failure

/-!
What a run and a hub report while they work.

Every event has a level and named fields with texts; the text of the event itself is the field
`message`. A run has a name: 128 bits in hexadecimal digits, of which the first 48 are the time, so
that later names sort behind earlier ones.
-/

namespace TagSync

inductive LogLevel where
  | debug
  | info
  | warn
  | error
  deriving DecidableEq, Repr

def LogLevel.text : LogLevel → String
  | .debug => "DEBUG"
  | .info => "INFO"
  | .warn => "WARN"
  | .error => "ERROR"

inductive LogEvent where
  | runStarted (requestId : String) (src dst : TagRef) (dryRun : Bool)
  | runEnded (requestId : String) (operations faults : Nat)
  | runFailed (requestId : String) (failure : Failure)
  | sourcePinned (event : EventInfo)
  | destinationCreated (tag : TagInfo)
  | snapshotFetched (tag : TagInfo) (event : Option EventId) (packages builds groups : Nat)
  | planComputed (packages builds groups : Nat) (config : Bool)
  | batchDelivered (entityClass : EntityClass) (calls : Nat)
  | batchUndelivered (entityClass : EntityClass) (calls roundTrips applied failed : Nat)
  | callRejected (operation : Operation) (fault : RemoteFault)
  /-- The hub made a tag. -/
  | tagMade (tag : TagInfo) (event : EventId)
  /-- The hub rejected a call. -/
  | callRefused (tag : TagInfo) (operation : Operation) (code : Int)

namespace LogEvent

def level : LogEvent → LogLevel
  | .runStarted .. | .runEnded .. => .info
  | .runFailed .. => .error
  | .batchUndelivered .. | .callRejected .. => .warn
  | _ => .debug

/-- The component and the operation that the events at the ends of a run name. -/
def boundary (event : String) : List (String × String) :=
  [("component", "tagclone_engine::commands::clone_tag"), ("op", "clone_tag"), ("event", event)]

def optionText : Option Int → String
  | none => "None"
  | some n => "Some(" ++ toString n ++ ")"

def fields : LogEvent → List (String × String)
  | .runStarted requestId src dst dryRun =>
    boundary "start" ++ [("request_id", requestId), ("src_tag", src.display),
      ("dst_tag", dst.display), ("dry_run", toString dryRun)]
  | .runEnded requestId operations faults =>
    boundary "end" ++ [("request_id", requestId), ("op_count", toString operations),
      ("fault_count", toString faults)]
  | .runFailed requestId failure =>
    boundary "end_error" ++ [("err.kind", failure.kind.name), ("err.code", failure.code),
      ("message", failure.message), ("request_id", requestId)]
  | .sourcePinned event =>
    [("message", "pinned source event"), ("event", toString event.id), ("time", event.timestr)]
  | .destinationCreated tag =>
    [("message", "created destination"), ("tag", tag.name), ("tag_id", toString tag.id)]
  | .snapshotFetched tag event packages builds groups =>
    [("message", "fetched snapshot"), ("tag", tag.name), ("tag_id", toString tag.id),
      ("event", optionText event), ("packages", toString packages), ("builds", toString builds),
      ("groups", toString groups)]
  | .planComputed packages builds groups config =>
    [("message", "computed plan"), ("packages", toString packages), ("builds", toString builds),
      ("groups", toString groups), ("config", toString config)]
  | .batchDelivered entityClass calls =>
    [("message", "batch delivered"), ("class", entityClass.text), ("batch_len", toString calls)]
  | .batchUndelivered entityClass calls roundTrips applied failed =>
    [("message", "batch undelivered, aborting"), ("class", entityClass.text),
      ("batch_len", toString calls), ("round_trips", toString roundTrips),
      ("applied", toString applied), ("failed", toString failed)]
  | .callRejected operation fault =>
    [("message", fault.message), ("operation", operation.display), ("code", toString fault.code)]
  | .tagMade tag event =>
    [("message", "created tag"), ("tag", tag.name), ("tag_id", toString tag.id),
      ("event", toString event)]
  | .callRefused tag operation code =>
    [("message", "call rejected"), ("tag", tag.name), ("op", operation.display),
      ("code", toString code)]

end LogEvent

/-! ### Names of runs -/

namespace RunId

/-- A number in so many hexadecimal digits; higher ones are dropped. -/
def hexDigits : Nat → Nat → List Char
  | 0, _ => []
  | width + 1, n => hexDigits width (n / 16) ++ [Nat.digitChar (n % 16)]

/-- The name of a run that starts at a time, in milliseconds since the epoch. The digit `7` says
that it is made of the time, and the top bits of the fourth part have a fixed value. -/
def ofTime (milliseconds random : Nat) : String :=
  let fourth := 0x8000 + (random >>> 12) % 0x4000
  String.ofList (hexDigits 8 (milliseconds >>> 16) ++ '-' :: hexDigits 4 milliseconds ++
    '-' :: '7' :: hexDigits 3 random ++ '-' :: hexDigits 4 fourth ++
    '-' :: hexDigits 12 (random >>> 26))

end RunId

end TagSync
