import TagSync.Json

/-!
Failures, with a stable code for every kind; the faults a hub answers a single call with; and what a
clone run refuses.
-/

namespace TagSync

/-- What went wrong, by the class of the failure. -/
inductive FailureKind where
  | invalidInput
  | locked
  | forbidden
  | notFound
  | alreadyExists
  /-- One call of a request was rejected. -/
  | remoteFault
  /-- A whole request could not be delivered, or its answer does not fit it. -/
  | transport
  | io
  | serialization
  | persistence
  | internal
  deriving DecidableEq, Repr

namespace FailureKind

/-- Every kind with its name and its code. -/
def table : List (FailureKind × String × String) :=
  [(.invalidInput, "InvalidInput", "ERR_INVALID_INPUT"), (.locked, "Locked", "ERR_LOCKED"),
    (.forbidden, "Forbidden", "ERR_FORBIDDEN"), (.notFound, "NotFound", "ERR_NOT_FOUND"),
    (.alreadyExists, "AlreadyExists", "ERR_ALREADY_EXISTS"),
    (.remoteFault, "RemoteFault", "ERR_REMOTE_FAULT"), (.transport, "Transport", "ERR_TRANSPORT"),
    (.io, "Io", "ERR_IO"), (.serialization, "Serialization", "ERR_SERIALIZATION"),
    (.persistence, "Persistence", "ERR_PERSISTENCE"), (.internal, "Internal", "ERR_INTERNAL")]

def name (kind : FailureKind) : String := ((table.lookup kind).getD ("", "")).1

def code (kind : FailureKind) : String := ((table.lookup kind).getD ("", "")).2

def ofName? (name : String) : Option FailureKind := (table.find? (·.2.1 == name)).map (·.1)

/-- Whether the caller asked for something that is refused before anything is written. -/
def isUsage : FailureKind → Bool
  | .invalidInput | .locked | .forbidden => true
  | _ => false

end FailureKind

/-- A failure with its context: the step it arose in, the tag it concerns, the run it belongs
to, and the failure behind it. -/
structure Failure where
  kind : FailureKind
  op : Option String := none
  tag : Option String := none
  requestId : Option String := none
  traceId : Option String := none
  message : String := ""
  source : Option Failure := none

namespace Failure

def code (f : Failure) : String := f.kind.code

def isUsage (f : Failure) : Bool := f.kind.isUsage

/-- The failure in one line, its sources last. -/
def display : Failure → String
  | ⟨kind, op, tag, _, _, message, source⟩ =>
    "[" ++ kind.code ++ "]" ++
      (match op with
        | some op => " in operation '" ++ op ++ "'"
        | none => "") ++
      (if message.isEmpty then "" else ": " ++ message) ++
      (match tag with
        | some tag => " (tag: " ++ tag ++ ")"
        | none => "") ++
      (match source with
        | some f => " <- " ++ display f
        | none => "")

end Failure

/-- A single call that the hub rejected inside a delivered request. -/
structure RemoteFault where
  code : Int
  message : String
  deriving DecidableEq, Repr

namespace RemoteFault

def generic (message : String) : RemoteFault := ⟨1000, message⟩

def locked (message : String) : RemoteFault := ⟨1001, message⟩

def notFound (message : String) : RemoteFault := ⟨1002, message⟩

def conflict (message : String) : RemoteFault := ⟨1003, message⟩

def display (f : RemoteFault) : String := "fault " ++ toString f.code ++ ": " ++ f.message

def toFailure (f : RemoteFault) : Failure :=
  { kind := .remoteFault, op := some "call", message := f.display }

def toJson (f : RemoteFault) : Json :=
  .object [("code", .int f.code), ("message", .string f.message)]

def layout : Json.Layout := [("code", .refused), ("message", .refused)]

def ofJson? (j : Json) : Option RemoteFault := do
  let [code, message] ← j.fields? layout | none
  return ⟨← code.int32?, ← message.string?⟩

end RemoteFault

/-- The hub's answer to one call: accepted, or rejected with a fault. -/
abbrev CallResult := Except RemoteFault Unit

/-! ### Clone runs -/

/-- The refusals of a clone run, by cause. -/
inductive SyncError where
  | sameTag (tag : String)
  | negativeBatchSize (size : Int)
  | buildsWithoutPackages
  | permissionDenied
  | tagNotFound (tag : String)
  | destinationMissing (tag : String)
  | tagLocked (tag : String)
  | eventNotFound (selector : String)
  /-- A request of so many calls got no answer that fits it. -/
  | transport (calls : Nat) (reason : String)
  deriving DecidableEq, Repr

namespace SyncError

def message : SyncError → String
  | .sameTag tag => "Source and destination tags must be different: " ++ tag
  | .negativeBatchSize size => "batch size must not be negative (got " ++ toString size ++ ")"
  | .buildsWithoutPackages => "reconciling builds requires reconciling packages as well"
  | .permissionDenied => "This action requires tag or admin privileges"
  | .tagNotFound tag => "No such tag: " ++ tag
  | .destinationMissing tag =>
    "Destination tag " ++ tag ++
      " does not exist and copying the configuration was not requested"
  | .tagLocked tag =>
    "Tag " ++ tag ++ " is locked; force is required to clone from or to it"
  | .eventNotFound selector => "No event matches " ++ selector
  | .transport calls reason =>
    "Batch of " ++ toString calls ++ " call(s) could not be delivered: " ++ reason

def kind : SyncError → FailureKind
  | .sameTag _ | .negativeBatchSize _ | .buildsWithoutPackages => .invalidInput
  | .permissionDenied => .forbidden
  | .tagNotFound _ | .destinationMissing _ | .eventNotFound _ => .notFound
  | .tagLocked _ => .locked
  | .transport .. => .transport

/-- The step that refuses. -/
def op : SyncError → String
  | .sameTag _ | .negativeBatchSize _ | .buildsWithoutPackages => "validate"
  | .permissionDenied => "check_permissions"
  | .tagNotFound _ => "get_tag"
  | .destinationMissing _ => "fetch_or_create_dest"
  | .tagLocked _ => "check_locks"
  | .eventNotFound _ => "resolve_event"
  | .transport .. => "submit_batch"

/-- The tag the refusal is about. -/
def tag? : SyncError → Option String
  | .sameTag tag | .tagNotFound tag | .destinationMissing tag | .tagLocked tag => some tag
  | _ => none

def toFailure (e : SyncError) : Failure :=
  { kind := e.kind, op := some e.op, tag := e.tag?, message := e.message }

end SyncError

end TagSync
