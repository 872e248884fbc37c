import TagSync.Failure
import TagSync.Log
import TagSync.Snapshot

/-!
Sessions with a hub.

A run is a `Script`: it asks, and what it does next depends on the answers. A `Session` is
anything that answers, with a state of its own; it may fail at any request and need not make
sense. Running a script against a session gives its result together with the trace of all that
was asked, answered and reported.
-/

namespace TagSync

/-- What a caller passes on with every changing call. -/
structure CallFlags where
  /-- Overrides locks and the checks for blocked packages. -/
  force : Bool := false
  /-- Asks for notices about tagged and untagged builds. -/
  notify : Bool := false
  deriving DecidableEq, Repr

namespace CallFlags

def toJson (f : CallFlags) : Json :=
  .object [("force", .bool f.force), ("notify", .bool f.notify)]

def layout : Json.Layout := [("force", .refused), ("notify", .refused)]

def ofJson? (j : Json) : Option CallFlags := do
  let [force, notify] ← j.fields? layout | none
  return ⟨← force.bool?, ← notify.bool?⟩

end CallFlags

inductive Request where
  | hasPerm (perm : String)
  | resolveEvent (asOf : AsOf)
  | getTag (tag : TagRef) (event : Option EventId)
  | listPackages (tag : TagId) (inherited : Bool) (event : Option EventId)
  | listBuilds (tag : TagId) (inherited latestOnly : Bool) (event : Option EventId)
  | listGroups (tag : TagId) (event : Option EventId)
  | createTag (name : String) (config : TagConfig)
  | editTag (tag : TagId) (config : TagConfig)
  /-- Several calls at once; each is accepted or rejected on its own. -/
  | multicall (tag : TagId) (operations : List Operation) (flags : CallFlags)

namespace Request

def Answer : Request → Type
  | .hasPerm _ => Bool
  | .resolveEvent _ => EventInfo
  | .getTag .. => Option TagInfo
  | .listPackages .. => List PackageEntry
  | .listBuilds .. => List BuildEntry
  | .listGroups .. => List GroupEntry
  | .createTag .. => TagInfo
  | .editTag .. => Unit
  | .multicall .. => List CallResult

/-- Whether the request may change the hub. -/
def isWrite : Request → Bool
  | .createTag .. | .editTag .. | .multicall .. => true
  | _ => false

end Request

/-! ### Scripts -/

inductive Script (α : Type) : Type where
  | done (result : α)
  | report (event : LogEvent) (next : Script α)
  | ask (request : Request) (next : Except Failure request.Answer → Script α)

namespace Script

def bind {α β : Type} (f : α → Script β) : Script α → Script β
  | .done a => f a
  | .report e next => .report e (bind f next)
  | .ask r next => .ask r fun answer => bind f (next answer)

instance : Monad Script where
  pure := .done
  bind s f := s.bind f

end Script

/-- A script that may fail. -/
abbrev Dialog := ExceptT Failure Script

namespace Dialog

/-- Asks, and fails if the session fails. -/
def ask (request : Request) : Dialog request.Answer := ExceptT.mk (Script.ask request .done)

def report (event : LogEvent) : Dialog Unit := ExceptT.mk (Script.report event (.done (.ok ())))

def refuse {α : Type} (e : SyncError) : Dialog α := throw e.toFailure

end Dialog

/-! ### Sessions -/

/-- A session's reaction to a request. -/
structure Reply (σ : Type) (request : Request) where
  answer : Except Failure request.Answer
  state : σ
  /-- What the session reports on its own. -/
  log : List LogEvent := []

abbrev Session (σ : Type) := σ → (request : Request) → Reply σ request

/-- One step of a trace. -/
inductive TraceEntry where
  /-- A report of the script. -/
  | reported (event : LogEvent)
  | exchanged (request : Request) (answer : Except Failure request.Answer)
  /-- A report of the session. -/
  | noted (event : LogEvent)

def TraceEntry.logged? : TraceEntry → Option LogEvent
  | .reported e | .noted e => some e
  | .exchanged .. => none

def TraceEntry.request? : TraceEntry → Option Request
  | .exchanged r _ => some r
  | _ => none

/-- A script that has run: its result, the session's last state, and all that happened. -/
structure Outcome (σ α : Type) where
  result : α
  state : σ
  trace : List TraceEntry

namespace Outcome

variable {σ α : Type}

/-- All reports in order. -/
def log (o : Outcome σ α) : List LogEvent := o.trace.filterMap TraceEntry.logged?

/-- All requests in order. -/
def requests (o : Outcome σ α) : List Request := o.trace.filterMap TraceEntry.request?

/-- The same run with earlier steps in front. -/
def after (earlier : List TraceEntry) (o : Outcome σ α) : Outcome σ α :=
  { o with trace := earlier ++ o.trace }

end Outcome

def Script.run {σ α : Type} (session : Session σ) : Script α → σ → Outcome σ α
  | .done a, s => ⟨a, s, []⟩
  | .report e next, s => (run session next s).after [.reported e]
  | .ask r next, s =>
    let reply := session s r
    (run session (next reply.answer) reply.state).after
      (.exchanged r reply.answer :: reply.log.map .noted)

end TagSync
