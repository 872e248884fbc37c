import TagSync.Plan.Batch
import TagSync.Session

/-!
Sending a plan to a hub.

Requests go out one after the other. A rejected call is recorded and the rest goes on; a
request that fails, or whose answer does not fit it, ends the run.
-/

namespace TagSync

structure FailedOperation where
  operation : Operation
  fault : RemoteFault
  deriving DecidableEq, Repr

def FailedOperation.toJson (f : FailedOperation) : Json :=
  .object [("operation", f.operation.toJson), ("fault", f.fault.toJson)]

/-- What became of a plan. -/
structure ApplyReport where
  /-- The requests that were answered. -/
  roundTrips : Nat := 0
  applied : Nat := 0
  failed : List FailedOperation := []
  configUpdated : Bool := false
  deriving DecidableEq, Repr

namespace ApplyReport

def isClean (r : ApplyReport) : Bool := r.failed.isEmpty

def toJson (r : ApplyReport) : Json :=
  .object [("round_trips", .int r.roundTrips), ("applied", .int r.applied),
    ("failed", .array (r.failed.map FailedOperation.toJson)),
    ("config_updated", .bool r.configUpdated)]

end ApplyReport

/-- One call in a request of its own, which must be answered by one result. -/
def call (dest : TagId) (flags : CallFlags) (o : Operation) : Dialog CallResult := do
  match ← Dialog.ask (.multicall dest [o] flags) with
  | [result] => return result
  | _ => throw { kind := .transport, op := some "call"
                 message := "expected exactly one result for " ++ o.display }

/-- The results of a request, one for every call of it. -/
def deliver (dest : TagId) (flags : CallFlags) (b : Batch) : Dialog (List CallResult) := do
  let results ←
    match b.dispatch with
    | .multicall => Dialog.ask (.multicall dest b.operations flags)
    | .single => b.operations.mapM (call dest flags)
  if results.length = b.operations.length then return results
  else Dialog.refuse (.transport b.operations.length
    ("hub answered with " ++ toString results.length ++ " result(s)"))

/-- The failure of a request, with what was reached before it. -/
def undelivered (r : ApplyReport) (f : Failure) : Failure :=
  { f with
    message := f.message ++ " (after " ++ toString r.roundTrips ++ " request(s): " ++
      toString r.applied ++ " applied, " ++ toString r.failed.length ++ " failed)" }

/-- Counts the results of a request. -/
def record (r : ApplyReport) : List (Operation × CallResult) → Dialog ApplyReport
  | [] => return r
  | (_, .ok ()) :: rest => record { r with applied := r.applied + 1 } rest
  | (o, .error fault) :: rest => do
    Dialog.report (.callRejected o fault)
    record { r with failed := r.failed ++ [⟨o, fault⟩] } rest

/-- Sends requests, one after the other. -/
def applyBatches (dest : TagId) (flags : CallFlags) :
    List Batch → ApplyReport → Dialog ApplyReport
  | [], r => return r
  | b :: rest, r => do
    let results ← tryCatch (deliver dest flags b) fun f => do
      Dialog.report (.batchUndelivered b.entityClass b.operations.length r.roundTrips r.applied
        r.failed.length)
      throw (undelivered r f)
    Dialog.report (.batchDelivered b.entityClass b.operations.length)
    let r ← record { r with roundTrips := r.roundTrips + 1 } (b.operations.zip results)
    applyBatches dest flags rest r

/-- Sends the calls of a plan class by class, and copies the settings last. -/
def Plan.apply (p : Plan) (dest : TagId) (size : BatchSize) (flags : CallFlags) :
    Dialog ApplyReport := do
  let r ← applyBatches dest flags (p.batches size) {}
  match p.config with
  | some config =>
    Dialog.ask (.editTag dest config)
    return { r with configUpdated := true }
  | none => return r

end TagSync
