import TagSync.Failure
import TagSync.Plan

/-!
Plans cut into requests.

A request holds calls of one class, in the order of the plan. A size of zero sends every call
on its own.
-/

namespace TagSync

/-- The largest number of calls in a request; zero for single calls. -/
structure BatchSize where
  calls : Nat
  deriving DecidableEq, Repr

namespace BatchSize

def standard : BatchSize := ⟨1000⟩

def isPerCall (s : BatchSize) : Bool := s.calls = 0

def ofInt (n : Int) : Except SyncError BatchSize :=
  if n < 0 then .error (.negativeBatchSize n) else .ok ⟨n.toNat⟩

end BatchSize

/-- How a request travels. -/
inductive Dispatch where
  | multicall
  /-- One call on its own. -/
  | single
  deriving DecidableEq, Repr

namespace Dispatch

def text : Dispatch → String
  | .multicall => "multicall"
  | .single => "single"

end Dispatch

/-- The calls of one request. -/
structure Batch where
  entityClass : EntityClass
  dispatch : Dispatch
  operations : List Operation
  deriving DecidableEq, Repr

/-- Consecutive pieces of `n` elements, the last one maybe shorter; of one if `n` is zero. -/
def chunks {α : Type} (n : Nat) : List α → List (List α)
  | [] => []
  | a :: rest => (a :: rest.take (n - 1)) :: chunks n (rest.drop (n - 1))
termination_by l => l.length
decreasing_by simp only [List.length_drop, List.length_cons]; omega

/-- The requests of a plan, class by class. -/
def Plan.batches (p : Plan) (size : BatchSize) : List Batch :=
  let dispatch := if size.isPerCall then .single else .multicall
  EntityClass.all.flatMap fun c =>
    (chunks size.calls (p.ofClass c)).map fun ops => ⟨c, dispatch, ops⟩

end TagSync
