import LayerPipeline.Error.Data
import LayerPipeline.Error.Link
import LayerPipeline.Error.Planning

/-!
# Errors of a running node
-/

namespace LayerPipeline

/-- Why a node refused or failed a request. -/
inductive ServiceError where
  | session (reason : String)
  | sessionNotFound (id : String)
  | sessionClosed (id : String)
  | invalidTransition (source target : String)
  | noPlan
  | planning (cause : PlanningError)
  | protocol (reason : String)
  | nodeUnreachable (node reason : String)
  | timeout (node : String) (afterMs : Nat)
  /-- A stage answered with a failure. -/
  | stage (index : Nat) (node reason : String)
  | execution (reason : String)
  | capacity (reason : String)
  | network (reason : String)
  | probe (reason : String)
  | aborted (cause : Abort)
deriving DecidableEq, Inhabited

namespace ServiceError

/-- What the error says. -/
def message : ServiceError → String
  | .session r => "session error: " ++ r
  | .sessionNotFound id => "session not found: " ++ id
  | .sessionClosed id => "session closed: " ++ id
  | .invalidTransition a b => s!"invalid state transition: {a} → {b}"
  | .noPlan => "no active plan"
  | .planning e => "planning error: " ++ e.message
  | .protocol r => "protocol violation: " ++ r
  | .nodeUnreachable n r => s!"node {n} unreachable: {r}"
  | .timeout n ms => s!"stage call to node {n} timed out after {ms} ms"
  | .stage i n r => s!"stage {i} on node {n} failed: {r}"
  | .execution r => "execution error: " ++ r
  | .capacity r => "at capacity: " ++ r
  | .network r => "network error: " ++ r
  | .probe r => "hardware probe failed: " ++ r
  | .aborted _ => "computation abandoned"

/-- A data error met while serving a request. -/
def ofData : DataError → ServiceError
  | .protocolViolation r => .protocol r
  | .aborted a => .aborted a
  | e => .execution e.message

/-- A planning error met while serving a request. -/
def ofPlanning : PlanningError → ServiceError
  | .aborted a => .aborted a
  | e => .planning e

/-- A failed call to `node`. -/
def ofLink (node : String) : LinkError → ServiceError
  | .timeout _ ms => .timeout node ms
  | .unreachable _ r => .nodeUnreachable node r
  | .closed => .nodeUnreachable node "connection closed"
  | e => .network e.message

/-- Failures that make a node unfit for later plans. -/
def isHealthEvent : ServiceError → Bool
  | .timeout .. | .nodeUnreachable .. => true
  | _ => false

end ServiceError

end LayerPipeline
