import LayerPipeline.Error.Data

/-!
# Liveness of workers
-/

namespace LayerPipeline

/-- When each worker was last heard of. Times are in microseconds. -/
structure HeartbeatMonitor where
  interval : Nat
  timeout : Nat
  /-- One entry per tracked node. -/
  lastSeen : List (String × Nat)
deriving DecidableEq, Inhabited

namespace HeartbeatMonitor

/-- A monitor for a heartbeat interval in milliseconds. The timeout is a multiple of it, which has
to stay below `2 ^ 64` seconds. -/
def start? (intervalMs factor : Nat) : Option HeartbeatMonitor :=
  if intervalMs * factor / 1000 < UInt64.size then
    some ⟨intervalMs * 1000, intervalMs * factor * 1000, []⟩
  else none

/-- Notes a sign of life. -/
def beat (m : HeartbeatMonitor) (id : String) (now : Nat) : HeartbeatMonitor :=
  { m with lastSeen := (id, now) :: m.lastSeen.filter fun e => e.1 ≠ id }

/-- Stops tracking a node. -/
def remove (m : HeartbeatMonitor) (id : String) : HeartbeatMonitor :=
  { m with lastSeen := m.lastSeen.filter fun e => e.1 ≠ id }

/-- The tracked nodes. -/
def tracked (m : HeartbeatMonitor) : List String := m.lastSeen.map (·.1)

/-- The nodes that were not heard of for longer than the timeout, by name. They stay tracked. -/
def timedOut (m : HeartbeatMonitor) (now : Nat) : List String :=
  ((m.lastSeen.filter fun e => m.timeout < now - e.2).map (·.1)).mergeSort (· ≤ ·)

/-- Whether a node was heard of within the timeout. -/
def isAlive (m : HeartbeatMonitor) (id : String) (now : Nat) : Bool :=
  match m.lastSeen.lookup id with
  | some seen => now - seen ≤ m.timeout
  | none => false

end HeartbeatMonitor

end LayerPipeline
