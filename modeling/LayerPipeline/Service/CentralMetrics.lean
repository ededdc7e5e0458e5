import LayerPipeline.Message.Planning

/-!
# Collected metrics

The coordinator keeps the latest reports of stage executions and counts all of them.
-/

namespace LayerPipeline

/-- A bounded store of reports, oldest first. -/
@[ext]
structure CentralMetrics (α : Type) where
  records : List (MetricsRecord α)
  capacity : Nat
  totalReceived : Nat
  /-- There is room for a report. -/
  room : 0 < capacity
  /-- Nothing is stored that there is no room for. -/
  held : records.length ≤ capacity
deriving DecidableEq

namespace CentralMetrics

variable {α : Type}

/-- How many reports a summary shows. -/
def recentLimit : Nat := 10

/-- An empty store for at least one report. -/
def empty (capacity : Nat) : CentralMetrics α where
  records := []
  capacity := max capacity 1
  totalReceived := 0
  room := Nat.le_max_right ..
  held := Nat.zero_le _

instance : Inhabited (CentralMetrics α) := ⟨empty 0⟩

/-- What is kept when one more report comes in: a full store drops its oldest one. -/
def kept (c : CentralMetrics α) : List (MetricsRecord α) :=
  if c.records.length = c.capacity then c.records.drop 1 else c.records

theorem length_kept_lt (c : CentralMetrics α) : c.kept.length < c.capacity := by
  have hroom := c.room
  have hheld := c.held
  unfold kept
  split
  · rw [List.length_drop]
    omega
  · omega

/-- Stores a report. -/
def push (c : CentralMetrics α) (r : MetricsRecord α) : CentralMetrics α :=
  { c with
    records := c.kept ++ [r]
    totalReceived := c.totalReceived + 1
    held := List.length_append ▸ c.length_kept_lt }

/-- Stores a report, and says how many have come in so far. -/
def submit (c : CentralMetrics α) (r : MetricsRecord α) : UInt64 × CentralMetrics α :=
  let next := c.push r
  (UInt64.ofNat next.totalReceived, next)

/-- The stored reports of a source, or all of them. -/
def ofSource (c : CentralMetrics α) (source : Option String) : List (MetricsRecord α) :=
  match source with
  | some s => c.records.filter fun r => r.source = s
  | none => c.records

/-- The stored reports in brief. -/
def report [Scalar α] (c : CentralMetrics α) (source : Option String) : MetricsReport α :=
  let filtered := c.ofSource source
  { totalRecords := UInt64.ofNat c.totalReceived
    filteredRecords := UInt64.ofNat filtered.length
    bySource := .tally (c.records.map (·.source))
    averageMs :=
      if filtered.isEmpty then 0.0
      else Scalar.sum (filtered.map fun r => r.report.forwardMs) / Scalar.ofNat filtered.length
    recent := filtered.drop (filtered.length - recentLimit) }

end CentralMetrics

end LayerPipeline
