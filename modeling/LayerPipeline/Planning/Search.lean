import LayerPipeline.Config
import LayerPipeline.Error.Planning
import LayerPipeline.Layer.Cost

/-!
# Search for a partition

A partition cuts the layer sequence into contiguous blocks and places them on nodes at increasing
positions of the roster, at most one block on a node. The search fills one row of cells per node:
the cell for `i` layers and `k` stages holds the best partition of the first `i` layers into `k`
blocks on the nodes considered so far.
-/

namespace LayerPipeline

/-- The layers from `start` up to `stop`, placed on the node at a position of the roster. -/
structure Block where
  node : Nat
  start : Nat
  stop : Nat
deriving DecidableEq, Inhabited

namespace Planning

variable {α : Type}

/-- What a partition amounts to so far. -/
structure Tally (α : Type) where
  maxLatency : α
  totalLatency : α
  maxUtilization : α
deriving DecidableEq, Inhabited

/-- How a cell was reached: its last node hosts nothing, or the layers from `start` on. -/
inductive Choice where
  | skip
  | use (start : Nat)
deriving DecidableEq, Inhabited

/-- The best partition found for a number of layers and of stages. -/
structure Cell (α : Type) where
  tally : Tally α
  choice : Choice
deriving DecidableEq, Inhabited

variable [Scalar α]

/-- Differences up to this size do not count. -/
def tolerance : α := 1e-9

/-- Nothing placed. -/
def Tally.zero : Tally α := ⟨0.0, 0.0, 0.0⟩

/-- One more stage. -/
def Tally.extend (t : Tally α) (latency utilization : α) : Tally α :=
  ⟨max t.maxLatency latency, t.totalLatency + latency, max t.maxUtilization utilization⟩

/-- Objectives of a strategy, the first one first. -/
def Tally.key (t : Tally α) : Strategy → α × α
  | .balanced => (t.maxLatency, t.totalLatency)
  | .latency => (t.totalLatency, t.maxLatency)
  | .memory => (t.maxUtilization, t.totalLatency)

/-- Lexicographic comparison of objectives up to a tolerance. -/
def keyLess (tol : α) (x y : α × α) : Bool :=
  if tol < Scalar.distance x.1 y.1 then x.1 < y.1 else x.2 < y.2 - tol

/-- Compute time on a device of work that takes `costMs` on the reference device. -/
def computeOn (config : PlannerConfig α) (device : Capability α) (costMs : α) :
    Except DataError α :=
  device.executionTime (costMs * config.referenceScore)

/-- Time of a hand-off into a stage on a node. -/
def transferMs (config : PlannerConfig α) (node : Node α) : α :=
  let wireMs := if (0.0 : α) < node.bandwidthMbps then
    config.activationMb * 8.0 / node.bandwidthMbps * 1000.0 else 0.0
  node.latencyMs + wireMs

/-- Sums of the first `0`, `1`, … values, rounded like the summation from the left. -/
def prefixSums (xs : List α) : Array α :=
  xs.foldl (fun acc x => acc.push (acc.back?.getD 0.0 + x)) #[0.0]

/-- How many of the first `0`, `1`, … values satisfy a test. -/
def prefixCounts {β : Type} (p : β → Bool) (xs : List β) : Array Nat :=
  xs.foldl (fun acc x => acc.push (acc.back?.getD 0 + if p x then 1 else 0)) #[0]

/-- The layer sequence, prepared for questions about blocks of it. -/
structure Sequence (α : Type) where
  count : Nat
  latency : Array α
  memory : Array α
  requirements : List (Requirement α)

/-- Prepares a layer sequence. -/
def Sequence.ofLayers (layers : List (LayerCost α)) : Sequence α where
  count := layers.length
  latency := prefixSums (layers.map (·.latencyMs))
  memory := prefixSums (layers.map (·.memoryMb))
  requirements := layers.map (·.requirement)

/-- Reference latency of the layers from `start` up to `stop`. -/
def Sequence.blockLatency (s : Sequence α) (start stop : Nat) : α :=
  s.latency[stop]?.getD 0.0 - s.latency[start]?.getD 0.0

/-- Memory of the layers from `start` up to `stop`. -/
def Sequence.blockMemory (s : Sequence α) (start stop : Nat) : α :=
  s.memory[stop]?.getD 0.0 - s.memory[start]?.getD 0.0

/-- A node, prepared for questions about what it can host. -/
structure Host (α : Type) where
  device : Capability α
  capacityMb : α
  transferMs : α
  /-- How many of the first layers the node cannot host. -/
  unsuitable : Array Nat

/-- Prepares a node for a layer sequence. -/
def Host.ofNode (config : PlannerConfig α) (s : Sequence α) (node : Node α) : Host α :=
  let device := node.toCapability
  { device
    capacityMb := node.availableGb * 1024.0
    transferMs := Planning.transferMs config node
    unsuitable := prefixCounts (fun r => !device.suits r) s.requirements }

/-- Compute time of a block on a host, if the host can take it: every layer is suitable, the memory
suffices up to the tolerance, and the device has throughput left. -/
def blockTime? (config : PlannerConfig α) (tol : α) (s : Sequence α) (h : Host α)
    (start stop : Nat) : Option α :=
  if h.unsuitable[start]?.getD 0 < h.unsuitable[stop]?.getD 0 then none
  else if h.capacityMb + tol < s.blockMemory start stop then none
  else (computeOn config h.device (s.blockLatency start stop)).toOption

/-- The tally after one more block on a host. The first block of a sequence needs no hand-off. -/
def placeBlock? (config : PlannerConfig α) (tol : α) (s : Sequence α) (h : Host α)
    (start stop : Nat) (t : Tally α) : Option (Tally α) :=
  (blockTime? config tol s h start stop).map fun compute =>
    let latency := compute + if 0 < start then h.transferMs else 0.0
    let utilization :=
      if (0.0 : α) < h.capacityMb then s.blockMemory start stop / h.capacityMb else 1.0
    t.extend latency utilization

/-- A row of cells by number of layers and number of stages. -/
structure Row (α : Type) where
  cells : Array (Array (Option (Cell α)))

/-- The cell for `i` layers and `k` stages. -/
def Row.cell? (r : Row α) (i k : Nat) : Option (Cell α) :=
  match r.cells[i]? with
  | some cs => (cs[k]?).join
  | none => none

/-- The row with a given cell at every place up to `n` layers and `maxK` stages. -/
def Row.ofFn (n maxK : Nat) (f : Nat → Nat → Option (Cell α)) : Row α :=
  ⟨Array.ofFn fun i : Fin (n + 1) => Array.ofFn fun k : Fin (maxK + 1) => f i k⟩

/-- Before any node is considered, only no layers in no stages are covered. -/
def firstRow (n maxK : Nat) : Row α :=
  Row.ofFn n maxK fun i k => if i = 0 && k = 0 then some ⟨.zero, .skip⟩ else none

/-- The better of the best cell so far and a new candidate; the earlier one wins a draw. -/
def better (tol : α) (strategy : Strategy) (best : Option (Cell α)) (c : Cell α) :
    Option (Cell α) :=
  match best with
  | none => some c
  | some b => if keyLess tol (c.tally.key strategy) (b.tally.key strategy) then some c else some b

/-- The candidate that hosts the layers from `start` up to `i` as stage `k + 1`. -/
def candidate? (config : PlannerConfig α) (tol : α) (s : Sequence α) (h : Host α) (prev : Row α)
    (i k start : Nat) : Option (Cell α) := do
  let before ← prev.cell? start k
  let tally ← placeBlock? config tol s h start i before.tally
  return ⟨tally, .use start⟩

/-- The best cell for `i` layers and `k` stages with one more node: the node is skipped, or it
hosts a last block. -/
def nextCell? (config : PlannerConfig α) (tol : α) (strategy : Strategy) (s : Sequence α)
    (h : Host α) (prev : Row α) (i k : Nat) : Option (Cell α) :=
  let skipped := (prev.cell? i k).map fun c => { c with choice := Choice.skip }
  match k with
  | 0 => skipped
  | k + 1 =>
    (List.range i).foldl (fun best start =>
      match candidate? config tol s h prev i k start with
      | some c => better tol strategy best c
      | none => best) skipped

/-- The row with one more node. -/
def nextRow (config : PlannerConfig α) (tol : α) (strategy : Strategy) (s : Sequence α)
    (maxK : Nat) (prev : Row α) (node : Node α) : Row α :=
  let h := Host.ofNode config s node
  Row.ofFn s.count maxK (nextCell? config tol strategy s h prev)

/-- The rows for all initial parts of the roster, the one for the whole roster first. -/
def rows (config : PlannerConfig α) (strategy : Strategy) (s : Sequence α) (maxK : Nat)
    (nodes : List (Node α)) : List (Row α) :=
  let tol : α := tolerance
  nodes.foldl (fun done node =>
    match done with
    | prev :: _ => nextRow config tol strategy s maxK prev node :: done
    | [] => []) [firstRow s.count maxK]

/-- The best number of stages for the whole sequence. -/
def bestCount? (strategy : Strategy) (n maxK : Nat) (last : Row α) : Option (Nat × Tally α) :=
  let tol : α := tolerance
  (List.range maxK).foldl (fun best k =>
    match last.cell? n (k + 1) with
    | none => best
    | some c =>
      match best with
      | none => some (k + 1, c.tally)
      | some (_, t) =>
        if keyLess tol (c.tally.key strategy) (t.key strategy) then some (k + 1, c.tally)
        else best) none

/-- Collects the blocks of a cell from the last row to the first; `done` holds those found. -/
def trace : List (Row α) → Nat → Nat → List Block → Except PlanningError (List Block)
  | [], _, _, done => .ok done
  | [_], _, _, done => .ok done
  | row :: prev :: rest, i, k, done =>
    if i = 0 then .ok done
    else
      match row.cell? i k with
      | none => .error (.infeasible "partition table inconsistent")
      | some c =>
        match c.choice with
        | .skip => trace (prev :: rest) i k done
        | .use start =>
          match k with
          | 0 => .error (.aborted .overflow)
          | k + 1 => trace (prev :: rest) start k (⟨rest.length, start, i⟩ :: done)

/-- Most stages that a plan for `n` layers on `m` nodes may have. -/
def stageLimit (config : PlannerConfig α) (m n : Nat) : Nat :=
  min (min (max config.maxStages.toNat 1) m) n

/-- Why nothing was found. -/
def infeasibleReason (s : Sequence α) (nodes : List (Node α)) (maxK : Nat) : String :=
  let capacity := Scalar.sum (nodes.map fun n => n.availableGb * (1024.0 : α))
  toString s.count ++ " layers needing " ++ Scalar.fixed 0 (s.memory[s.count]?.getD (0.0 : α)) ++
    " MB do not fit on " ++ toString nodes.length ++ " nodes (" ++ Scalar.fixed 0 capacity ++
    " MB available, at most " ++ toString maxK ++ " stages)"

/-- A best partition of the layers over the nodes, in the order of the layers. -/
def solve (config : PlannerConfig α) (layers : List (LayerCost α)) (nodes : List (Node α))
    (strategy : Strategy) : Except PlanningError (List Block) :=
  let s := Sequence.ofLayers layers
  let maxK := stageLimit config nodes.length s.count
  let table := rows config strategy s maxK nodes
  match table.head?.bind (bestCount? strategy s.count maxK) with
  | none => .error (.infeasible (infeasibleReason s nodes maxK))
  | some (k, _) => trace table s.count k []

end Planning

end LayerPipeline
