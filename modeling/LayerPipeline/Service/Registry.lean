import LayerPipeline.Error.Service
import LayerPipeline.Matcher
import LayerPipeline.Message.Status
import LayerPipeline.OrderedDictionary

/-!
# Registered nodes

The roster of a coordinator: descriptor, health, load and reserved memory of every node. A matcher
is kept in step with it, so that device selection sees the same roster as the planner.
-/

namespace LayerPipeline

/-- One node of the roster. -/
structure RegisteredNode (α : Type) where
  descriptor : Descriptor α
  healthy : Bool
  consecutiveFailures : Nat
  lastError : Option String
  loadFactor : α
  activeSessions : UInt32
  /-- Memory held by open sessions. -/
  reservedGb : α
deriving DecidableEq, Inhabited

namespace RegisteredNode

variable {α : Type} [Scalar α]

/-- A node as it is right after its registration. -/
def fresh (d : Descriptor α) : RegisteredNode α := ⟨d, true, 0, none, 0.0, 0, 0.0⟩

/-- The planner's view of the node under its last reported load. -/
def toNode (n : RegisteredNode α) : Node α :=
  { n.descriptor.toNode with utilization := Scalar.clamp n.loadFactor 0.0 1.0 }

end RegisteredNode

/-- The roster. -/
structure Registry (α : Type) where
  /-- The entries by id, and the ids in the order of registration. -/
  roster : OrderedDictionary (RegisteredNode α)
  matcher : Matcher α
  /-- Every entry stands under the id of its own descriptor. -/
  keyed : ∀ id n, roster.get? id = some n → n.descriptor.nodeId = id
deriving DecidableEq

namespace Registry

variable {α : Type}

/-- No nodes. -/
def empty (config : MatcherConfig α) : Registry α := ⟨.empty, .empty config, by simp⟩

instance [Inhabited α] : Inhabited (Registry α) := ⟨empty default⟩

/-- The entry of a node. -/
def get? (r : Registry α) (id : String) : Option (RegisteredNode α) := r.roster.get? id

/-- Whether a node is registered. -/
def contains (r : Registry α) (id : String) : Bool := r.roster.contains id

/-- The entries in the order of registration. -/
def nodes (r : Registry α) : List (RegisteredNode α) := r.roster.values

/-- Number of nodes. -/
def size (r : Registry α) : Nat := r.roster.entries.entries.length

section Keyed

variable {roster : OrderedDictionary (RegisteredNode α)}
  (h : ∀ id n, roster.get? id = some n → n.descriptor.nodeId = id)
include h

theorem keyed_modify {id : String} {f : RegisteredNode α → RegisteredNode α}
    (hf : ∀ n, n.descriptor.nodeId = id → (f n).descriptor.nodeId = id) (k : String)
    (n : RegisteredNode α) (hn : (roster.modify id f).get? k = some n) :
    n.descriptor.nodeId = k := by
  rw [OrderedDictionary.get?_modify] at hn
  split at hn
  · next hk =>
    obtain ⟨old, hold, rfl⟩ := Option.map_eq_some_iff.mp hn
    rw [hk] at hold ⊢
    exact hf old (h id old hold)
  · exact h k n hn

theorem keyed_insert (entry : RegisteredNode α) (k : String) (n : RegisteredNode α)
    (hn : (roster.insert entry.descriptor.nodeId entry).get? k = some n) :
    n.descriptor.nodeId = k := by
  rw [OrderedDictionary.get?_insert] at hn
  split at hn
  · next hk =>
    cases hn
    exact hk.symm
  · exact h k n hn

theorem keyed_erase (id k : String) (n : RegisteredNode α)
    (hn : (roster.erase id).get? k = some n) : n.descriptor.nodeId = k := by
  rw [OrderedDictionary.get?_erase] at hn
  split at hn
  · cases hn
  · exact h k n hn

end Keyed

/-- Changes the entry of a node, but not its id. -/
def modify (r : Registry α) (id : String) (f : RegisteredNode α → RegisteredNode α)
    (hf : ∀ n, n.descriptor.nodeId = id → (f n).descriptor.nodeId = id) : Registry α :=
  { r with roster := r.roster.modify id f, keyed := keyed_modify r.keyed hf }

/-- Whether a node is registered and healthy. -/
def isHealthy (r : Registry α) (id : String) : Bool :=
  ((r.get? id).map (·.healthy)).getD false

/-- Number of healthy nodes. -/
def healthyCount (r : Registry α) : Nat :=
  r.roster.entries.entries.countP fun e => e.2.healthy

/-- Removes a node. -/
def remove (r : Registry α) (id : String) : Registry α :=
  if r.contains id then ⟨r.roster.erase id, r.matcher.remove id, keyed_erase r.keyed id⟩ else r

/-- Takes a node out of later plans and notes why. -/
def markUnhealthy (r : Registry α) (id reason : String) : Registry α :=
  r.modify id
    (fun n =>
      { n with
        consecutiveFailures := n.consecutiveFailures + 1
        lastError := some reason
        healthy := false })
    fun _ h => h

/-- Forgets the failures of a node; its health stays as it is. -/
def recordSuccess (r : Registry α) (id : String) : Registry α :=
  r.modify id (fun n => { n with consecutiveFailures := 0 }) fun _ h => h

variable [Scalar α]

/-- Adds a node behind the others, or replaces its entry in place. Either way it is healthy, idle
and free of reservations afterwards. -/
def register (r : Registry α) (d : Descriptor α) : Except ServiceError (Registry α) :=
  match d.validate with
  | .error e => .error (.session e.message)
  | .ok _ =>
    let entry := RegisteredNode.fresh d
    .ok {
      roster := r.roster.insert d.nodeId entry
      matcher := r.matcher.register entry.toNode.toCapability
      keyed := keyed_insert r.keyed entry }

/-- What the matcher should know of a node after the node's own report. The available memory is what
the node reports less what is reserved. -/
def reportedCapability? (n : RegisteredNode α) (report : CapabilityReport α) :
    Option (Capability α) :=
  let c := n.toNode.toCapability
  let memoryGb := max report.hardware.totalMemoryGb c.memoryGb
  (Scalar.clamp? (report.availableGb - n.reservedGb) 0.0 memoryGb).map fun available =>
    { c with
      deviceName := report.hardware.deviceName
      memoryGb := memoryGb
      availableGb := available
      hasFp16 := report.supportedDtypes.contains .f16
      bandwidthMbps := report.bandwidthMbps }

/-- Refreshes the matcher from a node's own report. -/
def applyCapabilities (r : Registry α) (report : CapabilityReport α) :
    Except ServiceError (Registry α) :=
  match r.get? report.nodeId with
  | none => .error (.session ("unknown node " ++ report.nodeId))
  | some n =>
    match reportedCapability? n report with
    | none => .error (.aborted .invertedBounds)
    | some c => .ok { r with matcher := r.matcher.register c }

/-- Notes the load that a node reported. -/
def updateLoad (r : Registry α) (id : String) (load : α) (activeSessions : UInt32) : Registry α :=
  if r.contains id then
    let loadFactor := max load 0.0
    let r := r.modify id (fun n => { n with loadFactor, activeSessions }) fun _ h => h
    { r with matcher := (r.matcher.setLoad id loadFactor).toOption.getD r.matcher }
  else r

/-- Memory that the matcher counts as available on a node. -/
def availableGb (r : Registry α) (id : String) : α :=
  ((r.matcher.get? id).map (·.availableGb)).getD 0.0

/-- Commits memory of a node to a session. -/
def reserve (r : Registry α) (id : String) (gb : α) : Except ServiceError (Registry α) :=
  if r.contains id then
    match r.matcher.setAvailable id (r.availableGb id - gb) with
    | .error e => .error (.ofPlanning e)
    | .ok matcher =>
      .ok {
        r.modify id (fun n => { n with reservedGb := n.reservedGb + gb }) fun _ h => h with
        matcher }
  else .error (.session ("unknown node " ++ id))

/-- Returns memory to a node, at most what is reserved. -/
def release (r : Registry α) (id : String) (gb : α) : Except ServiceError (Registry α) :=
  match r.get? id with
  | none => .ok r
  | some n =>
    let returned := min gb n.reservedGb
    let r' := r.modify id (fun n => { n with reservedGb := n.reservedGb - returned }) fun _ h => h
    match r.matcher.setAvailable id (r.availableGb id + returned) with
    | .ok matcher => .ok { r' with matcher }
    | .error (.aborted a) => .error (.aborted a)
    | .error _ => .ok r'

/-- The healthy nodes as the planner sees them, in the order of registration. -/
def healthyNodes (r : Registry α) : List (Node α) :=
  (r.nodes.filter (·.healthy)).map (·.toNode)

end Registry

end LayerPipeline
