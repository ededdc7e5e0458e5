import LayerPipeline.Config
import LayerPipeline.Message.Envelope
import LayerPipeline.Service.Engine
import LayerPipeline.Service.Procedure
import LayerPipeline.Service.Session
import LayerPipeline.Text.Quoted

/-!
# Workers

A worker runs one stage per session: it binds the session to a stage, feeds activations through its
engine and reports how that went. A coordinator runs one inside itself for its own stages.
-/

namespace LayerPipeline

/-- Version that nodes report. -/
def nodeVersion : String := "0.1.0"

/-- Where a node takes the ids of sessions from that it has to name itself. -/
structure IdSource where
  used : Nat
  name : Nat → String

/-- The next id. -/
def IdSource.next (s : IdSource) : String × IdSource :=
  (s.name s.used, { s with used := s.used + 1 })

/-- Request counters of a node. -/
structure ForwardStats (α : Type) where
  totalRequests : Nat
  forwardCalls : Nat
  totalForwardMs : α
deriving DecidableEq, Inhabited

namespace ForwardStats

variable {α : Type} [Scalar α]

/-- Nothing counted. -/
def zero : ForwardStats α := ⟨0, 0, 0.0⟩

/-- Counts a forward pass. -/
def recordForward (s : ForwardStats α) (ms : α) : ForwardStats α :=
  { s with forwardCalls := s.forwardCalls + 1, totalForwardMs := s.totalForwardMs + ms }

/-- Mean time of a forward pass, zero before the first one. -/
def averageMs (s : ForwardStats α) : α :=
  if s.forwardCalls = 0 then 0.0 else s.totalForwardMs / Scalar.ofNat s.forwardCalls

end ForwardStats

namespace Capability

variable {α : Type} [Scalar α]

/-- The element types that a device accepts. -/
def supportedDtypes (c : Capability α) : List Dtype :=
  [.f32] ++ (if c.hasFp16 then [.f16, .bf16] else []) ++ [.i32, .i64, .u8]

/-- What a node with this capability reports about itself. -/
def report (c : Capability α) : CapabilityReport α where
  nodeId := c.deviceId
  hardware := {
    kind := c.kind
    deviceName := c.deviceName
    totalMemoryGb := c.memoryGb
    computeCapability := Scalar.fixed 2 c.computeScore
    bandwidthMbps := c.bandwidthMbps }
  supportedDtypes := c.supportedDtypes
  availableGb := c.availableGb
  bandwidthMbps := c.bandwidthMbps

/-- How a node with this capability introduces itself. -/
def descriptor (c : Capability α) (address : String) : Descriptor α where
  nodeId := c.deviceId
  kind := c.kind
  computeScore := c.computeScore
  vramGb := if c.kind.isGpu then some c.memoryGb else none
  ramGb := if c.kind.isGpu then none else some c.memoryGb
  latencyMs := c.latencyMs
  bandwidthMbps := some c.bandwidthMbps
  supportsFp16 := some c.hasFp16
  address := address

end Capability

/-- A worker and its sessions. -/
structure Worker (α : Type) where
  config : WorkerConfig α
  capability : Capability α
  backend : Backend α
  sessions : SessionTable α
  stats : ForwardStats α
  clock : Clock
  ids : IdSource
  /-- Reports on their way to the address that collects them. -/
  outbox : List (String × MetricsRecord α)
  /-- What the engine was called for, oldest first. -/
  calls : List EngineCall

/-- What a worker does for a request. It asks nothing of other nodes. -/
abbrev Worker.Action (α β : Type) := Procedure (Worker α) Empty Empty β

namespace Worker

open Procedure

variable {α : Type} [Scalar α]

/-- A worker without sessions. -/
def start (config : WorkerConfig α) (capability : Capability α) (backend : Backend α)
    (clock : Clock) (ids : IdSource) : Worker α :=
  ⟨config, capability, backend, .empty, .zero, clock, ids, [], []⟩

/-- The engine as the calls so far have left it. -/
def engine (w : Worker α) : Engine α := w.backend.after w.calls

/-- The name of the worker. -/
def nodeId (w : Worker α) : String := w.capability.deviceId

/-- Open sessions over the most that may be open. -/
def loadFactor (w : Worker α) : α :=
  Scalar.ofNat w.sessions.size / Scalar.ofNat (max w.config.maxSessions.toNat 1)

/-- The worker as it shows itself to the owner of a session. -/
def nodeInfo (w : Worker α) : NodeInfo α where
  nodeId := w.nodeId
  kind := w.capability.kind
  availableGb := w.capability.availableGb
  loadFactor := w.loadFactor
  nodeVersion := nodeVersion

/-- Where reports of forward passes go, if anywhere. -/
def metricsSink? (w : Worker α) : Option String :=
  if w.config.pushMetrics then w.config.coordinatorAddress else none

/-- Changes a session. -/
def modifySession (w : Worker α) (key : Nat) (f : Session α → Session α) : Worker α :=
  { w with sessions := w.sessions.modify key f }

/-! ## Sessions -/

/-- The id that a request asks for, or a new one. -/
def chooseId (requested : String) (ids : IdSource) : String × IdSource :=
  if requested.isEmpty then ids.next else (requested, ids)

/-- Opens a session bound to a stage. -/
def openSession (w : Worker α) (r : CreateSession) :
    (String × Except ServiceError Unit) × Worker α :=
  let (id, ids) := chooseId r.sessionId w.ids
  let w := { w with ids }
  let now := w.clock.micros
  let session : Session α := { Session.create id r.maxSequenceLength r.dtype now with
    state := .active, stage := some r.stage, layerNames := r.layerNames }
  let limit := w.config.maxSessions.toNat
  match w.sessions.insertWithin session (some limit) with
  | .ok sessions => ((id, .ok ()), { w with sessions })
  | .error (.capacity _) =>
    ((id, .error (.capacity ("worker " ++ w.nodeId ++ " already serves " ++ toString limit ++
      " sessions"))), w)
  | .error e => ((id, .error e), w)

/-- Serves a request for a session. -/
def createSession (r : CreateSession) : Action α (SessionCreated α) := do
  let (id, result) ← atomically fun w => w.openSession r
  let info ← read nodeInfo
  match result with
  | .ok _ => return ⟨true, id, none, info⟩
  | .error e => return ⟨false, id, some e.message, info⟩

/-- The stage of a session that is about to run, and its layers. -/
def stageToRun (w : Worker α) (key : Nat) (id : String) (stageIds : List String) :
    Except ServiceError (StageBinding × List String) :=
  match w.sessions.session? key with
  | none => .error (.sessionNotFound id)
  | some s =>
    match s.ensureActive with
    | .error e => .error e
    | .ok _ =>
      match s.stage with
      | none => .error (.session ("session " ++ id ++ " has no stage bound"))
      | some stage =>
        if stageIds.isEmpty || stageIds.contains stage.stageId then .ok (stage, s.layerNames)
        else .error (.execution ("session " ++ id ++ " is bound to stage " ++ stage.stageId ++
          ", not " ++ Text.bracketed (stageIds.map Text.quoted)))

/-- Counts a forward pass of the node. -/
def countForward (elapsedMs : α) (w : Worker α) : Worker α :=
  { w with stats := w.stats.recordForward elapsedMs }

/-- How a call of the engine went. -/
def executionReport (w : Worker α) (elapsedMs : α) (stageIndex : UInt32) : ExecutionReport α :=
  ⟨elapsedMs, 0.0, w.engine.peakMemoryMb, w.engine.device, stageIndex⟩

/-- Calls the engine, which takes its time. The answer comes with the time as measured. -/
def compute (stageId : String) (layers : List String) (input : Tensor) :
    Action α (Except ServiceError Tensor × α) := do
  pause (← read (·.engine.delayMs))
  atomically fun w =>
    ((w.engine.compute stageId layers input, w.engine.elapsedMs),
      { w with calls := w.calls ++ [⟨stageId, layers, input⟩] })

/-- Runs the stage of a session over an input. The session is locked meanwhile. A failure of the
engine closes the session. -/
def forward (id : String) (token : UInt64) (input : Tensor) (stageIds : List String) :
    Action α (Except ServiceError (Tensor × ExecutionReport α)) :=
  match input.validate with
  | .error e => return .error (.ofData e)
  | .ok _ => do
    let found ← read fun w => (w.sessions.get? id).map (·.key)
    match found with
    | none => return .error (.sessionNotFound id)
    | some key =>
      acquire (.stage key)
      match ← read fun w => w.stageToRun key id stageIds with
      | .error e =>
        release (.stage key)
        return .error e
      | .ok (stage, layers) =>
        let (answer, elapsedMs) ← compute stage.stageId layers input
        match answer with
        | .error e =>
          update fun w => w.modifySession key fun s => s.close (some e.message)
          release (.stage key)
          update fun w => { w with sessions := w.sessions.remove id }
          return .error e
        | .ok output =>
          update fun w => w.modifySession key fun s => s.recordForward token w.clock.micros
          release (.stage key)
          update (countForward elapsedMs)
          let report ← read fun w => w.executionReport elapsedMs stage.stageIndex
          return .ok (output, report)

/-- Puts a report on its way to an address. -/
def pushReport (address : String) (id : String) (token : UInt64) (report : ExecutionReport α)
    (w : Worker α) : Worker α :=
  let entry : MetricsRecord α := ⟨w.nodeId, some id, some token, report, w.clock.text⟩
  { w with outbox := w.outbox ++ [(address, entry)] }

/-- Serves a forward pass of a session. -/
def executeForward (r : ExecuteForward) : Action α (Except Abort (ForwardResult α)) := do
  match ← forward r.sessionId r.tokenIndex r.input r.stageIds with
  | .error (.aborted a) => return .error a
  | .error e => return .ok (.failure e.message)
  | .ok (output, report) =>
    update fun w =>
      match w.metricsSink? with
      | some address => pushReport address r.sessionId r.tokenIndex report w
      | none => w
    return .ok ⟨true, none, some output, report⟩

/-- Closes a session. It leaves the table at once; then a running forward pass is waited for. -/
def closeSession (id : String) : Action α SessionClosed := do
  let found ← atomically fun w =>
    ((w.sessions.get? id).map (·.key),
      { w with sessions := w.sessions.remove id })
  match found with
  | none => return ⟨true, some ("session not found: " ++ id)⟩
  | some key =>
    acquire (.stage key)
    update fun w => w.modifySession key fun s => s.close none
    release (.stage key)
    return ⟨true, none⟩

/-- Closes sessions that were found idle. -/
def closeIdle : List String → Action α Unit
  | [] => .done ()
  | id :: rest => do
    let found ← atomically fun w =>
      ((w.sessions.get? id).map (·.key),
        { w with sessions := w.sessions.remove id })
    match found with
    | none => closeIdle rest
    | some key =>
      acquire (.stage key)
      update fun w => w.modifySession key fun s => s.close (some "idle timeout")
      release (.stage key)
      closeIdle rest

/-- Closes the sessions that have been idle for too long, the `busy` ones apart, and returns their
ids. -/
def sweep (busy : List String) : Action α (List String) := do
  let ids ← read fun w =>
    w.sessions.idle w.clock.micros (w.config.sessionTimeoutSecs.toNat * 1000000) busy
  closeIdle ids
  return ids

/-! ## Stages outside of sessions -/

/-- Runs layers as a stage without a session. -/
def runStage (r : StageForward) (layers : List String) :
    Action α (Except Abort (StageForwarded α)) :=
  match r.activations.validate with
  | .error (.aborted a) => return .error a
  | .error e => return .ok ⟨false, some (ServiceError.ofData e).message, none, ⟨0.0, 0.0⟩⟩
  | .ok _ => do
    let (answer, elapsedMs) ← compute (toString r.stageId) layers r.activations
    match answer with
    | .error (.aborted a) => return .error a
    | .error e => return .ok ⟨false, some e.message, none, ⟨0.0, 0.0⟩⟩
    | .ok output =>
      update (countForward elapsedMs)
      let performance ← read fun w => ⟨elapsedMs, w.engine.peakMemoryMb⟩
      update fun w =>
        match r.metricsUrl with
        | some url =>
          let report := { w.executionReport elapsedMs r.stageId with
            peakMemoryMb := performance.peakMemoryMb }
          pushReport url r.sessionId r.tokenIndex report w
        | none => w
      return .ok ⟨true, none, some output, performance⟩

/-- Serves a pass through one stage; the layers are those of the session of that name, if there is
one. -/
def stageForward (r : StageForward) : Action α (Except Abort (StageForwarded α)) := do
  let found ← read fun w => (w.sessions.get? r.sessionId).map (·.key)
  match found with
  | none => runStage r []
  | some key =>
    acquire (.stage key)
    let layers ← read fun w => ((w.sessions.session? key).map (·.layerNames)).getD []
    release (.stage key)
    runStage r layers

/-! ## State of the worker -/

/-- Answer to a ping. -/
def pong (w : Worker α) (text : String) : Pong :=
  ⟨"Worker " ++ w.nodeId ++ " is alive: " ++ text, w.clock.text, nodeVersion⟩

/-- The worker in figures. -/
def health (w : Worker α) : HealthReport α where
  status := "healthy"
  role := .worker
  nodeId := w.nodeId
  nodeVersion := nodeVersion
  activeSessions := UInt32.ofNat w.sessions.size
  registeredWorkers := 0
  healthyWorkers := 0
  hasPlan := false
  totalRequests := UInt64.ofNat w.stats.totalRequests
  averageForwardMs := w.stats.averageMs
  devices := none

/-- Counts a request. -/
def countRequest (w : Worker α) : Worker α :=
  { w with stats := { w.stats with totalRequests := w.stats.totalRequests + 1 } }

/-- Serves a request. -/
def handle (request : Request α) : Action α (Except Abort (Response α)) := do
  update countRequest
  match request with
  | .createSession r => return .ok (.sessionCreated (← createSession r))
  | .executeForward r => return (← executeForward r).map .forwarded
  | .closeSession r => return .ok (.sessionClosed (← closeSession r.sessionId))
  | .ping r => return .ok (.pong (← read fun w => w.pong r.text))
  | .reportCapabilities _ => return .ok (.capabilities (← read fun w => w.capability.report))
  | .health => return .ok (.health (← read health))
  | .stageForward r => return (← stageForward r).map .stageForwarded
  | other => return .ok (.error (other.name ++ " is not served by a worker"))

end Worker

end LayerPipeline
