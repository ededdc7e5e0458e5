import LayerPipeline.Planning.Generate
import LayerPipeline.Service.CentralMetrics
import LayerPipeline.Service.Heartbeat
import LayerPipeline.Service.Registry
import LayerPipeline.Service.Worker

/-!
# Coordinators

A coordinator owns the roster of nodes, the active plan, the sessions that run through a plan, and
the collected metrics. This module holds its state and what it can do without another node.
-/

namespace LayerPipeline

/-- A change of reserved memory, with the key of the session it was made for. -/
inductive ReservationEvent where
  | reserved (session : Nat)
  /-- `found` is the state of the session when it was closed for the release. -/
  | released (session : Nat) (found : SessionState)
deriving DecidableEq, Inhabited

/-- A coordinator. -/
structure Coordinator (α : Type) where
  config : CoordinatorConfig α
  capability : Capability α
  registry : Registry α
  /-- The plan that new sessions are bound to. -/
  plan : Option (Plan α)
  /-- Layer costs for planning requests that bring none. -/
  profile : List (LayerCost α)
  sessions : SessionTable α
  heartbeats : HeartbeatMonitor
  metrics : CentralMetrics α
  stats : ForwardStats α
  /-- Runs the stages that a participating coordinator assigns to itself. -/
  embedded : Worker α
  clock : Clock
  ids : IdSource
  /-- What a call to another node takes beyond the work of that node. -/
  callOverheadMs : α
  /-- The changes of reserved memory, oldest first. -/
  journal : List ReservationEvent

namespace Coordinator

variable {α : Type} [Scalar α]

/-- Settings of the worker inside a coordinator. -/
def embeddedConfig (config : CoordinatorConfig α) (address : String) : WorkerConfig α where
  listenAddress := config.listenAddress
  advertiseAddress := some address
  coordinatorAddress := none
  node := config.node
  maxSessions := UInt32.ofNat (UInt32.size - 1)
  heartbeatIntervalSecs := config.heartbeatIntervalSecs
  sessionTimeoutSecs := config.sessionTimeoutSecs
  pushMetrics := false
  link := config.link

/-- The roster of a coordinator that was just started: itself if it participates. -/
def firstRoster (config : CoordinatorConfig α) (capability : Capability α) (address : String) :
    Except ServiceError (Registry α) :=
  let roster := Registry.empty config.matcher
  if config.participate then roster.register (capability.descriptor address) else .ok roster

/-- A coordinator that is reached at `address`. -/
def start (config : CoordinatorConfig α) (capability : Capability α) (backend : Backend α)
    (profile : List (LayerCost α)) (address : String) (clock : Clock) (ids : IdSource)
    (callOverheadMs : α) : Except ServiceError (Coordinator α) :=
  match firstRoster config capability address with
  | .error e => .error e
  | .ok registry =>
    match HeartbeatMonitor.start? (config.heartbeatIntervalSecs.toNat * 1000)
        config.heartbeatTimeoutFactor.toNat with
    | none => .error (.aborted .overflow)
    | some heartbeats =>
      .ok {
        config, capability, registry, profile, heartbeats, clock, ids, callOverheadMs
        plan := none
        sessions := .empty
        metrics := .empty config.maxMetricsRecords.toNat
        stats := .zero
        embedded := .start (embeddedConfig config address) capability backend clock ids
        journal := [] }

/-- The name of the coordinator. -/
def nodeId (c : Coordinator α) : String := c.capability.deviceId

/-- Whether the coordinator runs a stage itself. -/
def isLocal (c : Coordinator α) (s : Stage α) : Bool :=
  c.config.participate && s.node.nodeId = c.nodeId

/-- The coordinator as it shows itself to the owner of a session. -/
def nodeInfo (c : Coordinator α) : NodeInfo α where
  nodeId := c.nodeId
  kind := c.capability.kind
  availableGb := c.capability.availableGb
  loadFactor := if c.config.participate then c.embedded.loadFactor else 0.0
  nodeVersion := nodeVersion

/-- Counts a request. -/
def countRequest (c : Coordinator α) : Coordinator α :=
  { c with stats := { c.stats with totalRequests := c.stats.totalRequests + 1 } }

/-! ## Plans -/

/-- Makes a plan the active one. Open sessions keep theirs. -/
def installPlan (c : Coordinator α) (p : Plan α) : Except ServiceError (Coordinator α) :=
  match p.validate with
  | .error e => .error (.ofData e)
  | .ok _ => .ok { c with plan := some p }

/-- The nodes that a planning request is about: those it names, or the healthy ones. -/
def nodesFor (c : Coordinator α) (r : PlanRequest α) : Except ServiceError (List (Node α)) :=
  if r.nodes.isEmpty then .ok c.registry.healthyNodes
  else
    r.nodes.mapM fun d =>
      match d.validate with
      | .error e => .error (.ofData e)
      | .ok _ => .ok d.toNode

/-- Makes a plan, and makes it the active one if the request says so. -/
def generatePlan (c : Coordinator α) (r : PlanRequest α) :
    Except ServiceError (Plan α × Coordinator α) :=
  match c.nodesFor r with
  | .error e => .error e
  | .ok nodes =>
    match Planning.generate c.config.planner (r.layers.getD c.profile) nodes r.modelName r.strategy
        c.clock.text with
    | .error e => .error (.ofPlanning e)
    | .ok p => if r.activate then (c.installPlan p).map fun c => (p, c) else .ok (p, c)

/-- Answers a planning request. -/
def planResult (c : Coordinator α) (r : PlanRequest α) :
    Except Abort (PlanResult α) × Coordinator α :=
  match c.generatePlan r with
  | .ok (p, c) => (.ok ⟨true, none, some p, some p.summary⟩, c)
  | .error (.aborted a) => (.error a, c)
  | .error e => (.ok ⟨false, some e.message, none, none⟩, c)

/-! ## Health of the nodes -/

/-- Takes a node out of later plans and stops waiting for its heartbeats. -/
def markUnhealthy (c : Coordinator α) (id reason : String) : Coordinator α :=
  { c with registry := c.registry.markUnhealthy id reason, heartbeats := c.heartbeats.remove id }

/-- Draws the consequence of a failed call to a node. -/
def noteFailure (c : Coordinator α) (id : String) (e : ServiceError) : Coordinator α :=
  if e.isHealthEvent then c.markUnhealthy id e.message else c

/-- Forgets the failures of a node that answered. -/
def noteSuccess (c : Coordinator α) (id : String) : Coordinator α :=
  { c with registry := c.registry.recordSuccess id }

/-- Answers a heartbeat; only that of a healthy node counts. -/
def heartbeat (c : Coordinator α) (h : Heartbeat α) : HeartbeatSeen × Coordinator α :=
  if c.registry.isHealthy h.nodeId then
    (⟨true⟩, { c with
      registry := c.registry.updateLoad h.nodeId h.loadFactor h.activeSessions
      heartbeats := c.heartbeats.beat h.nodeId c.clock.micros })
  else (⟨false⟩, c)

/-- Notes the registration of a worker. -/
def enroll (c : Coordinator α) (d : Descriptor α) : Except ServiceError (Coordinator α) :=
  if c.config.participate && d.nodeId = c.nodeId then
    .error (.session ("node id " ++ d.nodeId ++ " is taken by the coordinator"))
  else
    match c.registry.register d with
    | .error e => .error e
    | .ok registry =>
      .ok { c with registry, heartbeats := c.heartbeats.beat d.nodeId c.clock.micros }

/-- Draws the consequence of the capability query that follows a registration. -/
def confirm (c : Coordinator α) (d : Descriptor α)
    (answer : Except LinkError (CapabilityReport α)) :
    Except Abort (WorkerRegistered α) × Coordinator α :=
  let applied := match answer with
    | .ok report => c.registry.applyCapabilities report
    | .error e => .error (.ofLink d.nodeId e)
  match applied with
  | .ok registry =>
    (.ok ⟨d, true, "worker " ++ d.nodeId ++ " registered"⟩, { c with registry })
  | .error (.aborted a) => (.error a, c)
  | .error e =>
    (.ok ⟨d, false, "worker " ++ d.nodeId ++ " registered but failed health check: " ++ e.message⟩,
      { c with registry := c.registry.markUnhealthy d.nodeId e.message })

/-- Takes the nodes out of later plans that were not heard of for too long. -/
def dropSilent (c : Coordinator α) : Coordinator α :=
  (c.heartbeats.timedOut c.clock.micros).foldl
    (fun c id => c.markUnhealthy id "heartbeat timeout") c

/-! ## Sessions -/

/-- Changes a session. -/
def modifySession (c : Coordinator α) (key : Nat) (f : Session α → Session α) : Coordinator α :=
  { c with sessions := c.sessions.modify key f }

/-- Closes a session, which may be closed already; the result is the state it was in. -/
def endSession (c : Coordinator α) (key : Nat) (reason : Option String) :
    SessionState × Coordinator α :=
  (((c.sessions.session? key).map (·.state)).getD .closed,
    c.modifySession key fun x => x.close reason)

/-- Takes the session with an id from the table. -/
def dropSession (c : Coordinator α) (id : String) : Coordinator α :=
  { c with sessions := c.sessions.remove id }

/-- Enters a new session that is bound to a plan; its id and its key. -/
def enter (c : Coordinator α) (r : CreateSession) (p : Plan α) :
    Except ServiceError (String × Nat) × Coordinator α :=
  let (id, ids) := Worker.chooseId r.sessionId c.ids
  let c := { c with ids }
  let created : Session α := .create id r.maxSequenceLength r.dtype c.clock.micros
  let session := { created with plan := some p }
  match c.sessions.insertWithin session none with
  | .ok sessions => (.ok (id, c.sessions.nextKey), { c with sessions })
  | .error e => (.error e, c)

/-- Opens a session whose stages are all set up. -/
def activateSession (c : Coordinator α) (key : Nat) : Except ServiceError Unit × Coordinator α :=
  match c.sessions.session? key with
  | none => (.ok (), c)
  | some s =>
    match s.activate c.clock.micros with
    | .error e => (.error e, c)
    | .ok s' => (.ok (), c.modifySession key fun _ => s')

/-- Memory of a stage in gigabytes. -/
def stageGb (s : Stage α) : α := s.memoryMb / 1024.0

/-- Commits the memory of every stage; a stage on an unknown node is passed over. -/
def reserveStages (r : Registry α) (stages : List (Stage α)) : Registry α :=
  stages.foldl (fun r s => (r.reserve s.node.nodeId (stageGb s)).toOption.getD r) r

/-- Returns the memory of every stage. -/
def releaseStages (r : Registry α) (stages : List (Stage α)) : Registry α :=
  stages.foldl (fun r s => (r.release s.node.nodeId (stageGb s)).toOption.getD r) r

/-- Commits the memory of a plan to a session. -/
def reserveFor (c : Coordinator α) (key : Nat) (p : Plan α) : Coordinator α :=
  { c with registry := reserveStages c.registry p.stages, journal := c.journal ++ [.reserved key] }

/-- Returns the memory of a plan to the nodes, for a session that was found in a state. -/
def releaseFor (c : Coordinator α) (key : Nat) (found : SessionState) (p : Plan α) :
    Coordinator α :=
  { c with
    registry := releaseStages c.registry p.stages
    journal := c.journal ++ [.released key found] }

/-- The stages of a session that a forward pass runs, in the order of the plan. -/
def stagesToRun (c : Coordinator α) (key : Nat) (r : ExecuteForward) :
    Except ServiceError (Plan α × List (Stage α)) :=
  match c.sessions.session? key with
  | none => .error (.sessionNotFound r.sessionId)
  | some s =>
    match s.ensureActive with
    | .error e => .error e
    | .ok _ =>
      match s.plan with
      | none => .error .noPlan
      | some p =>
        let stages := p.stages.filter fun s =>
          r.stageIds.isEmpty || r.stageIds.contains (toString s.stageId)
        if stages.isEmpty then
          .error (.execution ("no stage matches " ++ Text.bracketed (r.stageIds.map Text.quoted)))
        else .ok (p, stages)

/-- Notes the report of an executed stage. -/
def recordStage (c : Coordinator α) (s : Stage α) (r : ExecuteForward)
    (report : ExecutionReport α) : Coordinator α :=
  let entry : MetricsRecord α :=
    ⟨s.node.nodeId, some r.sessionId, some r.tokenIndex, report, c.clock.text⟩
  { c with metrics := c.metrics.push entry }

/-- Stores a report that a worker handed in. -/
def submitMetrics (c : Coordinator α) (r : MetricsRecord α) : UInt64 × Coordinator α :=
  let (count, metrics) := c.metrics.submit r
  (count, { c with metrics })

/-- The stage of the active plan that a request outside of any session asks for. -/
def stageOfPlan (c : Coordinator α) (r : StageForward) : Except ServiceError (Stage α) :=
  match c.plan with
  | none => .error .noPlan
  | some p =>
    match p.stage? r.stageId.toUInt64 with
    | none => .error (.execution ("plan has no stage " ++ toString r.stageId))
    | some s =>
      if c.isLocal s then .ok s
      else .error (.execution ("stage " ++ toString s.stageId ++ " is assigned to " ++
        s.node.nodeId ++ ", not this coordinator"))

/-! ## State of the coordinator -/

/-- Answer to a ping. -/
def pong (c : Coordinator α) (text : String) : Pong :=
  ⟨"Coordinator " ++ c.nodeId ++ " is alive: " ++ text, c.clock.text, nodeVersion⟩

/-- The coordinator in figures. -/
def health (c : Coordinator α) : HealthReport α where
  status := "healthy"
  role := .coordinator
  nodeId := c.nodeId
  nodeVersion := nodeVersion
  activeSessions := UInt32.ofNat c.sessions.size
  registeredWorkers := UInt32.ofNat c.registry.size
  healthyWorkers := UInt32.ofNat c.registry.healthyCount
  hasPlan := c.plan.isSome
  totalRequests := UInt64.ofNat c.stats.totalRequests
  averageForwardMs := c.stats.averageMs
  devices := some c.registry.matcher.summary

end Coordinator

end LayerPipeline
