import LayerPipeline.Link.Client
import LayerPipeline.Service.Coordinator

/-!
# Sessions through a whole plan

A coordinator sets up every stage of its plan for a session, feeds activations through the stages in
order, and takes the stages down again. Stages on its own node run inside it, all others on the
workers that own them. A failure in a forward pass closes the session; an unreachable or late node
is in addition kept out of plans until it registers again.
-/

namespace LayerPipeline

/-- One attempt to call another node. -/
structure Call (α : Type) where
  config : LinkConfig
  address : String
  request : Request α

/-- What a coordinator does for a request. Its questions are calls to other nodes. -/
abbrev Coordinator.Action (α β : Type) :=
  Procedure (Coordinator α) (Call α) (Except LinkError (Response α)) β

namespace Coordinator

open Procedure

variable {α : Type} [Scalar α]

/-- Lets the worker inside the coordinator do something. -/
def onEmbedded {β : Type} (p : Worker.Action α β) : Action α β :=
  (p.within embedded fun w c => { c with embedded := w }).widen

variable (describe : Response α → String)

/-- The way to a node. -/
def channel (config : LinkConfig) (address : String) : Channel (Action α) α where
  attempt request := question ⟨config, address, request⟩
  sleep := pause
  describe := describe

/-- The way to the node of a stage. -/
def channelTo (config : LinkConfig) (s : Stage α) : Except ServiceError (Channel (Action α) α) :=
  match s.node.address with
  | some address => .ok (channel describe config address)
  | none => .error (.nodeUnreachable s.node.nodeId "no address known")

/-! ## Setting up and taking down stages -/

/-- The request that binds a session to a stage. -/
def stageRequest (s : Stage α) (id : String) (r : CreateSession) : CreateSession where
  sessionId := id
  stage := ⟨toString s.stageId, s.stageId.toUInt32, s.node.kind.name, r.stage.enableCache⟩
  layerNames := s.layers
  maxSequenceLength := r.maxSequenceLength
  dtype := r.dtype

/-- What the answer to a stage request means. -/
def stageOpened (s : Stage α) (a : SessionCreated α) : Except ServiceError Unit :=
  if a.success then .ok ()
  else .error (.stage s.stageId.toNat s.node.nodeId
    (a.errorMessage.getD "create_session refused"))

/-- Sets up one stage for a session. -/
def openStage (s : Stage α) (id : String) (r : CreateSession) :
    Action α (Except ServiceError Unit) := do
  let request := stageRequest s id r
  if ← read fun c => c.isLocal s then
    return stageOpened s (← onEmbedded (Worker.createSession request))
  else
    let config ← read fun c => c.config.link
    match channelTo describe config s with
    | .error err => return .error err
    | .ok way =>
      match ← way.createSession config request with
      | .error err => return .error (.ofLink s.node.nodeId err)
      | .ok a => return stageOpened s a

/-- Takes one stage of a session down; a failure to do so is passed over. -/
def closeStage (id : String) (s : Stage α) : Action α Unit := do
  if ← read fun c => c.isLocal s then
    let _ ← onEmbedded (Worker.closeSession id)
  else
    let config ← read fun c => c.config.link
    match channelTo describe config s with
    | .error _ => return ()
    | .ok way =>
      let _ ← way.closeSession config id

/-- Takes stages of a session down. -/
def closeStages (id : String) : List (Stage α) → Action α Unit
  | [] => .done ()
  | s :: rest => do
    closeStage describe id s
    closeStages id rest

/-- Sets up stages in order until one fails. The failure comes with its stage and the stages that
were set up before, which follow those in `opened`. -/
def openStages (id : String) (r : CreateSession) (opened : List (Stage α)) :
    List (Stage α) → Action α (Option (Stage α × ServiceError × List (Stage α)))
  | [] => .done none
  | s :: rest => do
    match ← openStage describe s id r with
    | .error err => return some (s, err, opened)
    | .ok _ => openStages id r (opened ++ [s]) rest

/-- Opens a session on the active plan. If a stage cannot be set up, those before it are taken down
again. The session is locked meanwhile. -/
def createSession (r : CreateSession) : Action α (Except ServiceError String) := do
  match ← read fun c => c.plan with
  | none => return .error .noPlan
  | some plan =>
    match ← atomically fun c => c.enter r plan with
    | .error err => return .error err
    | .ok (id, key) =>
      acquire (.pipeline key)
      match ← openStages describe id r [] plan.stages with
      | some (s, err, opened) =>
        update fun c => c.noteFailure s.node.nodeId err
        let _ ← atomically fun c => c.endSession key (some err.message)
        release (.pipeline key)
        update fun c => c.dropSession id
        closeStages describe id opened
        return .error err
      | none =>
        match ← atomically fun c => c.activateSession key with
        | .error err =>
          release (.pipeline key)
          return .error err
        | .ok _ =>
          update fun c => c.reserveFor key plan
          release (.pipeline key)
          return .ok id

/-- Closes a session: it leaves the table at once; then a running forward pass is waited for, memory
is returned and every stage is taken down. -/
def closeSession (id : String) (reason : Option String) :
    Action α SessionClosed := do
  match ← atomically fun c => (c.sessions.get? id, c.dropSession id) with
  | none => return ⟨true, some ("session not found: " ++ id)⟩
  | some s =>
    acquire (.pipeline s.key)
    let found ← atomically fun c => c.endSession s.key reason
    match s.plan with
    | none => pure ()
    | some plan =>
      update fun c => c.releaseFor s.key found plan
      closeStages describe id plan.stages
    release (.pipeline s.key)
    return ⟨true, none⟩

/-! ## Forward passes -/

/-- What a remote stage's answer means. -/
def stageOutput (s : Stage α) (a : ForwardResult α) : Except ServiceError Tensor :=
  if a.success then
    match a.output with
    | none => .error (.protocol ("stage " ++ toString s.stageId ++ " returned no activations"))
    | some output =>
      match output.validate with
      | .error err => .error (.ofData err)
      | .ok _ => .ok output
  else .error (.stage s.stageId.toNat s.node.nodeId (a.errorMessage.getD "forward failed"))

/-- The report of a remote stage, with what the call took beyond the work of the stage. -/
def withTransfer (overheadMs : α) (report : ExecutionReport α) : ExecutionReport α :=
  let roundTripMs := report.forwardMs + overheadMs
  { report with transferMs := max (roundTripMs - report.forwardMs) 0.0 }

/-- Runs one stage of a forward pass. -/
def runStage (s : Stage α) (r : ExecuteForward) (input : Tensor) :
    Action α (Except ServiceError (Tensor × ExecutionReport α)) := do
  if ← read fun c => c.isLocal s then
    onEmbedded (Worker.forward r.sessionId r.tokenIndex input [])
  else
    let config ← read fun c => c.config.link
    match channelTo describe config s with
    | .error err => return .error err
    | .ok way =>
      let request : ExecuteForward := ⟨r.sessionId, r.tokenIndex, input, [toString s.stageId]⟩
      match ← way.executeForward config request with
      | .error err => return .error (.ofLink s.node.nodeId err)
      | .ok a =>
        match stageOutput s a with
        | .error err => return .error err
        | .ok output =>
          let overheadMs ← read (·.callOverheadMs)
          update fun c => c.noteSuccess s.node.nodeId
          return .ok (output, withTransfer overheadMs a.report)

/-- The figures of a forward pass so far, and the devices it has used. -/
structure Progress (α : Type) where
  total : ExecutionReport α
  devices : List String

namespace Progress

/-- Before the first stage. -/
def start : Progress α := ⟨.empty, []⟩

/-- After another stage. -/
def add (p : Progress α) (report : ExecutionReport α) : Progress α where
  total := {
    forwardMs := p.total.forwardMs + report.forwardMs
    transferMs := p.total.transferMs + report.transferMs
    peakMemoryMb := max p.total.peakMemoryMb report.peakMemoryMb
    device := p.total.device
    stageIndex := report.stageIndex }
  devices :=
    if p.devices.contains report.device then p.devices else p.devices ++ [report.device]

/-- The report of the whole pass. -/
def report (p : Progress α) : ExecutionReport α :=
  { p.total with device := String.intercalate "," p.devices }

end Progress

/-- Feeds activations through stages in order. A failure comes with its stage. -/
def runStages (r : ExecuteForward) :
    List (Stage α) → Tensor → Progress α →
      Action α (Except (Stage α × ServiceError) (Tensor × ExecutionReport α))
  | [], activations, progress => .done (.ok (activations, progress.report))
  | s :: rest, activations, progress => do
    match ← runStage describe s r activations with
    | .error err => return .error (s, err)
    | .ok (output, report) =>
      update fun c => c.recordStage s r report
      runStages r rest output (progress.add report)

/-- Runs one token through the stages of its session, in the order of the plan. The session is
locked meanwhile. If a stage fails, the session is closed and the stages on other nodes are taken
down. -/
def executeForward (r : ExecuteForward) :
    Action α (Except ServiceError (Tensor × ExecutionReport α)) :=
  match r.input.validate with
  | .error err => return .error (.ofData err)
  | .ok _ => do
    match ← read fun c => (c.sessions.get? r.sessionId).map (·.key) with
    | none => return .error (.sessionNotFound r.sessionId)
    | some key =>
      acquire (.pipeline key)
      match ← read fun c => c.stagesToRun key r with
      | .error err =>
        release (.pipeline key)
        return .error err
      | .ok (plan, stages) =>
        match ← runStages describe r stages r.input .start with
        | .error (_, .aborted a) =>
          release (.pipeline key)
          return .error (.aborted a)
        | .error (s, err) =>
          update fun c => c.noteFailure s.node.nodeId err
          let found ← atomically fun c => c.endSession key (some err.message)
          release (.pipeline key)
          update fun c => c.dropSession r.sessionId
          update fun c => c.releaseFor key found plan
          closeStages describe r.sessionId
            (plan.stages.filter fun x => x.node.nodeId ≠ s.node.nodeId)
          return .error err
        | .ok (output, report) =>
          update fun c =>
            c.modifySession key fun x => x.recordForward r.tokenIndex c.clock.micros
          release (.pipeline key)
          update fun c =>
            { c with stats := c.stats.recordForward (report.forwardMs + report.transferMs) }
          return .ok (output, report)

/-- Runs a stage of the active plan outside of any session. -/
def stageForward (r : StageForward) :
    Action α (Except Abort (StageForwarded α)) := do
  match ← read fun c => c.stageOfPlan r with
  | .error err => return .ok ⟨false, some err.message, none, ⟨0.0, 0.0⟩⟩
  | .ok s => onEmbedded (Worker.runStage r s.layers)

/-! ## Workers and maintenance -/

/-- Registers a worker and asks it what it offers. A worker that gives no usable answer stays
registered, but unhealthy. -/
def registerWorker (d : Descriptor α) :
    Action α (Except ServiceError (WorkerRegistered α)) := do
  let enrolled ← atomically fun c =>
    match c.enroll d with
    | .ok c' => (Except.ok (), c')
    | .error err => (.error err, c)
  match enrolled with
  | .error err => return .error err
  | .ok _ =>
    let config ← read fun c => c.config.link
    let answer ← (channel describe config d.address).reportCapabilities config d.nodeId
    match ← atomically fun c => c.confirm d answer with
    | .error a => return .error (.aborted a)
    | .ok a => return .ok a

/-- Closes sessions that were found idle. -/
def closeIdle : List String → Action α Unit
  | [] => .done ()
  | id :: rest => do
    let _ ← closeSession describe id (some "idle timeout")
    closeIdle rest

/-- One pass over silent workers and idle sessions, the `busy` ones apart. -/
def sweep (busy : List String) : Action α Unit := do
  update dropSilent
  let ids ← read fun c =>
    c.sessions.idle c.clock.micros (c.config.sessionTimeoutSecs.toNat * 1000000) busy
  closeIdle describe ids

/-! ## Requests -/

/-- Serves a request to the coordinator. -/
def handle (request : Request α) : Action α (Except Abort (Response α)) := do
  update countRequest
  match request with
  | .createSession r =>
    let info ← read nodeInfo
    match ← createSession describe r with
    | .ok id => return .ok (.sessionCreated ⟨true, id, none, info⟩)
    | .error (.aborted a) => return .error a
    | .error err => return .ok (.sessionCreated ⟨false, r.sessionId, some err.message, info⟩)
  | .executeForward r =>
    match ← executeForward describe r with
    | .ok (output, report) => return .ok (.forwarded ⟨true, none, some output, report⟩)
    | .error (.aborted a) => return .error a
    | .error err => return .ok (.forwarded (.failure err.message))
  | .closeSession r => return .ok (.sessionClosed (← closeSession describe r.sessionId none))
  | .ping r => return .ok (.pong (← read fun c => c.pong r.text))
  | .reportCapabilities _ =>
    return .ok (.capabilities (← read fun c => c.capability.report))
  | .health => return .ok (.health (← read health))
  | .generatePlan r => return (← atomically fun c => c.planResult r).map .planned
  | .registerWorker d =>
    match ← registerWorker describe d with
    | .ok a => return .ok (.workerRegistered a)
    | .error (.aborted a) => return .error a
    | .error err => return .ok (.error err.message)
  | .stageForward r => return (← stageForward r).map .stageForwarded
  | .submitMetrics r => return .ok (.metricsAccepted (← atomically fun c => c.submitMetrics r))
  | .queryMetrics r => return .ok (.metrics (← read fun c => c.metrics.report r.source))
  | .heartbeat h => return .ok (.heartbeatSeen (← atomically fun c => c.heartbeat h))

end Coordinator

end LayerPipeline
