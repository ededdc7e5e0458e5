import LayerPipeline.Message.Planning
import LayerPipeline.Message.Session
import LayerPipeline.Message.Status

/-!
# Requests and responses

Everything that a node accepts and answers. In documents a message is an object with one member,
named for the kind of message; in payloads it starts with the position of that kind.
-/

namespace LayerPipeline

/-- Every operation that a node accepts. -/
inductive Request (α : Type) where
  | createSession (body : CreateSession)
  | executeForward (body : ExecuteForward)
  | closeSession (body : CloseSession)
  | ping (body : Ping)
  | reportCapabilities (body : CapabilityQuery)
  | health
  | generatePlan (body : PlanRequest α)
  | registerWorker (body : Descriptor α)
  | stageForward (body : StageForward)
  | submitMetrics (body : MetricsRecord α)
  | queryMetrics (body : MetricsQuery)
  | heartbeat (body : Heartbeat α)
deriving DecidableEq, Inhabited

namespace Request

variable {α : Type}

/-- The name of the operation. -/
def name : Request α → String
  | .createSession _ => "create_session"
  | .executeForward _ => "execute_forward"
  | .closeSession _ => "close_session"
  | .ping _ => "ping"
  | .reportCapabilities _ => "report_capabilities"
  | .health => "health"
  | .generatePlan _ => "generate_plan"
  | .registerWorker _ => "register_worker"
  | .stageForward _ => "stage_forward"
  | .submitMetrics _ => "submit_metrics"
  | .queryMetrics _ => "query_metrics"
  | .heartbeat _ => "heartbeat"

/-- The tag of the message in documents and the document of its body. -/
def toTagged [Scalar α] [JsonCodec α] : Request α → String × Option Json
  | .createSession b => ("CreateSession", some (JsonCodec.write b))
  | .executeForward b => ("ExecuteForward", some (JsonCodec.write b))
  | .closeSession b => ("CloseSession", some (JsonCodec.write b))
  | .ping b => ("Ping", some (JsonCodec.write b))
  | .reportCapabilities b => ("ReportCapabilities", some (JsonCodec.write b))
  | .health => ("Health", none)
  | .generatePlan b => ("GeneratePlan", some (JsonCodec.write b))
  | .registerWorker b => ("RegisterWorker", some (JsonCodec.write b))
  | .stageForward b => ("StageForward", some (JsonCodec.write b))
  | .submitMetrics b => ("SubmitMetrics", some (JsonCodec.write b))
  | .queryMetrics b => ("QueryMetrics", some (JsonCodec.write b))
  | .heartbeat b => ("Heartbeat", some (JsonCodec.write b))

/-- The message with a given tag and body. -/
def ofTagged? [Scalar α] [JsonCodec α] : String → Json → Option (Request α)
  | "CreateSession", j => (JsonCodec.read j).map .createSession
  | "ExecuteForward", j => (JsonCodec.read j).map .executeForward
  | "CloseSession", j => (JsonCodec.read j).map .closeSession
  | "Ping", j => (JsonCodec.read j).map .ping
  | "ReportCapabilities", j => (JsonCodec.read j).map .reportCapabilities
  | "Health", .null => some .health
  | "GeneratePlan", j => (JsonCodec.read j).map .generatePlan
  | "RegisterWorker", j => (JsonCodec.read j).map .registerWorker
  | "StageForward", j => (JsonCodec.read j).map .stageForward
  | "SubmitMetrics", j => (JsonCodec.read j).map .submitMetrics
  | "QueryMetrics", j => (JsonCodec.read j).map .queryMetrics
  | "Heartbeat", j => (JsonCodec.read j).map .heartbeat
  | _, _ => none

instance [Scalar α] [JsonCodec α] : JsonCodec (Request α) where
  write m :=
    match m.toTagged with
    | (tag, some body) => .obj [(tag, body)]
    | (tag, none) => .str tag
  read j := do
    let (tag, body) ← JsonCodec.tagged j
    match body with
    | some body => ofTagged? tag body
    | none => if tag = "Health" then some .health else none

/-- The position of the kind of message, then its body. -/
def put [Wire α] : Request α → List UInt8
  | .createSession b => Wire.putVarint 0 ++ Wire.put b
  | .executeForward b => Wire.putVarint 1 ++ Wire.put b
  | .closeSession b => Wire.putVarint 2 ++ Wire.put b
  | .ping b => Wire.putVarint 3 ++ Wire.put b
  | .reportCapabilities b => Wire.putVarint 4 ++ Wire.put b
  | .health => Wire.putVarint 5
  | .generatePlan b => Wire.putVarint 6 ++ Wire.put b
  | .registerWorker b => Wire.putVarint 7 ++ Wire.put b
  | .stageForward b => Wire.putVarint 8 ++ Wire.put b
  | .submitMetrics b => Wire.putVarint 9 ++ Wire.put b
  | .queryMetrics b => Wire.putVarint 10 ++ Wire.put b
  | .heartbeat b => Wire.putVarint 11 ++ Wire.put b

/-- The body of a message of the kind at a position. -/
def getBody [Wire α] (kind : Nat) (bs : List UInt8) : Option (Request α × List UInt8) :=
  match kind with
  | 0 => (Wire.get bs).map fun (b, rest) => (.createSession b, rest)
  | 1 => (Wire.get bs).map fun (b, rest) => (.executeForward b, rest)
  | 2 => (Wire.get bs).map fun (b, rest) => (.closeSession b, rest)
  | 3 => (Wire.get bs).map fun (b, rest) => (.ping b, rest)
  | 4 => (Wire.get bs).map fun (b, rest) => (.reportCapabilities b, rest)
  | 5 => some (.health, bs)
  | 6 => (Wire.get bs).map fun (b, rest) => (.generatePlan b, rest)
  | 7 => (Wire.get bs).map fun (b, rest) => (.registerWorker b, rest)
  | 8 => (Wire.get bs).map fun (b, rest) => (.stageForward b, rest)
  | 9 => (Wire.get bs).map fun (b, rest) => (.submitMetrics b, rest)
  | 10 => (Wire.get bs).map fun (b, rest) => (.queryMetrics b, rest)
  | 11 => (Wire.get bs).map fun (b, rest) => (.heartbeat b, rest)
  | _ => none

instance [Wire α] : Wire (Request α) where
  put := put
  get bs := do
    let (kind, rest) ← Wire.getVarint 4 bs
    getBody kind rest

end Request

/-- Every answer that a node gives. -/
inductive Response (α : Type) where
  | sessionCreated (body : SessionCreated α)
  | forwarded (body : ForwardResult α)
  | sessionClosed (body : SessionClosed)
  | pong (body : Pong)
  | capabilities (body : CapabilityReport α)
  | health (body : HealthReport α)
  | planned (body : PlanResult α)
  | workerRegistered (body : WorkerRegistered α)
  | stageForwarded (body : StageForwarded α)
  | metricsAccepted (body : UInt64)
  | metrics (body : MetricsReport α)
  | heartbeatSeen (body : HeartbeatSeen)
  | error (body : String)
deriving DecidableEq, Inhabited

namespace Response

variable {α : Type}

/-- The tag of the message in documents and the document of its body. -/
def toTagged [Scalar α] [JsonCodec α] : Response α → String × Option Json
  | .sessionCreated b => ("CreateSession", some (JsonCodec.write b))
  | .forwarded b => ("ExecuteForward", some (JsonCodec.write b))
  | .sessionClosed b => ("CloseSession", some (JsonCodec.write b))
  | .pong b => ("Ping", some (JsonCodec.write b))
  | .capabilities b => ("Capabilities", some (JsonCodec.write b))
  | .health b => ("Health", some (JsonCodec.write b))
  | .planned b => ("Plan", some (JsonCodec.write b))
  | .workerRegistered b => ("WorkerRegistered", some (JsonCodec.write b))
  | .stageForwarded b => ("StageForward", some (JsonCodec.write b))
  | .metricsAccepted n => ("MetricsAccepted", some (.obj [("total_records", JsonCodec.write n)]))
  | .metrics b => ("Metrics", some (JsonCodec.write b))
  | .heartbeatSeen b => ("Heartbeat", some (JsonCodec.write b))
  | .error m => ("Error", some (.obj [("message", .str m)]))

/-- The message with a given tag and body. -/
def ofTagged? [Scalar α] [JsonCodec α] : String → Json → Option (Response α)
  | "CreateSession", j => (JsonCodec.read j).map .sessionCreated
  | "ExecuteForward", j => (JsonCodec.read j).map .forwarded
  | "CloseSession", j => (JsonCodec.read j).map .sessionClosed
  | "Ping", j => (JsonCodec.read j).map .pong
  | "Capabilities", j => (JsonCodec.read j).map .capabilities
  | "Health", j => (JsonCodec.read j).map .health
  | "Plan", j => (JsonCodec.read j).map .planned
  | "WorkerRegistered", j => (JsonCodec.read j).map .workerRegistered
  | "StageForward", j => (JsonCodec.read j).map .stageForwarded
  | "MetricsAccepted", j =>
    (JsonCodec.readRecord (.field "total_records" .done) false j).map fun r => .metricsAccepted r.1
  | "Metrics", j => (JsonCodec.read j).map .metrics
  | "Heartbeat", j => (JsonCodec.read j).map .heartbeatSeen
  | "Error", j =>
    (JsonCodec.readRecord (.field "message" .done) false j).map fun r => .error r.1
  | _, _ => none

instance [Scalar α] [JsonCodec α] : JsonCodec (Response α) where
  write m :=
    match m.toTagged with
    | (tag, some body) => .obj [(tag, body)]
    | (tag, none) => .str tag
  read j := do
    let (tag, body) ← JsonCodec.tagged j
    ofTagged? tag (← body)

/-- The position of the kind of message, then its body. -/
def put [Wire α] : Response α → List UInt8
  | .sessionCreated b => Wire.putVarint 0 ++ Wire.put b
  | .forwarded b => Wire.putVarint 1 ++ Wire.put b
  | .sessionClosed b => Wire.putVarint 2 ++ Wire.put b
  | .pong b => Wire.putVarint 3 ++ Wire.put b
  | .capabilities b => Wire.putVarint 4 ++ Wire.put b
  | .health b => Wire.putVarint 5 ++ Wire.put b
  | .planned b => Wire.putVarint 6 ++ Wire.put b
  | .workerRegistered b => Wire.putVarint 7 ++ Wire.put b
  | .stageForwarded b => Wire.putVarint 8 ++ Wire.put b
  | .metricsAccepted b => Wire.putVarint 9 ++ Wire.put b
  | .metrics b => Wire.putVarint 10 ++ Wire.put b
  | .heartbeatSeen b => Wire.putVarint 11 ++ Wire.put b
  | .error b => Wire.putVarint 12 ++ Wire.put b

/-- The body of a message of the kind at a position. -/
def getBody [Wire α] (kind : Nat) (bs : List UInt8) : Option (Response α × List UInt8) :=
  match kind with
  | 0 => (Wire.get bs).map fun (b, rest) => (.sessionCreated b, rest)
  | 1 => (Wire.get bs).map fun (b, rest) => (.forwarded b, rest)
  | 2 => (Wire.get bs).map fun (b, rest) => (.sessionClosed b, rest)
  | 3 => (Wire.get bs).map fun (b, rest) => (.pong b, rest)
  | 4 => (Wire.get bs).map fun (b, rest) => (.capabilities b, rest)
  | 5 => (Wire.get bs).map fun (b, rest) => (.health b, rest)
  | 6 => (Wire.get bs).map fun (b, rest) => (.planned b, rest)
  | 7 => (Wire.get bs).map fun (b, rest) => (.workerRegistered b, rest)
  | 8 => (Wire.get bs).map fun (b, rest) => (.stageForwarded b, rest)
  | 9 => (Wire.get bs).map fun (b, rest) => (.metricsAccepted b, rest)
  | 10 => (Wire.get bs).map fun (b, rest) => (.metrics b, rest)
  | 11 => (Wire.get bs).map fun (b, rest) => (.heartbeatSeen b, rest)
  | 12 => (Wire.get bs).map fun (b, rest) => (.error b, rest)
  | _ => none

instance [Wire α] : Wire (Response α) where
  put := put
  get bs := do
    let (kind, rest) ← Wire.getVarint 4 bs
    getBody kind rest

end Response

end LayerPipeline
