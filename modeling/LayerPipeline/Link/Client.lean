import LayerPipeline.Config
import LayerPipeline.Error.Link
import LayerPipeline.Message.Dump
import LayerPipeline.Wire.Frame

/-!
# Calls to other nodes

One connection per call. Failed connections may be tried again; a timeout never is. Operations that
must not run twice are tried again only when the connection was never established.
-/

namespace LayerPipeline

/-- What becomes of a request that is sent to an address. -/
inductive Delivery where
  /-- No connection; the system's reason. -/
  | refused (reason : String)
  /-- A connection, but no frame that could hold a request of this size. -/
  | oversized (size : Nat)
  /-- The connection broke; the system's reason. -/
  | broken (reason : String)
  /-- The peer sent these bytes and nothing after them. -/
  | answered (stream : List UInt8)
  /-- The deadline of the call passes. -/
  | silent
deriving DecidableEq, Inhabited

/-- The system's words for an address that nothing listens on. -/
def connectionRefused : String := "Connection refused (os error 111)"

/-- The response that a delivery gives to the caller of an address. -/
def Delivery.response {α : Type} [Wire α] (config : LinkConfig) (address : String) :
    Delivery → Except LinkError (Response α)
  | .refused reason => .error (.unreachable address reason)
  | .oversized size => .error (.frameTooLarge size (UInt32.size - 1))
  | .broken reason => .error (.io reason)
  | .silent => .error (.timeout address config.callTimeoutMs.toNat)
  | .answered stream =>
    match (Frame.read config.maxFrameBytes.toNat stream).1 with
    | .error e => .error e
    | .ok payload =>
      match Wire.decode? payload with
      | some r => .ok r
      | none => .error (.codec "")

/-- A way to make single attempts of a call and to pause between them. -/
structure Channel (m : Type → Type) (α : Type) where
  attempt : Request α → m (Except LinkError (Response α))
  /-- Pauses for some milliseconds. -/
  sleep : Nat → m Unit
  /-- A response in words. -/
  describe : Response α → String

namespace Channel

variable {m : Type → Type} [Monad m] {α : Type}

/-- Longest pause from the second one on, in milliseconds. -/
def longestPause : Nat := 5000

/-- Attempts a call, and again after each failure that `retryOn` admits while retries are left. The
pause before a retry doubles each time. -/
def retrying (c : Channel m α) (retryOn : LinkError → Bool) (request : Request α) :
    (retries pauseMs : Nat) → m (Except LinkError (Response α))
  | 0, _ => c.attempt request
  | n + 1, pauseMs => do
    match ← c.attempt request with
    | .error e =>
      if retryOn e then
        c.sleep pauseMs
        c.retrying retryOn request n (min (2 * pauseMs) longestPause)
      else return .error e
    | .ok r => return .ok r

/-- A call that is tried again after failures of the connection. -/
def callWithRetry (c : Channel m α) (config : LinkConfig) (request : Request α) :
    m (Except LinkError (Response α)) :=
  c.retrying LinkError.isRetryable request config.maxRetries.toNat config.retryBackoffMs.toNat

/-- A call that is tried again only when no connection was established. -/
def callWithConnectRetry (c : Channel m α) (config : LinkConfig) (request : Request α) :
    m (Except LinkError (Response α)) :=
  c.retrying LinkError.isConnectFailure request config.maxRetries.toNat config.retryBackoffMs.toNat

/-- How much of an unexpected response an error shows. -/
def shownLength : Nat := 80

/-- The error for a response of another kind than expected. -/
def unexpected (c : Channel m α) (expected : String) : Response α → LinkError
  | .error reason => .remote reason
  | other => .unexpectedResponse expected
      (String.ofList ((c.describe other).toList.take shownLength))

/-- The body of a response of the expected kind. -/
def expect {β : Type} (c : Channel m α) (expected : String) (body : Response α → Option β) :
    Except LinkError (Response α) → Except LinkError β
  | .error e => .error e
  | .ok r =>
    match body r with
    | some b => .ok b
    | none => .error (c.unexpected expected r)

variable (c : Channel m α) (config : LinkConfig)

/-! ## Typed operations -/

/-- Opens a session. -/
def createSession (r : CreateSession) : m (Except LinkError (SessionCreated α)) := do
  return c.expect "create_session" (fun | .sessionCreated b => some b | _ => none)
    (← c.callWithConnectRetry config (.createSession r))

/-- Runs a forward pass. -/
def executeForward (r : ExecuteForward) : m (Except LinkError (ForwardResult α)) := do
  return c.expect "execute_forward" (fun | .forwarded b => some b | _ => none)
    (← c.callWithConnectRetry config (.executeForward r))

/-- Closes a session. -/
def closeSession (id : String) : m (Except LinkError SessionClosed) := do
  return c.expect "close_session" (fun | .sessionClosed b => some b | _ => none)
    (← c.callWithRetry config (.closeSession ⟨id⟩))

/-- Asks whether the node is there. -/
def ping (text : String) : m (Except LinkError Pong) := do
  return c.expect "ping" (fun | .pong b => some b | _ => none) (← c.attempt (.ping ⟨text⟩))

/-- Asks the node what it offers. -/
def reportCapabilities (id : String) : m (Except LinkError (CapabilityReport α)) := do
  return c.expect "report_capabilities" (fun | .capabilities b => some b | _ => none)
    (← c.callWithRetry config (.reportCapabilities ⟨id⟩))

/-- Asks for the state of the node. -/
def health : m (Except LinkError (HealthReport α)) := do
  return c.expect "health" (fun | .health b => some b | _ => none) (← c.attempt .health)

/-- Asks for a plan. -/
def generatePlan (r : PlanRequest α) : m (Except LinkError (PlanResult α)) := do
  return c.expect "generate_plan" (fun | .planned b => some b | _ => none)
    (← c.callWithRetry config (.generatePlan r))

/-- Registers a worker. -/
def registerWorker (d : Descriptor α) : m (Except LinkError (WorkerRegistered α)) := do
  return c.expect "register_worker" (fun | .workerRegistered b => some b | _ => none)
    (← c.callWithRetry config (.registerWorker d))

/-- Runs one stage outside of any session. -/
def stageForward (r : StageForward) : m (Except LinkError (StageForwarded α)) := do
  return c.expect "stage_forward" (fun | .stageForwarded b => some b | _ => none)
    (← c.callWithConnectRetry config (.stageForward r))

/-- Hands in a report. -/
def submitMetrics (r : MetricsRecord α) : m (Except LinkError UInt64) := do
  return c.expect "submit_metrics" (fun | .metricsAccepted n => some n | _ => none)
    (← c.attempt (.submitMetrics r))

/-- Asks for collected reports. -/
def queryMetrics (source : Option String) : m (Except LinkError (MetricsReport α)) := do
  return c.expect "query_metrics" (fun | .metrics b => some b | _ => none)
    (← c.attempt (.queryMetrics ⟨source⟩))

/-- Gives a sign of life. -/
def heartbeat (h : Heartbeat α) : m (Except LinkError HeartbeatSeen) := do
  return c.expect "heartbeat" (fun | .heartbeatSeen b => some b | _ => none)
    (← c.attempt (.heartbeat h))

end Channel

end LayerPipeline
