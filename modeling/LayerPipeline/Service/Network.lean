import LayerPipeline.Service.Pipeline
import LayerPipeline.Service.Registration

/-!
# Networks

A coordinator, the workers it can reach, and what becomes of a call between them. A message arrives
as it was sent; what can go wrong is that nobody listens, that a message is too long, or that the
answer comes too late. A call that leaves no time at all is given up before it is sent.
-/

namespace LayerPipeline

/-- What the outcome of a call depends on in the form of its messages. -/
structure Encoding (α : Type) where
  requestBytes : Request α → Nat
  responseBytes : Response α → Nat
  /-- A response in words. -/
  describe : Response α → String

/-- The encoding of messages as payloads. -/
def Encoding.payload : Encoding Binary64 where
  requestBytes r := (Wire.encode r).length
  responseBytes r := (Wire.encode r).length
  describe := Dump.dump

/-- A worker that serves an address. -/
structure Peer (α : Type) where
  address : String
  worker : Worker α
  /-- Whether it accepts connections. -/
  listening : Bool
  /-- Longer requests are refused. -/
  frameLimit : Nat
  /-- While it accepts no connections: whether those who connect wait in vain instead of being
  refused. -/
  silent : Bool := false

/-- A coordinator and the workers around it. -/
structure Network (α : Type) where
  coordinator : Coordinator α
  /-- Where the coordinator is reached. -/
  address : String
  /-- Whether the coordinator accepts connections. -/
  listening : Bool
  /-- Longer requests are refused by the coordinator. -/
  frameLimit : Nat
  peers : List (Peer α)

/-- A response and the time until it was ready; nothing if the callee failed to produce one. -/
structure Answer (α : Type) where
  response : Option (Response α)
  elapsedMs : Nat

namespace Network

variable {α : Type} [Scalar α]

/-- The worker that accepts connections at an address. -/
def peer? (n : Network α) (address : String) : Option (Peer α) :=
  n.peers.find? fun p => p.listening && p.address = address

/-- Puts another state in place of the worker that accepts connections at an address. -/
def setWorker (n : Network α) (address : String) (w : Worker α) : Network α :=
  { n with peers := n.peers.map fun p =>
      if p.listening && p.address = address then { p with worker := w } else p }

/-- A worker's answer to a request. A request that is too long is refused unread. -/
def serveAt (e : Encoding α) (p : Peer α) (request : Request α) : Answer α × Worker α :=
  let size := e.requestBytes request
  if p.frameLimit < size then
    (⟨some (.error (LinkError.frameTooLarge size p.frameLimit).message), 0⟩, p.worker)
  else
    let (result, worker, elapsed) := (Worker.handle request).run .none p.worker
    (⟨result.toOption, elapsed⟩, worker)

/-- A coordinator's answer to its own call, made while it serves another request. What would have to
wait for the session of that request never gets an answer. -/
def serveSelf (c : Coordinator α) : Request α → Option (Response α)
  | .reportCapabilities _ => some (.capabilities c.capability.report)
  | .createSession r =>
    if c.sessions.contains r.sessionId then
      let e := ServiceError.session ("session " ++ r.sessionId ++ " already exists")
      some (.sessionCreated ⟨false, r.sessionId, some e.message, c.nodeInfo⟩)
    else none
  | .closeSession r =>
    if c.sessions.contains r.sessionId then none
    else some (.sessionClosed ⟨true, some ("session not found: " ++ r.sessionId)⟩)
  | _ => none

/-- What a caller makes of an answer: a late one counts as none, and one that is too long is
refused. The second component is how long the caller was kept waiting. -/
def receive (e : Encoding α) (config : LinkConfig) (address : String) (a : Answer α) :
    Except LinkError (Response α) × Nat :=
  let deadline := config.callTimeoutMs.toNat
  if deadline < a.elapsedMs then (.error (.timeout address deadline), deadline)
  else
    match a.response with
    | none => (.error .closed, a.elapsedMs)
    | some r =>
      let size := e.responseBytes r
      let limit := config.maxFrameBytes.toNat
      if limit < size then (.error (.frameTooLarge size limit), a.elapsedMs)
      else (.ok r, a.elapsedMs)

/-- The outcome for a caller that waits in vain. -/
def inVain (q : Call α) : Except LinkError (Response α) × Nat :=
  let deadline := q.config.callTimeoutMs.toNat
  (.error (.timeout q.address deadline), deadline)

/-- The outcome for a caller of an address where nobody accepts connections. -/
def unconnected (n : Network α) (q : Call α) : Except LinkError (Response α) × Nat :=
  if n.peers.any fun p => p.silent && p.address = q.address then inVain q
  else (.error (.unreachable q.address connectionRefused), 0)

/-- What becomes of one call of the coordinator: a worker answers it or, while it is busy, the
coordinator itself. -/
def exchange (e : Encoding α) (q : Call α) (n : Network α) :
    (Except LinkError (Response α) × Nat) × Network α :=
  let size := e.requestBytes q.request
  let tooLong : Except LinkError (Response α) × Nat :=
    (.error (.frameTooLarge size (UInt32.size - 1)), 0)
  match n.peer? q.address with
  | some p =>
    if q.config.callTimeoutMs = 0 then (inVain q, n)
    else if UInt32.size ≤ size then (tooLong, n)
    else
      let (answer, worker) := serveAt e p q.request
      (receive e q.config q.address answer, n.setWorker q.address worker)
  | none =>
    if n.listening && n.address = q.address then
      if q.config.callTimeoutMs = 0 then (inVain q, n)
      else if UInt32.size ≤ size then (tooLong, n)
      else
        let n' := { n with coordinator := n.coordinator.countRequest }
        match serveSelf n.coordinator q.request with
        | some r => (receive e q.config q.address ⟨some r, 0⟩, n')
        | none => (inVain q, n')
    else (n.unconnected q, n)

/-- The network around its coordinator. -/
def surroundings (e : Encoding α) :
    Surroundings (Network α) (Call α) (Except LinkError (Response α)) := fun q n =>
  let ((result, waited), n') := exchange e q n
  (result, n', waited)

/-- What the coordinator does, as part of the network. -/
def ofCoordinator {β : Type} (p : Coordinator.Action α β) :
    Procedure (Network α) (Call α) (Except LinkError (Response α)) β :=
  p.within coordinator fun c n => { n with coordinator := c }

/-- A complete call of the coordinator. -/
def perform {β : Type} (e : Encoding α) (p : Coordinator.Action α β) (n : Network α) :
    β × Network α :=
  (ofCoordinator p).call (surroundings e) n

/-! ## Calls from outside -/

/-- One attempt of a call to whoever serves an address. -/
def request (e : Encoding α) (q : Call α) (n : Network α) :
    Except LinkError (Response α) × Network α :=
  match n.peer? q.address with
  | some _ =>
    let ((result, _), n') := exchange e q n
    (result, n')
  | none =>
    let size := e.requestBytes q.request
    if n.listening && n.address = q.address then
      if q.config.callTimeoutMs = 0 then ((inVain q).1, n)
      else if n.frameLimit < size then
        let refusal : Response α := .error (LinkError.frameTooLarge size n.frameLimit).message
        ((receive e q.config q.address ⟨some refusal, 0⟩).1, n)
      else
        let (result, n', elapsed) :=
          (ofCoordinator (Coordinator.handle e.describe q.request)).run (surroundings e) n
        ((receive e q.config q.address ⟨result.toOption, elapsed⟩).1, n')
    else ((n.unconnected q).1, n)

/-- A report reaches its address, or is lost if nobody listens there. -/
def handIn (n : Network α) (report : String × MetricsRecord α) : Network α :=
  match n.peer? report.1 with
  | some p => n.setWorker report.1 p.worker.countRequest
  | none =>
    if n.listening && n.address = report.1 then
      { n with coordinator := (n.coordinator.countRequest.submitMetrics report.2).2 }
    else n

/-- The reports that are on their way. -/
def reports (n : Network α) : List (String × MetricsRecord α) :=
  n.coordinator.embedded.outbox ++ n.peers.flatMap fun p => p.worker.outbox

/-- All reports on their way arrive. -/
def deliverReports (n : Network α) : Network α :=
  let sent : Network α := { n with
    coordinator := { n.coordinator with embedded := { n.coordinator.embedded with outbox := [] } }
    peers := n.peers.map fun p => { p with worker := { p.worker with outbox := [] } } }
  n.reports.foldl handIn sent

/-- Time passes on every node. -/
def sleep (n : Network α) (ms : Nat) : Network α :=
  let pass (w : Worker α) : Worker α := { w with clock := w.clock.sleep ms }
  { n with
    coordinator := { n.coordinator with
      clock := n.coordinator.clock.sleep ms
      embedded := pass n.coordinator.embedded }
    peers := n.peers.map fun p => { p with worker := pass p.worker } }

/-! ## Registration of workers -/

/-- The way from a worker to its coordinator. -/
def callFrom (e : Encoding α) (config : LinkConfig) (address : String) :
    Channel (StateM (Network α)) α where
  attempt r := fun n => request e ⟨config, address, r⟩ n
  sleep _ := pure ()
  describe := e.describe

/-- What a worker of the network does at a tick of its heartbeat. -/
def registrationRound (e : Encoding α) (address : String) (w : Worker α) (registered : Bool) :
    StateM (Network α) Bool :=
  w.registrationRound (callFrom e w.config.link) address registered

end Network

end LayerPipeline
