import LayerPipeline.Command.Run
import LayerPipeline.Link.Address
import LayerPipeline.Link.Server
import LayerPipeline.Service.Registration
import LayerPipeline.Text.Timestamp
import Std.Async.DNS
import Std.Async.Signal
import Std.Async.TCP
import Std.Async.Timer

/-!
# The program

Files, sockets, signals and the clock of a real system. What is done with them is decided by the
commands and by the procedures of the nodes.
-/

namespace LayerPipeline

namespace Program

open Std.Async Std.Net

/-! ## Time, names and system messages -/

/-- The time. -/
def now : IO Clock := do
  let nanos := (← Std.Time.Timestamp.now).toNanosecondsSinceUnixEpoch.val.toNat
  return ⟨(← IO.monoNanosNow) / 1000, Text.timestamp nanos⟩

/-- The pause of a number of milliseconds. -/
def pause (ms : Nat) : Async Unit := sleep (Std.Time.Millisecond.Offset.ofNat ms)

/-- Random-looking names in the usual form of unique ids, all derived from one random seed. -/
def uniqueNames : IO IdSource := do
  let seed := (← IO.getRandomBytes 16).toList.foldl (fun n b => n * 256 + b.toNat) 0
  let limit := 0x100000000000000000000000000000000
  let digits (n : Nat) : List Char :=
    let mixed := (seed + n * 0x9e3779b97f4a7c15f39cc0605cedc835) % limit
    let ds := Nat.toDigits 16 (mixed * 0xda942042e4dd58b5a3b195354a39b70d % limit)
    List.replicate (32 - ds.length) '0' ++ ds
  let name (n : Nat) : String :=
    let ds := (digits n).set 12 '4' |>.set 16 'a'
    "-".intercalate ([(0, 8), (8, 4), (12, 4), (16, 4), (20, 12)].map fun (start, length) =>
      String.ofList ((ds.drop start).take length))
  return ⟨0, name⟩

/-- The number of a system error; numbers from the network layer are negated. -/
def errorNumber (e : IO.Error) : Nat :=
  let code : UInt32 := match e with
    | .alreadyExists _ c _ | .otherError c _ | .resourceBusy c _ | .resourceVanished c _
    | .unsupportedOperation c _ | .hardwareFault c _ | .unsatisfiedConstraints c _
    | .illegalOperation c _ | .protocolError c _ | .timeExpired c _ | .interrupted _ c _
    | .noFileOrDirectory _ c _ | .invalidArgument _ c _ | .permissionDenied _ c _
    | .resourceExhausted _ c _ | .inappropriateType _ c _ | .noSuchThing _ c _ => c
    | _ => 0
  if 0x80000000 ≤ code.toNat then UInt32.size - code.toNat else code.toNat

/-- The system's words for an error. -/
def systemReason (e : IO.Error) : String :=
  let texts := [(2, "No such file or directory"), (13, "Permission denied"),
    (20, "Not a directory"),
    (21, "Is a directory"), (98, "Address already in use"), (99, "Cannot assign requested address"),
    (101, "Network is unreachable"), (104, "Connection reset by peer"),
    (110, "Connection timed out"),
    (111, "Connection refused"), (113, "No route to host")]
  match texts.lookup (errorNumber e) with
  | some text => text ++ " (os error " ++ toString (errorNumber e) ++ ")"
  | none => toString e

/-- The outcome of an action that may meet a system error. -/
def attempting {β : Type} (action : Async β) : Async (Except String β) := do
  try return .ok (← action)
  catch e => return .error (systemReason e)

/-! ## Calls -/

/-- The socket address that an address stands for. -/
def resolve (address : String) : Async (Except String SocketAddress) := do
  match Address.split address with
  | .error reason => return .error reason
  | .ok (host, port) =>
    let withPort (ip : IPAddr) : SocketAddress := match ip with
      | .v4 a => .v4 ⟨a, UInt16.ofNat port⟩
      | .v6 a => .v6 ⟨a, UInt16.ofNat port⟩
    match IPv4Addr.ofString host with
    | some a => return .ok (withPort (.v4 a))
    | none =>
      match ← attempting (DNS.getAddrInfo host "") with
      | .error reason => return .error reason
      | .ok found =>
        match found.toList with
        | ip :: _ => return .ok (withPort ip)
        | [] => return .error "failed to lookup address information"

/-- The text of a socket address. -/
def addressText : SocketAddress → String
  | .v4 a => a.addr.toString ++ ":" ++ toString a.port
  | .v6 a => "[" ++ a.addr.toString ++ "]:" ++ toString a.port

/-- Bytes of a frame as the network layer takes them. -/
def packed (bytes : List UInt8) : ByteArray := ⟨bytes.toArray⟩

/-- Reads until a whole response has arrived or the peer has closed the connection. -/
partial def receiveResponse (limit : Nat) (peer : TCP.Socket.Client) (bytes : List UInt8) :
    Async Delivery := do
  match Frame.read limit bytes with
  | (.error .closed, _) | (.error (.io _), _) =>
    match ← peer.recv? 65536 with
    | some more => receiveResponse limit peer (bytes ++ more.toList)
    | none => return .answered bytes
  | _ => return .answered bytes

/-- What becomes of a request, without a deadline. -/
def roundTrip (config : LinkConfig) (address : String) (request : Request Binary64) :
    Async Delivery := do
  match ← resolve address with
  | .error reason => return .refused reason
  | .ok target =>
    let peer ← TCP.Socket.Client.mk
    match ← attempting (peer.connect target) with
    | .error reason => return .refused reason
    | .ok _ =>
      let payload := Wire.encode request
      match Frame.write payload with
      | .error _ => return .oversized payload.length
      | .ok frame =>
        let exchange : Async Delivery := do
          peer.send (packed frame)
          receiveResponse config.maxFrameBytes.toNat peer []
        match ← attempting exchange with
        | .ok delivery => return delivery
        | .error reason => return .broken reason

/-- One attempt of a call. -/
def attempt (config : LinkConfig) (address : String) (request : Request Binary64) :
    Async (Except LinkError (Response Binary64)) := do
  let delivery ← Async.race (roundTrip config address request) do
    pause config.callTimeoutMs.toNat
    return .silent
  return delivery.response config address

/-- The way to a node. -/
def wayTo (config : LinkConfig) (address : String) : Channel Async Binary64 where
  attempt := attempt config address
  sleep := pause
  describe := Dump.dump

/-! ## Nodes -/

/-- A node that is being served: its state, the locks taken in it, and how it works. -/
structure Service (σ ι ο : Type) where
  state : IO.Ref σ
  held : IO.Ref (List Lock)
  handle : Request Binary64 → Procedure σ ι ο (Except Abort (Response Binary64))
  answer : ι → Async ο
  /-- Sets the clocks of the node. -/
  tellTime : Clock → σ → σ
  /-- Takes the reports that are to be sent. -/
  takeReports : σ → List (String × MetricsRecord Binary64) × σ
  link : LinkConfig

namespace Service

variable {σ ι ο β : Type}

/-- Waits for a lock and takes it. -/
partial def acquire (s : Service σ ι ο) (key : Lock) : Async Unit := do
  let taken ← s.held.modifyGet fun held =>
    if held.contains key then (false, held) else (true, key :: held)
  if taken then return ()
  pause 1
  s.acquire key

/-- Works a procedure off. -/
def perform (s : Service σ ι ο) : Procedure σ ι ο β → Async β
  | .done b => return b
  | .atomic effect next => do
    let before ← s.state.modifyGet fun x => (x, effect x)
    s.perform (next before)
  | .lock key next => do
    s.acquire key
    s.perform next
  | .unlock key next => do
    s.held.modify fun held => held.erase key
    s.perform next
  | .wait ms next => do
    pause ms
    s.perform next
  | .ask question next => do
    let a ← s.answer question
    s.perform (next a)

/-- Works a procedure off at the present time, then sends the reports that it leaves. -/
def work (s : Service σ ι ο) (p : Procedure σ ι ο β) : Async β := do
  let time ← now
  s.state.modify (s.tellTime time)
  let result ← s.perform p
  for (address, report) in ← s.state.modifyGet s.takeReports do
    background (attempt s.link address (.submitMetrics report))
  return result

/-- What the server says when a payload cannot be decoded. -/
def complaints : Server.Complaints := .always "payload is no request" (by decide)

/-- Answers the requests of one connection. `pending` has arrived and is not used yet. -/
partial def serveConnection (s : Service σ ι ο) (peer : TCP.Socket.Client) (pending : List UInt8) :
    Async Unit := do
  match ← s.work (Server.step complaints s.handle s.link.maxFrameBytes.toNat pending) with
  | .wait =>
    match ← peer.recv? 65536 with
    | some more => s.serveConnection peer (pending ++ more.toList)
    | none => peer.shutdown
  | .reply answer rest _ =>
    peer.send (packed answer)
    s.serveConnection peer rest
  | .close answer =>
    unless answer.isEmpty do peer.send (packed answer)
    peer.shutdown

/-- Accepts connections until the user interrupts. -/
partial def acceptAll (s : Service σ ι ο) (server : TCP.Socket.Server) (stop : Signal.Waiter) :
    Async Unit := do
  let next ← Selectable.one #[
    .case server.acceptSelector fun peer => return some peer,
    .case stop.selector fun _ => return none]
  match next with
  | none => return ()
  | some peer =>
    background (s.serveConnection peer [])
    s.acceptAll server stop

/-- Does something at once and then at every tick of an interval. -/
partial def everySeconds (seconds : Nat) (step : β → Async β) (b : β) : Async Unit := do
  let b ← step b
  pause (max seconds 1 * 1000)
  everySeconds seconds step b

end Service

/-- Serves until the user interrupts. -/
def serve {σ ι ο : Type} (s : Service σ ι ο) (server : TCP.Socket.Server) :
    Async (Except String Unit) := do
  let stop ← Signal.Waiter.mk .sigint false
  attempting (s.acceptAll server stop)

/-- Serves as a coordinator. -/
def coordinate (server : TCP.Socket.Server) (c : Coordinator Binary64) :
    Async (Except String Unit) := do
  let s : Service (Coordinator Binary64) (Call Binary64)
      (Except LinkError (Response Binary64)) := {
    state := ← IO.mkRef c
    held := ← IO.mkRef []
    handle := Coordinator.handle Dump.dump
    answer := fun q => attempt q.config q.address q.request
    tellTime := fun time c =>
      { c with clock := time, embedded := { c.embedded with clock := time } }
    takeReports := fun c =>
      (c.embedded.outbox, { c with embedded := { c.embedded with outbox := [] } })
    link := c.config.link }
  background (Service.everySeconds c.config.heartbeatIntervalSecs.toNat
    (fun (_ : Unit) => s.work (Coordinator.sweep Dump.dump [])) ())
  serve s server

/-- Serves as a worker that is reached at an address. -/
def work (server : TCP.Socket.Server) (w : Worker Binary64) (address : String) :
    Async (Except String Unit) := do
  let s : Service (Worker Binary64) Empty Empty := {
    state := ← IO.mkRef w
    held := ← IO.mkRef []
    handle := Worker.handle
    answer := fun q => nomatch q
    tellTime := fun time w => { w with clock := time }
    takeReports := fun w => (w.outbox, { w with outbox := [] })
    link := w.config.link }
  let period := w.config.heartbeatIntervalSecs.toNat
  if w.config.coordinatorAddress.isSome then
    background (Service.everySeconds period (fun registered => do
      (← s.state.get).registrationRound (wayTo w.config.link) address registered) false)
  background (Service.everySeconds period (fun (_ : Unit) => do
    let _ ← s.work (Worker.sweep [])) ())
  serve s server

/-! ## The console of a real system -/

/-- The number of processors that the system lists. -/
def threads : IO Nat := do
  try
    let text ← IO.FS.readFile "/proc/cpuinfo"
    return max 1 ((Text.lines text).countP fun line => line.startsWith "processor")
  catch _ => return 1

/-- The machine. -/
def machine : IO Host := do
  let report ← try some <$> IO.FS.readFile "/proc/meminfo" catch _ => pure none
  return ⟨report, "/proc/meminfo", ← threads⟩

/-- Files, terminal and network. `socket` keeps the socket that listens. -/
def console (socket : IO.Ref (Option TCP.Socket.Server)) : Console Async where
  readBytes path := attempting do return (← IO.FS.readBinFile path).toList
  writeText path text := attempting do IO.FS.writeFile path text
  print text := do
    IO.print text
    (← IO.getStdout).flush
  host := machine
  clock := now
  ids := uniqueNames
  listen address := do
    match ← resolve address with
    | .error reason => return .error reason
    | .ok target => attempting do
      let server ← TCP.Socket.Server.mk
      server.bind target
      server.listen 128
      socket.set (some server)
      return addressText (← server.getSockName)
  attempt := attempt
  coordinate c := do
    match ← socket.get with
    | some server => coordinate server c
    | none => return .error "not listening"
  work w address := do
    match ← socket.get with
    | some server => work server w address
    | none => return .error "not listening"

/-- Does what a command line asks for; the result is the exit status. -/
def run (words : List String) : IO UInt32 := do
  let socket ← IO.mkRef none
  match ← Async.block (Command.runLine (console socket) words) with
  | .ok _ => return 0
  | .error failure =>
    IO.eprint failure.report
    return UInt32.ofNat failure.status

end Program

end LayerPipeline

def main (words : List String) : IO UInt32 := LayerPipeline.Program.run words
