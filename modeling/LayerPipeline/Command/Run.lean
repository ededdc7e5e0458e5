import LayerPipeline.Command.Basic
import LayerPipeline.Command.Help
import LayerPipeline.Plan.Table
import LayerPipeline.Planning.PlanFile
import LayerPipeline.Profile.File
import LayerPipeline.Service.Pipeline
import LayerPipeline.Service.Probe

/-!
# Running commands

What the program does for a command line. Files, the network and the terminal are reached through a
console, so that the same code works on a real system and on one kept in memory.
-/

namespace LayerPipeline

/-- What a command can do outside of itself. A failure is the system's reason. -/
structure Console (m : Type → Type) where
  readBytes : String → m (Except String (List UInt8))
  writeText : (path text : String) → m (Except String Unit)
  /-- Writes to the terminal. -/
  print : String → m Unit
  host : m Host
  clock : m Clock
  /-- Where sessions without a name get one. -/
  ids : m IdSource
  /-- Starts to listen at an address; the address that was taken. -/
  listen : String → m (Except String String)
  /-- One attempt of a call. -/
  attempt : LinkConfig → String → Request Binary64 → m (Except LinkError (Response Binary64))
  /-- Serves as a coordinator until told to stop. -/
  coordinate : Coordinator Binary64 → m (Except String Unit)
  /-- Serves as a worker that is reached at an address until told to stop. -/
  work : Worker Binary64 → String → m (Except String Unit)

/-- Why a command came to no good end. -/
inductive Failure where
  /-- The command line cannot be understood. -/
  | usage
  /-- A computation was abandoned. -/
  | aborted
  /-- A document is not of the expected form. -/
  | malformedDocument
  /-- Something failed; the causes explain it from the outside in. -/
  | failed (message : String) (causes : List String)
deriving DecidableEq, Inhabited

namespace Failure

open Command

/-- The exit status that tells the failure. -/
def status : Failure → Nat
  | .usage => 2
  | .aborted => 101
  | .malformedDocument => 1
  | .failed .. => 1

/-- The list of causes under an error; several are numbered. -/
def causesText : List String → String
  | [] => ""
  | [cause] => "\n\nCaused by:\n    " ++ cause
  | causes => "\n\nCaused by:" ++
      String.join (causes.zipIdx.map fun (cause, i) => "\n    " ++ toString i ++ ": " ++ cause)

/-- What the user is told. -/
def report : Failure → String
  | .usage => Topic.program.page
  | .aborted => "computation abandoned\n"
  | .malformedDocument => "Error: malformed document\n"
  | .failed message causes => "Error: " ++ message ++ causesText causes ++ "\n"

/-- A data error that ends the program. -/
def ofData : DataError → Failure
  | .aborted _ => .aborted
  | e => .failed e.message []

/-- A planning error that ends the program. -/
def ofPlanning : PlanningError → Failure
  | .aborted _ => .aborted
  | .malformedJson => .malformedDocument
  | e => .failed e.message []

/-- A service error that ends the program. -/
def ofService : ServiceError → Failure
  | .aborted _ => .aborted
  | e => .failed e.message []

/-- The failure to do something, caused by another one. -/
def because (doing : String) : Failure → Failure
  | .aborted => .aborted
  | .usage => .failed doing []
  | .malformedDocument => .failed doing ["malformed document"]
  | .failed message causes => .failed doing (message :: causes)

end Failure

namespace Command

variable {m : Type → Type} [Monad m]

/-- A step of a command. -/
abbrev Run (m : Type → Type) := ExceptT Failure m

/-- A step that can fail for a reason of the system. -/
def orSystemReason {β : Type} (doing : String) (step : m (Except String β)) : Run m β := do
  match ← (step : m (Except String β)) with
  | .ok b => return b
  | .error reason => throw (.failed doing [reason])

/-- A result that may be a failure. -/
def orFailure {ε β : Type} (f : ε → Failure) : Except ε β → Run m β
  | .ok b => return b
  | .error e => throw (f e)

/-- The text of a file. -/
def readText (console : Console m) (doing path : String) : Run m String := do
  match Wire.textOfBytes? (← orSystemReason doing (console.readBytes path)) with
  | some text => return text
  | none => throw (.failed doing [Collector.notTextReason])

/-- Settings from a file, or the standard ones. -/
def readConfig {β : Type} [JsonCodec β] (console : Console m) (standard : β) :
    Option String → Run m β
  | none => return standard
  | some path => do
    let text ← readText console ("reading config " ++ path) path
    match (Json.parse? text).bind JsonCodec.read with
    | some config => return config
    | none => throw (Failure.because ("parsing config " ++ path) .malformedDocument)

/-- The layers of a profile, or of the demonstration. -/
def loadProfile (console : Console m) : Option String → Run m (List (LayerCost Binary64))
  | none => return demonstrationLayers
  | some path => do
    let doing := "loading profile " ++ path
    let bytes ← orSystemReason doing (console.readBytes path)
    let (result, collector) := (Collector.empty : Collector Binary64).importBytes bytes
    let _ ← orFailure (fun e => (Failure.ofPlanning e).because doing) result
    if collector.layerCosts.isEmpty then
      throw (.failed ("profile " ++ path ++ " holds no layer records") [])
    return collector.layerCosts

/-- Plans offline, prints the plan and keeps it in a file if asked to. -/
def runPlan (console : Console m) (a : PlanArguments) : Run m Unit := do
  let text ← readText console ("reading " ++ a.nodes) a.nodes
  let descriptors : List (Descriptor Binary64) ←
    match (Json.parse? text).bind JsonCodec.read with
    | some ds => pure ds
    | none => throw .malformedDocument
  for d in descriptors do orFailure .ofData d.validate
  let layers ← loadProfile console a.profile
  let clock ← (console.clock : m Clock)
  let plan ← orFailure .ofPlanning
    (Planning.generate .standard layers (descriptors.map (·.toNode)) a.model a.strategy clock.text)
  (console.print (plan.table ++ "\n") : m Unit)
  match a.output with
  | none => return ()
  | some path =>
    match ← (console.writeText path plan.toFileText : m (Except String Unit)) with
    | .ok _ => return ()
    | .error reason => throw (.ofPlanning (.io reason))

/-- The plan that a coordinator starts with: one from a file, or one of its own if it can make
one. -/
def firstPlan (console : Console m) (path : Option String) (c : Coordinator Binary64) :
    Run m (Coordinator Binary64) := do
  match path with
  | some path =>
    let doing := "loading plan " ++ path
    let text ← readText console doing path
    let plan ← orFailure (fun e => (Failure.ofPlanning e).because doing) (Plan.ofFileText text)
    orFailure .ofService (c.installPlan plan)
  | none =>
    match c.generatePlan ⟨c.config.modelName, c.config.defaultStrategy, [], none, true⟩ with
    | .ok (_, c) => return c
    | .error (.aborted _) => throw .aborted
    | .error _ => return c

/-- Runs a coordinator. -/
def runCoordinator (console : Console m) (a : CoordinatorArguments) : Run m Unit := do
  let config := a.apply (← readConfig console .standard a.config)
  let host ← (console.host : m Host)
  let capability ← orFailure .ofService (host.detect config.node)
  let profile ← loadProfile console config.profilePath
  let bound ← orSystemReason ("binding " ++ config.listenAddress)
    (console.listen config.listenAddress)
  let clock ← (console.clock : m Clock)
  let ids ← (console.ids : m IdSource)
  let coordinator ← orFailure .ofService (Coordinator.start config capability
    (.passthrough "cpu" 0) profile (a.advertise.getD bound) clock ids 0.001)
  let coordinator ← firstPlan console a.plan coordinator
  match ← (console.coordinate coordinator : m (Except String Unit)) with
  | .ok _ => return ()
  | .error reason => throw (.failed reason [])

/-- Runs a worker. -/
def runWorker (console : Console m) (a : WorkerArguments) : Run m Unit := do
  let config := a.apply (← readConfig console .standard a.config)
  let host ← (console.host : m Host)
  let capability ← orFailure .ofService (host.detect config.node)
  let bound ← orSystemReason ("binding " ++ config.listenAddress)
    (console.listen config.listenAddress)
  let clock ← (console.clock : m Clock)
  let ids ← (console.ids : m IdSource)
  let worker := Worker.start config capability (.passthrough "cpu" 0) clock ids
  match ← (console.work worker (config.advertiseAddress.getD bound) : m (Except String Unit)) with
  | .ok _ => return ()
  | .error reason => throw (.failed reason [])

/-- The way to a node that a command asks something. -/
def channelTo (console : Console m) (address : String) : Channel m Binary64 where
  attempt := console.attempt .standard address
  sleep _ := pure ()
  describe := Dump.dump

/-- Asks a node something and prints what the answer says. -/
def runQuery {β : Type} (console : Console m) (answer : m (Except LinkError β))
    (render : β → String) : Run m Unit := do
  match ← (answer : m (Except LinkError β)) with
  | .ok b => (console.print (render b ++ "\n") : m Unit)
  | .error e => throw (.failed e.message [])

/-- Runs a command. -/
def run (console : Console m) : Command → Run m Unit
  | .coordinator a => runCoordinator console a
  | .worker a => runWorker console a
  | .plan a => runPlan console a
  | .ping address text =>
    runQuery console ((channelTo console address).ping text) fun (p : Pong) =>
      p.text ++ " (" ++ p.nodeVersion ++ ", " ++ p.timestamp ++ ")"
  | .health address =>
    runQuery console ((channelTo console address).health) fun (h : HealthReport Binary64) =>
      (JsonCodec.write h).indented
  | .metrics address source =>
    runQuery console ((channelTo console address).queryMetrics source)
      fun (r : MetricsReport Binary64) => (JsonCodec.write r).indented

/-- Does what a command line asks for. -/
def runLine (console : Console m) (words : List String) : m (Except Failure Unit) :=
  match readLine words with
  | .refused => return .error .usage
  | .version => do
    console.print (programName ++ " " ++ nodeVersion ++ "\n")
    return .ok ()
  | .help topic => do
    console.print topic.page
    return .ok ()
  | .command verb given => (run console (ofGiven verb given)).run

end Command

end LayerPipeline
