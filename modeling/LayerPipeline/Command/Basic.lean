import LayerPipeline.Command.Grammar
import LayerPipeline.Config

/-!
# Commands

What a command line asks for, as data.
-/

namespace LayerPipeline

/-- Settings of the local node that a command line gives. -/
structure NodeOverrides where
  nodeId : Option String
  kind : Option DeviceKind
  computeScore : Option Binary64
  memoryGb : Option Binary64
  hasFp16 : Option Bool
deriving DecidableEq, Inhabited

/-- The settings after the overrides. -/
def NodeOverrides.apply (o : NodeOverrides) (c : LocalNodeConfig Binary64) :
    LocalNodeConfig Binary64 where
  nodeId := o.nodeId.getD c.nodeId
  kind := o.kind.orElse fun _ => c.kind
  computeScore := o.computeScore.orElse fun _ => c.computeScore
  memoryGb := o.memoryGb.orElse fun _ => c.memoryGb
  hasFp16 := o.hasFp16.orElse fun _ => c.hasFp16
  bandwidthMbps := c.bandwidthMbps

/-- How to run a coordinator. -/
structure CoordinatorArguments where
  config : Option String
  listen : Option String
  advertise : Option String
  model : Option String
  strategy : Option Strategy
  profile : Option String
  plan : Option String
  noParticipate : Bool
  node : NodeOverrides
deriving DecidableEq, Inhabited

/-- The settings after the arguments. -/
def CoordinatorArguments.apply (a : CoordinatorArguments) (c : CoordinatorConfig Binary64) :
    CoordinatorConfig Binary64 :=
  { c with
    listenAddress := a.listen.getD c.listenAddress
    modelName := a.model.getD c.modelName
    defaultStrategy := a.strategy.getD c.defaultStrategy
    profilePath := a.profile.orElse fun _ => c.profilePath
    participate := c.participate && !a.noParticipate
    node := a.node.apply c.node }

/-- How to run a worker. -/
structure WorkerArguments where
  config : Option String
  listen : Option String
  advertise : Option String
  coordinator : Option String
  maxSessions : Option UInt32
  node : NodeOverrides
deriving DecidableEq, Inhabited

/-- The settings after the arguments. -/
def WorkerArguments.apply (a : WorkerArguments) (c : WorkerConfig Binary64) :
    WorkerConfig Binary64 :=
  { c with
    listenAddress := a.listen.getD c.listenAddress
    advertiseAddress := a.advertise.orElse fun _ => c.advertiseAddress
    coordinatorAddress := a.coordinator.orElse fun _ => c.coordinatorAddress
    maxSessions := a.maxSessions.getD c.maxSessions
    node := a.node.apply c.node }

/-- What to plan. -/
structure PlanArguments where
  nodes : String
  profile : Option String
  strategy : Strategy
  model : String
  output : Option String
deriving DecidableEq, Inhabited

/-- What a command line asks for. -/
inductive Command where
  | coordinator (arguments : CoordinatorArguments)
  | worker (arguments : WorkerArguments)
  | plan (arguments : PlanArguments)
  | ping (address text : String)
  | health (address : String)
  | metrics (address : String) (source : Option String)
deriving DecidableEq, Inhabited

namespace Command

/-- The node settings among the given options. -/
def nodeOverrides (g : Given) : NodeOverrides where
  nodeId := g.lookup "node-id"
  kind := (g.lookup "device-type").bind fun s => (DeviceKind.ofName s).toOption
  computeScore := (g.lookup "compute-score").bind numberOfText?
  memoryGb := (g.lookup "memory-gb").bind numberOfText?
  hasFp16 := (g.lookup "fp16").map (· = "true")

/-- The strategy among the given options. -/
def givenStrategy? (g : Given) : Option Strategy :=
  (g.lookup "strategy").bind fun s => (Strategy.ofName s).toOption

/-- The value of an option, given or preset. -/
def valueOf (v : Verb) (g : Given) (name : String) : String :=
  ((g.lookup name).orElse fun _ =>
    (v.flags.find? fun f => f.name = name).bind (·.preset)).getD ""

/-- The command that a verb and its options stand for. -/
def ofGiven (v : Verb) (g : Given) : Command :=
  match v.name with
  | "coordinator" => .coordinator {
      config := g.lookup "config"
      listen := g.lookup "listen"
      advertise := g.lookup "advertise"
      model := g.lookup "model"
      strategy := givenStrategy? g
      profile := g.lookup "profile"
      plan := g.lookup "plan"
      noParticipate := (g.lookup "no-participate").isSome
      node := nodeOverrides g }
  | "worker" => .worker {
      config := g.lookup "config"
      listen := g.lookup "listen"
      advertise := g.lookup "advertise"
      coordinator := g.lookup "coordinator"
      maxSessions := (g.lookup "max-sessions").bind countOfText?
      node := nodeOverrides g }
  | "plan" => .plan {
      nodes := valueOf v g "nodes"
      profile := g.lookup "profile"
      strategy := (givenStrategy? g).getD .balanced
      model := valueOf v g "model"
      output := g.lookup "output" }
  | "ping" => .ping (valueOf v g "addr") (valueOf v g "message")
  | "health" => .health (valueOf v g "addr")
  | _ => .metrics (valueOf v g "addr") (g.lookup "source")

end Command

end LayerPipeline
