import LayerPipeline.Command.FileTree
import LayerPipeline.Command.Run
import LayerPipeline.Link.Address

/-!
# Commands without a system

A console that keeps its files in memory and has no network: what a command prints and writes can be
looked at afterwards.
-/

namespace LayerPipeline

/-- The files, and what was printed. -/
structure Desk where
  files : FileTree
  printed : String
  machine : Host
  time : Clock
  names : IdSource

namespace Desk

/-- The system's words for a network that cannot be used. -/
def networkUnreachable : String := "Network is unreachable (os error 101)"

/-- The system's words for a host whose name cannot be asked for. -/
def nameUnknown : String :=
  "failed to lookup address information: Temporary failure in name resolution"

/-- Why a host is out of reach. -/
def outOfReach (host : String) : String :=
  if Address.isKnown host then networkUnreachable else nameUnknown

/-- The console. -/
def console : Console (StateM Desk) where
  readBytes path := return ((← get).files.read path).mapError FileTree.Fault.reason
  writeText path text := do
    let d ← get
    match d.files.write path (Wire.bytesOfText text) with
    | .ok files =>
      set { d with files }
      return .ok ()
    | .error fault => return .error fault.reason
  print text := modify fun d => { d with printed := d.printed ++ text }
  host := return (← get).machine
  clock := return (← get).time
  ids := return (← get).names
  listen address :=
    match Address.split address with
    | .error reason => return .error reason
    | .ok (host, _) =>
      return if Address.isOwn host then .ok address else .error (outOfReach host)
  attempt _ address _ :=
    match Address.split address with
    | .error reason => return .error (.unreachable address reason)
    | .ok (host, _) => return .error (.unreachable address (outOfReach host))
  coordinate _ := return .ok ()
  work _ _ := return .ok ()

/-- Does what a command line asks for. -/
def run (d : Desk) (words : List String) : Except Failure Unit × Desk :=
  (Command.runLine console words).run d

end Desk

end LayerPipeline
