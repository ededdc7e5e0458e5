import LayerPipeline.Link.Client
import LayerPipeline.Service.Worker

/-!
# Registration of workers

A worker registers with its coordinator and then gives signs of life. When one of them is not wanted
or gets lost, it registers again.
-/

namespace LayerPipeline

namespace Worker

variable {m : Type → Type} [Monad m] {α : Type} [Scalar α]

/-- The worker's sign of life. -/
def signOfLife (w : Worker α) : Heartbeat α :=
  ⟨w.nodeId, UInt32.ofNat w.sessions.size, w.loadFactor⟩

/-- What a worker that is reached at an address does at every tick of its heartbeat. `registered`
says whether it counts itself as registered; the result says whether it does afterwards. -/
def registrationRound (w : Worker α) (wayTo : String → Channel m α) (address : String)
    (registered : Bool) : m Bool :=
  match w.config.coordinatorAddress with
  | none => return registered
  | some coordinator => do
    let way := wayTo coordinator
    if registered then
      match ← way.heartbeat w.signOfLife with
      | .ok seen => return seen.registered
      | .error _ => return false
    else
      match ← way.registerWorker w.config.link (w.capability.descriptor address) with
      | .ok answer => return answer.healthy
      | .error _ => return false

end Worker

end LayerPipeline
