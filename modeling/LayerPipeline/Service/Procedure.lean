/-!
# Procedures

What a node does for one request, cut into atomic sections. A procedure can be run to its end as one
complete call, or several procedures can be run side by side, where one waits for a lock that
another one holds. What it asks of other nodes is answered by its surroundings.
-/

namespace LayerPipeline

/-- What a procedure can hold for itself: a session, named by its key. -/
inductive Lock where
  /-- A session that a coordinator runs through a whole plan. -/
  | pipeline (session : Nat)
  /-- A session that a worker runs through one stage. -/
  | stage (session : Nat)
deriving DecidableEq, Inhabited

/-- A computation with result `β` over a shared state `σ` that may ask questions `ι` and gets
answers `ο` to them. -/
inductive Procedure (σ ι ο β : Type) where
  | done (result : β)
  /-- An atomic section: the state changes, and what follows depends on the state before. -/
  | atomic (effect : σ → σ) (next : σ → Procedure σ ι ο β)
  /-- Waits until the lock is free and takes it. -/
  | lock (key : Lock) (next : Procedure σ ι ο β)
  /-- Gives the lock to the procedure that has waited longest. -/
  | unlock (key : Lock) (next : Procedure σ ι ο β)
  /-- Lets time pass. -/
  | wait (ms : Nat) (next : Procedure σ ι ο β)
  /-- Asks the surroundings. -/
  | ask (question : ι) (next : ο → Procedure σ ι ο β)

/-- How questions are answered: the answer, the state after it, and how long it takes. -/
abbrev Surroundings (σ ι ο : Type) := ι → σ → ο × σ × Nat

/-- The surroundings of procedures that ask nothing. -/
def Surroundings.none {σ ο : Type} : Surroundings σ Empty ο := fun q => nomatch q

namespace Procedure

variable {σ τ ι ο β γ : Type}

/-- First one procedure, then the one that its result selects. -/
protected def bind : Procedure σ ι ο β → (β → Procedure σ ι ο γ) → Procedure σ ι ο γ
  | .done b, k => k b
  | .atomic f p, k => .atomic f fun s => (p s).bind k
  | .lock key p, k => .lock key (p.bind k)
  | .unlock key p, k => .unlock key (p.bind k)
  | .wait ms p, k => .wait ms (p.bind k)
  | .ask q p, k => .ask q fun a => (p a).bind k

instance : Monad (Procedure σ ι ο) where
  pure := .done
  bind := Procedure.bind

/-- One atomic section. -/
def atomically (f : σ → β × σ) : Procedure σ ι ο β :=
  .atomic (fun s => (f s).2) fun s => .done (f s).1

/-- Reads the state. -/
def read (f : σ → β) : Procedure σ ι ο β :=
  .atomic id fun s => .done (f s)

/-- Changes the state. -/
def update (f : σ → σ) : Procedure σ ι ο Unit :=
  .atomic f fun _ => .done ()

/-- Takes a lock. -/
def acquire (key : Lock) : Procedure σ ι ο Unit := .lock key (.done ())

/-- Gives a lock back. -/
def release (key : Lock) : Procedure σ ι ο Unit := .unlock key (.done ())

/-- Lets time pass. -/
def pause (ms : Nat) : Procedure σ ι ο Unit := .wait ms (.done ())

/-- Asks a question. -/
def question (q : ι) : Procedure σ ι ο ο := .ask q .done

/-- The procedure over a larger state that contains the state of this one. -/
def within (get : τ → σ) (set : σ → τ → τ) : Procedure σ ι ο β → Procedure τ ι ο β
  | .done b => .done b
  | .atomic f p => .atomic (fun t => set (f (get t)) t) fun t => (p (get t)).within get set
  | .lock key p => .lock key (p.within get set)
  | .unlock key p => .unlock key (p.within get set)
  | .wait ms p => .wait ms (p.within get set)
  | .ask q p => .ask q fun a => (p a).within get set

/-- A procedure that asks nothing, beside others that do. -/
def widen : Procedure σ Empty Empty β → Procedure σ ι ο β
  | .done b => .done b
  | .atomic f p => .atomic f fun s => (p s).widen
  | .lock key p => .lock key p.widen
  | .unlock key p => .unlock key p.widen
  | .wait ms p => .wait ms p.widen
  | .ask q _ => nomatch q

/-- Runs a procedure to its end with nothing beside it: its result, the state it leaves and the time
it lets pass. -/
def run (answer : Surroundings σ ι ο) : Procedure σ ι ο β → σ → β × σ × Nat
  | .done b, s => (b, s, 0)
  | .atomic f p, s => (p s).run answer (f s)
  | .lock _ p, s => p.run answer s
  | .unlock _ p, s => p.run answer s
  | .wait ms p, s =>
    let (b, s', t) := p.run answer s
    (b, s', ms + t)
  | .ask q p, s =>
    let (a, s', t) := answer q s
    let (b, s'', t') := (p a).run answer s'
    (b, s'', t + t')

/-- Result and final state of a complete call. -/
def call (answer : Surroundings σ ι ο) (p : Procedure σ ι ο β) (s : σ) : β × σ :=
  let (b, s', _) := p.run answer s
  (b, s')

/-! ## Procedures side by side -/

/-- A procedure in the middle of its work. -/
inductive Task (σ ι ο β : Type) where
  /-- Goes on when the clock shows the time. -/
  | ready (time : Nat) (rest : Procedure σ ι ο β)
  /-- Waits for a lock. -/
  | blocked (key : Lock) (rest : Procedure σ ι ο β)
  | finished (result : β)

/-- Procedures side by side: the shared state, the locks that are held, and those who wait for one
in the order of their arrival. -/
structure Field (σ ι ο β : Type) where
  state : σ
  held : List Lock
  queue : List (Lock × Nat)
  tasks : List (Task σ ι ο β)
  clock : Nat

/-- The task at a position replaced. -/
def Field.setTask (f : Field σ ι ο β) (i : Nat) (t : Task σ ι ο β) : Field σ ι ο β :=
  { f with tasks := f.tasks.set i t }

/-- Gives a lock back, or hands it to the first in its queue. -/
def Field.pass (f : Field σ ι ο β) (key : Lock) : Field σ ι ο β :=
  match f.queue.find? fun w => w.1 = key with
  | none => { f with held := f.held.erase key }
  | some (_, j) =>
    let f : Field σ ι ο β := { f with queue := f.queue.erase (key, j) }
    match f.tasks[j]? with
    | some (.blocked _ rest) => f.setTask j (.ready f.clock rest)
    | _ => f

/-- Runs the procedure of task `i` until it ends, waits for a lock or lets time pass. -/
def advance (answer : Surroundings σ ι ο) (i : Nat) :
    Procedure σ ι ο β → Field σ ι ο β → Field σ ι ο β
  | .done b, f => f.setTask i (.finished b)
  | .atomic g p, f => advance answer i (p f.state) { f with state := g f.state }
  | .lock key p, f =>
    if f.held.contains key then
      { f.setTask i (.blocked key p) with queue := f.queue ++ [(key, i)] }
    else advance answer i p { f with held := key :: f.held }
  | .unlock key p, f => advance answer i p (f.pass key)
  | .wait ms p, f =>
    if ms = 0 then advance answer i p f else f.setTask i (.ready (f.clock + ms) p)
  | .ask q p, f =>
    let (a, s, t) := answer q f.state
    let f := { f with state := s }
    if t = 0 then advance answer i (p a) f else f.setTask i (.ready (f.clock + t) (p a))

/-- The task that can go on earliest, the first one on a draw. -/
def nextReady (best : Option (Nat × Nat × Procedure σ ι ο β)) (i : Nat) :
    List (Task σ ι ο β) → Option (Nat × Nat × Procedure σ ι ο β)
  | [] => best
  | .ready t p :: rest =>
    let better := match best with
      | none => some (i, t, p)
      | some (_, t', _) => if t < t' then some (i, t, p) else best
    nextReady better (i + 1) rest
  | _ :: rest => nextReady best (i + 1) rest

/-- Lets ready tasks go on, at most `fuel` times. -/
def drive (answer : Surroundings σ ι ο) : Nat → Field σ ι ο β → Field σ ι ο β
  | 0, f => f
  | fuel + 1, f =>
    match nextReady none 0 f.tasks with
    | none => f
    | some (i, t, p) => drive answer fuel (advance answer i p { f with clock := max f.clock t })

/-- Starts the procedures one after the other, then lets them run side by side. `fuel` bounds how
often a procedure goes on after it had to wait. Results are in the order of the procedures; one that
has not come to its end has none. -/
def sideBySide (answer : Surroundings σ ι ο) (fuel : Nat) (ps : List (Procedure σ ι ο β)) (s : σ) :
    List (Option β) × σ :=
  let start : Field σ ι ο β := ⟨s, [], [], ps.map fun p => .ready 0 p, 0⟩
  let started := (ps.zipIdx).foldl (fun f (p, i) => advance answer i p f) start
  let f := drive answer fuel started
  let results := f.tasks.map fun
    | .finished b => some b
    | _ => none
  (results, f.state)

end Procedure

end LayerPipeline
