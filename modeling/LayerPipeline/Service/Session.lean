import LayerPipeline.Error.Service
import LayerPipeline.Message.Session
import LayerPipeline.Plan.Basic

/-!
# Sessions

The life of one session, and the table of the sessions that are open on a node.
-/

namespace LayerPipeline

/-- Time as a node sees it: an instant for measuring, and the text noted in messages. -/
structure Clock where
  /-- Microseconds since some start. -/
  micros : Nat
  text : String
deriving DecidableEq, Inhabited

/-- The clock after a sleep, which always takes a little longer than asked for. -/
def Clock.sleep (c : Clock) (ms : Nat) : Clock := { c with micros := c.micros + ms * 1000 + 1 }

/-- Where a session is in its life: created, then active, then closed. -/
inductive SessionState where
  | created
  | active
  | closed
deriving DecidableEq, Inhabited

/-- The name of a state. -/
def SessionState.name : SessionState → String
  | .created => "Created"
  | .active => "Active"
  | .closed => "Closed"

/-- One session. -/
structure Session (α : Type) where
  /-- Distinguishes sessions that had the same id at different times. -/
  key : Nat
  id : String
  state : SessionState
  maxSequenceLength : UInt32
  dtype : Dtype
  /-- On a coordinator: the plan that was active when the session was opened. -/
  plan : Option (Plan α)
  /-- On a worker: the stage it runs. -/
  stage : Option StageBinding
  layerNames : List String
  tokens : Nat
  lastToken : Option UInt64
  /-- Why the session was closed, if something failed. -/
  error : Option String
  lastActive : Nat
deriving DecidableEq, Inhabited

namespace Session

variable {α : Type}

/-- A new session. -/
def create (id : String) (maxSequenceLength : UInt32) (dtype : Dtype) (now : Nat) : Session α :=
  ⟨0, id, .created, maxSequenceLength, dtype, none, none, [], 0, none, none, now⟩

/-- Opens a created session for forward passes. -/
def activate (s : Session α) (now : Nat) : Except ServiceError (Session α) :=
  if s.state = .created then .ok { s with state := .active, lastActive := now }
  else .error (.invalidTransition s.state.name SessionState.active.name)

/-- Refuses a session that accepts no forward passes. -/
def ensureActive (s : Session α) : Except ServiceError Unit :=
  match s.state with
  | .active => .ok ()
  | .closed => .error (.sessionClosed s.id)
  | .created => .error (.invalidTransition s.state.name "executing forward")

/-- Counts a forward pass. -/
def recordForward (s : Session α) (token : UInt64) (now : Nat) : Session α :=
  { s with tokens := s.tokens + 1, lastToken := some token, lastActive := now }

/-- Closes the session; a closed one stays as it is. -/
def close (s : Session α) (error : Option String) : Session α :=
  if s.state = .closed then s
  else { s with state := .closed, error := error.orElse fun _ => s.error }

/-- Whether the session is closed. -/
def isClosed (s : Session α) : Bool := s.state = .closed

/-- Whether nothing has happened for longer than a time. -/
def isIdle (s : Session α) (now timeoutMicros : Nat) : Bool :=
  timeoutMicros < now - s.lastActive

end Session

/-- The sessions of a node. A session that was taken from the table can still be in the hands of a
procedure that looked it up before. -/
structure SessionTable (α : Type) where
  /-- Open sessions, one per id. -/
  opened : List (Session α)
  /-- Sessions taken from the table. -/
  detached : List (Session α)
  nextKey : Nat
deriving DecidableEq, Inhabited

namespace SessionTable

variable {α : Type}

/-- No sessions. -/
def empty : SessionTable α := ⟨[], [], 0⟩

/-- The open session with an id. -/
def get? (t : SessionTable α) (id : String) : Option (Session α) :=
  t.opened.find? fun s => s.id = id

/-- Whether an id is in use. -/
def contains (t : SessionTable α) (id : String) : Bool :=
  t.opened.any fun s => s.id = id

/-- Number of open sessions. -/
def size (t : SessionTable α) : Nat := t.opened.length

/-- The ids in use. -/
def ids (t : SessionTable α) : List String := t.opened.map (·.id)

/-- The session with a key, whether it is open or not. -/
def session? (t : SessionTable α) (key : Nat) : Option (Session α) :=
  (t.opened ++ t.detached).find? fun s => s.key = key

/-- Adds a session under a key of its own. -/
def add (t : SessionTable α) (s : Session α) : SessionTable α :=
  { t with opened := t.opened ++ [{ s with key := t.nextKey }], nextKey := t.nextKey + 1 }

/-- Adds a session unless its id is in use or `limit` sessions are open. -/
def insertWithin (t : SessionTable α) (s : Session α) (limit : Option Nat) :
    Except ServiceError (SessionTable α) :=
  if t.contains s.id then .error (.session ("session " ++ s.id ++ " already exists"))
  else
    match limit with
    | some n =>
      if n ≤ t.size then .error (.capacity (toString n ++ " sessions already open"))
      else .ok (t.add s)
    | none => .ok (t.add s)

/-- Changes the session with a key. -/
def modify (t : SessionTable α) (key : Nat) (f : Session α → Session α) : SessionTable α :=
  let g := fun (s : Session α) => if s.key = key then f s else s
  { t with opened := t.opened.map g, detached := t.detached.map g }

/-- Takes the session with an id from the table. -/
def remove (t : SessionTable α) (id : String) : SessionTable α :=
  { t with
    opened := t.opened.filter fun s => s.id ≠ id
    detached := t.opened.filter (fun s => s.id = id) ++ t.detached }

/-- The ids of the sessions that have been idle for longer than a time, those in use apart. -/
def idle (t : SessionTable α) (now timeoutMicros : Nat) (busy : List String) : List String :=
  (t.opened.filter fun s => !busy.contains s.id && s.isIdle now timeoutMicros).map (·.id)

end SessionTable

end LayerPipeline
