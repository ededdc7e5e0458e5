import LayerPipeline.Error.Data
import LayerPipeline.Message.Envelope
import LayerPipeline.Service.Procedure
import LayerPipeline.Wire.Frame

/-!
# Serving a connection

Requests on one connection are answered in order, one response frame per request frame.
-/

namespace LayerPipeline

namespace Server

/-- What the decoder says about a payload that is no request. -/
structure Complaints where
  words : List UInt8 → String
  /-- They are a sentence, which every frame can hold. -/
  brief : ∀ payload, (words payload).length < 0x10000000

/-- The same words for every payload. -/
def Complaints.always (words : String) (brief : words.length < 0x10000000) : Complaints :=
  ⟨fun _ => words, fun _ => brief⟩

instance : Inhabited Complaints := ⟨.always "" (by decide)⟩

variable {σ ι ο α : Type} [Wire α]

/-- What a stream holds for its server, with the bytes behind it. -/
inductive Turn (α : Type) where
  | request (request : Request α) (rest : List UInt8)
  /-- A frame whose payload is no request. -/
  | malformed (payload rest : List UInt8)
  /-- A frame that announces too much: the stream cannot be followed any further. -/
  | oversized (size limit : Nat)
  /-- No complete frame. -/
  | incomplete

/-- What is at the front of a stream. -/
def turn (limit : Nat) (stream : List UInt8) : Turn α :=
  match Frame.read limit stream with
  | (.error (.frameTooLarge size limit), _) => .oversized size limit
  | (.error _, _) => .incomplete
  | (.ok payload, rest) =>
    match Wire.decode? payload with
    | none => .malformed payload rest
    | some request => .request request rest

theorem turn_shorter {limit : Nat} {stream rest : List UInt8}
    (h : (∃ request : Request α, turn limit stream = .request request rest) ∨
      ∃ payload, (turn limit stream : Turn α) = .malformed payload rest) :
    rest.length < stream.length := by
  unfold turn at h
  split at h
  · simp at h
  · simp at h
  · next payload rest' hread =>
    have hshorter := Frame.read_shorter hread
    split at h <;> simp_all

/-- The answer to a payload that is no request. -/
def malformed (complaints : Complaints) (payload : List UInt8) : Response α :=
  .error ("malformed request: " ++ (LinkError.codec (complaints.words payload)).message)

/-- The answer to a frame that announces too much. -/
def oversized (size limit : Nat) : Response α := .error (LinkError.frameTooLarge size limit).message

/-- What a server does about the bytes that have arrived and are not used yet. -/
inductive Step (stream : List UInt8) where
  /-- It needs more of them. -/
  | wait
  /-- It writes an answer to the first frame and goes on with what is behind it. -/
  | reply (answer rest : List UInt8) (shorter : rest.length < stream.length)
  /-- It writes its last words and hangs up. -/
  | close (answer : List UInt8)

/-- Answers a frame. A response that no frame can hold ends the connection. -/
def Step.answering {stream rest : List UInt8} (shorter : rest.length < stream.length)
    (r : Response α) : Step stream :=
  match Frame.write (Wire.encode r) with
  | .error _ => .close []
  | .ok answer => .reply answer rest shorter

/-- Answers for the last time. -/
def Step.leaving {stream : List UInt8} (r : Response α) : Step stream :=
  match Frame.write (Wire.encode r) with
  | .error _ => .close []
  | .ok answer => .close answer

section Serving

variable (complaints : Complaints)
  (handler : Request α → Procedure σ ι ο (Except Abort (Response α))) (limit : Nat)

/-- One turn on a connection. A frame that is no request is answered with an error. A frame that
announces too much is answered with an error, and nothing after it is read. -/
def step (stream : List UInt8) : Procedure σ ι ο (Step stream) :=
  match h : (turn limit stream : Turn α) with
  | .incomplete => return .wait
  | .oversized size limit => return .leaving (oversized size limit : Response α)
  | .malformed payload _ =>
    return .answering (turn_shorter (.inr ⟨payload, h⟩)) (malformed complaints payload : Response α)
  | .request request _ => do
    match ← handler request with
    | .error _ => return .close []
    | .ok response => return .answering (turn_shorter (.inl ⟨request, h⟩)) response

/-- Answers the frames of a stream in order; the result is what is written back. `pending` has
arrived and is not used yet, `arrivals` are the pieces in which the rest of the stream arrives. -/
def converse (pending : List UInt8) (arrivals : List (List UInt8)) :
    Procedure σ ι ο (List UInt8) := do
  match ← step complaints handler limit pending with
  | .wait =>
    match arrivals with
    | [] => return []
    | more :: later => converse (pending ++ more) later
  | .reply answer rest _ =>
    let later ← converse rest arrivals
    return answer ++ later
  | .close answer => return answer
termination_by (arrivals.length, pending.length)

end Serving

end Server

end LayerPipeline
