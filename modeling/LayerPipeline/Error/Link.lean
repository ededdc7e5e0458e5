/-!
# Errors of a link

What can go wrong between sending a request to a node and holding its response.
-/

namespace LayerPipeline

/-- Why a call to another node gave no usable response. -/
inductive LinkError where
  /-- The stream failed; `reason` is the system's text. -/
  | io (reason : String)
  /-- Bytes that are no message. -/
  | codec (reason : String)
  | frameTooLarge (size limit : Nat)
  | unreachable (address reason : String)
  | timeout (address : String) (afterMs : Nat)
  | closed
  /-- The peer answered with an error. -/
  | remote (reason : String)
  /-- The peer answered another question. -/
  | unexpectedResponse (expected got : String)
deriving DecidableEq, Inhabited

namespace LinkError

/-- What the error says. -/
def message : LinkError → String
  | .io r => "I/O error: " ++ r
  | .codec r => "codec error: " ++ r
  | .frameTooLarge size limit => s!"message too large: {size} bytes (max {limit})"
  | .unreachable a r => s!"node {a} unreachable: {r}"
  | .timeout a ms => s!"call to {a} timed out after {ms} ms"
  | .closed => "connection closed by peer"
  | .remote r => "remote error: " ++ r
  | .unexpectedResponse e g => s!"unexpected response: expected {e}, got {g}"

/-- Failures of the connection that another attempt may not meet. A timeout is never one. -/
def isRetryable : LinkError → Bool
  | .unreachable .. | .closed => true
  | _ => false

/-- The request was not delivered. -/
def isConnectFailure : LinkError → Bool
  | .unreachable .. => true
  | _ => false

/-- The deadline of the call passed. -/
def isTimeout : LinkError → Bool
  | .timeout .. => true
  | _ => false

end LinkError

end LayerPipeline
