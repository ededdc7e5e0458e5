/-!
# Network addresses

An address is a host and a port with a colon between them.
-/

namespace LayerPipeline

namespace Address

/-- The system's words for a text without a port. -/
def malformedReason : String := "invalid socket address"

/-- The system's words for a port that is no number below `2 ^ 16`. -/
def badPortReason : String := "invalid port value"

/-- A port in decimal digits. -/
def port? (cs : List Char) : Option Nat :=
  let digits := match cs with
    | '+' :: rest => rest
    | _ => cs
  if digits.isEmpty || !digits.all Char.isDigit then none
  else
    let n := digits.foldl (fun n c => n * 10 + (c.toNat - '0'.toNat)) 0
    if n < UInt16.size then some n else none

/-- The host and the port of an address, or the system's reason to refuse it. -/
def split (address : String) : Except String (String × Nat) :=
  let backwards := address.toList.reverse
  match backwards.dropWhile (· ≠ ':') with
  | [] => .error malformedReason
  | _ :: host =>
    match port? (backwards.takeWhile (· ≠ ':')).reverse with
    | some n => .ok (String.ofList host.reverse, n)
    | none => .error badPortReason

/-- A number below 256 in decimal digits without leading zeros. -/
def octet? (s : String) : Option Nat :=
  let n := s.toList.foldl (fun n c => n * 10 + (c.toNat - '0'.toNat)) 0
  if s.toList.all Char.isDigit && s = toString n && n < UInt8.size then some n else none

/-- The four numbers of a host that is written with points between them. -/
def octets? (host : String) : Option (List Nat) :=
  let parts := host.splitOn "."
  if parts.length = 4 then parts.mapM octet? else none

/-- Whether a host is the machine itself. -/
def isOwn (host : String) : Bool :=
  host = "localhost" || host = "[::]" || host = "[::1]" ||
    match octets? host with
    | some (first :: rest) => first = 127 || (first :: rest).all (· = 0)
    | _ => false

/-- Whether a host is found without asking for its name. -/
def isKnown (host : String) : Bool :=
  isOwn host || (octets? host).isSome

end Address

end LayerPipeline
