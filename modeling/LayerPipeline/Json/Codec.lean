import LayerPipeline.Dictionary
import LayerPipeline.Layout
import LayerPipeline.Json.Value

/-!
# Values as JSON documents

How the library's types are written as documents and read from them. A record is written as an
object with its members in declaration order. It is read from an object with its members in any
order, or from an array with its members in declaration order.
-/

namespace LayerPipeline

/-- A type whose values are written as documents. Reading refuses what does not denote a value. -/
class JsonCodec (α : Type) where
  write : α → Json
  read : Json → Option α

namespace JsonCodec

instance : JsonCodec Bool where
  write := .bool
  read
    | .bool b => some b
    | _ => none

instance : JsonCodec String where
  write := .str
  read
    | .string s => s
    | _ => none

/-- Any number in range is read, as its digits brought to scale. -/
instance : JsonCodec Binary64 where
  write := .float
  read
    | .number _ d => d.scaled?
    | .float x => some x
    | _ => none

/-- A natural number below a bound, written without sign, point and exponent. -/
def readBelow (bound : Nat) : Json → Option Nat
  | .number true d => if !d.negative && d.digits < bound then some d.digits else none
  | _ => none

instance : JsonCodec UInt8 where
  write n := .nat n.toNat
  read j := (readBelow UInt8.size j).map UInt8.ofNat

instance : JsonCodec UInt32 where
  write n := .nat n.toNat
  read j := (readBelow UInt32.size j).map UInt32.ofNat

instance : JsonCodec UInt64 where
  write n := .nat n.toNat
  read j := (readBelow UInt64.size j).map UInt64.ofNat

variable {α β γ : Type}

instance [JsonCodec α] : JsonCodec (Option α) where
  write
    | none => .null
    | some a => write a
  read
    | .null => some none
    | j => (read j).map some

instance [JsonCodec α] : JsonCodec (List α) where
  write xs := .array (xs.map write)
  read
    | .array xs => xs.mapM read
    | _ => none

instance [JsonCodec α] : JsonCodec (Dictionary α) where
  write d := .obj (d.entries.map fun e => (e.1, write e.2))
  read
    | .object ms =>
      (ms.mapM fun (m : Option String × Json) => do
        return (← m.1, ← (read m.2 : Option α))).map Dictionary.ofList
    | _ => none

/-! ## Records -/

/-- Where a record's members are taken from: by name, or from the front of a list. -/
inductive Source where
  | named (members : List (String × Json))
  | listed (items : List Json)

/-- The members of a record, whose values form the tuple `α`. -/
structure Members (α : Type) where
  /-- Names in declaration order. -/
  names : List String
  write : α → List (String × Json)
  read : Source → Option (α × Source)

namespace Members

/-- No members. -/
def done : Members Unit := ⟨[], fun _ => [], fun s => some ((), s)⟩

/-- A member in front of others. `absent` is its value when an object lacks it, `short` when an
array ends before it; `none` refuses such a document. -/
def cons [JsonCodec α] (name : String) (absent short : Option α) (rest : Members β) :
    Members (α × β) where
  names := name :: rest.names
  write t := (name, JsonCodec.write t.1) :: rest.write t.2
  read
    | .named ms => do
      let a ← match ms.lookup name with
        | some j => JsonCodec.read j
        | none => absent
      let (b, s) ← rest.read (.named ms)
      return ((a, b), s)
    | .listed (j :: js) => do
      let a ← JsonCodec.read j
      let (b, s) ← rest.read (.listed js)
      return ((a, b), s)
    | .listed [] => do
      let a ← short
      let (b, s) ← rest.read (.listed [])
      return ((a, b), s)

/-- A member that has to be given. -/
def field [JsonCodec α] (name : String) (rest : Members β) : Members (α × β) :=
  cons name none none rest

/-- A member that an object may lack. -/
def optional [JsonCodec α] (name : String) (rest : Members β) : Members (Option α × β) :=
  cons name (some none) none rest

/-- A member with a default value. -/
def default [JsonCodec α] (name : String) (value : α) (rest : Members β) : Members (α × β) :=
  cons name (some value) (some value) rest

end Members

/-- The members of an object by name, if none of the `known` names occurs twice and, when `closed`,
no other name occurs. -/
def namedMembers (known : List String) (closed : Bool) (ms : List (Option String × Json)) :
    Option (List (String × Json)) := do
  let ms ← ms.mapM fun m => do return (← m.1, m.2)
  let counts := known.map fun name => ms.countP fun m => m.1 = name
  if counts.all (· ≤ 1) && (!closed || ms.all fun m => known.contains m.1) then some ms else none

/-- Reads a record of the given members. -/
def readRecord (m : Members β) (closed : Bool) : Json → Option β
  | .object ms => do
    let ms ← namedMembers m.names closed ms
    let (b, _) ← m.read (.named ms)
    return b
  | .array xs => do
    let (b, s) ← m.read (.listed xs)
    match s with
    | .listed (_ :: _) => none
    | _ => return b
  | _ => none

/-- The codec of a record type. A `closed` record refuses objects with other members. -/
@[reducible]
def record (layout : Layout α β) (closed : Bool) (m : Members β) : JsonCodec α where
  write a := .obj (m.write (layout.split a))
  read j := (readRecord m closed j).map layout.join

/-! ## Enumerations and tagged values -/

/-- The tag and the content of a tagged value: a bare name, or an object with one member. -/
def tagged : Json → Option (String × Option Json)
  | .string s => s.map fun s => (s, none)
  | .object [(name, j)] => name.map fun s => (s, some j)
  | _ => none

/-- Whether the content of a tag without a value is admissible: absent or null. -/
def isBare : Option Json → Bool
  | none => true
  | some .null => true
  | _ => false

/-- The value of a table of names that a tag denotes. -/
def ofTag (table : List (String × α)) (j : Json) : Option α := do
  let (name, content) ← tagged j
  if isBare content then table.lookup name else none

end JsonCodec

end LayerPipeline
