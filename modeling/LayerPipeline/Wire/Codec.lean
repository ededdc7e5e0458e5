import LayerPipeline.Dictionary
import LayerPipeline.Layout
import LayerPipeline.Number.Binary64

/-!
# Binary payloads

The byte format of messages. A record is the concatenation of its fields; integers wider than a
byte take a variable number of bytes; sequences start with their length. Reading takes a value from
the front of the bytes and leaves the rest.
-/

namespace LayerPipeline

/-- A type with a binary form. -/
class Wire (α : Type) where
  /-- The bytes of a value. -/
  put : α → List UInt8
  /-- The value at the front of the bytes, with the bytes after it. -/
  get : List UInt8 → Option (α × List UInt8)

namespace Wire

/-! ## Integers -/

/-- The `n` lowest bytes of a number, least significant first. -/
def littleEndian : Nat → Nat → List UInt8
  | 0, _ => []
  | n + 1, v => UInt8.ofNat (v % 256) :: littleEndian n (v / 256)

/-- The number whose bytes, least significant first, are given. -/
def ofLittleEndian : List UInt8 → Nat
  | [] => 0
  | b :: bs => b.toNat + 256 * ofLittleEndian bs

/-- The first `n` bytes and the rest. -/
def takeBytes (n : Nat) (bs : List UInt8) : Option (List UInt8 × List UInt8) :=
  let front := bs.take n
  if front.length = n then some (front, bs.drop n) else none

/-- A number of `n` bytes, least significant first. -/
def getFixed (n : Nat) (bs : List UInt8) : Option (Nat × List UInt8) :=
  (takeBytes n bs).map fun (front, rest) => (ofLittleEndian front, rest)

/-- A number up to 250 is its own byte; a larger one is a mark and the smallest of two, four or
eight bytes that hold it. -/
def putVarint (v : Nat) : List UInt8 :=
  if v < 251 then [UInt8.ofNat v]
  else if v < UInt16.size then 251 :: littleEndian 2 v
  else if v < UInt32.size then 252 :: littleEndian 4 v
  else 253 :: littleEndian 8 v

/-- Reads a number of at most `width` bytes; the marks of wider forms are refused. -/
def getVarint (width : Nat) : List UInt8 → Option (Nat × List UInt8)
  | [] => none
  | b :: rest =>
    if b < 251 then some (b.toNat, rest)
    else if b = 251 then getFixed 2 rest
    else if b = 252 then getFixed 4 rest
    else if b = 253 && width = 8 then getFixed 8 rest
    else none

instance : Wire UInt8 where
  put b := [b]
  get
    | [] => none
    | b :: rest => some (b, rest)

instance : Wire UInt32 where
  put v := putVarint v.toNat
  get bs := (getVarint 4 bs).map fun (v, rest) => (UInt32.ofNat v, rest)

instance : Wire UInt64 where
  put v := putVarint v.toNat
  get bs := (getVarint 8 bs).map fun (v, rest) => (UInt64.ofNat v, rest)

/-! ## Basic values -/

instance : Wire Binary64 where
  put x := littleEndian 8 x.bits.toNat
  get bs := (getFixed 8 bs).map fun (v, rest) => (⟨UInt64.ofNat v⟩, rest)

instance : Wire Bool where
  put b := [if b then 1 else 0]
  get
    | 0 :: rest => some (false, rest)
    | 1 :: rest => some (true, rest)
    | _ => none

instance : Wire Unit where
  put _ := []
  get bs := some ((), bs)

/-- The text with the given bytes, if they are well-formed. -/
def textOfBytes? (bs : List UInt8) : Option String :=
  String.fromUTF8? (ByteArray.mk bs.toArray)

/-- The bytes of a text. -/
def bytesOfText (s : String) : List UInt8 :=
  s.toUTF8.data.toList

instance : Wire String where
  put s :=
    let bytes := bytesOfText s
    putVarint bytes.length ++ bytes
  get bs := do
    let (n, rest) ← getVarint 8 bs
    let (front, rest) ← takeBytes n rest
    return (← textOfBytes? front, rest)

/-! ## Composites -/

variable {α β : Type}

instance [Wire α] [Wire β] : Wire (α × β) where
  put p := put p.1 ++ put p.2
  get bs := do
    let (a, rest) ← get bs
    let (b, rest) ← get rest
    return ((a, b), rest)

instance [Wire α] : Wire (Option α) where
  put
    | none => [0]
    | some a => 1 :: put a
  get
    | 0 :: rest => some (none, rest)
    | 1 :: rest => (get rest).map fun (a, rest) => (some a, rest)
    | _ => none

/-- `n` values in a row; `done` holds those read, last first. -/
def getMany [Wire α] : Nat → List UInt8 → List α → Option (List α × List UInt8)
  | 0, bs, done => some (done.reverse, bs)
  | n + 1, bs, done =>
    match get bs with
    | some (a, rest) => getMany n rest (a :: done)
    | none => none

instance [Wire α] : Wire (List α) where
  put xs := putVarint xs.length ++ xs.flatMap put
  get bs := do
    let (n, rest) ← getVarint 8 bs
    getMany n rest []

instance [Wire α] : Wire (Dictionary α) where
  put d := put d.entries
  get bs := (get bs).map fun (es, rest) => (Dictionary.ofList es, rest)

/-- The binary form of a record: its fields in declaration order. -/
@[reducible]
def record [Wire β] (layout : Layout α β) : Wire α where
  put a := put (layout.split a)
  get bs := (get bs).map fun (b, rest) => (layout.join b, rest)

/-- The binary form of an enumeration: the position of the value in the list of all. -/
@[reducible]
def enumeration [DecidableEq α] (values : List α) : Wire α where
  put a := putVarint (values.idxOf a)
  get bs := do
    let (i, rest) ← getVarint 4 bs
    return (← values[i]?, rest)

/-- The payload of a message. -/
def encode [Wire α] (a : α) : List UInt8 := put a

/-- The message at the front of a payload; bytes after it are ignored. -/
def decode? [Wire α] (bs : List UInt8) : Option α := (get bs).map (·.1)

end Wire

end LayerPipeline
