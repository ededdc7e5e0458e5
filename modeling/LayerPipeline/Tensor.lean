import LayerPipeline.Error.Data
import LayerPipeline.Json.Codec
import LayerPipeline.Number.Scalar
import LayerPipeline.Text.Quoted
import LayerPipeline.Wire.Codec

/-!
# Activation tensors

The payload that stages hand to each other.
-/

namespace LayerPipeline

/-- Element type of a tensor. -/
inductive Dtype where
  | f16
  | bf16
  | f32
  | i32
  | i64
  | u8
deriving DecidableEq

instance : Inhabited Dtype := ⟨.f32⟩

namespace Dtype

/-- All element types, in the order of their binary codes. -/
def all : List Dtype := [.f16, .bf16, .f32, .i32, .i64, .u8]

/-- The name of an element type. -/
def name : Dtype → String
  | .f16 => "f16"
  | .bf16 => "bf16"
  | .f32 => "f32"
  | .i32 => "i32"
  | .i64 => "i64"
  | .u8 => "u8"

/-- Bytes of one element. -/
def elementBytes : Dtype → Nat
  | .u8 => 1
  | .f16 | .bf16 => 2
  | .f32 | .i32 => 4
  | .i64 => 8

/-- Spellings accepted in documents. -/
def spellings : List (String × Dtype) :=
  [("f16", .f16), ("float16", .f16), ("bf16", .bf16), ("bfloat16", .bf16), ("f32", .f32),
    ("float32", .f32), ("i32", .i32), ("int32", .i32), ("i64", .i64), ("int64", .i64),
    ("u8", .u8), ("uint8", .u8)]

/-- The element type with a given spelling, in letters of either case. Two short forms are accepted
here and not in documents. -/
def ofName (text : String) : Except DataError Dtype :=
  let lower := text.map Char.toLower
  match (spellings ++ [("fp16", Dtype.f16), ("fp32", Dtype.f32)]).lookup lower with
  | some d => .ok d
  | none => .error (.unsupportedDtype lower)

instance : JsonCodec Dtype := ⟨fun d => .str d.name, JsonCodec.ofTag spellings⟩

instance : Wire Dtype := Wire.enumeration all

end Dtype

/-- An activation tensor. A consistent one has as many bytes as `numBytes` says and as its shape and
element type need; an empty shape is that of a single element. -/
structure Tensor where
  dtype : Dtype
  shape : List UInt32
  data : List UInt8
  numBytes : UInt64
deriving DecidableEq, Inhabited

/-- How a tensor contradicts itself. -/
inductive TensorFault where
  /-- The announced number of bytes is not the number of bytes. -/
  | lengthMismatch (announced : UInt64) (length : Nat)
  /-- The number of elements exceeds 64 bits before it is complete. -/
  | elementOverflow
  /-- The number of bytes exceeds 64 bits. -/
  | byteOverflow
  /-- The bytes are not as many as shape and element type need. -/
  | sizeMismatch (shape : List UInt32) (dtype : Dtype) (needed : Nat) (announced : UInt64)

/-- The error that a fault amounts to. -/
def TensorFault.error : TensorFault → DataError
  | .lengthMismatch n len =>
    .protocolViolation s!"num_bytes {n} does not match payload length {len}"
  | .elementOverflow => .aborted .overflow
  | .byteOverflow => .protocolViolation "tensor shape overflows"
  | .sizeMismatch shape dtype needed n =>
    .protocolViolation <| "shape " ++ Text.bracketed (shape.map toString) ++ " of " ++ dtype.name ++
      " needs " ++ toString needed ++ " bytes, payload has " ++ toString n

namespace Tensor

/-- A tensor that announces the bytes it has. -/
def ofBytes (dtype : Dtype) (shape : List UInt32) (data : List UInt8) : Tensor :=
  ⟨dtype, shape, data, UInt64.ofNat data.length⟩

/-- A tensor of single-precision elements given by their bits. -/
def ofF32 (shape : List UInt32) (values : List UInt32) : Tensor :=
  ofBytes .f32 shape (values.flatMap fun v => Wire.littleEndian 4 v.toNat)

/-- The product of dimensions from the left, unless a partial product leaves the 64-bit range. -/
def product? (count : Nat) : List UInt32 → Option Nat
  | [] => some count
  | d :: ds => if count * d.toNat < UInt64.size then product? (count * d.toNat) ds else none

/-- Number of elements that the shape announces. -/
def numElements? (t : Tensor) : Option Nat :=
  product? 1 t.shape

/-- Size of the payload. -/
def sizeMb {α : Type} [Scalar α] (t : Tensor) : α :=
  Scalar.ofNat t.data.length / (1024.0 * 1024.0)

/-- The first contradiction in a tensor. -/
def fault? (t : Tensor) : Option TensorFault :=
  if t.numBytes.toNat ≠ t.data.length then some (.lengthMismatch t.numBytes t.data.length)
  else
    match t.numElements? with
    | none => some .elementOverflow
    | some n =>
      let needed := n * t.dtype.elementBytes
      if UInt64.size ≤ needed then some .byteOverflow
      else if needed ≠ t.numBytes.toNat then
        some (.sizeMismatch t.shape t.dtype needed t.numBytes)
      else none

/-- Refuses a tensor that contradicts itself. -/
def validate (t : Tensor) : Except DataError Unit :=
  match t.fault? with
  | some f => .error f.error
  | none => .ok ()

/-- Groups of four bytes as numbers, least significant byte first; a shorter rest is dropped. -/
def words : List UInt8 → List UInt32
  | a :: b :: c :: d :: rest => UInt32.ofNat (Wire.ofLittleEndian [a, b, c, d]) :: words rest
  | _ => []

/-- The bits of single-precision elements. -/
def toF32 (t : Tensor) : Except DataError (List UInt32) := do
  if t.dtype ≠ .f32 then
    throw (.unsupportedDtype ("expected f32 payload, got " ++ t.dtype.name))
  t.validate
  return words t.data

/-- The fields of a tensor. -/
def layout : Layout Tensor (Dtype × List UInt32 × List UInt8 × UInt64 × Unit) where
  split t := (t.dtype, t.shape, t.data, t.numBytes, ())
  join := fun (a, b, c, d, _) => ⟨a, b, c, d⟩

instance : JsonCodec Tensor :=
  .record layout true <| .field "dtype" <| .field "shape" <| .field "data" <|
    .field "num_bytes" .done

instance : Wire Tensor := Wire.record layout

end Tensor

end LayerPipeline
