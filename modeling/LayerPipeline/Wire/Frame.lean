import LayerPipeline.Error.Link
import LayerPipeline.Wire.Codec

/-!
# Frames

On a stream every payload is preceded by its length in four bytes, most significant first.
-/

namespace LayerPipeline

namespace Frame

/-- The length in front of a payload. -/
def header (length : Nat) : List UInt8 :=
  (Wire.littleEndian 4 length).reverse

/-- The bytes of a frame; a payload that no header can announce is refused. -/
def write (payload : List UInt8) : Except LinkError (List UInt8) :=
  if payload.length < UInt32.size then .ok (header payload.length ++ payload)
  else .error (.frameTooLarge payload.length (UInt32.size - 1))

/-- The system's words for a stream that ends inside a frame. -/
def earlyEnd : String := "early eof"

/-- Takes a frame of at most `limit` bytes from the front of a stream: its payload and what is left.
A stream that ends before a header is complete counts as closed; a frame that announces too much is
refused before any byte of its payload is taken. -/
def read (limit : Nat) (stream : List UInt8) : Except LinkError (List UInt8) × List UInt8 :=
  match Wire.takeBytes 4 stream with
  | none => (.error .closed, [])
  | some (head, rest) =>
    let length := Wire.ofLittleEndian head.reverse
    if limit < length then (.error (.frameTooLarge length limit), rest)
    else
      match Wire.takeBytes length rest with
      | none => (.error (.io earlyEnd), [])
      | some (payload, rest) => (.ok payload, rest)

theorem takeBytes_length {n : Nat} {bs front rest : List UInt8}
    (h : Wire.takeBytes n bs = some (front, rest)) : rest.length + n = bs.length := by
  unfold Wire.takeBytes at h
  dsimp only at h
  split at h
  · next hlen =>
    obtain ⟨-, rfl⟩ := Prod.mk.inj (Option.some.inj h)
    rw [List.length_take] at hlen
    rw [List.length_drop]
    omega
  · contradiction

/-- A frame that was read leaves a shorter stream. -/
theorem read_shorter {limit : Nat} {stream payload rest : List UInt8}
    (h : read limit stream = (.ok payload, rest)) : rest.length < stream.length := by
  unfold read at h
  split at h
  · cases h
  · next hhead =>
    dsimp only at h
    split at h
    · cases h
    · split at h
      · cases h
      · next hbody =>
        obtain ⟨-, rfl⟩ := Prod.mk.inj h
        have h1 := takeBytes_length hhead
        have h2 := takeBytes_length hbody
        omega

end Frame

end LayerPipeline
