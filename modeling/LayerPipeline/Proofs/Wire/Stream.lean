import LayerPipeline.Proofs.Wire.RoundTrip
import LayerPipeline.Wire.Frame

/-!
# Streams of frames

Frames that were written one behind the other are read in the same order, and nothing behind them is
touched. Of a stream that ends too early the complete frames are read, and the read after them says
where the stream has ended: before the length of the next frame was complete, or inside its payload.
-/

namespace LayerPipeline.Frame

open Wire

/-! ## One frame -/

/-- The length that four bytes announce. -/
def announced (head : List UInt8) : Nat := ofLittleEndian head.reverse

/-- The frame of a payload that a header can announce. -/
def frame (payload : List UInt8) : List UInt8 := header payload.length ++ payload

theorem length_header (length : Nat) : (header length).length = 4 := by
  simp [header, length_littleEndian]

theorem announced_header {length : Nat} (h : length < UInt32.size) :
    announced (header length) = length := by
  rw [announced, header, List.reverse_reverse]
  exact ofLittleEndian_littleEndian h

theorem write_eq_ok {payload : List UInt8} (h : payload.length < UInt32.size) :
    write payload = .ok (frame payload) :=
  if_pos h

theorem takeBytes_eq_none {n : Nat} {bs : List UInt8} (h : bs.length < n) :
    takeBytes n bs = none := by
  have hshort : (bs.take n).length ≠ n := by
    rw [List.length_take]
    omega
  simp only [takeBytes, hshort, if_false]

/-- What becomes of a stream is decided by its first four bytes. -/
theorem read_head {head : List UInt8} (hhead : head.length = 4) (limit : Nat)
    (rest : List UInt8) :
    read limit (head ++ rest) =
      if limit < announced head then (.error (.frameTooLarge (announced head) limit), rest)
      else
        match takeBytes (announced head) rest with
        | none => (.error (.io earlyEnd), [])
        | some (payload, rest) => (.ok payload, rest) := by
  have htake : takeBytes 4 (head ++ rest) = some (head, rest) := hhead ▸ takeBytes_append head rest
  rw [read, htake]
  rfl

theorem read_header {limit length : Nat} (hlimit : length ≤ limit) (hsize : length < UInt32.size)
    (rest : List UInt8) :
    read limit (header length ++ rest) =
      match takeBytes length rest with
      | none => (.error (.io earlyEnd), [])
      | some (payload, rest) => (.ok payload, rest) := by
  rw [read_head (length_header length), announced_header hsize, if_neg (Nat.not_lt.mpr hlimit)]

theorem read_frame_append {limit : Nat} {payload : List UInt8} (hlimit : payload.length ≤ limit)
    (hsize : payload.length < UInt32.size) (rest : List UInt8) :
    read limit (frame payload ++ rest) = (.ok payload, rest) := by
  rw [frame, List.append_assoc, read_header hlimit hsize, takeBytes_append]

/-- How a read fails that finds only a part of a frame. -/
def breakOff (part : List UInt8) : LinkError :=
  if part.length < 4 then .closed else .io earlyEnd

theorem read_part {limit : Nat} {payload part missing : List UInt8}
    (hlimit : payload.length ≤ limit) (hsize : payload.length < UInt32.size)
    (hmissing : missing ≠ []) (hpart : frame payload = part ++ missing) :
    read limit part = (.error (breakOff part), []) := by
  by_cases hshort : part.length < 4
  · rw [read, takeBytes_eq_none hshort, breakOff, if_pos hshort]
  · -- the header is complete, so the payload is not
    have hlong : 4 ≤ part.length := Nat.not_lt.mp hshort
    have hhead : part.take 4 = header payload.length := by
      have htake := congrArg (List.take 4) hpart
      rw [List.take_append_of_le_length hlong, frame, ← length_header payload.length,
        List.take_left, length_header] at htake
      exact htake.symm
    have hbody : (part.drop 4).length < payload.length := by
      have hlength := congrArg List.length hpart
      rw [frame, List.length_append, List.length_append, length_header] at hlength
      have hpos := List.length_pos_iff.mpr hmissing
      rw [List.length_drop]
      omega
    rw [← List.take_append_drop 4 part, hhead, read_header hlimit hsize, takeBytes_eq_none hbody,
      breakOff, ← hhead, List.take_append_drop, if_neg hshort]

theorem read_nil (limit : Nat) : read limit [] = (.error .closed, []) := rfl

/-! ## Many frames -/

/-- The bytes of frames one behind the other. -/
def writeAll (payloads : List (List UInt8)) : Except LinkError (List UInt8) :=
  (payloads.mapM write).map List.flatten

/-- Reads `n` times, each time from where the read before has stopped: the results in order, and
what is left of the stream. -/
def readTimes (limit : Nat) : Nat → List UInt8 → List (Except LinkError (List UInt8)) × List UInt8
  | 0, stream => ([], stream)
  | n + 1, stream =>
    let (result, rest) := read limit stream
    let (results, rest) := readTimes limit n rest
    (result :: results, rest)

theorem writeAll_eq_ok {payloads : List (List UInt8)}
    (h : ∀ p ∈ payloads, p.length < UInt32.size) :
    writeAll payloads = .ok (payloads.flatMap frame) := by
  have hframes : payloads.mapM write = .ok (payloads.map frame) := by
    induction payloads with
    | nil => rfl
    | cons p payloads ih =>
      rw [List.mapM_cons, write_eq_ok (h p List.mem_cons_self),
        ih fun q hq => h q (List.mem_cons_of_mem p hq)]
      rfl
  rw [writeAll, hframes, List.flatMap]
  rfl

section Reading

variable {limit : Nat} {payloads : List (List UInt8)}
  (hlimit : ∀ p ∈ payloads, p.length ≤ limit) (hsize : ∀ p ∈ payloads, p.length < UInt32.size)
include hlimit hsize

/-- As many reads as there are frames get the payloads, and the others start right behind them. -/
theorem readTimes_frames (n : Nat) (rest : List UInt8) :
    readTimes limit (payloads.length + n) (payloads.flatMap frame ++ rest) =
      (payloads.map .ok ++ (readTimes limit n rest).1, (readTimes limit n rest).2) := by
  induction payloads with
  | nil => simp
  | cons p payloads ih =>
    have hhere := read_frame_append (hlimit p List.mem_cons_self) (hsize p List.mem_cons_self)
      (payloads.flatMap frame ++ rest)
    have hlater := ih (fun q hq => hlimit q (List.mem_cons_of_mem p hq))
      fun q hq => hsize q (List.mem_cons_of_mem p hq)
    rw [List.length_cons, Nat.succ_add, List.flatMap_cons, List.append_assoc]
    simp only [readTimes, hhere, hlater, List.map_cons, List.cons_append]

omit hlimit hsize in
/-- A stream that ends too early ends inside one of its frames. -/
theorem exists_broken {part missing : List UInt8} (hmissing : missing ≠ [])
    (hpart : payloads.flatMap frame = part ++ missing) :
    ∃ whole broken later inside outside, payloads = whole ++ broken :: later ∧
      part = whole.flatMap frame ++ inside ∧ frame broken = inside ++ outside ∧ outside ≠ [] := by
  induction payloads generalizing part with
  | nil => exact absurd (List.append_eq_nil_iff.mp hpart.symm).2 hmissing
  | cons p payloads ih =>
    rw [List.flatMap_cons] at hpart
    by_cases hinside : part.length < (frame p).length
    · refine ⟨[], p, payloads, part, (frame p).drop part.length, rfl, rfl, ?_, ?_⟩
      · have htake := congrArg (List.take part.length) hpart
        rw [List.take_append_of_le_length (Nat.le_of_lt hinside), List.take_left] at htake
        rw [← htake, List.length_take, Nat.min_eq_left (Nat.le_of_lt hinside),
          List.take_append_drop]
      · intro hnil
        have := List.drop_eq_nil_iff.mp hnil
        omega
    · -- the first frame is complete, and the rest of the stream ends too early as well
      obtain ⟨part', rfl⟩ : frame p <+: part :=
        List.prefix_of_prefix_length_le (List.prefix_append _ _)
          (hpart ▸ List.prefix_append part missing) (Nat.not_lt.mp hinside)
      rw [List.append_assoc, List.append_cancel_left_eq] at hpart
      obtain ⟨whole, broken, later, inside, outside, hpayloads, hpart', hbroken, houtside⟩ :=
        ih hpart
      refine ⟨p :: whole, broken, later, inside, outside, ?_, ?_, hbroken, houtside⟩
      · rw [hpayloads, List.cons_append]
      · rw [hpart', List.flatMap_cons, List.append_assoc]

end Reading

theorem readTimes_nil (limit n : Nat) :
    readTimes limit n [] = (List.replicate n (.error .closed), []) := by
  induction n with
  | zero => rfl
  | succ n ih => simp [readTimes, read_nil, ih, List.replicate_succ]

/-- More reads do not change the results of those before them. -/
theorem readTimes_take (limit n m : Nat) (stream : List UInt8) :
    (readTimes limit (n + m) stream).1.take n = (readTimes limit n stream).1 := by
  induction n generalizing stream with
  | zero => simp [readTimes]
  | succ n ih =>
    rw [Nat.succ_add]
    simp [readTimes, ih]

/-- Whatever number of reads a stream gets that ends inside a frame, they return the complete
payloads in order, then the failure, and then that the stream is closed. -/
theorem readTimes_part {limit : Nat} {whole : List (List UInt8)}
    {broken inside outside : List UInt8} (hlimit : ∀ p ∈ whole ++ [broken], p.length ≤ limit)
    (hsize : ∀ p ∈ whole ++ [broken], p.length < UInt32.size) (houtside : outside ≠ [])
    (hbroken : frame broken = inside ++ outside) (n : Nat) :
    (readTimes limit n (whole.flatMap frame ++ inside)).1 =
      (whole.map Except.ok ++
        Except.error (breakOff inside) :: List.replicate n (Except.error .closed)).take n := by
  have hwhole := readTimes_frames (fun p hp => hlimit p (List.mem_append_left _ hp))
    (fun p hp => hsize p (List.mem_append_left _ hp)) (n + 1) inside
  have hfail := read_part (hlimit broken (by simp)) (hsize broken (by simp)) houtside hbroken
  have hlast : (readTimes limit (n + 1) inside).1 =
      .error (breakOff inside) :: List.replicate n (.error .closed) := by
    simp [readTimes, hfail, readTimes_nil]
  rw [← readTimes_take limit n (whole.length + 1), ← hlast,
    show n + (whole.length + 1) = whole.length + (n + 1) by omega, hwhole]

/-- Payloads that a header can announce and a reader accepts come back from the stream of their
frames one by one, and the bytes behind them stay unread. If the stream ends too early, the complete
payloads come back and then a failure, and never a payload that was not written. A header that
announces too much is refused with its payload unread. -/
theorem stream_read_write {limit : Nat} {payloads : List (List UInt8)}
    (h : ∀ p ∈ payloads, p.length ≤ min limit (UInt32.size - 1)) :
    ∃ stream, writeAll payloads = .ok stream ∧
      (∀ trailing, readTimes limit payloads.length (stream ++ trailing) =
        (payloads.map .ok, trailing)) ∧
      (∀ part missing, missing ≠ [] → stream = part ++ missing →
        ∃ whole broken later inside outside, payloads = whole ++ broken :: later ∧
          part = whole.flatMap frame ++ inside ∧ frame broken = inside ++ outside ∧
          outside ≠ [] ∧
          ∀ n, (readTimes limit n part).1 = (whole.map Except.ok ++
            .error (if inside.length < 4 then .closed else .io earlyEnd) ::
              List.replicate n (.error .closed)).take n) ∧
      ∀ head rest, head.length = 4 → limit < announced head →
        read limit (head ++ rest) = (.error (.frameTooLarge (announced head) limit), rest) := by
  have hlimit : ∀ p ∈ payloads, p.length ≤ limit := fun p hp => (Nat.le_min.mp (h p hp)).1
  have hsize : ∀ p ∈ payloads, p.length < UInt32.size := by
    intro p hp
    have hbound := (Nat.le_min.mp (h p hp)).2
    have hpos : 0 < UInt32.size := by decide
    omega
  refine ⟨payloads.flatMap frame, writeAll_eq_ok hsize, ?_, ?_, ?_⟩
  · intro trailing
    simpa [readTimes] using readTimes_frames hlimit hsize 0 trailing
  · intro part missing hmissing hpart
    obtain ⟨whole, broken, later, inside, outside, hpayloads, rfl, hbroken, houtside⟩ :=
      exists_broken hmissing hpart
    have hmem : ∀ p ∈ whole ++ [broken], p ∈ payloads := by
      intro p hp
      rw [hpayloads]
      rcases List.mem_append.mp hp with hp | hp
      · exact List.mem_append_left _ hp
      · rw [List.mem_singleton.mp hp]
        exact List.mem_append_right _ List.mem_cons_self
    exact ⟨whole, broken, later, inside, outside, hpayloads, rfl, hbroken, houtside,
      readTimes_part (fun p hp => hlimit p (hmem p hp)) (fun p hp => hsize p (hmem p hp)) houtside
        hbroken⟩
  · intro head rest hhead hlarge
    rw [read_head hhead, if_pos hlarge]

private def threePayloads : List (List UInt8) := [[], [1, 2, 3], [7]]

/-- An empty payload, one of the largest size and a small one, with bytes behind them that look like
a frame; and the same stream without its last byte. -/
theorem stream_read_write_three :
    (∀ p ∈ threePayloads, p.length ≤ min 3 (UInt32.size - 1)) ∧
    ∃ stream, writeAll threePayloads = .ok (stream ++ [7]) ∧
      stream = [0, 0, 0, 0, 0, 0, 0, 3, 1, 2, 3, 0, 0, 0, 1] ∧
      readTimes 3 3 (stream ++ [7] ++ [0, 0, 0, 0]) = (threePayloads.map .ok, [0, 0, 0, 0]) ∧
      (∃ whole broken later inside outside, threePayloads = whole ++ broken :: later ∧
        stream = whole.flatMap frame ++ inside ∧ frame broken = inside ++ outside ∧
        outside ≠ [] ∧
        ∀ n, (readTimes 3 n stream).1 = (whole.map Except.ok ++
          .error (if inside.length < 4 then .closed else .io earlyEnd) ::
            List.replicate n (.error .closed)).take n) ∧
      read 3 ([0, 0, 0, 4] ++ [9, 9]) = (.error (.frameTooLarge 4 3), [9, 9]) := by
  have hfits : ∀ p ∈ threePayloads, p.length ≤ min 3 (UInt32.size - 1) := by decide
  obtain ⟨stream, hwrite, hread, hcut, hlarge⟩ := stream_read_write hfits
  have hstream : stream = [0, 0, 0, 0, 0, 0, 0, 3, 1, 2, 3, 0, 0, 0, 1] ++ [7] :=
    Except.ok.inj (hwrite.symm.trans rfl)
  rw [hstream] at hwrite hread hcut
  exact ⟨hfits, _, hwrite, rfl, hread _, hcut _ [7] (by decide) rfl,
    hlarge [0, 0, 0, 4] [9, 9] rfl (by decide)⟩

end LayerPipeline.Frame
