import LayerPipeline.Proofs.Wire.Stream

/-!
# The frames of an arbitrary stream

Every stream falls into complete frames and a rest in exactly one way, whatever its bytes are: the
first four bytes of what is left say where the next frame ends. The rest is too short for the frame
it starts, or it announces more than a reader accepts.
-/

namespace LayerPipeline

namespace Frame

open Wire

/-! ## Complete frames and what stands behind them -/

/-- A payload that a reader accepts and a header can announce. -/
def Fits (limit : Nat) (payload : List UInt8) : Prop :=
  payload.length ≤ limit ∧ payload.length < UInt32.size

/-- The stream ends before its first frame is complete. -/
def Incomplete (limit : Nat) (stream : List UInt8) : Prop :=
  stream.length < 4 ∨
    announced (stream.take 4) ≤ limit ∧ stream.length < 4 + announced (stream.take 4)

/-- The stream starts with a header that announces more than a reader accepts. -/
def Oversized (limit : Nat) (stream : List UInt8) : Prop :=
  4 ≤ stream.length ∧ limit < announced (stream.take 4)

instance (limit : Nat) (stream : List UInt8) : Decidable (Oversized limit stream) :=
  inferInstanceAs (Decidable (_ ∧ _))

/-- A stream is these payloads, each in its frame, and behind them something that is no complete
frame. -/
structure Parts (limit : Nat) (stream : List UInt8) (payloads : List (List UInt8))
    (tail : List UInt8) : Prop where
  bytes : stream = payloads.flatMap frame ++ tail
  fits : ∀ p ∈ payloads, Fits limit p
  stops : Incomplete limit tail ∨ Oversized limit tail

theorem announced_lt {head : List UInt8} (h : head.length = 4) : announced head < UInt32.size := by
  have hlt := ofLittleEndian_lt head.reverse
  rw [List.length_reverse, h] at hlt
  exact hlt

theorem header_announced {head : List UInt8} (h : head.length = 4) :
    header (announced head) = head := by
  have hbytes := littleEndian_ofLittleEndian head.reverse
  rw [List.length_reverse, h] at hbytes
  rw [header, announced, hbytes, List.reverse_reverse]

theorem length_take_four {stream : List UInt8} (h : 4 ≤ stream.length) :
    (stream.take 4).length = 4 := by
  rw [List.length_take]
  omega

/-- What follows a header that announces too much makes no difference to it. -/
theorem Oversized.append {limit : Nat} {stream : List UInt8} (h : Oversized limit stream)
    (more : List UInt8) :
    Oversized limit (stream ++ more) ∧ (stream ++ more).take 4 = stream.take 4 := by
  have hhead : (stream ++ more).take 4 = stream.take 4 := List.take_append_of_le_length h.1
  refine ⟨⟨?_, ?_⟩, hhead⟩
  · rw [List.length_append]
    exact Nat.le_add_right_of_le h.1
  · rw [hhead]
    exact h.2

theorem read_oversized {limit : Nat} {stream : List UInt8} (h : Oversized limit stream) :
    read limit stream =
      (.error (.frameTooLarge (announced (stream.take 4)) limit), stream.drop 4) := by
  have hread := read_head (length_take_four h.1) limit (stream.drop 4)
  rwa [List.take_append_drop, if_pos h.2] at hread

theorem read_incomplete {limit : Nat} {stream : List UInt8} (h : Incomplete limit stream) :
    read limit stream = (.error (breakOff stream), []) := by
  by_cases hshort : stream.length < 4
  · rw [read, takeBytes_eq_none hshort, breakOff, if_pos hshort]
  · obtain ⟨hlimit, hbody⟩ := h.resolve_left hshort
    have hread := read_head (length_take_four (Nat.not_lt.mp hshort)) limit (stream.drop 4)
    have hdrop : (stream.drop 4).length < announced (stream.take 4) := by
      rw [List.length_drop]
      omega
    rw [List.take_append_drop, if_neg (Nat.not_lt.mpr hlimit), takeBytes_eq_none hdrop] at hread
    rw [hread, breakOff, if_neg hshort]

/-- A stream that starts neither too early nor too large starts with a complete frame. -/
theorem exists_frame {limit : Nat} {stream : List UInt8} (hcomplete : ¬Incomplete limit stream)
    (hsmall : ¬Oversized limit stream) :
    ∃ payload rest, stream = frame payload ++ rest ∧ Fits limit payload := by
  have hlong : 4 ≤ stream.length := Nat.not_lt.mp fun hshort => hcomplete (.inl hshort)
  have hlimit : announced (stream.take 4) ≤ limit :=
    Nat.not_lt.mp fun hlarge => hsmall ⟨hlong, hlarge⟩
  have hbody : 4 + announced (stream.take 4) ≤ stream.length :=
    Nat.not_lt.mp fun hcut => hcomplete (.inr ⟨hlimit, hcut⟩)
  have hhead := length_take_four hlong
  have hpayload : ((stream.drop 4).take (announced (stream.take 4))).length =
      announced (stream.take 4) := by
    rw [List.length_take, List.length_drop]
    omega
  refine ⟨(stream.drop 4).take (announced (stream.take 4)),
    (stream.drop 4).drop (announced (stream.take 4)), ?_, ?_⟩
  · rw [frame, hpayload, header_announced hhead, List.append_assoc, List.take_append_drop,
      List.take_append_drop]
  · rw [Fits, hpayload]
    exact ⟨hlimit, announced_lt hhead⟩

theorem length_lt_frame_append (payload rest : List UInt8) :
    rest.length < (frame payload ++ rest).length := by
  rw [frame, List.length_append, List.length_append, length_header]
  omega

theorem exists_parts (limit : Nat) (stream : List UInt8) :
    ∃ payloads tail, Parts limit stream payloads tail := by
  induction hn : stream.length using Nat.strongRecOn generalizing stream with
  | ind n ih =>
    by_cases hstops : Incomplete limit stream ∨ Oversized limit stream
    · exact ⟨[], stream, rfl, by simp, hstops⟩
    · obtain ⟨hcomplete, hsmall⟩ := not_or.mp hstops
      obtain ⟨payload, rest, rfl, hfits⟩ := exists_frame hcomplete hsmall
      have hshorter : rest.length < n := hn ▸ length_lt_frame_append payload rest
      obtain ⟨payloads, tail, hbytes, hall, hstop⟩ := ih rest.length hshorter rest rfl
      refine ⟨payload :: payloads, tail, ?_, ?_, hstop⟩
      · rw [hbytes, List.flatMap_cons, List.append_assoc]
      · intro p hp
        rcases List.mem_cons.mp hp with rfl | hp
        · exact hfits
        · exact hall p hp

theorem read_error_of_stops {limit : Nat} {tail : List UInt8}
    (h : Incomplete limit tail ∨ Oversized limit tail) :
    ∃ e rest, read limit tail = (.error e, rest) := by
  rcases h with h | h
  · exact ⟨_, _, read_incomplete h⟩
  · exact ⟨_, _, read_oversized h⟩

theorem Parts.unique {limit : Nat} {stream tail tail' : List UInt8}
    {payloads payloads' : List (List UInt8)} (h : Parts limit stream payloads tail)
    (h' : Parts limit stream payloads' tail') : payloads' = payloads ∧ tail' = tail := by
  obtain ⟨hbytes, hfits, hstops⟩ := h
  obtain ⟨hbytes', hfits', hstops'⟩ := h'
  induction payloads generalizing stream payloads' with
  | nil =>
    obtain ⟨e, rest, hread⟩ := read_error_of_stops hstops
    cases payloads' with
    | nil => simp_all
    | cons p payloads' =>
      have hp := hfits' p List.mem_cons_self
      rw [List.flatMap_cons, List.append_assoc] at hbytes'
      rw [hbytes, List.flatMap_nil, List.nil_append] at hbytes'
      rw [hbytes', read_frame_append hp.1 hp.2] at hread
      cases hread
  | cons p payloads ih =>
    have hp := hfits p List.mem_cons_self
    rw [List.flatMap_cons, List.append_assoc] at hbytes
    have hread := read_frame_append hp.1 hp.2 (payloads.flatMap frame ++ tail)
    rw [← hbytes] at hread
    cases payloads' with
    | nil =>
      obtain ⟨e, rest, hread'⟩ := read_error_of_stops hstops'
      rw [List.flatMap_nil, List.nil_append] at hbytes'
      rw [hbytes', hread'] at hread
      cases hread
    | cons p' payloads' =>
      have hp' := hfits' p' List.mem_cons_self
      rw [List.flatMap_cons, List.append_assoc] at hbytes'
      rw [hbytes', read_frame_append hp'.1 hp'.2] at hread
      obtain ⟨hok, hrest⟩ := Prod.mk.inj hread
      obtain ⟨hpayloads, htail⟩ := ih rfl (fun q hq => hfits q (List.mem_cons_of_mem p hq))
        hrest.symm fun q hq => hfits' q (List.mem_cons_of_mem p' hq)
      exact ⟨by rw [Except.ok.inj hok, hpayloads], htail⟩

end Frame

end LayerPipeline
