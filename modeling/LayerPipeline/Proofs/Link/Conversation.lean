import LayerPipeline.Link.Server
import LayerPipeline.Proofs.Service.Runs
import LayerPipeline.Proofs.Wire.Parts
import Mathlib.Data.Nat.Digits.Defs
import Mathlib.Data.String.Basic

/-!
# A connection is answered frame by frame

The server answers the complete frames of a stream one by one, each in the state that the frame
before has left, and says a last word when the rest of the stream announces too much. A frame that
is no request costs the frames behind it nothing: they are the same frames. In which pieces the
stream arrives makes no difference.
-/

namespace LayerPipeline

namespace Wire

theorem length_putVarint_le (v : Nat) : (putVarint v).length ≤ 9 := by
  unfold putVarint
  split
  · simp
  · split
    · simp [length_littleEndian]
    · split <;> simp [length_littleEndian]

theorem length_bytesOfText_le (s : String) : (bytesOfText s).length ≤ 4 * s.length := by
  have hchars : ∀ cs : List Char, String.utf8Len cs ≤ 4 * cs.length := by
    intro cs
    induction cs with
    | nil => simp
    | cons c cs ih =>
      have hc := Char.utf8Size_le_four c
      simp only [String.utf8Len_cons, List.length_cons]
      omega
  have hsize := String.utf8ByteSize_ofList s.toList
  rw [String.ofList_toList] at hsize
  calc (bytesOfText s).length = s.utf8ByteSize := by simp [bytesOfText]
    _ = String.utf8Len s.toList := hsize
    _ ≤ 4 * s.toList.length := hchars s.toList
    _ = 4 * s.length := rfl

end Wire

namespace Server

open LayerPipeline.Frame Procedure

section Answering

variable {σ ι ο α : Type} [Wire α] {E : Answers σ ι ο} {complaints : Complaints}
  {handler : Request α → Procedure σ ι ο (Except Abort (Response α))} {limit : Nat}

/-! ## What the server says on its own -/

theorem length_encode_error {text : String} (h : text.length < 2 ^ 29) :
    (Wire.encode (.error text : Response α)).length < UInt32.size := by
  have hbytes := Wire.length_bytesOfText_le text
  have hcount := Wire.length_putVarint_le (Wire.bytesOfText text).length
  have hkind := Wire.length_putVarint_le 12
  have hlength : (Wire.encode (.error text : Response α)).length =
      (Wire.putVarint 12).length +
        ((Wire.putVarint (Wire.bytesOfText text).length).length +
          (Wire.bytesOfText text).length) := by
    rw [← List.length_append, ← List.length_append]
    rfl
  rw [hlength, show UInt32.size = 2 ^ 32 from rfl]
  omega

theorem length_frameTooLarge {size limit : Nat} (hsize : size < UInt32.size)
    (hlimit : limit < size) : (LinkError.frameTooLarge size limit).message.length < 2 ^ 29 := by
  have hdigits : ∀ n < UInt32.size, (toString n).length ≤ 10 := by
    intro n hn
    exact Nat.repr_length n 10 (by decide) (Nat.lt_trans hn (by decide))
  have h₁ := hdigits size hsize
  have h₂ := hdigits limit (Nat.lt_trans hlimit hsize)
  have hmessage : (LinkError.frameTooLarge size limit).message =
      "message too large: " ++ toString size ++ " bytes (max " ++ toString limit ++ ")" := rfl
  have hwords : "message too large: ".length + " bytes (max ".length + ")".length = 32 := by decide
  rw [hmessage]
  simp only [String.length_append]
  omega

omit [Wire α] in
theorem malformed_eq (payload : List UInt8) : (malformed complaints payload : Response α) =
    .error ("malformed request: codec error: " ++ complaints.words payload) := by
  have hwords : "malformed request: codec error: " = "malformed request: " ++ "codec error: " := by
    decide
  rw [hwords, String.append_assoc]
  rfl

theorem length_encode_malformed (payload : List UInt8) :
    (Wire.encode (malformed complaints payload : Response α)).length < UInt32.size := by
  have hbrief := complaints.brief payload
  have hwords : "malformed request: codec error: ".length = 32 := by decide
  rw [malformed_eq]
  refine length_encode_error ?_
  rw [String.length_append, hwords]
  omega

/-- What the server says about a rest that announces too much. Nothing of the rest but its first
four bytes counts. -/
def farewell (α : Type) [Wire α] (limit : Nat) (tail : List UInt8) : List UInt8 :=
  if Oversized limit tail then
    frame (Wire.encode (.error ("message too large: " ++ toString (announced (tail.take 4)) ++
      " bytes (max " ++ toString limit ++ ")") : Response α))
  else []

/-! ## What is at the front of a stream -/

theorem turn_incomplete {stream : List UInt8} (h : Incomplete limit stream) :
    (turn limit stream : Turn α) = .incomplete := by
  unfold turn
  rw [read_incomplete h]
  unfold breakOff
  split
  · next heq => split at heq <;> cases heq
  · rfl
  · next heq => cases heq

theorem turn_oversized {stream : List UInt8} (h : Oversized limit stream) :
    (turn limit stream : Turn α) = .oversized (announced (stream.take 4)) limit := by
  rw [turn, read_oversized h]

theorem turn_frame {payload : List UInt8} (h : Fits limit payload) (rest : List UInt8) :
    (turn limit (frame payload ++ rest) : Turn α) =
      match Wire.decode? payload with
      | none => .malformed payload rest
      | some request => .request request rest := by
  cases hdecode : (Wire.decode? payload : Option (Request α)) with
  | none => simp [turn, read_frame_append h.1 h.2, hdecode]
  | some request => simp [turn, read_frame_append h.1 h.2, hdecode]

/-! ## One frame -/

/-- A payload is answered. A request is given to the handler, once; anything else gets an error,
and the handler does not hear of it. -/
def Answered (E : Answers σ ι ο) (complaints : Complaints)
    (handler : Request α → Procedure σ ι ο (Except Abort (Response α))) (payload : List UInt8)
    (s : σ) (response : Response α) (s' : σ) : Prop :=
  match Wire.decode? payload with
  | none =>
    response = .error ("malformed request: codec error: " ++ complaints.words payload) ∧ s' = s
  | some request => Runs E (handler request) s (.ok response) s'

/-- A payload ends the connection: it is a request, and the handler breaks down over it or gives a
response that no frame can hold. -/
def Ended (E : Answers σ ι ο)
    (handler : Request α → Procedure σ ι ο (Except Abort (Response α))) (payload : List UInt8)
    (s s' : σ) : Prop :=
  ∃ request, Wire.decode? payload = some request ∧
    ((∃ abort, Runs E (handler request) s (.error abort) s') ∨
      ∃ response, Runs E (handler request) s (.ok response) s' ∧
        UInt32.size ≤ (Wire.encode response).length)

theorem answering_of_lt {stream rest : List UInt8} (shorter : rest.length < stream.length)
    {response : Response α} (h : (Wire.encode response).length < UInt32.size) :
    Step.answering shorter response = .reply (frame (Wire.encode response)) rest shorter := by
  rw [Step.answering, write_eq_ok h]

theorem answering_of_le {stream rest : List UInt8} (shorter : rest.length < stream.length)
    {response : Response α} (h : UInt32.size ≤ (Wire.encode response).length) :
    Step.answering shorter response = .close [] := by
  rw [Step.answering, write, if_neg (Nat.not_lt.mpr h)]

theorem runs_step_incomplete {stream : List UInt8} (h : Incomplete limit stream) {s s' : σ}
    {r : Step stream} :
    Runs E (step complaints handler limit stream) s r s' ↔ r = .wait ∧ s' = s := by
  have hturn := turn_incomplete (α := α) h
  unfold step
  split
  · rw [runs_pure]
  all_goals simp_all

theorem runs_step_oversized {stream : List UInt8} (h : Oversized limit stream) {s s' : σ}
    {r : Step stream} :
    Runs E (step complaints handler limit stream) s r s' ↔
      r = .close (farewell α limit stream) ∧ s' = s := by
  have hturn := turn_oversized (α := α) h
  have hannounced := announced_lt (length_take_four h.1)
  have hlength := length_encode_error (α := α) (length_frameTooLarge hannounced h.2)
  unfold step
  split
  · simp_all
  · next heq =>
    obtain ⟨rfl, rfl⟩ := Turn.oversized.inj (heq.symm.trans hturn)
    rw [runs_pure, oversized, Step.leaving, write_eq_ok hlength, farewell, if_pos h]
    rfl
  · simp_all
  · simp_all

theorem runs_step_frame {payload rest : List UInt8} (h : Fits limit payload) {s s' : σ}
    {r : Step (frame payload ++ rest)} :
    Runs E (step complaints handler limit (frame payload ++ rest)) s r s' ↔
      (∃ response, Answered E complaints handler payload s response s' ∧
        (Wire.encode response).length < UInt32.size ∧
        r = .reply (frame (Wire.encode response)) rest (length_lt_frame_append payload rest)) ∨
      Ended E handler payload s s' ∧ r = .close [] := by
  have hturn := turn_frame (α := α) h rest
  unfold step
  split
  · split at hturn <;> simp_all
  · split at hturn <;> simp_all
  · next payload' rest' heq =>
    cases hdecode : (Wire.decode? payload : Option (Request α)) with
    | some request => simp_all
    | none =>
      rw [hdecode] at hturn
      obtain ⟨rfl, rfl⟩ := Turn.malformed.inj (heq.symm.trans hturn)
      have hlength : (Wire.encode (malformed complaints payload' : Response α)).length <
          UInt32.size := length_encode_malformed payload'
      rw [runs_pure, answering_of_lt _ hlength]
      simp only [Ended, Answered, hdecode]
      constructor
      · rintro ⟨rfl, rfl⟩
        exact .inl ⟨_, ⟨malformed_eq payload', rfl⟩, hlength, rfl⟩
      · rintro (⟨_, ⟨rfl, rfl⟩, -, rfl⟩ | ⟨⟨_, ⟨⟩, _⟩, _⟩)
        rw [malformed_eq]
        exact ⟨rfl, rfl⟩
  · next request rest' heq =>
    cases hdecode : (Wire.decode? payload : Option (Request α)) with
    | none => simp_all
    | some request' =>
      rw [hdecode] at hturn
      obtain ⟨rfl, rfl⟩ := Turn.request.inj (heq.symm.trans hturn)
      rw [runs_bind]
      simp only [Ended, Answered, hdecode]
      constructor
      · rintro ⟨_ | response, m, hhandler, hr, rfl⟩
        · exact .inr ⟨⟨_, rfl, .inl ⟨_, hhandler⟩⟩, hr⟩
        · rcases Nat.lt_or_ge (Wire.encode response).length UInt32.size with hlt | hge
          · rw [answering_of_lt _ hlt] at hr
            exact .inl ⟨response, hhandler, hlt, hr⟩
          · rw [answering_of_le _ hge] at hr
            exact .inr ⟨⟨_, rfl, .inr ⟨response, hhandler, hge⟩⟩, hr⟩
      · rintro (⟨response, hhandler, hlt, rfl⟩ |
          ⟨⟨_, ⟨⟩, ⟨abort, hhandler⟩ | ⟨response, hhandler, hge⟩⟩, rfl⟩)
        · exact ⟨.ok response, s', hhandler, (answering_of_lt _ hlt).symm, rfl⟩
        · exact ⟨.error abort, s', hhandler, rfl, rfl⟩
        · exact ⟨.ok response, s', hhandler, (answering_of_le _ hge).symm, rfl⟩

/-! ## One turn of the conversation -/

theorem runs_converse_stops {tail : List UInt8} (h : Incomplete limit tail ∨ Oversized limit tail)
    {s s' : σ} {bytes : List UInt8} :
    Runs E (converse complaints handler limit tail []) s bytes s' ↔
      bytes = farewell α limit tail ∧ s' = s := by
  rw [converse.eq_def, runs_bind]
  by_cases hlarge : Oversized limit tail
  · simp only [runs_step_oversized hlarge]
    constructor
    · rintro ⟨_, _, ⟨rfl, rfl⟩, hrun⟩
      exact hrun
    · intro hrun
      exact ⟨_, _, ⟨rfl, rfl⟩, hrun⟩
  · simp only [runs_step_incomplete (h.resolve_right hlarge), farewell, if_neg hlarge]
    constructor
    · rintro ⟨_, _, ⟨rfl, rfl⟩, hrun⟩
      exact hrun
    · intro hrun
      exact ⟨_, _, ⟨rfl, rfl⟩, hrun⟩

theorem runs_converse_oversized {pending : List UInt8} (h : Oversized limit pending)
    (arrivals : List (List UInt8)) {s s' : σ} {bytes : List UInt8} :
    Runs E (converse complaints handler limit pending arrivals) s bytes s' ↔
      bytes = farewell α limit pending ∧ s' = s := by
  rw [converse.eq_def, runs_bind]
  simp only [runs_step_oversized h]
  constructor
  · rintro ⟨_, _, ⟨rfl, rfl⟩, hrun⟩
    exact hrun
  · intro hrun
    exact ⟨_, _, ⟨rfl, rfl⟩, hrun⟩

theorem runs_converse_incomplete {pending : List UInt8} (h : Incomplete limit pending)
    (more : List UInt8) (later : List (List UInt8)) {s s' : σ} {bytes : List UInt8} :
    Runs E (converse complaints handler limit pending (more :: later)) s bytes s' ↔
      Runs E (converse complaints handler limit (pending ++ more) later) s bytes s' := by
  rw [converse.eq_def, runs_bind]
  simp only [runs_step_incomplete h]
  constructor
  · rintro ⟨_, _, ⟨rfl, rfl⟩, hrun⟩
    exact hrun
  · intro hrun
    exact ⟨_, _, ⟨rfl, rfl⟩, hrun⟩

theorem runs_converse_frame {payload : List UInt8} (h : Fits limit payload) {rest : List UInt8}
    {arrivals : List (List UInt8)} {s s' : σ} {bytes : List UInt8} :
    Runs E (converse complaints handler limit (frame payload ++ rest) arrivals) s bytes s' ↔
      (∃ response later m, Answered E complaints handler payload s response m ∧
        (Wire.encode response).length < UInt32.size ∧
        Runs E (converse complaints handler limit rest arrivals) m later s' ∧
        bytes = frame (Wire.encode response) ++ later) ∨
      Ended E handler payload s s' ∧ bytes = [] := by
  rw [converse.eq_def, runs_bind]
  simp only [runs_step_frame h]
  constructor
  · rintro ⟨_, m, ⟨response, hanswered, hlength, rfl⟩ | ⟨hended, rfl⟩, hrun⟩
    · obtain ⟨later, _, hlater, rfl, rfl⟩ := runs_bind.mp hrun
      exact .inl ⟨response, later, m, hanswered, hlength, hlater, rfl⟩
    · obtain ⟨rfl, rfl⟩ := hrun
      exact .inr ⟨hended, rfl⟩
  · rintro (⟨response, later, m, hanswered, hlength, hlater, rfl⟩ | ⟨hended, rfl⟩)
    · exact ⟨_, m, .inl ⟨response, hanswered, hlength, rfl⟩,
        runs_bind.mpr ⟨later, s', hlater, rfl, rfl⟩⟩
    · exact ⟨.close [], s', .inr ⟨hended, rfl⟩, rfl, rfl⟩

/-- In which pieces a stream arrives makes no difference. -/
theorem runs_converse_arrivals (arrivals : List (List UInt8)) (pending : List UInt8) {s s' : σ}
    {bytes : List UInt8} :
    Runs E (converse complaints handler limit pending arrivals) s bytes s' ↔
      Runs E (converse complaints handler limit (pending ++ arrivals.flatten) []) s bytes s' := by
  induction arrivals generalizing pending s bytes with
  | nil => rw [List.flatten_nil, List.append_nil]
  | cons more later ih =>
    rw [List.flatten_cons, ← List.append_assoc]
    -- the frames that have arrived are answered before the next piece is asked for
    induction hn : pending.length using Nat.strongRecOn generalizing pending s bytes with
    | ind n answered =>
      by_cases hwaits : Incomplete limit pending
      · rw [runs_converse_incomplete hwaits, ih]
      by_cases hlarge : Oversized limit pending
      · obtain ⟨hall, hhead⟩ := hlarge.append (more ++ later.flatten)
        rw [List.append_assoc, runs_converse_oversized hlarge, runs_converse_stops (.inr hall),
          farewell, farewell, hhead, if_pos hlarge, if_pos hall]
      · obtain ⟨payload, rest, rfl, hfits⟩ := exists_frame hwaits hlarge
        have hshorter : rest.length < n := hn ▸ length_lt_frame_append payload rest
        have hrest {m : σ} {written : List UInt8} :
            Runs E (converse complaints handler limit rest (more :: later)) m written s' ↔ _ :=
          answered rest.length hshorter rest rfl
        simp only [List.append_assoc] at hrest ⊢
        rw [runs_converse_frame hfits, runs_converse_frame hfits]
        simp only [hrest]

/-! ## The whole stream -/

/-- Payloads are answered in order, each in the state that the one before has left, and each with
one frame. -/
inductive Converses (E : Answers σ ι ο) (complaints : Complaints)
    (handler : Request α → Procedure σ ι ο (Except Abort (Response α))) :
    List (List UInt8) → σ → List (List UInt8) → σ → Prop where
  | nil (s : σ) : Converses E complaints handler [] s [] s
  | cons {payload : List UInt8} {payloads frames : List (List UInt8)} {s m s' : σ}
      {response : Response α} (hanswered : Answered E complaints handler payload s response m)
      (hlength : (Wire.encode response).length < UInt32.size)
      (hlater : Converses E complaints handler payloads m frames s') :
      Converses E complaints handler (payload :: payloads) s
        (frame (Wire.encode response) :: frames) s'

theorem runs_converse_parts {stream tail : List UInt8} {payloads : List (List UInt8)}
    (h : Parts limit stream payloads tail) {s s' : σ} {bytes : List UInt8} :
    Runs E (converse complaints handler limit stream []) s bytes s' ↔
      (∃ frames, Converses E complaints handler payloads s frames s' ∧
        bytes = frames.flatten ++ farewell α limit tail) ∨
      ∃ before payload later frames m, payloads = before ++ payload :: later ∧
        Converses E complaints handler before s frames m ∧ Ended E handler payload m s' ∧
        bytes = frames.flatten := by
  obtain ⟨hbytes, hfits, hstops⟩ := h
  induction payloads generalizing stream s bytes with
  | nil =>
    rw [hbytes, List.flatMap_nil, List.nil_append, runs_converse_stops hstops]
    constructor
    · rintro ⟨rfl, rfl⟩
      exact .inl ⟨[], .nil _, rfl⟩
    · rintro (⟨_, ⟨⟩, rfl⟩ | ⟨before, payload, later, _, _, hnil, _⟩)
      · exact ⟨rfl, rfl⟩
      · cases before <;> cases hnil
  | cons payload payloads ih =>
    have hlater {m : σ} {later : List UInt8} :
        Runs E (converse complaints handler limit (payloads.flatMap frame ++ tail) []) m later s' ↔
          _ :=
      ih rfl fun q hq => hfits q (List.mem_cons_of_mem payload hq)
    rw [hbytes, List.flatMap_cons, List.append_assoc,
      runs_converse_frame (hfits payload List.mem_cons_self)]
    constructor
    · rintro (⟨response, later, m, hanswered, hlength, hrest, rfl⟩ | ⟨hended, rfl⟩)
      · rcases hlater.mp hrest with
          ⟨frames, hconverses, rfl⟩ | ⟨before, p, after, frames, m', rfl, hconverses, hended, rfl⟩
        · exact .inl ⟨_ :: frames, .cons hanswered hlength hconverses, by simp⟩
        · exact .inr ⟨payload :: before, p, after, _ :: frames, m', rfl,
            .cons hanswered hlength hconverses, hended, rfl⟩
      · exact .inr ⟨[], payload, payloads, [], s, rfl, .nil s, hended, rfl⟩
    · rintro (⟨_, hconverses, rfl⟩ | ⟨before, p, after, _, m', hsplit, hconverses, hended, rfl⟩)
      · cases hconverses with
        | cons hanswered hlength hconverses =>
          exact .inl ⟨_, _, _, hanswered, hlength, hlater.mpr (.inl ⟨_, hconverses, rfl⟩),
            by simp⟩
      · cases hconverses with
        | nil =>
          obtain ⟨rfl, rfl⟩ := List.cons.inj hsplit
          exact .inr ⟨hended, rfl⟩
        | cons hanswered hlength hconverses =>
          obtain ⟨rfl, rfl⟩ := List.cons.inj hsplit
          exact .inl ⟨_, _, _, hanswered, hlength,
            hlater.mpr (.inr ⟨_, p, after, _, m', rfl, hconverses, hended, rfl⟩), rfl⟩

end Answering

/-- Every stream falls into complete frames and a rest in one way. In whatever pieces it arrives,
what is written back is one frame for each of them, in order, and the farewell of the rest: nothing,
unless the rest announces too much. The conversation stops before that only at a request over which
the handler breaks down or to which it gives a response that no frame can hold; then the frames
before it are answered. -/
theorem serve_frame_by_frame {σ ι ο α : Type} [Wire α] (E : Answers σ ι ο)
    (complaints : Complaints)
    (handler : Request α → Procedure σ ι ο (Except Abort (Response α))) (limit : Nat)
    (arrivals : List (List UInt8)) :
    ∃ payloads tail, Parts limit arrivals.flatten payloads tail ∧
      (∀ payloads' tail', Parts limit arrivals.flatten payloads' tail' →
        payloads' = payloads ∧ tail' = tail) ∧
      ∀ s bytes s', Runs E (converse complaints handler limit [] arrivals) s bytes s' ↔
        (∃ frames, Converses E complaints handler payloads s frames s' ∧
          bytes = frames.flatten ++ farewell α limit tail) ∨
        ∃ before payload later frames m, payloads = before ++ payload :: later ∧
          Converses E complaints handler before s frames m ∧ Ended E handler payload m s' ∧
          bytes = frames.flatten := by
  obtain ⟨payloads, tail, hparts⟩ := exists_parts limit arrivals.flatten
  refine ⟨payloads, tail, hparts, ?_, ?_⟩
  · intro payloads' tail' hparts'
    exact hparts.unique hparts'
  · intro s bytes s'
    rw [runs_converse_arrivals, List.nil_append]
    exact runs_converse_parts hparts

end Server

end LayerPipeline
