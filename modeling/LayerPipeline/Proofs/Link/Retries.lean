import LayerPipeline.Link.Client
import Mathlib.Algebra.Order.Ring.Nat
import Mathlib.Data.List.Range
import Mathlib.Order.Bounds.Basic

/-!
# Calls that are tried again

A caller is run against any sequence of outcomes, and all that it does is kept: its attempts, and
the pauses between them. The outcome that it returns is the first one that stands.
-/

namespace LayerPipeline

/-! ## Errors and connections -/

theorem LinkError.isRetryable_of_isConnectFailure {e : LinkError}
    (h : e.isConnectFailure = true) : e.isRetryable = true := by
  cases e with
  | unreachable address reason => rfl
  | _ => cases h

theorem LinkError.isTimeout_of_isRetryable {e : LinkError} (h : e.isRetryable = true) :
    e.isTimeout = false := by
  cases e with
  | timeout address afterMs => cases h
  | _ => rfl

/-- What is read from a connection never says that there was none. -/
theorem Frame.isConnectFailure_read {limit : ℕ} {stream : List UInt8} {e : LinkError}
    (h : (read limit stream).1 = .error e) : e.isConnectFailure = false := by
  unfold read at h
  split at h
  · cases h
    rfl
  · dsimp only at h
    split at h
    · cases h
      rfl
    · split at h
      · cases h
        rfl
      · cases h

/-- Whether a connection was established, or may have been, so that the request may have been
written to it. -/
def Delivery.connected : Delivery → Bool
  | refused _ => false
  | _ => true

/-- A call that says that there was no connection is right. -/
theorem Delivery.connected_of_isConnectFailure {α : Type} [Wire α] {config : LinkConfig}
    {address : String} {delivery : Delivery} {e : LinkError}
    (h : (delivery.response config address : Except LinkError (Response α)) = .error e)
    (he : e.isConnectFailure = true) : delivery.connected = false := by
  cases delivery with
  | refused reason => rfl
  | oversized size =>
    cases h
    cases he
  | broken reason =>
    cases h
    cases he
  | silent =>
    cases h
    cases he
  | answered stream =>
    simp only [response] at h
    split at h
    · next hread =>
      cases h
      cases (Frame.isConnectFailure_read hread).symm.trans he
    · split at h
      · cases h
      · cases h
        cases he

namespace Channel

variable {α : Type}

/-! ## A record of a call -/

/-- What a caller does. -/
inductive Event (α : Type) where
  | attempt (request : Request α)
  | pause (ms : ℕ)

/-- How many attempts there were. -/
def attempts (history : List (Event α)) : ℕ :=
  history.countP fun
    | .attempt _ => true
    | .pause _ => false

/-- A way on which the attempts come out one after the other as given, with a record of what the
caller does. -/
def scripted (describe : Response α → String) (outcomes : ℕ → Except LinkError (Response α)) :
    Channel (StateM (List (Event α))) α where
  attempt request := fun history => (outcomes (attempts history), history ++ [.attempt request])
  sleep ms := fun history => ((), history ++ [.pause ms])
  describe := describe

/-- The pause before a retry: the first is the given one, and from one to the next it doubles. From
the second on it is limited. -/
def pauseBefore (backoffMs retry : ℕ) : ℕ :=
  if retry ≤ 1 then backoffMs else min (2 ^ (retry - 1) * backoffMs) longestPause

/-- What a caller does before its attempt after `k` retries. -/
def lead (request : Request α) (backoffMs k : ℕ) : List (Event α) :=
  (List.range k).flatMap fun i => [.attempt request, .pause (pauseBefore backoffMs (i + 1))]

/-- Whether an outcome is tried again. -/
def isRetried (retryOn : LinkError → Bool) : Except LinkError (Response α) → Bool
  | .error e => retryOn e
  | .ok _ => false

theorem pauseBefore_succ (backoffMs retry : ℕ) :
    pauseBefore backoffMs (retry + 2) =
      min (2 * pauseBefore backoffMs (retry + 1)) longestPause := by
  have hdouble : 2 ^ (retry + 1) * backoffMs = 2 * (2 ^ retry * backoffMs) := by
    rw [Nat.pow_succ', Nat.mul_assoc]
  rw [pauseBefore, if_neg (by omega), pauseBefore]
  change min (2 ^ (retry + 1) * backoffMs) _ =
    min (2 * if retry + 1 ≤ 1 then backoffMs else min (2 ^ retry * backoffMs) _) _
  split
  · next hfirst =>
    obtain rfl : retry = 0 := by omega
    simp
  · rw [hdouble]
    omega

example : (List.range 4).map (fun i => pauseBefore 2000 (i + 1)) = [2000, 4000, 5000, 5000] := by
  decide

theorem lead_succ (request : Request α) (backoffMs k : ℕ) :
    lead request backoffMs (k + 1) = lead request backoffMs k ++ [.attempt request] ++
      [.pause (pauseBefore backoffMs (k + 1))] := by
  simp [lead, List.range_succ]

@[simp] theorem attempts_concat_attempt (history : List (Event α)) (request : Request α) :
    attempts (history ++ [.attempt request]) = attempts history + 1 := by
  simp [attempts]

@[simp] theorem attempts_concat_pause (history : List (Event α)) (ms : ℕ) :
    attempts (history ++ [.pause ms]) = attempts history := by
  simp [attempts]

theorem attempts_lead (request : Request α) (backoffMs k : ℕ) :
    attempts (lead request backoffMs k) = k := by
  induction k with
  | zero => rfl
  | succ k ih => rw [lead_succ, attempts_concat_pause, attempts_concat_attempt, ih]

theorem pause_mem_lead {request : Request α} {backoffMs k ms : ℕ}
    (h : .pause ms ∈ lead request backoffMs k) : ms ≤ max backoffMs longestPause := by
  obtain ⟨i, -, hi⟩ := List.mem_flatMap.mp h
  simp only [List.mem_cons, reduceCtorEq, Event.pause.injEq, List.not_mem_nil, or_false,
    false_or] at hi
  rw [hi, pauseBefore]
  split
  · exact Nat.le_max_left ..
  · exact (Nat.min_le_right ..).trans (Nat.le_max_right ..)

/-! ## Attempts one after the other -/

variable (describe : Response α → String) (outcomes : ℕ → Except LinkError (Response α))

section Retrying

variable (retryOn : LinkError → Bool) (request : Request α)

/-- One attempt, while there are retries left. -/
theorem retrying_succ (n pauseMs : ℕ) (history : List (Event α)) :
    (scripted describe outcomes).retrying retryOn request (n + 1) pauseMs history =
      if isRetried retryOn (outcomes (attempts history)) then
        (scripted describe outcomes).retrying retryOn request n (min (2 * pauseMs) longestPause)
          (history ++ [.attempt request] ++ [.pause pauseMs])
      else (outcomes (attempts history), history ++ [.attempt request]) := by
  rw [retrying]
  simp only [bind, StateT.bind, scripted]
  cases outcomes (attempts history) with
  | ok r => rfl
  | error e =>
    dsimp only
    by_cases he : retryOn e = true
    · rw [if_pos he]
      exact (if_pos he).symm
    · rw [if_neg he]
      exact (if_neg he).symm

/-- A call that has come to its attempt after `k` retries, with `n` retries left, goes on to the
first attempt that stands. -/
theorem exists_retrying (backoffMs n k : ℕ) :
    ∃ last, IsLeast {i | k ≤ i ∧ (i = k + n ∨ isRetried retryOn (outcomes i) = false)} last ∧
      (scripted describe outcomes).retrying retryOn request n (pauseBefore backoffMs (k + 1))
          (lead request backoffMs k) =
        (outcomes last, lead request backoffMs last ++ [.attempt request]) := by
  induction n generalizing k with
  | zero =>
    refine ⟨k, ⟨⟨le_rfl, .inl rfl⟩, fun i hi => hi.1⟩, ?_⟩
    simp only [retrying, scripted, attempts_lead]
  | succ n ih =>
    rw [retrying_succ, attempts_lead]
    by_cases hretried : isRetried retryOn (outcomes k) = true
    · obtain ⟨last, ⟨⟨hlate, hstands⟩, hleast⟩, hrun⟩ := ih (k + 1)
      refine ⟨last, ⟨⟨by omega, hstands.imp_left (by omega)⟩, fun i ⟨hle, hi⟩ => hleast ?_⟩, ?_⟩
      · -- the attempt that was tried again does not stand, so the first that stands comes later
        have hne : i ≠ k := by
          rintro rfl
          rcases hi with hlast | hfalse
          · omega
          · cases hretried.symm.trans hfalse
        exact ⟨by omega, hi.imp_left (by omega)⟩
      · rw [if_pos hretried, ← pauseBefore_succ, ← lead_succ]
        exact hrun
    · rw [if_neg hretried]
      exact ⟨k, ⟨⟨le_rfl, .inr (Bool.not_eq_true _ ▸ hretried)⟩, fun i hi => hi.1⟩, rfl⟩

end Retrying

/-! ## Calls and operations -/

/-- A call that ends with its attempt after `last` retries, its result and its record. -/
structure EndsAt (config : LinkConfig) (retryOn : LinkError → Bool) (request : Request α)
    (run : Except LinkError (Response α) × List (Event α)) (last : ℕ) : Prop where
  /-- No earlier attempt was a success, an error that is not tried again, or the last one that the
  settings allow. -/
  first : IsLeast {i | i = config.maxRetries.toNat ∨ isRetried retryOn (outcomes i) = false} last
  result : run.1 = outcomes last
  history : run.2 = lead request config.retryBackoffMs.toNat last ++ [.attempt request]
  attempts : attempts run.2 = last + 1
  limit : last ≤ config.maxRetries.toNat
  /-- After a timeout there is no further attempt. -/
  patience : ∀ i < last, ∀ e, outcomes i = .error e → e.isTimeout = false
  /-- The number of retries fits 32 bits. -/
  counter : last < UInt32.size
  /-- Twice a pause, in seconds, fits 64 bits, so no pause is lost when it is doubled. -/
  durations : ∀ ms, .pause ms ∈ run.2 → 2 * ms < 1000 * UInt64.size

section EndsAt

variable {outcomes : ℕ → Except LinkError (Response α)} {retryOn : LinkError → Bool}
  {request : Request α} {config : LinkConfig}
  {run : Except LinkError (Response α) × List (Event α)} {last : ℕ}

theorem exists_error_of_lt
    (h : IsLeast {i | i = config.maxRetries.toNat ∨ isRetried retryOn (outcomes i) = false} last)
    {i : ℕ} (hi : i < last) : ∃ e, outcomes i = .error e ∧ retryOn e = true := by
  have hretried : isRetried retryOn (outcomes i) = true := by
    by_contra hstands
    exact absurd (h.2 (.inr (Bool.not_eq_true _ ▸ hstands))) (not_le.mpr hi)
  cases houtcome : outcomes i with
  | error e =>
    rw [houtcome] at hretried
    exact ⟨e, rfl, hretried⟩
  | ok r =>
    rw [houtcome] at hretried
    cases hretried

/-- A call whose timeouts are not tried again ends as it should. -/
theorem exists_endsAt (hretryOn : ∀ e, retryOn e = true → e.isTimeout = false)
    (describe : Response α → String) (outcomes : ℕ → Except LinkError (Response α))
    (config : LinkConfig) (request : Request α) :
    ∃ last, EndsAt outcomes config retryOn request
      ((scripted describe outcomes).retrying retryOn request config.maxRetries.toNat
        config.retryBackoffMs.toNat []) last := by
  obtain ⟨last, hleast, hrun⟩ := exists_retrying describe outcomes retryOn request
    config.retryBackoffMs.toNat config.maxRetries.toNat 0
  simp only [Nat.zero_le, true_and, Nat.zero_add] at hleast
  have hfirst : pauseBefore config.retryBackoffMs.toNat (0 + 1) = config.retryBackoffMs.toNat := rfl
  have hnone : lead request config.retryBackoffMs.toNat 0 = [] := rfl
  rw [hfirst, hnone] at hrun
  have hlimit : last ≤ config.maxRetries.toNat := hleast.2 (.inl rfl)
  rw [hrun]
  refine ⟨last, ?_⟩
  constructor
  case first => exact hleast
  case result => rfl
  case history => rfl
  case attempts => rw [attempts_concat_attempt, attempts_lead]
  case limit => exact hlimit
  case patience =>
    intro i hi e he
    obtain ⟨e', he', hretried⟩ := exists_error_of_lt hleast hi
    cases he.symm.trans he'
    exact hretryOn e hretried
  case counter => exact hlimit.trans_lt config.maxRetries.toNat_lt
  case durations =>
    intro ms hms
    have hpause : .pause ms ∈ lead request config.retryBackoffMs.toNat last := by
      simpa using hms
    have hbound := pause_mem_lead hpause
    have hbackoff := config.retryBackoffMs.toNat_lt
    rw [longestPause] at hbound
    rw [UInt64.size]
    omega

/-- Of the connections to a node, only the last one can have been written to. -/
theorem EndsAt.countP_connected_le_one [Wire α]
    (h : EndsAt outcomes config LinkError.isConnectFailure request run last) {address : String}
    {deliveries : ℕ → Delivery}
    (hdeliveries : ∀ i ≤ last, outcomes i = (deliveries i).response config address) :
    (List.range (last + 1)).countP (fun i => (deliveries i).connected) ≤ 1 := by
  have hearlier : (List.range last).countP (fun i => (deliveries i).connected) = 0 := by
    refine List.countP_eq_zero.mpr fun i hi => ?_
    have hlt := List.mem_range.mp hi
    obtain ⟨e, he, hfailed⟩ := exists_error_of_lt h.first hlt
    rw [Bool.not_eq_true]
    exact Delivery.connected_of_isConnectFailure ((hdeliveries i hlt.le).symm.trans he) hfailed
  rw [List.range_succ, List.countP_append, hearlier, Nat.zero_add]
  exact List.countP_le_length

end EndsAt

/-- An operation makes the attempts of its call, and fails where the call fails. -/
def Follows {β : Type} (call : Except LinkError (Response α) × List (Event α))
    (operation : Except LinkError β × List (Event α)) : Prop :=
  operation.2 = call.2 ∧ ∀ e, call.1 = .error e → operation.1 = .error e

theorem follows_expect {β : Type} (expected : String) (body : Response α → Option β)
    (call : StateM (List (Event α)) (Except LinkError (Response α))) (history : List (Event α)) :
    Follows (call history)
      ((do return (scripted describe outcomes).expect expected body (← call) :
        StateM (List (Event α)) (Except LinkError β)) history) := by
  refine ⟨rfl, fun e he => ?_⟩
  change (scripted describe outcomes).expect expected body (call history).1 = _
  rw [he, expect]

variable [Wire α]

/-- A call that must not run twice: before its last attempt there was no connection. -/
structure EndsOnce (config : LinkConfig) (request : Request α)
    (run : Except LinkError (Response α) × List (Event α)) (last : ℕ) : Prop
    extends EndsAt outcomes config LinkError.isConnectFailure request run last where
  unreachable : ∀ i < last, ∃ address reason, outcomes i = .error (.unreachable address reason)
  /-- Whatever became of the attempts, at most one connection can have been written to. -/
  written : ∀ address (deliveries : ℕ → Delivery),
    (∀ i ≤ last, outcomes i = (deliveries i).response config address) →
      (List.range (last + 1)).countP (fun i => (deliveries i).connected) ≤ 1

theorem exists_endsOnce (config : LinkConfig) (request : Request α) :
    ∃ last, EndsOnce outcomes config request
      ((scripted describe outcomes).callWithConnectRetry config request []) last := by
  have hpatient : ∀ e : LinkError, e.isConnectFailure = true → e.isTimeout = false := fun e he =>
    LinkError.isTimeout_of_isRetryable (LinkError.isRetryable_of_isConnectFailure he)
  obtain ⟨last, h⟩ := exists_endsAt hpatient describe outcomes config request
  refine ⟨last, h, fun i hi => ?_, fun address deliveries => h.countP_connected_le_one⟩
  obtain ⟨e, he, hfailed⟩ := exists_error_of_lt h.first hi
  cases e with
  | unreachable address reason => exact ⟨address, reason, he⟩
  | _ => cases hfailed

/-- How calls are tried again, whatever comes of the attempts: after failures of the connection, or
only where there was no connection, as in the three operations that must not run twice. -/
theorem calls_end_at_first_standing (config : LinkConfig) :
    (∀ request, ∃ last, EndsAt outcomes config LinkError.isRetryable request
      ((scripted describe outcomes).callWithRetry config request []) last) ∧
    (∀ request, ∃ last, EndsOnce outcomes config request
      ((scripted describe outcomes).callWithConnectRetry config request []) last) ∧
    (∀ r, Follows
      ((scripted describe outcomes).callWithConnectRetry config (.createSession r) [])
      ((scripted describe outcomes).createSession config r [])) ∧
    (∀ r, Follows
      ((scripted describe outcomes).callWithConnectRetry config (.executeForward r) [])
      ((scripted describe outcomes).executeForward config r [])) ∧
    ∀ r, Follows
      ((scripted describe outcomes).callWithConnectRetry config (.stageForward r) [])
      ((scripted describe outcomes).stageForward config r []) := by
  refine ⟨fun request => ?_, exists_endsOnce describe outcomes config,
    fun r => follows_expect .., fun r => follows_expect .., fun r => follows_expect ..⟩
  exact exists_endsAt (fun _ => LinkError.isTimeout_of_isRetryable) describe outcomes config request

end Channel

end LayerPipeline
