import LayerPipeline.Proofs.Service.Balance
import LayerPipeline.Proofs.Service.Binding

/-!
# What a worker does to its open sessions

A request for a session adds one session or none. Closing takes out the sessions with the id. A
forward pass takes out its own session when it gets as far as the engine and the engine fails, and
leaves the table as it is in every other case.
-/

namespace LayerPipeline.Worker

open Procedure

variable {α : Type} {w w' : Worker α}

theorem closeSession_opened (hsound : w.sessions.Sound) {id : String} {a : SessionClosed}
    (hrun : Runs Unasked (closeSession id) w a w') :
    w'.sessions.opened = w.sessions.opened.filter fun s => s.id ≠ id := by
  simp only [closeSession, runs_bind, runs_atomically] at hrun
  obtain ⟨_, _, ⟨rfl, rfl⟩, hrun⟩ := hrun
  split at hrun
  · obtain ⟨-, rfl⟩ := hrun
    rfl
  · next key hkey =>
    obtain ⟨s, hs, rfl⟩ := Option.map_eq_some_iff.mp hkey
    simp only [runs_bind, runs_acquire, runs_update, runs_release, runs_pure] at hrun
    obtain ⟨_, _, rfl, _, _, rfl, _, _, rfl, -, rfl⟩ := hrun
    exact hsound.opened_remove_modify hs _

theorem contains_modify (t : SessionTable α) (key : Nat) {f : Session α → Session α}
    (hf : SessionTable.Keeps f) (id : String) : (t.modify key f).contains id = t.contains id := by
  rw [SessionTable.contains_eq_isSome, SessionTable.contains_eq_isSome,
    SessionTable.get?_modify t key hf, Option.isSome_map]

theorem contains_remove (t : SessionTable α) (id : String) : (t.remove id).contains id = false := by
  rw [SessionTable.contains_eq_isSome, SessionTable.get?_remove]
  simp

variable [Scalar α]

/-- What a request for a session comes to. -/
inductive CreateOutcome (w : Worker α) (r : CreateSession) : SessionCreated α → Worker α → Prop
  | refused {a : SessionCreated α} {w' : Worker α} : a.success = false →
      w'.sessions = w.sessions → CreateOutcome w r a w'
  | opened {w' : Worker α} : w.sessions.get? r.sessionId = none →
      w'.sessions = w.sessions.add (w.newSession r) → (w.newSession r).id = r.sessionId →
      CreateOutcome w r ⟨true, r.sessionId, none, w'.nodeInfo⟩ w'

theorem createSession_outcome {r : CreateSession} (hid : r.sessionId.isEmpty = false)
    {a : SessionCreated α} (hrun : Runs Unasked (createSession r) w a w') :
    CreateOutcome w r a w' := by
  simp only [createSession, runs_bind, runs_atomically, runs_read] at hrun
  obtain ⟨_, _, ⟨rfl, rfl⟩, info, m, ⟨rfl, rfl⟩, hrun⟩ := hrun
  have hnew : (w.newSession r).id = r.sessionId := by
    simp [newSession, Session.create, chooseId, hid]
  have hname : (w.openSession r).1.1 = r.sessionId := by
    simp only [openSession, chooseId, hid]
    split <;> rfl
  rcases w.openSession_cases r with ⟨e, hresult, heq⟩ | ⟨hresult, hnone, heq⟩
  · rw [hresult] at hrun
    obtain ⟨rfl, rfl⟩ := hrun
    exact .refused rfl (by rw [heq])
  · rw [hresult, hname] at hrun
    obtain ⟨rfl, rfl⟩ := hrun
    exact .opened (hnew ▸ hnone) (by rw [heq]) hnew

theorem prompt_createSession (r : CreateSession) :
    Prompt (handle (.createSession r) : Worker.Action α _) := by
  refine Prompt.bind (fun _ => trivial) fun _ => ?_
  refine Prompt.bind (Prompt.bind (fun _ => trivial) fun x => ?_) fun _ => trivial
  refine Prompt.bind (fun _ => trivial) fun info => ?_
  obtain ⟨id, result⟩ := x
  cases result <;> trivial

/-! ## Forward passes -/

/-- What the engine answers to a pass, if the pass gets as far as the engine. -/
def engineAnswer? (w : Worker α) (id : String) (input : Tensor) (stageIds : List String) :
    Option (Except ServiceError Tensor) :=
  match input.validate with
  | .error _ => none
  | .ok _ =>
    match w.sessions.get? id with
    | none => none
    | some s =>
      match w.stageToRun s.key id stageIds with
      | .error _ => none
      | .ok (stage, layers) => some (w.engine.compute stage.stageId layers input)

/-- What a pass comes to. -/
inductive ForwardOutcome (w : Worker α) (id : String) (input : Tensor) (stageIds : List String) :
    Except ServiceError (Tensor × ExecutionReport α) → Worker α → Prop
  | rejected {err : ServiceError} : w.engineAnswer? id input stageIds = none →
      ForwardOutcome w id input stageIds (.error err) w
  | failed {err : ServiceError} {w' : Worker α} :
      w.engineAnswer? id input stageIds = some (.error err) → w'.sessions.contains id = false →
      ForwardOutcome w id input stageIds (.error err) w'
  | passed {output : Tensor} {report : ExecutionReport α} {w' : Worker α} :
      w.engineAnswer? id input stageIds = some (.ok output) →
      w'.sessions.contains id = w.sessions.contains id →
      ForwardOutcome w id input stageIds (.ok (output, report)) w'

/-- How a pass ends, and what it leaves of the table. -/
inductive ForwardEnding (w : Worker α) (id : String) (token : UInt64) (input : Tensor)
    (stageIds : List String) :
    Except ServiceError (Tensor × ExecutionReport α) → Worker α → Prop
  | invalid {err : DataError} : input.validate = .error err →
      ForwardEnding w id token input stageIds (.error (.ofData err)) w
  | unknown : w.sessions.get? id = none →
      ForwardEnding w id token input stageIds (.error (.sessionNotFound id)) w
  | unfit {s : Session α} {err : ServiceError} : w.sessions.get? id = some s →
      w.stageToRun s.key id stageIds = .error err →
      ForwardEnding w id token input stageIds (.error err) w
  | failed {s : Session α} {err : ServiceError} {w' : Worker α} : w.sessions.get? id = some s →
      w.engineAnswer? id input stageIds = some (.error err) → w'.config = w.config →
      w'.sessions = (w.sessions.modify s.key fun x => x.close (some err.message)).remove id →
      ForwardEnding w id token input stageIds (.error err) w'
  | passed {s : Session α} {output : Tensor} {report : ExecutionReport α} {now : Nat}
      {w' : Worker α} : w.sessions.get? id = some s →
      w.engineAnswer? id input stageIds = some (.ok output) → w'.config = w.config →
      w'.sessions = (w.sessions.modify s.key fun x => x.recordForward token now) →
      ForwardEnding w id token input stageIds (.ok (output, report)) w'

theorem forward_ending {id : String} {token : UInt64} {input : Tensor} {stageIds : List String}
    {result : Except ServiceError (Tensor × ExecutionReport α)}
    (hrun : Runs Unasked (forward id token input stageIds) w result w') :
    ForwardEnding w id token input stageIds result w' := by
  unfold forward at hrun
  split at hrun
  · next err hinvalid =>
    obtain ⟨rfl, rfl⟩ := hrun
    exact .invalid hinvalid
  · next hvalid =>
    simp only [runs_bind, runs_read] at hrun
    obtain ⟨_, w, ⟨rfl, rfl⟩, hrun⟩ := hrun
    split at hrun
    · next hnone =>
      obtain ⟨rfl, rfl⟩ := hrun
      exact .unknown (by simpa using hnone)
    · next key hkey =>
      obtain ⟨s, hs, rfl⟩ := Option.map_eq_some_iff.mp hkey
      simp only [runs_bind, runs_acquire, runs_read] at hrun
      obtain ⟨_, _, rfl, _, w, ⟨rfl, rfl⟩, hrun⟩ := hrun
      split at hrun
      · next err hstage =>
        simp only [runs_bind, runs_release, runs_pure] at hrun
        obtain ⟨_, _, rfl, rfl, rfl⟩ := hrun
        exact .unfit hs hstage
      · next stage layers hstage =>
        have hanswer : w.engineAnswer? id input stageIds =
            some (w.engine.compute stage.stageId layers input) := by
          simp [engineAnswer?, hvalid, hs, hstage]
        simp only [runs_bind, runs_compute] at hrun
        obtain ⟨_, _, ⟨rfl, rfl⟩, hrun⟩ := hrun
        dsimp only at hrun
        split at hrun
        · next err hcompute =>
          simp only [runs_bind, runs_update, runs_release, runs_pure] at hrun
          obtain ⟨_, _, rfl, _, _, rfl, _, _, rfl, rfl, rfl⟩ := hrun
          exact .failed hs (hcompute ▸ hanswer) rfl rfl
        · next output hcompute =>
          simp only [runs_bind, runs_update, runs_release, runs_read, runs_pure] at hrun
          obtain ⟨_, _, rfl, _, _, rfl, _, _, rfl, _, _, ⟨rfl, rfl⟩, rfl, rfl⟩ := hrun
          exact .passed hs (hcompute ▸ hanswer) rfl rfl

theorem forward_outcome {id : String} {token : UInt64} {input : Tensor} {stageIds : List String}
    {result : Except ServiceError (Tensor × ExecutionReport α)}
    (hrun : Runs Unasked (forward id token input stageIds) w result w') :
    ForwardOutcome w id input stageIds result w' := by
  cases forward_ending hrun with
  | invalid hinvalid => exact .rejected (by simp [engineAnswer?, hinvalid])
  | unknown hnone =>
    refine .rejected ?_
    unfold engineAnswer?
    split <;> simp [hnone]
  | unfit hs hstage =>
    refine .rejected ?_
    unfold engineAnswer?
    split <;> simp [hs, hstage]
  | failed _ hanswer _ hsessions => exact .failed hanswer (hsessions ▸ contains_remove _ id)
  | @passed s _ _ _ _ _ hanswer _ hsessions =>
    refine .passed hanswer ?_
    rw [hsessions]
    exact contains_modify _ s.key (SessionTable.keeps_recordForward _ _) id

/-- Whether a pass gets as far as the engine and the engine fails. -/
def engineFails (w : Worker α) (id : String) (input : Tensor) (stageIds : List String) : Bool :=
  match w.engineAnswer? id input stageIds with
  | some (.error _) => true
  | _ => false

variable {id : String} {input : Tensor} {stageIds : List String}
  {result : Except ServiceError (Tensor × ExecutionReport α)}

omit [Scalar α] in
theorem ForwardOutcome.contains (h : ForwardOutcome w id input stageIds result w') :
    w'.sessions.contains id = (w.sessions.contains id && !w.engineFails id input stageIds) := by
  cases h with
  | rejected hanswer => simp [engineFails, hanswer]
  | failed hanswer hgone => simp [engineFails, hanswer, hgone]
  | passed hanswer hsame => simp [engineFails, hanswer, hsame]

omit [Scalar α] in
theorem ForwardOutcome.engineFails_of_ok {x : Tensor × ExecutionReport α}
    (h : ForwardOutcome w id input stageIds (.ok x) w') :
    w.engineFails id input stageIds = false := by
  cases h with
  | passed hanswer => simp [engineFails, hanswer]

/-- A request for a pass is answered with its outcome. -/
theorem executeForward_outcome {r : ExecuteForward} {a : ForwardResult α}
    (hrun : Runs Unasked (executeForward r) w (.ok a) w') :
    w'.sessions.contains r.sessionId =
        (w.sessions.contains r.sessionId && !w.engineFails r.sessionId r.input r.stageIds) ∧
      (a.success = true → w.engineFails r.sessionId r.input r.stageIds = false) := by
  simp only [executeForward, runs_bind] at hrun
  obtain ⟨result, m, hforward, hrun⟩ := hrun
  have houtcome := forward_outcome hforward
  split at hrun
  · cases hrun.1
  · obtain ⟨hfailure, rfl⟩ := hrun
    cases Except.ok.inj hfailure
    exact ⟨houtcome.contains, fun hsuccess => by cases hsuccess⟩
  · simp only [runs_bind, runs_update, runs_pure] at hrun
    obtain ⟨_, _, rfl, -, rfl⟩ := hrun
    refine ⟨?_, fun _ => houtcome.engineFails_of_ok⟩
    rw [← houtcome.contains]
    split <;> rfl

end LayerPipeline.Worker
