import LayerPipeline.Proofs.Service.Composition

/-!
# Calls to a coordinator by their outcome

What a complete call that opens, runs or closes a session comes to, whatever other nodes answer
meanwhile. Each outcome names the work that was done on the stages and the state of the coordinator
around it.
-/

namespace LayerPipeline

open Procedure

variable {α : Type}

/-- The coordinator when it has given up a session because of a stage. -/
def Coordinator.abandon (c : Coordinator α) (key : Nat) (id : String) (s : Stage α)
    (err : ServiceError) : Coordinator α :=
  ((c.noteFailure s.node.nodeId err).endSession key (some err.message)).2.dropSession id

namespace Coordinator

theorem retains_abandon {free : String → Prop} (m : Coordinator α) (key : Nat) (id : String) (s : Stage α)
    (err : ServiceError) : Retains free m (m.abandon key id s err) :=
  (undisturbed_noteFailure s.node.nodeId err m).retains.trans
    ((retains_endSession _ _ _).trans (retains_dropSession _ _))

theorem embedded_abandon (m : Coordinator α) (key : Nat) (id : String) (s : Stage α)
    (err : ServiceError) : (m.abandon key id s err).embedded = m.embedded := by
  unfold abandon noteFailure
  split <;> rfl

end Coordinator

namespace Network

variable {E : Answers (Network α) (Call α) (Except LinkError (Response α))}
  {describe : Response α → String} {n n' : Network α}

theorem undisturbed_of_calm {β : Type} {free : String → Prop} {p : Coordinator.Action α β} {b : β}
    (hp : Coordinator.Calm free p) (hE : ∀ q n a n', E q n a n' → Answered q n a n')
    (hrun : Runs E (ofCoordinator p) n b n') :
    Coordinator.Undisturbed free n.coordinator n'.coordinator :=
  hp.undisturbed (runs_answered (hrun.mono hE))

/-- Work within a relation, whatever other nodes answer. -/
theorem related_of_within {β : Type} {free : String → Prop}
    {R : Coordinator α → Coordinator α → Prop} (hrefl : ∀ c, R c c)
    (htrans : ∀ {c m c'}, R c m → R m c' → R c c') (hcount : ∀ c, R c c.countRequest)
    {p : Coordinator.Action α β} {b : β} (hp : Coordinator.Within free R p)
    (hrun : Runs Answered (ofCoordinator p) n b n') : R n.coordinator n'.coordinator := by
  refine Confined.runs hrefl htrans ?_ hp (runs_answered hrun)
  rintro q c a c' - (rfl | rfl)
  · exact hrefl _
  · exact hcount c

variable [Scalar α]

/-! ## Opening -/

/-- How a call for a new session ends: what is answered, and what becomes of the network. -/
inductive CreateOutcome (E : Answers (Network α) (Call α) (Except LinkError (Response α)))
    (describe : Response α → String) (r : CreateSession) (n : Network α) :
    Except ServiceError String → Network α → Prop
  | noPlan : n.coordinator.plan = none → CreateOutcome E describe r n (.error .noPlan) n
  /-- The id is in use. -/
  | refused {p : Plan α} {err : ServiceError} {c : Coordinator α} :
      n.coordinator.enter r p = (.error err, c) →
      c = { n.coordinator with ids := (Worker.chooseId r.sessionId n.coordinator.ids).2 } →
      CreateOutcome E describe r n (.error err) (n.setCoordinator c)
  /-- A stage could not be set up, and those before it were taken down. -/
  | undone {p : Plan α} {s : Stage α} {err : ServiceError} {opened : List (Stage α)}
      {m n' : Network α} : n.coordinator.plan = some p →
      n.coordinator.sessions.get? (n.coordinator.newSession r p).id = none →
      Runs E (ofCoordinator (Coordinator.openStages describe (n.coordinator.newSession r p).id r []
        p.stages)) (n.setCoordinator (n.coordinator.entered r p)) (some (s, err, opened)) m →
      Runs E (ofCoordinator (Coordinator.closeStages describe (n.coordinator.newSession r p).id
        opened)) (m.setCoordinator (m.coordinator.abandon n.coordinator.sessions.nextKey
          (n.coordinator.newSession r p).id s err)) () n' →
      CreateOutcome E describe r n (.error err) n'
  | opened {p : Plan α} {m : Network α} : n.coordinator.plan = some p →
      n.coordinator.sessions.get? (n.coordinator.newSession r p).id = none →
      Runs E (ofCoordinator (Coordinator.openStages describe (n.coordinator.newSession r p).id r []
        p.stages)) (n.setCoordinator (n.coordinator.entered r p)) none m →
      CreateOutcome E describe r n (.ok (n.coordinator.newSession r p).id)
        (m.setCoordinator ((m.coordinator.modifySession n.coordinator.sessions.nextKey
          (Coordinator.activated m.coordinator.clock.micros)).reserveFor
            n.coordinator.sessions.nextKey p))

theorem createSession_outcome (hE : ∀ q n a n', E q n a n' → Answered q n a n')
    (hsound : n.coordinator.sessions.Sound) {r : CreateSession}
    {result : Except ServiceError String}
    (hrun : Runs E (ofCoordinator (Coordinator.createSession describe r)) n result n') :
    CreateOutcome E describe r n result n' := by
  simp only [Coordinator.createSession, ofCoordinator_bind, runs_bind,
    runs_ofCoordinator_read] at hrun
  obtain ⟨_, n, ⟨rfl, rfl⟩, hrun⟩ := hrun
  split at hrun
  · next hplan =>
    obtain ⟨rfl, rfl⟩ := hrun
    exact .noPlan hplan
  · next p hplan =>
    simp only [ofCoordinator_bind, runs_bind, runs_ofCoordinator_atomically] at hrun
    obtain ⟨_, _, ⟨rfl, rfl⟩, hrun⟩ := hrun
    rcases n.coordinator.enter_cases r p with ⟨err, henter⟩ | ⟨hid, henter⟩
    · rw [henter] at hrun
      obtain ⟨rfl, rfl⟩ := hrun
      exact .refused henter rfl
    · rw [henter] at hrun
      simp only [ofCoordinator_bind, runs_bind, runs_ofCoordinator_acquire] at hrun
      obtain ⟨_, _, rfl, _, m, hopen, hrun⟩ := hrun
      split at hrun
      · simp only [ofCoordinator_bind, ofCoordinator_pure, runs_bind, runs_ofCoordinator_update,
          runs_ofCoordinator_atomically, runs_ofCoordinator_release, runs_pure] at hrun
        obtain ⟨_, _, rfl, _, _, ⟨-, rfl⟩, _, _, rfl, _, _, rfl, _, m', hclose, rfl, rfl⟩ := hrun
        exact .undone hplan hid hopen hclose
      · simp only [ofCoordinator_bind, runs_bind, runs_ofCoordinator_atomically] at hrun
        obtain ⟨_, _, ⟨rfl, rfl⟩, hrun⟩ := hrun
        have hcalm : Coordinator.Undisturbed (fun _ => True) _ m.coordinator :=
          undisturbed_of_calm (Coordinator.calm_openStages describe (fun _ => trivial) r []
            p.stages) hE hopen
        have hsessions : m.coordinator.sessions =
            n.coordinator.sessions.add (n.coordinator.newSession r p) := hcalm.sessions
        have hkey : n.coordinator.sessions.nextKey < m.coordinator.sessions.nextKey := by
          rw [hsessions]
          exact Nat.lt_succ_self _
        -- nobody else has touched the session, so it can still be made active
        have hcreated : m.coordinator.sessions.stateAt n.coordinator.sessions.nextKey =
            some .created := by
          rw [hsessions, hsound.stateAt_add hid]
          exact if_pos rfl
        rcases Coordinator.activateSession_cases (hsessions ▸ hsound.add hid) hkey with
          ⟨hne, -⟩ | ⟨-, hactivate⟩
        · exact absurd hcreated hne
        · rw [hactivate] at hrun
          simp only [ofCoordinator_bind, ofCoordinator_pure, runs_bind, runs_ofCoordinator_update,
            runs_ofCoordinator_release, runs_pure] at hrun
          obtain ⟨_, _, rfl, _, _, rfl, rfl, rfl⟩ := hrun
          exact .opened hplan hid hopen

/-- Where a stage could not be set up, those before it were. -/
theorem openStages_error {id : String} {r : CreateSession} {opened stages before : List (Stage α)}
    {s : Stage α} {err : ServiceError}
    (hrun : Runs E (ofCoordinator (Coordinator.openStages describe id r opened stages)) n
      (some (s, err, before)) n') :
    ∃ done rest m, stages = done ++ s :: rest ∧ before = opened ++ done ∧
      Runs E (ofCoordinator (Coordinator.openStages describe id r opened done)) n none m ∧
      Runs E (ofCoordinator (Coordinator.openStage describe s id r)) m (.error err) n' := by
  induction stages generalizing n opened with
  | nil => cases hrun.1
  | cons x stages ih =>
    rw [Coordinator.openStages, ofCoordinator_bind, runs_bind] at hrun
    obtain ⟨result, m, hopen, hrun⟩ := hrun
    split at hrun
    · obtain ⟨hfailed, rfl⟩ := hrun
      cases hfailed
      exact ⟨[], stages, n, rfl, by simp, ⟨rfl, rfl⟩, hopen⟩
    · obtain ⟨done, rest, k, rfl, rfl, hdone, hfailed⟩ := ih hrun
      refine ⟨x :: done, rest, k, rfl, by simp, ?_, hfailed⟩
      rw [Coordinator.openStages, ofCoordinator_bind, runs_bind]
      exact ⟨.ok (), m, hopen, hdone⟩

/-! ## Closing -/

/-- What becomes of the network when a session is closed, whether it was open or not. -/
inductive CloseOutcome (E : Answers (Network α) (Call α) (Except LinkError (Response α)))
    (describe : Response α → String) (id : String) (n : Network α) : Network α → Prop
  | absent : n.coordinator.sessions.get? id = none →
      CloseOutcome E describe id n (n.setCoordinator (n.coordinator.dropSession id))
  | taken {s : Session α} {reason : Option String} {c : Coordinator α} {stages : List (Stage α)}
      {n' : Network α} : n.coordinator.sessions.get? id = some s →
      c.sessions = ((n.coordinator.sessions.remove id).modify s.key fun x => x.close reason) →
      Runs E (ofCoordinator (Coordinator.closeStages describe id stages)) (n.setCoordinator c) ()
        n' → CloseOutcome E describe id n n'

theorem closeSession_outcome {id : String} {reason : Option String} {result : SessionClosed}
    (hrun : Runs E (ofCoordinator (Coordinator.closeSession describe id reason)) n result n') :
    CloseOutcome E describe id n n' := by
  simp only [Coordinator.closeSession, ofCoordinator_bind, runs_bind,
    runs_ofCoordinator_atomically] at hrun
  obtain ⟨_, _, ⟨rfl, rfl⟩, hrun⟩ := hrun
  split at hrun
  · next hnone =>
    obtain ⟨-, rfl⟩ := hrun
    exact .absent hnone
  · next s hs =>
    simp only [ofCoordinator_bind, runs_bind, runs_ofCoordinator_acquire,
      runs_ofCoordinator_atomically] at hrun
    obtain ⟨_, _, rfl, found, _, ⟨-, rfl⟩, hrun⟩ := hrun
    split at hrun
    · simp only [ofCoordinator_bind, ofCoordinator_pure, runs_bind, runs_ofCoordinator_release,
        runs_pure] at hrun
      obtain ⟨_, _, rfl, -, rfl⟩ := hrun
      have hnone : Runs E (ofCoordinator (Coordinator.closeStages describe id []))
          (n.setCoordinator ((n.coordinator.dropSession id).endSession s.key reason).2) () _ :=
        ⟨rfl, rfl⟩
      exact .taken hs rfl hnone
    · simp only [ofCoordinator_bind, ofCoordinator_pure, runs_bind, runs_ofCoordinator_update,
        runs_ofCoordinator_release, runs_pure] at hrun
      obtain ⟨_, _, rfl, _, m, hclose, _, _, rfl, -, rfl⟩ := hrun
      exact .taken hs rfl hclose

/-! ## Forward passes -/

/-- How a forward pass ends: what is answered, and what becomes of the network. -/
inductive ForwardOutcome (E : Answers (Network α) (Call α) (Except LinkError (Response α)))
    (describe : Response α → String) (r : ExecuteForward) (n : Network α) :
    Except ServiceError (Tensor × ExecutionReport α) → Network α → Prop
  | invalid {err : DataError} : r.input.validate = .error err →
      ForwardOutcome E describe r n (.error (.ofData err)) n
  | unknown : n.coordinator.sessions.get? r.sessionId = none →
      ForwardOutcome E describe r n (.error (.sessionNotFound r.sessionId)) n
  /-- The session has no stages for this pass. -/
  | idle {s : Session α} {err : ServiceError} :
      n.coordinator.sessions.get? r.sessionId = some s →
      n.coordinator.stagesToRun s.key r = .error err →
      ForwardOutcome E describe r n (.error err) n
  | aborted {stages : List (Stage α)} {s : Stage α} {a : Abort} {m : Network α} :
      Runs E (ofCoordinator (Coordinator.runStages describe r stages r.input .start)) n
        (.error (s, .aborted a)) m → ForwardOutcome E describe r n (.error (.aborted a)) m
  /-- A stage failed, the session was given up, and stages on other nodes were taken down. -/
  | failed {s : Session α} {p : Plan α} {stage : Stage α} {err : ServiceError}
      {found : SessionState} {m n' : Network α} :
      n.coordinator.sessions.get? r.sessionId = some s → s.plan = some p →
      (∀ a, err ≠ .aborted a) →
      Runs E (ofCoordinator (Coordinator.runStages describe r (selected r p) r.input .start)) n
        (.error (stage, err)) m →
      Runs E (ofCoordinator (Coordinator.closeStages describe r.sessionId
        (p.stages.filter fun x => x.node.nodeId ≠ stage.node.nodeId)))
        (m.setCoordinator ((m.coordinator.abandon s.key r.sessionId stage err).releaseFor s.key
          found p)) () n' →
      ForwardOutcome E describe r n (.error err) n'
  | done {s : Session α} {result : Tensor × ExecutionReport α} {now : Nat} {c : Coordinator α}
      {stages : List (Stage α)} {m : Network α} :
      n.coordinator.sessions.get? r.sessionId = some s →
      Runs E (ofCoordinator (Coordinator.runStages describe r stages r.input .start)) n
        (.ok result) m →
      c.sessions = (m.coordinator.sessions.modify s.key fun x => x.recordForward r.tokenIndex now) →
      ForwardOutcome E describe r n (.ok result) (m.setCoordinator c)

theorem executeForward_outcome (hsound : n.coordinator.sessions.Sound) {r : ExecuteForward}
    {result : Except ServiceError (Tensor × ExecutionReport α)}
    (hrun : Runs E (ofCoordinator (Coordinator.executeForward describe r)) n result n') :
    ForwardOutcome E describe r n result n' := by
  unfold Coordinator.executeForward at hrun
  split at hrun
  · next err hinvalid =>
    obtain ⟨rfl, rfl⟩ := hrun
    exact .invalid hinvalid
  · simp only [ofCoordinator_bind, runs_bind, runs_ofCoordinator_read] at hrun
    obtain ⟨_, n, ⟨rfl, rfl⟩, hrun⟩ := hrun
    split at hrun
    · next hkey =>
      obtain ⟨rfl, rfl⟩ := hrun
      exact .unknown (by simpa using hkey)
    · next key hkey =>
      obtain ⟨s, hs, rfl⟩ := Option.map_eq_some_iff.mp hkey
      simp only [ofCoordinator_bind, runs_bind, runs_ofCoordinator_acquire,
        runs_ofCoordinator_read] at hrun
      obtain ⟨_, _, rfl, _, n, ⟨rfl, rfl⟩, hrun⟩ := hrun
      split at hrun
      · next err herr =>
        simp only [ofCoordinator_bind, ofCoordinator_pure, runs_bind, runs_ofCoordinator_release,
          runs_pure] at hrun
        obtain ⟨_, _, rfl, rfl, rfl⟩ := hrun
        exact .idle hs herr
      · next p stages hstages =>
        obtain ⟨s', hs', -, hplan, rfl, -⟩ := Coordinator.stagesToRun_eq_ok hstages
        obtain rfl : s = s' := Option.some.inj ((hsound.session?_of_get? hs).symm.trans hs')
        rw [ofCoordinator_bind, runs_bind] at hrun
        obtain ⟨outcome, m, hpass, hrun⟩ := hrun
        split at hrun
        · simp only [ofCoordinator_bind, ofCoordinator_pure, runs_bind,
            runs_ofCoordinator_release, runs_pure] at hrun
          obtain ⟨_, _, rfl, rfl, rfl⟩ := hrun
          exact .aborted hpass
        · next stage err hne =>
          simp only [ofCoordinator_bind, ofCoordinator_pure, runs_bind, runs_ofCoordinator_update,
            runs_ofCoordinator_atomically, runs_ofCoordinator_release, runs_pure] at hrun
          obtain ⟨_, _, rfl, found, _, ⟨-, rfl⟩, _, _, rfl, _, _, rfl, _, _, rfl, _, _, hclose, rfl,
            rfl⟩ := hrun
          exact .failed hs hplan hne hpass hclose
        · simp only [ofCoordinator_bind, ofCoordinator_pure, runs_bind, runs_ofCoordinator_update,
            runs_ofCoordinator_release, runs_pure] at hrun
          obtain ⟨_, _, rfl, _, _, rfl, _, _, rfl, rfl, rfl⟩ := hrun
          exact .done (m := m) hs hpass rfl

/-- A pass that fails has got through the stages before the one that failed. -/
theorem runStages_error {r : ExecuteForward} {stages : List (Stage α)} {input : Tensor}
    {progress : Coordinator.Progress α} {stage : Stage α} {err : ServiceError}
    (hrun : Runs E (ofCoordinator (Coordinator.runStages describe r stages input progress)) n
      (.error (stage, err)) n') :
    ∃ done rest between report m, stages = done ++ stage :: rest ∧
      Runs E (ofCoordinator (Coordinator.runStages describe r done input progress)) n
        (.ok (between, report)) m ∧
      Runs E (ofCoordinator (Coordinator.runStage describe stage r between)) m (.error err) n' := by
  induction stages generalizing n input progress with
  | nil => cases hrun.1
  | cons s stages ih =>
    rw [Coordinator.runStages, ofCoordinator_bind, runs_bind] at hrun
    obtain ⟨result, m, hstage, hrun⟩ := hrun
    split at hrun
    · obtain ⟨herr, rfl⟩ := hrun
      obtain ⟨rfl, rfl⟩ := Prod.mk.inj (Except.error.inj herr)
      exact ⟨[], stages, input, _, n, rfl, ⟨rfl, rfl⟩, hstage⟩
    · next output report =>
      simp only [ofCoordinator_bind, runs_bind] at hrun
      obtain ⟨_, k, hrecord, hrun⟩ := hrun
      obtain ⟨done, rest, between, total, m', rfl, hdone, hfailed⟩ := ih hrun
      refine ⟨s :: done, rest, between, total, m', rfl, ?_, hfailed⟩
      rw [Coordinator.runStages, ofCoordinator_bind, runs_bind]
      refine ⟨.ok (output, report), m, hstage, ?_⟩
      simp only [ofCoordinator_bind, runs_bind]
      exact ⟨(), k, hrecord, hdone⟩

end Network

end LayerPipeline
