import LayerPipeline.Proofs.Service.Runs
import LayerPipeline.Proofs.Service.SessionTable
import LayerPipeline.Service.Worker

/-!
# Sessions of a worker and their stages

A worker binds a session to a stage when it opens the session, and never binds it anew: whatever the
worker does, a session keeps its stage and its layers until it is gone. A forward pass calls the
engine once, for the stage and the layers of its session.
-/

namespace LayerPipeline

open Procedure

/-- The lock of a session of a worker. -/
def Lock.IsStage (key : Lock) : Prop := ∃ k, key = .stage k

namespace Worker

variable {α β : Type}

/-- No session is bound anew, those with free ids apart: where `w'` has one, `w` has it too, with
the same stage and layers. The engine may have been called meanwhile. -/
structure Retains (free : String → Prop) (w w' : Worker α) : Prop where
  backend : w'.backend = w.backend
  calls : w.calls <+: w'.calls
  sound : w.sessions.Sound → w'.sessions.Sound
  bound : ∀ id s', ¬ free id → w'.sessions.get? id = some s' →
    ∃ s, w.sessions.get? id = some s ∧ s'.stage = s.stage ∧ s'.layerNames = s.layerNames

section Retains

variable {free : String → Prop}

theorem Retains.refl (w : Worker α) : Retains free w w :=
  ⟨rfl, List.prefix_rfl, id, fun _ s _ hs => ⟨s, hs, rfl, rfl⟩⟩

theorem Retains.trans {w m w' : Worker α} (h : Retains free w m) (h' : Retains free m w') :
    Retains free w w' := by
  refine ⟨h'.backend.trans h.backend, h.calls.trans h'.calls, h'.sound ∘ h.sound,
    fun id s' hid hs' => ?_⟩
  obtain ⟨x, hx, hstage, hlayers⟩ := h'.bound id s' hid hs'
  obtain ⟨s, hs, hstage', hlayers'⟩ := h.bound id x hid hx
  exact ⟨s, hs, hstage.trans hstage', hlayers.trans hlayers'⟩

theorem retains_of_sessions {w w' : Worker α} (hbackend : w'.backend = w.backend)
    (hcalls : w.calls <+: w'.calls) (hsessions : w'.sessions = w.sessions) : Retains free w w' :=
  ⟨hbackend, hcalls, fun h => hsessions ▸ h, fun _ s _ hs => ⟨s, hsessions ▸ hs, rfl, rfl⟩⟩

theorem retains_modify (w : Worker α) (key : Nat) {f : Session α → Session α}
    (hf : SessionTable.Keeps f)
    (hbinding : ∀ s, (f s).stage = s.stage ∧ (f s).layerNames = s.layerNames) :
    Retains free w (w.modifySession key f) := by
  refine ⟨rfl, List.prefix_rfl, fun h => h.modify key hf, fun id s' _ hs' => ?_⟩
  change (w.sessions.modify key f).get? id = some s' at hs'
  rw [SessionTable.get?_modify _ _ hf] at hs'
  obtain ⟨s, hs, rfl⟩ := Option.map_eq_some_iff.mp hs'
  refine ⟨s, hs, ?_⟩
  unfold SessionTable.change
  split
  · exact hbinding s
  · exact ⟨rfl, rfl⟩

theorem retains_close (w : Worker α) (key : Nat) (reason : Option String) :
    Retains free w (w.modifySession key fun s => s.close reason) := by
  refine retains_modify w key (SessionTable.keeps_close reason) fun s => ?_
  by_cases h : s.state = .closed <;> simp [Session.close, h]

theorem retains_recordForward (w : Worker α) (key : Nat) (token : UInt64) (now : Nat) :
    Retains free w (w.modifySession key fun s => s.recordForward token now) :=
  retains_modify w key (SessionTable.keeps_recordForward token now) fun _ => ⟨rfl, rfl⟩

theorem retains_remove (w : Worker α) (id : String) :
    Retains free w { w with sessions := w.sessions.remove id } := by
  refine ⟨rfl, List.prefix_rfl, fun h => h.remove id, fun k s' _ hs' => ?_⟩
  rw [SessionTable.get?_remove] at hs'
  split at hs'
  · cases hs'
  · exact ⟨s', hs', rfl, rfl⟩

theorem retains_pushReport (address id : String) (token : UInt64) (report : ExecutionReport α)
    (w : Worker α) : Retains free w (pushReport address id token report w) :=
  retains_of_sessions rfl List.prefix_rfl rfl

/-- The session that a request opens. -/
def newSession (w : Worker α) (r : CreateSession) : Session α :=
  { (Session.create (chooseId r.sessionId w.ids).1 r.maxSequenceLength r.dtype w.clock.micros :
      Session α) with
    state := .active, stage := some r.stage, layerNames := r.layerNames }

theorem openSession_cases (w : Worker α) (r : CreateSession) :
    (∃ e, (w.openSession r).1.2 = .error e ∧
      (w.openSession r).2 = { w with ids := (chooseId r.sessionId w.ids).2 }) ∨
    ((w.openSession r).1.2 = .ok () ∧ w.sessions.get? (w.newSession r).id = none ∧
      (w.openSession r).2 = { w with
        ids := (chooseId r.sessionId w.ids).2
        sessions := w.sessions.add (w.newSession r) }) := by
  simp only [openSession, newSession]
  split
  · next sessions hinsert =>
    obtain ⟨hid, rfl⟩ := SessionTable.insertWithin_eq_ok hinsert
    exact .inr ⟨rfl, hid, rfl⟩
  · exact .inl ⟨_, rfl, rfl⟩
  · exact .inl ⟨_, rfl, rfl⟩

theorem retains_openSession (w : Worker α) {r : CreateSession}
    (hfree : free (chooseId r.sessionId w.ids).1) : Retains free w (w.openSession r).2 := by
  rcases w.openSession_cases r with ⟨e, -, heq⟩ | ⟨-, hnone, heq⟩
  · rw [heq]
    exact retains_of_sessions rfl List.prefix_rfl rfl
  · rw [heq]
    refine ⟨rfl, List.prefix_rfl, fun h => h.add hnone, fun id s' hid hs' => ?_⟩
    have hne : id ≠ (w.newSession r).id := fun h => hid (h ▸ hfree)
    change (w.sessions.add (w.newSession r)).get? id = some s' at hs'
    rw [SessionTable.get?_add hnone, if_neg hne] at hs'
    exact ⟨s', hs', rfl, rfl⟩

end Retains

/-! ## Procedures of a worker -/

theorem stageToRun_eq_ok {w : Worker α} {key : Nat} {id : String} {stageIds layers : List String}
    {stage : StageBinding} (h : w.stageToRun key id stageIds = .ok (stage, layers)) :
    ∃ s, w.sessions.session? key = some s ∧ s.stage = some stage ∧ layers = s.layerNames := by
  unfold stageToRun at h
  split at h
  · cases h
  · next s hs =>
    split at h
    · cases h
    · split at h
      · cases h
      · next stage' hstage =>
        split at h
        · obtain ⟨rfl, rfl⟩ := Prod.mk.inj (Except.ok.inj h)
          exact ⟨s, hs, hstage, rfl⟩
        · cases h

/-- Every section of the procedure retains the bindings, and it locks at most sessions of a
worker. -/
def Tame (free : String → Prop) (p : Worker.Action α β) : Prop :=
  Confined (Retains free) Lock.IsStage (fun _ => True) p

variable {free : String → Prop}

/-- A worker asks nothing, so there is nothing to answer. -/
def Unasked : Answers (Worker α) Empty Empty := fun q => nomatch q

theorem runs_run (p : Worker.Action α β) (w : Worker α) :
    Runs Unasked p w (p.run .none w).1 (p.run .none w).2.1 :=
  runs_call (fun q => nomatch q) p w

theorem runs_of_run {p : Worker.Action α β} {w w' : Worker α} {b : β} {ms : Nat}
    (h : p.run .none w = (b, w', ms)) : Runs Unasked p w b w' := by
  have hrun := runs_run p w
  rwa [h] at hrun

/-- A call of the engine comes to what the engine as it is answers, and is noted. -/
theorem runs_compute {stageId : String} {layers : List String} {input : Tensor} {w w' : Worker α}
    {x : Except ServiceError Tensor × α} :
    Runs Unasked (compute stageId layers input) w x w' ↔
      x = (w.engine.compute stageId layers input, w.engine.elapsedMs) ∧
        w' = { w with calls := w.calls ++ [⟨stageId, layers, input⟩] } := by
  simp only [compute, runs_bind, runs_read, runs_pause, runs_atomically]
  constructor
  · rintro ⟨_, _, ⟨rfl, rfl⟩, _, _, rfl, hcalled⟩
    exact hcalled
  · intro hcalled
    exact ⟨_, w, ⟨rfl, rfl⟩, (), w, rfl, hcalled⟩

theorem Tame.retains {p : Worker.Action α β} (hp : Tame free p) {w w' : Worker α} {b : β}
    (hrun : Runs Unasked p w b w') : Retains free w w' :=
  Confined.runs Retains.refl Retains.trans (fun q => nomatch q) hp hrun

theorem tame_pure (b : β) : Tame free (pure b : Worker.Action α β) := trivial

theorem tame_read (f : Worker α → β) : Tame free (read f : Worker.Action α β) :=
  fun w => ⟨.refl w, trivial⟩

theorem tame_closeSession (id : String) : Tame free (closeSession id : Worker.Action α _) := by
  refine Confined.bind (fun w => ⟨retains_remove w id, trivial⟩) fun found => ?_
  cases found with
  | none => exact tame_pure _
  | some key => exact ⟨⟨key, rfl⟩, fun w => ⟨retains_close w key _, ⟨key, rfl⟩, trivial⟩⟩

theorem tame_closeIdle (ids : List String) : Tame free (closeIdle ids : Worker.Action α _) := by
  induction ids with
  | nil => exact tame_pure ()
  | cons id ids ih =>
    refine Confined.bind (fun w => ⟨retains_remove w id, trivial⟩) fun found => ?_
    cases found with
    | none => exact ih
    | some key => exact ⟨⟨key, rfl⟩, fun w => ⟨retains_close w key _, ⟨key, rfl⟩, ih⟩⟩

theorem tame_sweep (busy : List String) : Tame free (sweep busy : Worker.Action α _) :=
  Confined.bind (tame_read _) fun _ => Confined.bind (tame_closeIdle _) fun _ => tame_pure _

theorem tame_compute (stageId : String) (layers : List String) (input : Tensor) :
    Tame free (compute stageId layers input : Worker.Action α _) :=
  Confined.bind (tame_read _) fun _ _ =>
    ⟨retains_of_sessions rfl (List.prefix_append _ _) rfl, trivial⟩

variable [Scalar α]

theorem tame_createSession {r : CreateSession}
    (hfree : ∀ ids, free (chooseId r.sessionId ids).1) :
    Tame free (createSession r : Worker.Action α _) := by
  refine Confined.bind (fun w => ⟨retains_openSession w (hfree _), trivial⟩) fun x => ?_
  refine Confined.bind (tame_read _) fun info => ?_
  obtain ⟨id, result⟩ := x
  cases result <;> exact tame_pure _

theorem tame_forward (id : String) (token : UInt64) (input : Tensor) (stageIds : List String) :
    Tame free (forward id token input stageIds : Worker.Action α _) := by
  unfold forward
  cases input.validate with
  | error e => exact tame_pure _
  | ok _ =>
    refine Confined.bind (tame_read _) fun found => ?_
    cases found with
    | none => exact tame_pure _
    | some key =>
      refine Confined.bind ⟨⟨key, rfl⟩, trivial⟩ fun _ => ?_
      refine Confined.bind (tame_read _) fun stage => ?_
      cases stage with
      | error e => exact ⟨⟨key, rfl⟩, trivial⟩
      | ok stage =>
        refine Confined.bind (tame_compute _ _ _) fun answered => ?_
        obtain ⟨answer, elapsedMs⟩ := answered
        cases answer with
        | error e =>
          exact fun w => ⟨retains_close w key _, ⟨key, rfl⟩, fun w =>
            ⟨retains_remove w id, trivial⟩⟩
        | ok output =>
          exact fun w => ⟨retains_recordForward w key _ _, ⟨key, rfl⟩, fun w =>
            ⟨retains_of_sessions rfl List.prefix_rfl rfl, fun w => ⟨.refl w, trivial⟩⟩⟩

theorem tame_executeForward (r : ExecuteForward) :
    Tame free (executeForward r : Worker.Action α _) := by
  refine Confined.bind (tame_forward _ _ _ _) fun result => ?_
  cases result with
  | error e => cases e <;> exact tame_pure _
  | ok x =>
    refine fun w => ⟨?_, trivial⟩
    simp only
    split
    · exact retains_pushReport _ _ _ _ w
    · exact .refl w

theorem tame_runStage (r : StageForward) (layers : List String) :
    Tame free (runStage r layers : Worker.Action α _) := by
  unfold runStage
  cases r.activations.validate with
  | error e => cases e <;> exact tame_pure _
  | ok _ =>
    refine Confined.bind (tame_compute _ _ _) fun answered => ?_
    obtain ⟨answer, elapsedMs⟩ := answered
    cases answer with
    | error e => cases e <;> exact tame_pure _
    | ok output =>
      refine fun w => ⟨retains_of_sessions rfl List.prefix_rfl rfl, fun w => ⟨.refl w, fun w => ?_⟩⟩
      refine ⟨?_, trivial⟩
      split
      · exact retains_pushReport _ _ _ _ w
      · exact .refl w

theorem tame_stageForward (r : StageForward) : Tame free (stageForward r : Worker.Action α _) := by
  refine Confined.bind (tame_read _) fun found => ?_
  cases found with
  | none => exact tame_runStage _ _
  | some key =>
    exact ⟨⟨key, rfl⟩, fun w => ⟨.refl w, ⟨key, rfl⟩, tame_runStage _ _⟩⟩

/-- A request that can open sessions with free ids only. -/
def Opens (free : String → Prop) (request : Request α) : Prop :=
  ∀ r, request = .createSession r → ∀ ids, free (chooseId r.sessionId ids).1

theorem tame_handle {request : Request α} (h : Opens free request) :
    Tame free (handle request) := by
  refine Confined.bind (fun w => ⟨retains_of_sessions rfl List.prefix_rfl rfl, trivial⟩) fun _ => ?_
  cases request with
  | createSession r => exact Confined.bind (tame_createSession (h r rfl)) fun _ => tame_pure _
  | executeForward r => exact Confined.bind (tame_executeForward r) fun _ => tame_pure _
  | closeSession r => exact Confined.bind (tame_closeSession _) fun _ => tame_pure _
  | stageForward r => exact Confined.bind (tame_stageForward r) fun _ => tame_pure _
  | ping r => exact Confined.bind (tame_read _) fun _ => tame_pure _
  | reportCapabilities r => exact Confined.bind (tame_read _) fun _ => tame_pure _
  | health => exact Confined.bind (tame_read _) fun _ => tame_pure _
  | _ => exact tame_pure _

/-! ## What a complete call achieves -/

section Calls

variable {w w' : Worker α}

/-- A request that succeeds has opened a session for its stage, under an id that was not in use. -/
theorem createSession_success {r : CreateSession} {a : SessionCreated α}
    (hrun : Runs Unasked (createSession r) w a w') (ha : a.success = true)
    (hid : r.sessionId.isEmpty = false) :
    w.sessions.get? r.sessionId = none ∧ ∃ s, w'.sessions.get? r.sessionId = some s ∧
      s.stage = some r.stage ∧ s.layerNames = r.layerNames := by
  simp only [createSession, runs_bind, runs_atomically, runs_read] at hrun
  obtain ⟨_, _, ⟨rfl, rfl⟩, info, _, ⟨-, rfl⟩, hrun⟩ := hrun
  have hnew : (w.newSession r).id = r.sessionId := by
    simp [newSession, Session.create, chooseId, hid]
  rcases w.openSession_cases r with ⟨e, hresult, heq⟩ | ⟨hresult, hnone, heq⟩
  · rw [hresult] at hrun
    obtain ⟨rfl, -⟩ := hrun
    cases ha
  · rw [hresult] at hrun
    obtain ⟨-, rfl⟩ := hrun
    rw [hnew] at hnone
    refine ⟨hnone, { w.newSession r with key := w.sessions.nextKey }, ?_, rfl, rfl⟩
    rw [heq]
    change (w.sessions.add (w.newSession r)).get? r.sessionId = _
    rw [SessionTable.get?_add (hnew ▸ hnone), if_pos hnew.symm]

/-- A forward pass that succeeds has called the engine once, for the stage and the layers of the
session. -/
theorem forward_success {id : String} {token : UInt64} {input output : Tensor}
    {stageIds : List String} {report : ExecutionReport α} (hsound : w.sessions.Sound)
    (hrun : Runs Unasked (forward id token input stageIds) w (.ok (output, report)) w') :
    ∃ s stage, w.sessions.get? id = some s ∧ s.stage = some stage ∧
      w.engine.compute stage.stageId s.layerNames input = .ok output ∧
      w'.calls = w.calls ++ [⟨stage.stageId, s.layerNames, input⟩] ∧
      report.stageIndex = stage.stageIndex := by
  unfold forward at hrun
  split at hrun
  · cases hrun.1
  · simp only [runs_bind, runs_read] at hrun
    obtain ⟨_, w, ⟨rfl, rfl⟩, hrun⟩ := hrun
    split at hrun
    · cases hrun.1
    · next key hkey =>
      obtain ⟨s, hs, rfl⟩ := Option.map_eq_some_iff.mp hkey
      simp only [runs_bind, runs_acquire, runs_read] at hrun
      obtain ⟨_, _, rfl, _, w, ⟨rfl, rfl⟩, hrun⟩ := hrun
      split at hrun
      · simp only [runs_bind, runs_release, runs_pure] at hrun
        obtain ⟨_, _, rfl, herror, -⟩ := hrun
        cases herror
      · next stage layers hstage =>
        obtain ⟨s', hs', hbound, rfl⟩ := stageToRun_eq_ok hstage
        -- the session under the lock is the one that was looked up before
        obtain rfl : s = s' := Option.some.inj ((hsound.session?_of_get? hs).symm.trans hs')
        simp only [runs_bind, runs_compute] at hrun
        obtain ⟨_, _, ⟨rfl, rfl⟩, hrun⟩ := hrun
        dsimp only at hrun
        split at hrun
        · simp only [runs_bind, runs_update, runs_release, runs_pure] at hrun
          obtain ⟨_, _, -, _, _, -, _, _, -, herror, -⟩ := hrun
          cases herror
        · next out hcompute =>
          simp only [runs_bind, runs_update, runs_release, runs_read, runs_pure] at hrun
          obtain ⟨_, _, rfl, _, _, rfl, _, _, rfl, _, _, ⟨rfl, rfl⟩, hresult, rfl⟩ := hrun
          obtain ⟨rfl, rfl⟩ := Prod.mk.inj (Except.ok.inj hresult)
          exact ⟨s, stage, hs, hbound, hcompute, rfl, rfl⟩

theorem executeForward_success {r : ExecuteForward} {a : ForwardResult α} {output : Tensor}
    (hsound : w.sessions.Sound) (hrun : Runs Unasked (executeForward r) w (.ok a) w')
    (ha : a.success = true) (houtput : a.output = some output) :
    ∃ s stage, w.sessions.get? r.sessionId = some s ∧ s.stage = some stage ∧
      w.engine.compute stage.stageId s.layerNames r.input = .ok output ∧
      w'.calls = w.calls ++ [⟨stage.stageId, s.layerNames, r.input⟩] ∧
      a.report.stageIndex = stage.stageIndex := by
  simp only [executeForward, runs_bind] at hrun
  obtain ⟨result, m, hforward, hrun⟩ := hrun
  split at hrun
  · cases hrun.1
  · obtain ⟨hfailure, -⟩ := hrun
    cases Except.ok.inj hfailure
    cases ha
  · next out report =>
    simp only [runs_bind, runs_update, runs_pure] at hrun
    obtain ⟨_, _, rfl, hresult, rfl⟩ := hrun
    cases Except.ok.inj hresult
    cases houtput
    obtain ⟨s, stage, hs, hbound, hcompute, hcalls, hindex⟩ := forward_success hsound hforward
    refine ⟨s, stage, hs, hbound, hcompute, ?_, hindex⟩
    rw [← hcalls]
    split <;> rfl

end Calls

end Worker

end LayerPipeline
