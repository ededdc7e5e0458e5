import LayerPipeline.Proofs.Service.Ready
import LayerPipeline.Proofs.Service.Teardown

/-!
# A worker from call to call

Whatever a worker is asked, one complete call at a time, between two calls it has no more sessions
than it may have, and every one of them is found under its own id, active and bound to a stage.
Sessions come by requests to open them only: one that was closed, swept or lost to a failure of the
engine is not found again before another one is opened under its id.
-/

namespace LayerPipeline

open Procedure

variable {α : Type}

/-! ## Calls that open no session -/

namespace Worker

variable {w m w' : Worker α}

/-- No session is opened, and the settings stay. -/
structure Sheds (w w' : Worker α) : Prop where
  config : w'.config = w.config
  sessions : w.sessions.Sheds w'.sessions

theorem Sheds.trans (h : Sheds w m) (h' : Sheds m w') : Sheds w w' :=
  ⟨h'.config.trans h.config, h.sessions.trans h'.sessions⟩

theorem sheds_of_sessions (hw : w.sessions.Sound) (hconfig : w'.config = w.config)
    (hsessions : w'.sessions = w.sessions) : Sheds w w' := by
  refine ⟨hconfig, ?_⟩
  rw [hsessions]
  exact .refl hw

theorem sheds_closeSession (hw : w.sessions.Sound) {id : String} {a : SessionClosed}
    (hrun : Runs Unasked (closeSession id) w a w') : Sheds w w' := by
  simp only [closeSession, runs_bind, runs_atomically] at hrun
  obtain ⟨_, _, ⟨rfl, rfl⟩, hrun⟩ := hrun
  split at hrun
  · obtain ⟨-, rfl⟩ := hrun
    exact ⟨rfl, hw.sheds_remove id⟩
  · next key hkey =>
    obtain ⟨s, hs, rfl⟩ := Option.map_eq_some_iff.mp hkey
    simp only [runs_bind, runs_acquire, runs_update, runs_release, runs_pure] at hrun
    obtain ⟨_, _, rfl, _, _, rfl, _, _, rfl, -, rfl⟩ := hrun
    exact ⟨rfl, hw.sheds_remove_close hs none⟩

/-- Sessions that were found idle are gone, whatever else is in the table. -/
theorem closeIdle_outcome (hw : w.sessions.Sound) {ids : List String} {u : Unit}
    (hrun : Runs Unasked (closeIdle ids) w u w') :
    Sheds w w' ∧ ∀ id ∈ ids, w'.sessions.get? id = none := by
  induction ids generalizing w with
  | nil =>
    obtain ⟨-, rfl⟩ := hrun
    exact ⟨sheds_of_sessions hw rfl rfl, by simp⟩
  | cons id ids ih =>
    -- what closing the first one leaves, and then the others
    have hfirst : ∃ m, Runs Unasked (closeIdle ids) m u w' ∧ Sheds w m ∧
        m.sessions.get? id = none := by
      simp only [closeIdle, runs_bind, runs_atomically] at hrun
      obtain ⟨_, _, ⟨rfl, rfl⟩, hrun⟩ := hrun
      split at hrun
      · exact ⟨_, hrun, ⟨rfl, hw.sheds_remove id⟩, by simp [SessionTable.get?_remove]⟩
      · next key hkey =>
        obtain ⟨s, hs, rfl⟩ := Option.map_eq_some_iff.mp hkey
        simp only [runs_bind, runs_acquire, runs_update, runs_release] at hrun
        obtain ⟨_, _, rfl, _, _, rfl, _, _, rfl, hrun⟩ := hrun
        refine ⟨_, hrun, ⟨rfl, hw.sheds_remove_close hs _⟩, ?_⟩
        change ((w.sessions.remove id).modify s.key _).get? id = none
        rw [SessionTable.get?_modify _ _ (SessionTable.keeps_close _), SessionTable.get?_remove]
        simp
    obtain ⟨m, hrest, hm, hgone⟩ := hfirst
    obtain ⟨hsheds, hall⟩ := ih hm.sessions.sound hrest
    refine ⟨hm.trans hsheds, fun x hx => ?_⟩
    rcases List.mem_cons.mp hx with rfl | hx
    · exact hsheds.sessions.get?_eq_none hgone
    · exact hall x hx

theorem sweep_outcome (hw : w.sessions.Sound) {busy ids : List String}
    (hrun : Runs Unasked (sweep busy) w ids w') :
    Sheds w w' ∧ ∀ id ∈ ids, w'.sessions.get? id = none := by
  simp only [sweep, runs_bind, runs_read, runs_pure] at hrun
  obtain ⟨_, w, ⟨rfl, rfl⟩, _, _, hclose, rfl, rfl⟩ := hrun
  exact closeIdle_outcome hw hclose

variable [Scalar α]

theorem sheds_forward (hw : w.sessions.Sound) {id : String} {token : UInt64} {input : Tensor}
    {stageIds : List String} {result : Except ServiceError (Tensor × ExecutionReport α)}
    (hrun : Runs Unasked (forward id token input stageIds) w result w') : Sheds w w' := by
  cases forward_ending hrun with
  | invalid => exact sheds_of_sessions hw rfl rfl
  | unknown => exact sheds_of_sessions hw rfl rfl
  | unfit => exact sheds_of_sessions hw rfl rfl
  | failed hs _ hconfig hsessions =>
    refine ⟨hconfig, ?_⟩
    rw [hsessions]
    exact hw.sheds_close_remove hs _
  | passed _ _ hconfig hsessions =>
    refine ⟨hconfig, ?_⟩
    rw [hsessions]
    exact hw.sheds_recordForward _ token _

theorem sheds_executeForward (hw : w.sessions.Sound) {r : ExecuteForward}
    {result : Except Abort (ForwardResult α)} (hrun : Runs Unasked (executeForward r) w result w') :
    Sheds w w' := by
  simp only [executeForward, runs_bind] at hrun
  obtain ⟨_, m, hforward, hrun⟩ := hrun
  have hsheds := sheds_forward hw hforward
  split at hrun
  · exact hrun.2 ▸ hsheds
  · exact hrun.2 ▸ hsheds
  · simp only [runs_bind, runs_update, runs_pure] at hrun
    obtain ⟨_, _, rfl, -, rfl⟩ := hrun
    refine hsheds.trans (sheds_of_sessions hsheds.sessions.sound ?_ ?_) <;> split <;> rfl

theorem sheds_runStage (hw : w.sessions.Sound) {r : StageForward} {layers : List String}
    {result : Except Abort (StageForwarded α)}
    (hrun : Runs Unasked (runStage r layers) w result w') : Sheds w w' := by
  have hsame : w'.config = w.config ∧ w'.sessions = w.sessions := by
    unfold runStage at hrun
    split at hrun
    · exact hrun.2 ▸ ⟨rfl, rfl⟩
    · exact hrun.2 ▸ ⟨rfl, rfl⟩
    · simp only [runs_bind, runs_compute] at hrun
      obtain ⟨_, _, ⟨rfl, rfl⟩, hrun⟩ := hrun
      dsimp only at hrun
      split at hrun
      · exact hrun.2 ▸ ⟨rfl, rfl⟩
      · exact hrun.2 ▸ ⟨rfl, rfl⟩
      · simp only [runs_bind, runs_update, runs_read, runs_pure] at hrun
        obtain ⟨_, _, rfl, _, _, ⟨rfl, rfl⟩, _, _, rfl, -, rfl⟩ := hrun
        constructor <;> split <;> rfl
  exact sheds_of_sessions hw hsame.1 hsame.2

theorem sheds_stageForward (hw : w.sessions.Sound) {r : StageForward}
    {result : Except Abort (StageForwarded α)} (hrun : Runs Unasked (stageForward r) w result w') :
    Sheds w w' := by
  simp only [stageForward, runs_bind, runs_read] at hrun
  obtain ⟨_, w, ⟨-, rfl⟩, hrun⟩ := hrun
  split at hrun
  · exact sheds_runStage hw hrun
  · simp only [runs_bind, runs_acquire, runs_read, runs_release] at hrun
    obtain ⟨_, _, rfl, _, w, ⟨-, rfl⟩, _, _, rfl, hrun⟩ := hrun
    exact sheds_runStage hw hrun

/-- Only a request to open a session opens one. -/
theorem sheds_handle (hw : w.sessions.Sound) {request : Request α}
    {result : Except Abort (Response α)} (hrequest : ∀ r, request ≠ .createSession r)
    (hrun : Runs Unasked (handle request) w result w') : Sheds w w' := by
  simp only [handle, runs_bind, runs_update] at hrun
  obtain ⟨_, m, rfl, hrun⟩ := hrun
  have hcount : Sheds w w.countRequest := sheds_of_sessions hw rfl rfl
  refine hcount.trans ?_
  have hm := hcount.sessions.sound
  cases request with
  | createSession r => exact absurd rfl (hrequest r)
  | executeForward r =>
    obtain ⟨_, _, hforward, -, rfl⟩ := runs_bind.mp hrun
    exact sheds_executeForward hm hforward
  | closeSession r =>
    obtain ⟨_, _, hclose, -, rfl⟩ := runs_bind.mp hrun
    exact sheds_closeSession hm hclose
  | stageForward r =>
    obtain ⟨_, _, hforward, -, rfl⟩ := runs_bind.mp hrun
    exact sheds_stageForward hm hforward
  | ping r | reportCapabilities r | health =>
    obtain ⟨_, _, ⟨-, rfl⟩, -, rfl⟩ := runs_bind.mp hrun
    exact sheds_of_sessions hm rfl rfl
  | _ =>
    obtain ⟨-, rfl⟩ := hrun
    exact sheds_of_sessions hm rfl rfl

/-! ## Between two calls -/

/-- What holds of a worker between two calls. -/
structure Orderly (w : Worker α) : Prop where
  sound : w.sessions.Sound
  size : w.sessions.size ≤ w.config.maxSessions.toNat
  serving : ∀ s ∈ w.sessions.opened, s.state = .active ∧ ∃ b, s.stage = some b

omit [Scalar α] in
theorem Sheds.orderly (h : Sheds w w') (hw : w.Orderly) : w'.Orderly := by
  refine ⟨h.sessions.sound, ?_, fun s' hs' => ?_⟩
  · rw [h.config]
    exact h.sessions.size.trans hw.size
  · obtain ⟨s, hs, -, hstate, -, hstage⟩ := h.sessions.opened s' hs'
    rw [hstate, hstage]
    exact hw.serving s hs

theorem orderly_start (config : WorkerConfig α) (capability : Capability α) (backend : Backend α)
    (clock : Clock) (ids : IdSource) : (start config capability backend clock ids).Orderly :=
  ⟨SessionTable.sound_empty, Nat.zero_le _, by simp [start, SessionTable.empty]⟩

omit [Scalar α] in
theorem openSession_size {r : CreateSession} (h : (w.openSession r).1.2 = .ok ()) :
    w.sessions.size < w.config.maxSessions.toNat := by
  simp only [openSession] at h
  split at h
  · next hinsert => exact SessionTable.insertWithin_size hinsert
  · cases h
  · cases h

/-- A request for a session opens one under a new id, which the answer names, or none. -/
theorem createSession_added {r : CreateSession} {a : SessionCreated α}
    (hrun : Runs Unasked (createSession r) w a w') :
    w'.config = w.config ∧
      (w'.sessions = w.sessions ∨
        a.success = true ∧ a.sessionId = (w.newSession r).id ∧
        w.sessions.get? (w.newSession r).id = none ∧
        w.sessions.size < w.config.maxSessions.toNat ∧
        w'.sessions = w.sessions.add (w.newSession r)) := by
  simp only [createSession, runs_bind, runs_atomically, runs_read] at hrun
  obtain ⟨_, _, ⟨rfl, rfl⟩, info, m, ⟨rfl, rfl⟩, hrun⟩ := hrun
  have hname : (w.openSession r).1.1 = (w.newSession r).id := by
    simp only [openSession]
    split <;> rfl
  rcases w.openSession_cases r with ⟨e, hresult, heq⟩ | ⟨hresult, hnone, heq⟩
  · rw [hresult] at hrun
    obtain ⟨-, rfl⟩ := hrun
    rw [heq]
    exact ⟨rfl, .inl rfl⟩
  · have hsize := openSession_size hresult
    rw [hresult, hname] at hrun
    obtain ⟨rfl, rfl⟩ := hrun
    rw [heq]
    exact ⟨rfl, .inr ⟨rfl, rfl, hnone, hsize, rfl⟩⟩

theorem orderly_createSession (hw : w.Orderly) {r : CreateSession} {a : SessionCreated α}
    (hrun : Runs Unasked (createSession r) w a w') : w'.Orderly := by
  obtain ⟨hconfig, hsame | ⟨-, -, hnone, hsize, hadded⟩⟩ := createSession_added hrun
  · exact (sheds_of_sessions hw.sound hconfig hsame).orderly hw
  · refine ⟨hadded ▸ hw.sound.add hnone, ?_, ?_⟩
    · rw [hadded, hconfig, SessionTable.size, SessionTable.opened_add, List.length_append]
      exact hsize
    · rw [hadded, SessionTable.opened_add]
      intro s hs
      rw [List.mem_append, List.mem_singleton] at hs
      rcases hs with hs | rfl
      · exact hw.serving s hs
      · exact ⟨rfl, r.stage, rfl⟩

theorem absent_createSession {r : CreateSession} {a : SessionCreated α}
    (hrun : Runs Unasked (createSession r) w a w') {id : String}
    (hother : a.success = true → a.sessionId ≠ id) (hid : w.sessions.get? id = none) :
    w'.sessions.get? id = none := by
  obtain ⟨-, hsame | ⟨hsuccess, hname, hnone, -, hadded⟩⟩ := createSession_added hrun
  · rw [hsame]
    exact hid
  · rw [hadded, SessionTable.get?_add hnone, if_neg]
    · exact hid
    · exact fun heq => hother hsuccess (hname.trans heq.symm)

end Worker

/-- The id of the session that a request has opened, by the answer to it. -/
def openedBy : Except Abort (Response α) → Option String
  | .ok (.sessionCreated a) => if a.success then some a.sessionId else none
  | _ => none

theorem openedBy_eq_some {result : Except Abort (Response α)} {id : String}
    (h : openedBy result = some id) :
    ∃ a, result = .ok (.sessionCreated a) ∧ a.success = true ∧ a.sessionId = id := by
  unfold openedBy at h
  split at h
  · next a =>
    split at h
    · next hsuccess => exact ⟨a, rfl, hsuccess, Option.some.inj h⟩
    · cases h
  · cases h

namespace Worker

variable {w m w' : Worker α} [Scalar α]

/-- A complete call to a worker, one of its sweeps, or a time in which it only hands out reports;
and the id of the session that is opened. -/
inductive Turn (w : Worker α) : Option String → Worker α → Prop
  | serve {request : Request α} {result : Except Abort (Response α)} {w' : Worker α} :
      Runs Unasked (handle request) w result w' → Turn w (openedBy result) w'
  | sweep {busy ids : List String} {w' : Worker α} :
      Runs Unasked (sweep busy) w ids w' → Turn w none w'
  | drift (clock : Clock) (outbox : List (String × MetricsRecord α)) :
      Turn w none { w with clock, outbox }

theorem Turn.outcome {opened : Option String} (h : Turn w opened w') (hw : w.sessions.Sound) :
    Sheds w w' ∨ ∃ r a, opened = openedBy (.ok (.sessionCreated a) : Except Abort (Response α)) ∧
      Runs Unasked (createSession r) w.countRequest a w' := by
  cases h with
  | @serve request result _ hrun =>
    by_cases hcreate : ∃ r, request = .createSession r
    · obtain ⟨r, rfl⟩ := hcreate
      simp only [handle, runs_bind, runs_update, runs_pure] at hrun
      obtain ⟨_, _, rfl, a, _, hrun, rfl, rfl⟩ := hrun
      exact .inr ⟨r, a, rfl, hrun⟩
    · exact .inl (sheds_handle hw (fun r hr => hcreate ⟨r, hr⟩) hrun)
  | sweep hrun => exact .inl (sweep_outcome hw hrun).1
  | drift clock outbox => exact .inl (sheds_of_sessions hw rfl rfl)

theorem Turn.orderly {opened : Option String} (h : Turn w opened w') (hw : w.Orderly) :
    w'.Orderly := by
  rcases h.outcome hw.sound with hsheds | ⟨r, a, -, hrun⟩
  · exact hsheds.orderly hw
  · have hm : w.countRequest.Orderly := ⟨hw.sound, hw.size, hw.serving⟩
    exact orderly_createSession hm hrun

theorem Turn.absent {opened : Option String} (h : Turn w opened w') (hw : w.sessions.Sound)
    {id : String} (hopened : opened ≠ some id) (hid : w.sessions.get? id = none) :
    w'.sessions.get? id = none := by
  rcases h.outcome hw with hsheds | ⟨r, a, rfl, hrun⟩
  · exact hsheds.sessions.get?_eq_none hid
  · refine absent_createSession hrun (fun hsuccess hname => ?_) hid
    exact hopened (by simp [openedBy, hsuccess, hname])

/-- What can become of a worker since it was started, when it does one thing at a time. -/
inductive Attended : Worker α → Prop
  | start (config : WorkerConfig α) (capability : Capability α) (backend : Backend α) (clock : Clock)
      (ids : IdSource) : Attended (Worker.start config capability backend clock ids)
  | turn {w w' : Worker α} {opened : Option String} : Attended w → Turn w opened w' → Attended w'

theorem Attended.orderly (h : Attended w) : w.Orderly := by
  induction h with
  | start config capability backend clock ids => exact orderly_start ..
  | turn _ hturn ih => exact hturn.orderly ih

/-- What can become of a worker while no session with an id is opened. -/
inductive Unopened (id : String) (w : Worker α) : Worker α → Prop
  | refl : Unopened id w w
  | turn {m w' : Worker α} {opened : Option String} : Unopened id w m → Turn m opened w' →
      opened ≠ some id → Unopened id w w'

theorem Unopened.absent {id : String} (h : Unopened id w w') (hw : w.Orderly)
    (hid : w.sessions.get? id = none) : w'.sessions.get? id = none := by
  have hboth : w'.Orderly ∧ w'.sessions.get? id = none := by
    induction h with
    | refl => exact ⟨hw, hid⟩
    | turn _ hturn hopened ih =>
      exact ⟨hturn.orderly ih.1, hturn.absent ih.1.sound hopened ih.2⟩
  exact hboth.2

/-- The ways in which a worker loses a session: a request to close it, a sweep, and a failure of the
engine. -/
inductive Loses (id : String) (w : Worker α) : Worker α → Prop
  | closed {result : Except Abort (Response α)} {w' : Worker α} :
      Runs Unasked (handle (.closeSession ⟨id⟩)) w result w' → Loses id w w'
  | swept {busy ids : List String} {w' : Worker α} : Runs Unasked (sweep busy) w ids w' → id ∈ ids →
      Loses id w w'
  | failed {r : ExecuteForward} {result : Except Abort (Response α)} {w' : Worker α} :
      r.sessionId = id → w.engineFails id r.input r.stageIds = true →
      Runs Unasked (handle (.executeForward r)) w result w' → Loses id w w'

/-- Losing a session is a turn. -/
theorem Loses.turn {id : String} (h : Loses id w w') : ∃ opened, Turn w opened w' := by
  cases h with
  | closed hrun => exact ⟨_, .serve hrun⟩
  | swept hrun => exact ⟨_, .sweep hrun⟩
  | failed _ _ hrun => exact ⟨_, .serve hrun⟩

theorem Loses.absent {id : String} (h : Loses id w w') (hw : w.Orderly) :
    w'.sessions.get? id = none := by
  cases h with
  | closed hrun =>
    obtain ⟨a, -, hclose⟩ := runs_handle_closeSession hrun
    rw [SessionTable.get?_eq_none_iff, closeSession_opened (w := w.countRequest) hw.sound hclose]
    intro s hs
    simpa using (List.mem_filter.mp hs).2
  | swept hrun hid => exact (sweep_outcome hw.sound hrun).2 id hid
  | @failed r _ _ heq hfails hrun =>
    subst heq
    simp only [handle, runs_bind, runs_update, runs_pure] at hrun
    obtain ⟨_, _, rfl, _, _, hrun, -, rfl⟩ := hrun
    simp only [executeForward, runs_bind] at hrun
    obtain ⟨result, m, hforward, hrun⟩ := hrun
    have hfails : w.countRequest.engineFails r.sessionId r.input r.stageIds = true := hfails
    have houtcome := forward_outcome hforward
    have hgone : m.sessions.get? r.sessionId = none := by
      have hcontains := houtcome.contains
      rw [hfails, SessionTable.contains_eq_isSome] at hcontains
      simpa using hcontains
    split at hrun
    · exact hrun.2 ▸ hgone
    · exact hrun.2 ▸ hgone
    · cases hfails.symm.trans houtcome.engineFails_of_ok

end Worker

/-! ## Forward passes -/

/-- The complaints of a session that is not fit for a forward pass. -/
inductive ServiceError.IsLapse : ServiceError → Prop
  | closed (id : String) : IsLapse (.sessionClosed id)
  | transition (source target : String) : IsLapse (.invalidTransition source target)
  | noPlan : IsLapse .noPlan
  | unbound (id : String) : IsLapse (.session ("session " ++ id ++ " has no stage bound"))

theorem ServiceError.not_isLapse_ofData (err : DataError) : ¬(ServiceError.ofData err).IsLapse := by
  cases err <;> rintro ⟨⟩

namespace Worker

variable {w w' : Worker α}

theorem Orderly.stageToRun (hw : w.Orderly) {id : String} {s : Session α}
    (hs : w.sessions.get? id = some s) {stageIds : List String} {err : ServiceError}
    (h : w.stageToRun s.key id stageIds = .error err) : ¬err.IsLapse := by
  obtain ⟨hactive, b, hstage⟩ := hw.serving s (SessionTable.get?_eq_some hs).1
  simp only [Worker.stageToRun, hw.sound.session?_of_get? hs, Session.ensureActive, hactive,
    hstage] at h
  split at h
  · cases h
  · cases h
    rintro ⟨⟩

variable [Scalar α]

/-- A pass on a worker in order complains about its session only if the engine says so. -/
theorem Orderly.forward (hw : w.Orderly) {id : String} {token : UInt64} {input : Tensor}
    {stageIds : List String} {err : ServiceError} (herr : err.IsLapse)
    (hrun : Runs Unasked (forward id token input stageIds) w (.error err) w') :
    w.engineAnswer? id input stageIds = some (.error err) := by
  generalize hresult : Except.error err = result at hrun
  cases forward_ending hrun with
  | invalid =>
    cases hresult
    exact absurd herr (ServiceError.not_isLapse_ofData _)
  | unknown =>
    cases hresult
    cases herr
  | unfit hs hstage =>
    cases hresult
    exact absurd herr (hw.stageToRun hs hstage)
  | failed _ hanswer =>
    cases hresult
    exact hanswer
  | passed => cases hresult

/-- What a worker keeps to, one call at a time. -/
structure Tidy (w : Worker α) : Prop where
  size : w.sessions.size ≤ w.config.maxSessions.toNat
  serving : ∀ s ∈ w.sessions.opened,
    w.sessions.get? s.id = some s ∧ s.state = .active ∧ ∃ b, s.stage = some b
  /-- What is wrong with the session of a pass is what the engine has answered to the pass. -/
  forward : ∀ {id token input stageIds err w'},
    Runs Unasked (Worker.forward id token input stageIds) w (.error err) w' → err.IsLapse →
      w.engineAnswer? id input stageIds = some (.error err)
  absent : ∀ {id w'}, w.sessions.get? id = none → Unopened id w w' → w'.sessions.get? id = none
  lost : ∀ {id m w'}, Loses id w m → Unopened id m w' → w'.sessions.get? id = none

theorem Orderly.tidy (hw : w.Orderly) : w.Tidy where
  size := hw.size
  serving s hs := ⟨hw.sound.get?_of_mem hs, hw.serving s hs⟩
  forward hrun herr := hw.forward herr hrun
  absent hid hrun := hrun.absent hw hid
  lost hloses hrun := by
    obtain ⟨_, hturn⟩ := hloses.turn
    exact hrun.absent (hturn.orderly hw) (hloses.absent hw)

end Worker

end LayerPipeline
