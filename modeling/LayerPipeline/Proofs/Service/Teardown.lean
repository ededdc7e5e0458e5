import LayerPipeline.Proofs.Service.Composition
import LayerPipeline.Proofs.Service.WorkerTable

/-!
# Taking stages down

A worker that serves a request to close a session has no session with that id afterwards, and all
other sessions are as before. Which stages are taken down is thus a question of which requests are
served.
-/

namespace LayerPipeline

open Procedure

variable {α : Type}

theorem Worker.runs_handle_closeSession [Scalar α] {w w' : Worker α} {r : CloseSession}
    {result : Except Abort (Response α)}
    (hrun : Runs Unasked (handle (.closeSession r)) w result w') :
    ∃ a, result = .ok (.sessionClosed a) ∧
      Runs Unasked (closeSession r.sessionId) w.countRequest a w' := by
  simp only [handle, runs_bind, runs_update, runs_pure] at hrun
  obtain ⟨_, _, rfl, a, _, hclose, rfl, rfl⟩ := hrun
  exact ⟨a, rfl, hclose⟩

theorem Coordinator.placeOf?_eq_none {c : Coordinator α} {s : Stage α}
    {describe : Response α → String} {config : LinkConfig} {err : ServiceError}
    (hremote : ¬ c.isLocal s = true) (h : channelTo describe config s = .error err) :
    c.placeOf? s = none := by
  unfold channelTo at h
  split at h
  · cases h
  · next hnone => simp [placeOf?, hremote, hnone]

namespace Network

variable {n n' : Network α} {id : String} {s : Stage α}

/-- Tables stay in order whatever workers are bound to. -/
theorem Consistent.unbound {free : String → Prop} (hn : n.Consistent free) :
    n.Consistent fun _ => True :=
  { hn with bound := fun _ _ hid => absurd trivial hid }

/-- The open sessions of the worker at a place. -/
def openedAt (n : Network α) (place : Place) : Option (List (Session α)) :=
  (n.worker? place).map (·.sessions.opened)

theorem Visits.openedAt_before {place : Place} {w w' : Worker α} (h : Visits n n' place w w') :
    n.openedAt place = some w.sessions.opened := by
  rw [openedAt, h.before, Option.map_some]

theorem Visits.openedAt_eq {place : Place} {w w' : Worker α} (h : Visits n n' place w w')
    (other : Place) : n'.openedAt other =
      if other = place then some w'.sessions.opened else n.openedAt other := by
  unfold openedAt
  split
  · next heq => rw [heq, h.after, Option.map_some]
  · next hne => rw [h.others other hne]

theorem Visits.openedAt_same {place : Place} {w w' : Worker α} (h : Visits n n' place w w')
    (hsame : w'.sessions.opened = w.sessions.opened) (other : Place) :
    n'.openedAt other = n.openedAt other := by
  rw [h.openedAt_eq]
  split
  · next heq => rw [heq, h.openedAt_before, hsame]
  · rfl

theorem openedAt_setCoordinator {c : Coordinator α} (h : c.embedded = n.coordinator.embedded)
    (place : Place) : (n.setCoordinator c).openedAt place = n.openedAt place :=
  congrArg (Option.map _) (worker?_setCoordinator h place)

variable {E : Answers (Network α) (Call α) (Except LinkError (Response α))}

/-- The call that takes a stage down. -/
def closing (n : Network α) (address id : String) : Call α :=
  ⟨n.coordinator.config.link, address, .closeSession ⟨id⟩⟩

/-- How a stage is taken down. -/
inductive CloseStageOutcome (E : Answers (Network α) (Call α) (Except LinkError (Response α)))
    (id : String) (s : Stage α) (n : Network α) : Network α → Prop
  | inside {a : SessionClosed} {w : Worker α} : n.coordinator.placeOf? s = some .here →
      Runs Worker.Unasked (Worker.closeSession id) n.coordinator.embedded a w →
      CloseStageOutcome E id s n (n.setEmbedded w)
  | nowhere : n.coordinator.placeOf? s = none → CloseStageOutcome E id s n n
  | called {address : String} {answer : Except LinkError (Response α)} {n' : Network α} :
      n.coordinator.placeOf? s = some (.there address) →
      E (n.closing address id) n answer n' → CloseStageOutcome E id s n n'

theorem closeStage_outcome {describe : Response α → String} (hE : ∀ config address n err n',
      E ⟨config, address, .closeSession ⟨id⟩⟩ n (.error err) n' → err.isRetryable = true → n' = n)
    {u : Unit} (hrun : Runs E (ofCoordinator (Coordinator.closeStage describe id s)) n u n') :
    CloseStageOutcome E id s n n' := by
  simp only [Coordinator.closeStage, ofCoordinator_bind, runs_bind, runs_ofCoordinator_read] at hrun
  obtain ⟨_, n, ⟨rfl, rfl⟩, hrun⟩ := hrun
  split at hrun
  · next hlocal =>
    rw [ofCoordinator_bind, runs_bind] at hrun
    obtain ⟨a, m, hclose, -, rfl⟩ := hrun
    obtain ⟨w, hworker, rfl⟩ := runs_onEmbedded hclose
    exact .inside (if_pos hlocal) hworker
  · next hremote =>
    simp only [ofCoordinator_bind, runs_bind, runs_ofCoordinator_read] at hrun
    obtain ⟨config, n, ⟨rfl, rfl⟩, hrun⟩ := hrun
    split at hrun
    · next err hway =>
      obtain ⟨-, rfl⟩ := hrun
      exact .nowhere (Coordinator.placeOf?_eq_none hremote hway)
    · next way hway =>
      obtain ⟨address, haddress, rfl⟩ := Coordinator.channelTo_eq_ok describe hway
      rw [ofCoordinator_bind, runs_bind] at hrun
      obtain ⟨_, m, hcall, -, rfl⟩ := hrun
      rw [Channel.closeSession, ofCoordinator_bind, runs_bind] at hcall
      obtain ⟨answer, k, hattempts, -, rfl⟩ := hcall
      have hplace : n.coordinator.placeOf? s = some (.there address) := by
        simp [Coordinator.placeOf?, hremote, haddress]
      exact .called hplace (runs_retrying (hE _ address) hattempts)

variable [Scalar α] {e : Encoding α}

/-- The worker at the address of a call has served it. -/
def Served (q : Call α) (n n' : Network α) : Prop :=
  ∃ p response w, n.peer? q.address = some p ∧
    Runs Worker.Unasked (Worker.handle q.request) p.worker (.ok response) w ∧
    n' = n.setWorker q.address w

theorem Exchanged.unretried (config : LinkConfig) (address id : String) (n : Network α)
    (err : LinkError) (n' : Network α)
    (h : Exchanged e ⟨config, address, .closeSession ⟨id⟩⟩ n (.error err) n')
    (herr : err.isRetryable = true) : n' = n := by
  have houtcome := h.outcome
  generalize hresult : Except.error err = result at houtcome
  cases houtcome with
  | unsent err => rfl
  | unread reason =>
    rw [receive_isRetryable hresult.symm] at herr
    cases herr
  | served _ _ _ _ hrun =>
    obtain ⟨a, rfl, -⟩ := Worker.runs_handle_closeSession (Worker.runs_of_run hrun)
    rw [receive_isRetryable hresult.symm] at herr
    cases herr
  | echo _ _ =>
    rw [receive_isRetryable hresult.symm] at herr
    cases herr
  | stuck =>
    cases hresult
    cases herr

/-- Where the request is served, the sessions with the id are gone. -/
theorem CloseStageOutcome.visits (h : CloseStageOutcome E id s n n')
    (haddresses : (n.peers.map (·.address)).Nodup)
    (hsound : ∀ place w, n.worker? place = some w → w.sessions.Sound)
    {place : Place} (hplace : n.coordinator.placeOf? s = some place)
    (hserved : ∀ address answer, place = .there address → E (n.closing address id) n answer n' →
      Served (n.closing address id) n n') :
    ∃ w w', Visits n n' place w w' ∧
      w'.sessions.opened = w.sessions.opened.filter fun x => x.id ≠ id := by
  cases h with
  | inside hhere hclose =>
    cases hhere.symm.trans hplace
    exact ⟨_, _, visits_setEmbedded n _,
      Worker.closeSession_opened (hsound .here _ rfl) hclose⟩
  | nowhere hnone => cases hnone.symm.trans hplace
  | called hthere hanswer =>
    cases hthere.symm.trans hplace
    obtain ⟨p, response, w, hp, hhandle, rfl⟩ := hserved _ _ rfl hanswer
    have hvisit := visits_setWorker haddresses hp w
    obtain ⟨a, -, hclose⟩ := Worker.runs_handle_closeSession hhandle
    have hsessions : p.worker.countRequest.sessions.Sound := hsound _ p.worker hvisit.before
    exact ⟨p.worker, w, hvisit, Worker.closeSession_opened hsessions hclose⟩

end Network

end LayerPipeline
