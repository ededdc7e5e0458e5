import LayerPipeline.Proofs.Service.Exchange

/-!
# One stage on its worker

A stage that is set up binds its session on one worker, and a stage that runs calls the engine of
one worker once. Both leave all other workers alone, whether the worker is the one inside the
coordinator or one that is reached at an address.
-/

namespace LayerPipeline

open Procedure

variable {α : Type}

/-- The place where a coordinator runs a stage. -/
def Coordinator.placeOf? (c : Coordinator α) (s : Stage α) : Option Place :=
  if c.isLocal s then some .here else s.node.address.map .there

/-- The session is bound to the stage and its layers. -/
def Session.Serves (t : Session α) (s : Stage α) : Prop :=
  ∃ stage, t.stage = some stage ∧ stage.stageId = toString s.stageId ∧
    stage.stageIndex = s.stageId.toUInt32 ∧ t.layerNames = s.layers

theorem Coordinator.stageOpened_eq_ok {s : Stage α} {a : SessionCreated α}
    (h : stageOpened s a = .ok ()) : a.success = true := by
  unfold stageOpened at h
  split at h
  · assumption
  · cases h

theorem Coordinator.stageOutput_eq_ok {s : Stage α} {a : ForwardResult α} {output : Tensor}
    (h : stageOutput s a = .ok output) : a.success = true ∧ a.output = some output := by
  unfold stageOutput at h
  split at h
  · next hsuccess =>
    split at h
    · cases h
    · next out hout =>
      split at h
      · cases h
      · exact ⟨hsuccess, Except.ok.inj h ▸ hout⟩
  · cases h

namespace Network

/-- The worker at a place becomes `w'`, and the others stay as they are. -/
structure Visits (n n' : Network α) (place : Place) (w w' : Worker α) : Prop where
  before : n.worker? place = some w
  after : n'.worker? place = some w'
  others : ∀ other, other ≠ place → n'.worker? other = n.worker? other

variable {n n' : Network α}

theorem Visits.congr {m : Network α} {place : Place} {w w' : Worker α}
    (h : Visits n m place w w') (hsame : ∀ place, n'.worker? place = m.worker? place) :
    Visits n n' place w w' :=
  ⟨h.before, (hsame place).trans h.after, fun other hne => (hsame other).trans (h.others other hne)⟩

theorem visits_setEmbedded (n : Network α) (w : Worker α) :
    Visits n (n.setEmbedded w) .here n.coordinator.embedded w := by
  refine ⟨rfl, rfl, fun other hother => ?_⟩
  cases other with
  | here => exact absurd rfl hother
  | there address => rfl

theorem worker?_of_peer? (hn : (n.peers.map (·.address)).Nodup) {address : String} {p : Peer α}
    (hp : n.peer? address = some p) :
    n.peers.find? (fun p => p.address = address) = some p ∧ p.listening = true := by
  have hfound := List.find?_some hp
  simp only [Bool.and_eq_true, decide_eq_true_eq] at hfound
  exact ⟨(SessionTable.find?_label_iff hn).mpr ⟨List.mem_of_find?_eq_some hp, hfound.2⟩, hfound.1⟩

theorem visits_setWorker (hn : (n.peers.map (·.address)).Nodup) {address : String} {p : Peer α}
    (hp : n.peer? address = some p) (w : Worker α) :
    Visits n (n.setWorker address w) (.there address) p.worker w := by
  obtain ⟨hfound, hlistening⟩ := worker?_of_peer? hn hp
  have haddress : p.address = address := by simpa using List.find?_some hfound
  refine ⟨by simp [worker?, hfound], ?_, fun other hother => ?_⟩
  · rw [worker?_setWorker]
    simp [hfound, hlistening, haddress]
  · rw [worker?_setWorker]
    cases other with
    | here => rfl
    | there other =>
      have hne : other ≠ address := fun h => hother (h ▸ rfl)
      cases hcase : n.peers.find? fun p => p.address = other with
      | none => simp [worker?, hcase]
      | some q =>
        have hq : q.address = other := by simpa using List.find?_some hcase
        simp [worker?, hcase, hq, hne]

section Runs

variable [Scalar α] {e : Encoding α} {describe : Response α → String} {s : Stage α}

/-- A worker that has opened a session for a stage request serves the stage. -/
theorem serves_of_success {id : String} (hid : id.isEmpty = false) {r : CreateSession}
    {a : SessionCreated α} (ha : a.success = true) {w w' : Worker α}
    (hrun : Runs Worker.Unasked (Worker.createSession (Coordinator.stageRequest s id r)) w a w') :
    w.sessions.get? id = none ∧ ∃ t, w'.sessions.get? id = some t ∧ t.Serves s := by
  obtain ⟨hnone, t, ht, hstage, hlayers⟩ := Worker.createSession_success hrun ha hid
  exact ⟨hnone, t, ht, _, hstage, rfl, rfl, hlayers⟩

/-- A stage that was set up is bound to the session on its worker, where the id was not in use. -/
theorem openStage_success (hn : (n.peers.map (·.address)).Nodup) {id : String}
    (hid : id.isEmpty = false) {r : CreateSession}
    (hrun : Runs (Exchanged e) (ofCoordinator (Coordinator.openStage describe s id r)) n
      (.ok ()) n') :
    ∃ place w w', n.coordinator.placeOf? s = some place ∧ Visits n n' place w w' ∧
      w.sessions.get? id = none ∧ ∃ t, w'.sessions.get? id = some t ∧ t.Serves s := by
  simp only [Coordinator.openStage, ofCoordinator_bind, runs_bind, runs_ofCoordinator_read] at hrun
  obtain ⟨_, n, ⟨rfl, rfl⟩, hrun⟩ := hrun
  split at hrun
  · next hlocal =>
    rw [ofCoordinator_bind, runs_bind] at hrun
    obtain ⟨a, m, hcreate, hopened, rfl⟩ := hrun
    obtain ⟨w, hbind, rfl⟩ := runs_onEmbedded hcreate
    have hserves := serves_of_success hid (Coordinator.stageOpened_eq_ok hopened.symm) hbind
    exact ⟨.here, _, w, if_pos hlocal, visits_setEmbedded n w, hserves⟩
  · next hremote =>
    simp only [ofCoordinator_bind, runs_bind, runs_ofCoordinator_read] at hrun
    obtain ⟨config, n, ⟨-, rfl⟩, hrun⟩ := hrun
    split at hrun
    · cases hrun.1
    · next way hway =>
      obtain ⟨address, haddress, rfl⟩ := Coordinator.channelTo_eq_ok describe hway
      rw [ofCoordinator_bind, runs_bind] at hrun
      obtain ⟨answer, m, hcall, hrun⟩ := hrun
      split at hrun
      · cases hrun.1
      · next a =>
        obtain ⟨hopened, rfl⟩ := hrun
        have hsuccess := Coordinator.stageOpened_eq_ok hopened.symm
        obtain ⟨p, w, hp, hcreate, rfl⟩ := runs_createSession_ok hcall hsuccess
        have hserves := serves_of_success hid hsuccess hcreate
        refine ⟨.there address, p.worker, w, ?_, visits_setWorker hn hp w, hserves⟩
        simp [Coordinator.placeOf?, hremote, haddress]

/-- A stage that has run was one call of the engine of its worker, for the stage and the layers that
the session is bound to there. -/
theorem runStage_success (hn : (n.peers.map (·.address)).Nodup)
    (hsound : ∀ place w, n.worker? place = some w → w.sessions.Sound) {r : ExecuteForward}
    {input output : Tensor} {report : ExecutionReport α}
    (hrun : Runs (Exchanged e) (ofCoordinator (Coordinator.runStage describe s r input)) n
      (.ok (output, report)) n') :
    ∃ place w w' t stage, n.coordinator.placeOf? s = some place ∧ Visits n n' place w w' ∧
      w.sessions.get? r.sessionId = some t ∧ t.stage = some stage ∧
      w.engine.compute stage.stageId t.layerNames input = .ok output ∧
      w'.calls = w.calls ++ [⟨stage.stageId, t.layerNames, input⟩] ∧
      report.stageIndex = stage.stageIndex ∧
      n'.coordinator.metrics = n.coordinator.metrics := by
  simp only [Coordinator.runStage, ofCoordinator_bind, runs_bind, runs_ofCoordinator_read] at hrun
  obtain ⟨_, n, ⟨rfl, rfl⟩, hrun⟩ := hrun
  split at hrun
  · next hlocal =>
    obtain ⟨w, hforward, rfl⟩ := runs_onEmbedded hrun
    obtain ⟨t, stage, ht, hstage, hcompute, hcalls, hindex⟩ :=
      Worker.forward_success (hsound .here _ rfl) hforward
    exact ⟨.here, _, w, t, stage, if_pos hlocal, visits_setEmbedded n w, ht, hstage, hcompute,
      hcalls, hindex, rfl⟩
  · next hremote =>
    simp only [ofCoordinator_bind, runs_bind, runs_ofCoordinator_read] at hrun
    obtain ⟨config, n, ⟨-, rfl⟩, hrun⟩ := hrun
    split at hrun
    · cases hrun.1
    · next way hway =>
      obtain ⟨address, haddress, rfl⟩ := Coordinator.channelTo_eq_ok describe hway
      rw [ofCoordinator_bind, runs_bind] at hrun
      obtain ⟨answer, m, hcall, hrun⟩ := hrun
      split at hrun
      · cases hrun.1
      · next a =>
        split at hrun
        · cases hrun.1
        · next out hout =>
          simp only [ofCoordinator_bind, ofCoordinator_pure, runs_bind, runs_ofCoordinator_read,
            runs_ofCoordinator_update, runs_pure] at hrun
          obtain ⟨overheadMs, _, ⟨-, rfl⟩, _, _, rfl, hresult, rfl⟩ := hrun
          obtain ⟨rfl, rfl⟩ := Prod.mk.inj (Except.ok.inj hresult)
          obtain ⟨hsuccess, houtput⟩ := Coordinator.stageOutput_eq_ok hout
          obtain ⟨p, w, hp, hforward, rfl⟩ := runs_executeForward_ok hcall
          have hvisit := visits_setWorker hn hp w
          have hsessions := hsound _ p.worker hvisit.before
          obtain ⟨t, stage, ht, hstage, hcompute, hcalls, hindex⟩ :=
            Worker.executeForward_success (w := p.worker.countRequest) hsessions hforward hsuccess
              houtput
          refine ⟨.there address, p.worker, w, t, stage, ?_, hvisit.congr ?_, ht, hstage, hcompute,
            hcalls, hindex, rfl⟩
          · simp [Coordinator.placeOf?, hremote, haddress]
          · exact worker?_setCoordinator rfl

end Runs

end Network

end LayerPipeline
