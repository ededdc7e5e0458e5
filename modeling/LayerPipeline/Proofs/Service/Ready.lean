import LayerPipeline.Proofs.Service.Balance
import LayerPipeline.Proofs.Service.Calls
import LayerPipeline.Proofs.Service.ReleaseOnce

/-!
# Sessions between two calls

Whatever a coordinator is asked one call at a time, and whatever other nodes answer it, between two
calls every open session is active and has a plan.
-/

namespace LayerPipeline

open Procedure

variable {α : Type}

/-- A table in order whose open sessions are all active and have a plan. -/
structure SessionTable.Ready (t : SessionTable α) : Prop where
  sound : t.Sound
  active : ∀ s ∈ t.opened, s.state = .active ∧ ∃ p, s.plan = some p

namespace SessionTable

variable {t m t' : SessionTable α}

/-! ## Tables that lose sessions -/

/-- Sessions may leave the table, and those that stay are what they were, their figures apart. -/
structure Sheds (t t' : SessionTable α) : Prop where
  sound : t'.Sound
  size : t'.size ≤ t.size
  opened : ∀ s' ∈ t'.opened, ∃ s ∈ t.opened,
    s'.id = s.id ∧ s'.state = s.state ∧ s'.plan = s.plan ∧ s'.stage = s.stage

theorem sheds_of_sublist (hsound : t'.Sound) (hopened : t'.opened.Sublist t.opened) :
    Sheds t t' :=
  ⟨hsound, hopened.length_le, fun s hs => ⟨s, hopened.subset hs, rfl, rfl, rfl, rfl⟩⟩

theorem Sheds.refl (ht : t.Sound) : Sheds t t := sheds_of_sublist ht (.refl _)

theorem Sheds.trans (h : Sheds t m) (h' : Sheds m t') : Sheds t t' := by
  refine ⟨h'.sound, h'.size.trans h.size, fun s' hs' => ?_⟩
  obtain ⟨x, hx, hid, hstate, hplan, hstage⟩ := h'.opened s' hs'
  obtain ⟨s, hs, hid', hstate', hplan', hstage'⟩ := h.opened x hx
  exact ⟨s, hs, hid.trans hid', hstate.trans hstate', hplan.trans hplan', hstage.trans hstage'⟩

theorem Sound.sheds_remove (ht : t.Sound) (id : String) : Sheds t (t.remove id) :=
  sheds_of_sublist (ht.remove id) List.filter_sublist

theorem Sound.sheds_remove_close (ht : t.Sound) {id : String} {s : Session α}
    (hs : t.get? id = some s) (reason : Option String) :
    Sheds t ((t.remove id).modify s.key fun x => x.close reason) := by
  refine sheds_of_sublist ((ht.remove id).modify s.key (keeps_close reason)) ?_
  rw [ht.opened_remove_modify hs]
  exact List.filter_sublist

theorem Sound.sheds_close_remove (ht : t.Sound) {id : String} {s : Session α}
    (hs : t.get? id = some s) (reason : Option String) :
    Sheds t ((t.modify s.key fun x => x.close reason).remove id) := by
  refine sheds_of_sublist ((ht.modify s.key (keeps_close reason)).remove id) ?_
  rw [ht.opened_modify_remove hs (keeps_close reason)]
  exact List.filter_sublist

theorem Sound.sheds_add_close_remove (ht : t.Sound) {s : Session α} (hid : t.get? s.id = none)
    (reason : Option String) :
    Sheds t (((t.add s).modify t.nextKey fun x => x.close reason).remove s.id) := by
  have hkeeps := keeps_close (α := α) reason
  refine sheds_of_sublist (((ht.add hid).modify _ hkeeps).remove _) ?_
  rw [ht.opened_add_modify_remove hid hkeeps]

theorem Sound.sheds_recordForward (ht : t.Sound) (key : Nat) (token : UInt64) (now : Nat) :
    Sheds t (t.modify key fun x => x.recordForward token now) := by
  refine ⟨ht.modify key (keeps_recordForward token now), ?_, fun s' hs' => ?_⟩
  · simp [size, opened_modify]
  · rw [opened_modify, List.mem_map] at hs'
    obtain ⟨s, hs, rfl⟩ := hs'
    refine ⟨s, hs, (keeps_change (keeps_recordForward token now) key s).2, ?_⟩
    by_cases hkey : s.key = key <;> simp [change, hkey, Session.recordForward]

theorem Sheds.get?_eq_none (h : Sheds t t') {id : String} (hid : t.get? id = none) :
    t'.get? id = none := by
  rw [get?_eq_none_iff] at hid ⊢
  intro s' hs'
  obtain ⟨s, hs, heq, -⟩ := h.opened s' hs'
  exact heq ▸ hid s hs

theorem Sheds.ready (h : Sheds t t') (ht : t.Ready) : t'.Ready := by
  refine ⟨h.sound, fun s' hs' => ?_⟩
  obtain ⟨s, hs, -, hstate, hplan, -⟩ := h.opened s' hs'
  rw [hstate, hplan]
  exact ht.active s hs

theorem Ready.add_activate (ht : t.Ready) {s : Session α} (hid : t.get? s.id = none) {p : Plan α}
    (hplan : s.plan = some p) (now : Nat) :
    ((t.add s).modify t.nextKey (Coordinator.activated now)).Ready := by
  refine ⟨(ht.sound.add hid).modify _ fun _ => ⟨rfl, rfl⟩, fun x hx => ?_⟩
  rw [ht.sound.opened_add_modify, List.mem_append, List.mem_singleton] at hx
  rcases hx with hx | rfl
  · exact ht.active x hx
  · exact ⟨rfl, p, hplan⟩

end SessionTable

theorem Coordinator.sessions_noteFailure (id : String) (err : ServiceError) (c : Coordinator α) :
    (c.noteFailure id err).sessions = c.sessions := by
  unfold noteFailure
  split <;> rfl

/-- Requests that open, run or close a session. -/
def Request.isOnSession : Request α → Bool
  | .createSession _ | .executeForward _ | .closeSession _ => true
  | _ => false

theorem Coordinator.quiet_handle [Scalar α] (describe : Response α → String) {request : Request α}
    (h : request.isOnSession = false) : Quiet (handle describe request) := by
  by_cases hcalm : request.isCalm = true
  · exact (calm_handle describe hcalm).quiet
  refine Confined.bind (calm_update undisturbed_countRequest).quiet fun _ => ?_
  cases request with
  | generatePlan r => exact Confined.bind (quiet_atomically (unnoticed_planResult r)) fun _ => trivial
  | registerWorker d =>
    refine Confined.bind (quiet_registerWorker describe d) fun result => ?_
    rcases result with e | a
    · cases e <;> trivial
    · trivial
  | heartbeat beat =>
    exact Confined.bind (quiet_atomically (unnoticed_heartbeat beat)) fun _ => trivial
  | createSession r => cases h
  | executeForward r => cases h
  | closeSession r => cases h
  | _ => exact absurd rfl hcalm

namespace Network

variable {describe : Response α → String} {n n' : Network α}

theorem sessions_of_quiet {β : Type} {p : Coordinator.Action α β} {b : β}
    (hp : Coordinator.Quiet p) (hrun : Runs Answered (ofCoordinator p) n b n') :
    n'.coordinator.sessions = n.coordinator.sessions := by
  have hunnoticed : Coordinator.Unnoticed n.coordinator n'.coordinator := by
    refine Confined.runs (fun _ => ⟨rfl, rfl⟩) (fun h h' => ?_) ?_ hp (runs_answered hrun)
    · exact ⟨h'.1.trans h.1, h'.2.trans h.2⟩
    · rintro q c a c' - (rfl | rfl) <;> exact ⟨rfl, rfl⟩
  exact hunnoticed.1

variable [Scalar α]

theorem ready_createSession (hn : n.coordinator.sessions.Ready) {r : CreateSession}
    {result : Except ServiceError String}
    (hrun : Runs Answered (ofCoordinator (Coordinator.createSession describe r)) n result n') :
    n'.coordinator.sessions.Ready := by
  have hopening : ∀ {p : Plan α} {outcome} {m : Network α},
      Runs Answered (ofCoordinator (Coordinator.openStages describe
        (n.coordinator.newSession r p).id r [] p.stages))
        (n.setCoordinator (n.coordinator.entered r p)) outcome m →
      m.coordinator.sessions = n.coordinator.sessions.add (n.coordinator.newSession r p) :=
    sessions_of_quiet (Coordinator.calm_openStages describe (fun _ => trivial) r [] _).quiet
  cases createSession_outcome (fun _ _ _ _ h => h) hn.sound hrun with
  | noPlan => exact hn
  | refused _ heq => exact heq ▸ hn
  | @undone p s err opened m _ _ hid hopen hclose =>
    rw [sessions_of_quiet (Coordinator.calm_closeStages describe _ _).quiet hclose]
    have hready := (hn.sound.sheds_add_close_remove hid (some err.message)).ready hn
    rw [← hopening hopen, ← Coordinator.sessions_noteFailure s.node.nodeId err] at hready
    exact hready
  | opened _ hid hopen =>
    have hready := hn.add_activate hid rfl
    rw [← hopening hopen] at hready
    exact hready _

theorem ready_closeSession (hn : n.coordinator.sessions.Ready) {id : String}
    {reason : Option String} {result : SessionClosed}
    (hrun : Runs Answered (ofCoordinator (Coordinator.closeSession describe id reason)) n result
      n') : n'.coordinator.sessions.Ready := by
  cases closeSession_outcome hrun with
  | absent => exact (hn.sound.sheds_remove id).ready hn
  | taken hs hsessions hclose =>
    rw [sessions_of_quiet (Coordinator.calm_closeStages describe _ _).quiet hclose]
    exact hsessions ▸ (hn.sound.sheds_remove_close hs _).ready hn

theorem ready_executeForward (hn : n.coordinator.sessions.Ready) {r : ExecuteForward}
    {result : Except ServiceError (Tensor × ExecutionReport α)}
    (hrun : Runs Answered (ofCoordinator (Coordinator.executeForward describe r)) n result n') :
    n'.coordinator.sessions.Ready := by
  have hrunning : ∀ {stages : List (Stage α)} {outcome} {m : Network α},
      Runs Answered (ofCoordinator (Coordinator.runStages describe r stages r.input .start)) n
        outcome m → m.coordinator.sessions = n.coordinator.sessions :=
    sessions_of_quiet (Coordinator.calm_runStages describe r _ r.input .start).quiet
  cases executeForward_outcome hn.sound hrun with
  | invalid => exact hn
  | unknown => exact hn
  | idle => exact hn
  | aborted hpass => exact hrunning hpass ▸ hn
  | @failed s p stage err found m _ hs _ _ hpass hclose =>
    rw [sessions_of_quiet (Coordinator.calm_closeStages describe _ _).quiet hclose]
    have hready := (hn.sound.sheds_close_remove hs (some err.message)).ready hn
    rw [← hrunning hpass, ← Coordinator.sessions_noteFailure stage.node.nodeId err] at hready
    exact hready
  | @done s _ now _ _ m _ hpass hsessions =>
    have hm : m.coordinator.sessions.Ready := hrunning hpass ▸ hn
    rw [coordinator_setCoordinator, hsessions]
    exact (hm.sound.sheds_recordForward _ _ _).ready hm

theorem ready_handle (hn : n.coordinator.sessions.Ready) {request : Request α}
    {result : Except Abort (Response α)}
    (hrun : Runs Answered (ofCoordinator (Coordinator.handle describe request)) n result n') :
    n'.coordinator.sessions.Ready := by
  cases hrequest : request.isOnSession with
  | false => exact sessions_of_quiet (Coordinator.quiet_handle describe hrequest) hrun ▸ hn
  | true =>
    simp only [Coordinator.handle, ofCoordinator_bind, runs_bind,
      runs_ofCoordinator_update] at hrun
    obtain ⟨_, m, rfl, hrun⟩ := hrun
    have hm : (n.setCoordinator n.coordinator.countRequest).coordinator.sessions.Ready := hn
    cases request with
    | createSession r =>
      simp only [ofCoordinator_bind, runs_bind, runs_ofCoordinator_read] at hrun
      obtain ⟨_, _, ⟨-, rfl⟩, _, m, hcreate, hrun⟩ := hrun
      have hready := ready_createSession hm hcreate
      split at hrun <;> exact hrun.2 ▸ hready
    | executeForward r =>
      rw [ofCoordinator_bind, runs_bind] at hrun
      obtain ⟨_, m, hforward, hrun⟩ := hrun
      have hready := ready_executeForward hm hforward
      split at hrun <;> exact hrun.2 ▸ hready
    | closeSession r =>
      rw [ofCoordinator_bind, runs_bind] at hrun
      obtain ⟨_, m, hclose, hrun⟩ := hrun
      exact hrun.2 ▸ ready_closeSession hm hclose
    | _ => cases hrequest

theorem ready_closeIdle (hn : n.coordinator.sessions.Ready) {ids : List String} {u : Unit}
    (hrun : Runs Answered (ofCoordinator (Coordinator.closeIdle describe ids)) n u n') :
    n'.coordinator.sessions.Ready := by
  induction ids generalizing n with
  | nil => exact hrun.2 ▸ hn
  | cons id ids ih =>
    rw [Coordinator.closeIdle, ofCoordinator_bind, runs_bind] at hrun
    obtain ⟨_, m, hclose, hrun⟩ := hrun
    exact ih (ready_closeSession hn hclose) hrun

theorem ready_job (hn : n.coordinator.sessions.Ready) {job : Coordinator.Job α} {u : Unit}
    (hrun : Runs Answered (ofCoordinator (job.procedure describe)) n u n') :
    n'.coordinator.sessions.Ready := by
  cases job with
  | serve request =>
    simp only [Coordinator.Job.procedure, ofCoordinator_bind, ofCoordinator_pure, runs_bind,
      runs_pure] at hrun
    obtain ⟨_, m, hhandle, -, rfl⟩ := hrun
    exact ready_handle hn hhandle
  | sweep busy =>
    simp only [Coordinator.Job.procedure, Coordinator.sweep, ofCoordinator_bind, runs_bind,
      runs_ofCoordinator_update, runs_ofCoordinator_read] at hrun
    obtain ⟨_, m, rfl, _, _, ⟨-, rfl⟩, hrun⟩ := hrun
    have hdropped : Coordinator.Undisturbed (fun _ => True) n.coordinator _ :=
      Coordinator.undisturbed_dropSilent n.coordinator
    exact ready_closeIdle (hdropped.sessions ▸ hn) hrun
  | install p =>
    have hm := runs_ofCoordinator_update.mp hrun
    rcases n.coordinator.install_cases p with heq | ⟨-, heq⟩ <;> (rw [hm, heq]; exact hn)
  | tick clock =>
    have hm := runs_ofCoordinator_update.mp hrun
    exact hm ▸ hn

/-- What can become of a network since its coordinator was started, when the coordinator does one
job at a time. Other nodes answer and become whatever they like. -/
inductive Reached (describe : Response α → String) : Network α → Prop
  | start {n : Network α} {config : CoordinatorConfig α} {capability : Capability α}
      {backend : Backend α} {profile : List (LayerCost α)} {address : String} {clock : Clock}
      {ids : IdSource} {overheadMs : α} :
      Coordinator.start config capability backend profile address clock ids overheadMs =
        .ok n.coordinator → Reached describe n
  | work {n n' : Network α} {job : Coordinator.Job α} {u : Unit} : Reached describe n →
      Runs Answered (ofCoordinator (job.procedure describe)) n u n' → Reached describe n'
  /-- Time passes, and workers do something of their own accord. -/
  | drift {n n' : Network α} {clock : Clock} {embedded : Worker α} : Reached describe n →
      n'.coordinator = { n.coordinator with clock, embedded } → Reached describe n'

theorem Reached.ready (h : Reached describe n) : n.coordinator.sessions.Ready := by
  induction h with
  | start hstart =>
    obtain ⟨hsessions, -⟩ := Coordinator.start_eq_ok hstart
    rw [hsessions]
    exact ⟨SessionTable.sound_empty, by simp [SessionTable.empty]⟩
  | work _ hrun ih => exact ready_job ih hrun
  | drift _ heq ih =>
    rw [heq]
    exact ih

/-! ## Networks after some jobs -/

/-- The network after its coordinator has done some jobs, one after the other. -/
def afterJobs (e : Encoding α) (jobs : List (Coordinator.Job α)) (n : Network α) : Network α :=
  jobs.foldl (fun n job => (perform e (job.procedure e.describe) n).2) n

theorem Reached.afterJobs {e : Encoding α} (jobs : List (Coordinator.Job α))
    (hn : Reached e.describe n) : Reached e.describe (n.afterJobs e jobs) := by
  induction jobs generalizing n with
  | nil => exact hn
  | cons job jobs ih => exact ih (hn.work (answered_perform e _ n))

theorem Reachable.afterJobs {e : Encoding α} (jobs : List (Coordinator.Job α))
    (hn : Reachable e n) : Reachable e (n.afterJobs e jobs) := by
  induction jobs generalizing n with
  | nil => exact hn
  | cons job jobs ih => exact ih (hn.step (.work job))

end Network

/-! ## Small networks -/

/-- The error that something has come to. -/
def errorOf? {ε β : Type} : Except ε β → Option ε
  | .error err => some err
  | .ok _ => none

/-- A stage of one layer. -/
def Stage.small (id : UInt64) (node : String) : Stage Binary64 :=
  { (default : Stage Binary64) with
    stageId := id
    layers := [node]
    node := { Node.basic node .cpu 100.0 with address := some (node ++ ":1") } }

/-- A worker that was just started. -/
def Peer.small (node : String) (engine : Engine Binary64) : Peer Binary64 where
  address := node ++ ":1"
  worker := .start .standard ((Capability.basic node .cpu).withMemory 8.0 8.0) engine ⟨0, ""⟩
    ⟨0, fun _ => "generated"⟩
  listening := true
  frameLimit := 134217728

/-- A coordinator that runs stages itself. -/
def Coordinator.small (link : LinkConfig) : Except ServiceError (Coordinator Binary64) :=
  Coordinator.start { CoordinatorConfig.standard with link }
    ((Capability.basic "c" .cpu).withMemory 8.0 8.0) (.passthrough "cpu" 0) [] "c:1" ⟨0, ""⟩
    ⟨0, fun _ => "generated"⟩ 0.0

namespace Network

/-- A coordinator and the workers around it. -/
def small (c : Coordinator Binary64) (peers : List (Peer Binary64)) : Network Binary64 :=
  ⟨c, "c:1", true, 134217728, peers⟩

theorem reachable_small {link : LinkConfig} {c : Coordinator Binary64}
    (hstart : Coordinator.small link = .ok c) {peers : List (Peer Binary64)}
    (haddresses : (peers.map (·.address)).Nodup)
    (hempty : ∀ p ∈ peers, p.worker.sessions = .empty) : Reachable .payload (small c peers) := by
  have halone : Reachable .payload (small c []) := .start hstart (fun _ => rfl) rfl
  exact halone.step (.rearrange rfl haddresses fun p hp => .inl (hempty p hp))

end Network

end LayerPipeline
