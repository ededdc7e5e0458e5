import LayerPipeline.Proofs.Service.Ready

/-!
# Forward passes that fail

A forward pass fails in one of two ways, whatever other nodes answer. Either no stage was run, and
then nothing at all has changed; or a stage failed, and then the coordinator has given up the
session of the pass and no other one, has a record of each stage before, and holds the failure
against the node of the stage exactly when that node was unreachable or late.
-/

namespace LayerPipeline

open Procedure

variable {α : Type}

/-! ## What is held against a node -/

/-- An error that is held against a node: it was late, or could not be reached. -/
def ServiceError.Absence (err : ServiceError) : Prop :=
  (∃ node ms, err = .timeout node ms) ∨ ∃ node reason, err = .nodeUnreachable node reason

theorem ServiceError.isHealthEvent_iff (err : ServiceError) :
    err.isHealthEvent = true ↔ err.Absence := by
  cases err <;> simp [isHealthEvent, Absence]

namespace Registry

/-- Whether a node is healthy, and the last error noted; nothing of a node that is not registered. -/
def health (r : Registry α) (id : String) : Option (Bool × Option String) :=
  (r.get? id).map fun n => (n.healthy, n.lastError)

theorem health_markUnhealthy (r : Registry α) (id reason : String) :
    (r.markUnhealthy id reason).health id =
      (r.health id).map fun _ => (false, some reason) := by
  rw [health, markUnhealthy, get?_modify, if_pos rfl, health, Option.map_map, Option.map_map]
  rfl

theorem health_markUnhealthy_of_ne (r : Registry α) {id other : String} (h : other ≠ id)
    (reason : String) : (r.markUnhealthy id reason).health other = r.health other := by
  rw [health, get?_markUnhealthy_of_ne h, health]

theorem health_of_modify {r r' : Registry α} {f : RegisteredNode α → RegisteredNode α}
    {id : String} (hroster : r'.roster = r.roster.modify id f)
    (hf : ∀ n, (f n).healthy = n.healthy ∧ (f n).lastError = n.lastError) (other : String) :
    r'.health other = r.health other := by
  rw [health, health, get?_of_modify hroster]
  split
  · next heq =>
    rw [heq, Option.map_map]
    congr 1
    funext n
    simp [hf n]
  · rfl

theorem health_recordSuccess (r : Registry α) (id other : String) :
    (r.recordSuccess id).health other = r.health other := by
  refine health_of_modify rfl ?_ other
  exact fun _ => ⟨rfl, rfl⟩

theorem health_release [Scalar α] (r : Registry α) (id : String) (gb : α) (other : String) :
    ((r.release id gb).toOption.getD r).health other = r.health other := by
  unfold release
  split
  · rfl
  · simp only
    split
    · refine health_of_modify rfl ?_ other
      exact fun _ => ⟨rfl, rfl⟩
    · rfl
    · refine health_of_modify rfl ?_ other
      exact fun _ => ⟨rfl, rfl⟩

end Registry

namespace Coordinator

theorem health_releaseStages [Scalar α] (r : Registry α) (stages : List (Stage α)) (id : String) :
    (releaseStages r stages).health id = r.health id := by
  unfold releaseStages
  induction stages generalizing r with
  | nil => rfl
  | cons s stages ih =>
    rw [List.foldl_cons, ih]
    exact r.health_release s.node.nodeId (stageGb s) id

/-- An error is held against a node: if it is registered, it is unhealthy and the error is noted,
and its heartbeats are not waited for. -/
structure Blames (c c' : Coordinator α) (id : String) (err : ServiceError) : Prop where
  health : c'.registry.health id = (c.registry.health id).map fun _ => (false, some err.message)
  untracked : ∀ t, (id, t) ∉ c'.heartbeats.lastSeen

/-- Nothing new is held against a node. -/
structure Spares (c c' : Coordinator α) (id : String) : Prop where
  health : c'.registry.health id = c.registry.health id
  lastSeen : ∀ t, (id, t) ∈ c'.heartbeats.lastSeen ↔ (id, t) ∈ c.heartbeats.lastSeen

theorem blames_markUnhealthy (c : Coordinator α) (id : String) (err : ServiceError) :
    Blames c (c.markUnhealthy id err.message) id err where
  health := c.registry.health_markUnhealthy id err.message
  untracked := by simp [markUnhealthy, HeartbeatMonitor.remove]

theorem spares_markUnhealthy (c : Coordinator α) {id other : String} (h : other ≠ id)
    (reason : String) : Spares c (c.markUnhealthy id reason) other where
  health := c.registry.health_markUnhealthy_of_ne h reason
  lastSeen := by simp [markUnhealthy, HeartbeatMonitor.remove, h]

/-! ## What a pass leaves with the coordinator -/

/-- Nothing is noted of a node or a pass. -/
structure Unjudged (c c' : Coordinator α) : Prop where
  health : ∀ id, c'.registry.health id = c.registry.health id
  heartbeats : c'.heartbeats = c.heartbeats
  metrics : c'.metrics = c.metrics
  forwardCalls : c'.stats.forwardCalls = c.stats.forwardCalls

theorem Unjudged.refl (c : Coordinator α) : Unjudged c c := ⟨fun _ => rfl, rfl, rfl, rfl⟩

theorem Unjudged.trans {c m c' : Coordinator α} (h : Unjudged c m) (h' : Unjudged m c') :
    Unjudged c c' where
  health id := (h'.health id).trans (h.health id)
  heartbeats := h'.heartbeats.trans h.heartbeats
  metrics := h'.metrics.trans h.metrics
  forwardCalls := h'.forwardCalls.trans h.forwardCalls

theorem Unjudged.spares {c c' : Coordinator α} (h : Unjudged c c') (id : String) :
    Spares c c' id where
  health := h.health id
  lastSeen := by simp [h.heartbeats]

theorem unjudged_noteSuccess (id : String) (c : Coordinator α) : Unjudged c (c.noteSuccess id) :=
  { Unjudged.refl c with health := c.registry.health_recordSuccess id }

theorem lenient_unjudged : Lenient (fun _ => True) (Unjudged : Coordinator α → _ → Prop) where
  refl := .refl
  embedded _ _ _ := ⟨fun _ => rfl, rfl, rfl, rfl⟩

theorem noteFailure_of_absence {err : ServiceError} (h : err.Absence) (c : Coordinator α)
    (id : String) : c.noteFailure id err = c.markUnhealthy id err.message :=
  if_pos ((err.isHealthEvent_iff).mpr h)

theorem noteFailure_of_not_absence {err : ServiceError} (h : ¬ err.Absence) (c : Coordinator α)
    (id : String) : c.noteFailure id err = c :=
  if_neg fun hevent => h ((err.isHealthEvent_iff).mp hevent)

theorem spares_noteFailure {err : ServiceError} {id other : String}
    (h : other = id → ¬ err.Absence) (c : Coordinator α) :
    Spares c (c.noteFailure id err) other := by
  by_cases habsence : err.Absence
  · rw [noteFailure_of_absence habsence]
    exact spares_markUnhealthy c (fun heq => h heq habsence) err.message
  · rw [noteFailure_of_not_absence habsence]
    exact (Unjudged.refl c).spares other

theorem metrics_noteFailure (c : Coordinator α) (id : String) (err : ServiceError) :
    (c.noteFailure id err).metrics = c.metrics := by
  unfold noteFailure
  split <;> rfl

theorem stats_noteFailure (c : Coordinator α) (id : String) (err : ServiceError) :
    (c.noteFailure id err).stats = c.stats := by
  unfold noteFailure
  split <;> rfl

theorem Blames.congr {c d c' d' : Coordinator α} {id : String} {err : ServiceError}
    (h : Blames d d' id err) (hbefore : d.registry.health id = c.registry.health id)
    (hafter : Spares d' c' id) : Blames c c' id err where
  health := by rw [hafter.health, h.health, hbefore]
  untracked := fun t ht => h.untracked t ((hafter.lastSeen t).mp ht)

theorem Spares.trans {c m c' : Coordinator α} {id : String} (h : Spares c m id)
    (h' : Spares m c' id) : Spares c c' id where
  health := h'.health.trans h.health
  lastSeen t := (h'.lastSeen t).trans (h.lastSeen t)

/-- What the coordinator notes of a stage that has run for a request. -/
structure Notes (r : ExecuteForward) (s : Stage α) (entry : MetricsRecord α) : Prop where
  source : entry.source = s.node.nodeId
  session : entry.sessionId = some r.sessionId
  token : entry.tokenIndex = some r.tokenIndex

/-- What has become of a coordinator in a pass that got through some stages and failed in the
next. -/
structure GaveUp (r : ExecuteForward) (done : List (Stage α)) (s : Stage α) (err : ServiceError)
    (c c' : Coordinator α) : Prop where
  sessions : ∀ id, c'.sessions.get? id = if id = r.sessionId then none else c.sessions.get? id
  forwardCalls : c'.stats.forwardCalls = c.stats.forwardCalls
  /-- One record has come in for each stage that ran. -/
  metrics : ∃ entries, List.Forall₂ (Notes r) done entries ∧ c.metrics.Gains entries c'.metrics
  blamed : err.Absence → Blames c c' s.node.nodeId err
  /-- The node of the stage is spared if the error was not its absence, any other node always. -/
  spared : ∀ id, (id = s.node.nodeId → ¬ err.Absence) → Spares c c' id

/-- Why a pass is turned away before any stage runs. -/
inductive Rejects (c : Coordinator α) (r : ExecuteForward) : ServiceError → Prop
  | invalid {err : DataError} : r.input.validate = .error err → Rejects c r (.ofData err)
  | unknown : c.sessions.get? r.sessionId = none → Rejects c r (.sessionNotFound r.sessionId)
  | unmatched {s : Session α} {p : Plan α} : c.sessions.get? r.sessionId = some s →
      s.plan = some p → Network.selected r p = [] →
      Rejects c r (.execution ("no stage matches " ++ Text.bracketed (r.stageIds.map Text.quoted)))

/-- A session that is active and has a plan can only lack stages that match. -/
theorem rejects_of_stagesToRun {c : Coordinator α} (hc : c.sessions.Ready) {r : ExecuteForward}
    {s : Session α} {err : ServiceError} (hs : c.sessions.get? r.sessionId = some s)
    (herr : c.stagesToRun s.key r = .error err) : Rejects c r err := by
  obtain ⟨hactive, p, hplan⟩ := hc.active s (SessionTable.get?_eq_some hs).1
  have hstages : c.stagesToRun s.key r =
      if (Network.selected r p).isEmpty then
        .error (.execution ("no stage matches " ++ Text.bracketed (r.stageIds.map Text.quoted)))
      else .ok (p, Network.selected r p) := by
    simp [stagesToRun, hc.sound.session?_of_get? hs, Session.ensureActive, hactive, hplan,
      Network.selected]
  rw [hstages] at herr
  split at herr
  · next hempty =>
    obtain rfl := Except.error.inj herr
    exact .unmatched hs hplan (by simpa using hempty)
  · cases herr

end Coordinator

namespace Network

variable {describe : Response α → String} {n n' : Network α}

theorem unjudged_of_within {β : Type} {p : Coordinator.Action α β} {b : β}
    (hp : Coordinator.Within (fun _ => True) Coordinator.Unjudged p)
    (hrun : Runs Answered (ofCoordinator p) n b n') :
    Coordinator.Unjudged n.coordinator n'.coordinator :=
  related_of_within .refl .trans (fun c => { Coordinator.Unjudged.refl c with }) hp hrun

variable [Scalar α]

/-- Stages that have run leave one record each. The induction goes over the stages, with any records
before. -/
theorem records_runStages {r : ExecuteForward} {stages : List (Stage α)} {input : Tensor}
    {progress : Coordinator.Progress α} {result : Tensor × ExecutionReport α}
    (hrun : Runs Answered (ofCoordinator
      (Coordinator.runStages describe r stages input progress)) n (.ok result) n') :
    ∃ entries, List.Forall₂ (Coordinator.Notes r) stages entries ∧
      Coordinator.Unjudged
        { n.coordinator with metrics := n.coordinator.metrics.pushAll entries }
        n'.coordinator := by
  induction stages generalizing n input progress with
  | nil =>
    obtain ⟨-, rfl⟩ := hrun
    exact ⟨[], .nil, .refl _⟩
  | cons s stages ih =>
    rw [Coordinator.runStages, ofCoordinator_bind, runs_bind] at hrun
    obtain ⟨outcome, m, hstage, hrun⟩ := hrun
    split at hrun
    · cases hrun.1
    · next output report =>
      simp only [ofCoordinator_bind, runs_bind, runs_ofCoordinator_update] at hrun
      obtain ⟨_, k, rfl, hrun⟩ := hrun
      obtain ⟨entries, hnotes, hrest⟩ := ih hrun
      have hm := unjudged_of_within (Coordinator.lenient_unjudged.runStage describe
        Coordinator.unjudged_noteSuccess s r input) hstage
      refine ⟨⟨s.node.nodeId, some r.sessionId, some r.tokenIndex, report,
        m.coordinator.clock.text⟩ :: entries, .cons ⟨rfl, rfl, rfl⟩ hnotes, ?_⟩
      refine ⟨fun id => (hrest.health id).trans (hm.health id),
        hrest.heartbeats.trans hm.heartbeats, ?_, hrest.forwardCalls.trans hm.forwardCalls⟩
      rw [hrest.metrics]
      change (m.coordinator.metrics.push _).pushAll entries = _
      rw [hm.metrics]
      rfl

/-- Giving up the session of a pass. -/
theorem gaveUp_abandon {c m c' : Coordinator α} (hc : c.sessions.Sound) {r : ExecuteForward}
    {s : Session α} {p : Plan α} {done : List (Stage α)} {stage : Stage α} {err : ServiceError}
    {found : SessionState} {entries : List (MetricsRecord α)}
    (hs : c.sessions.get? r.sessionId = some s)
    (hnotes : List.Forall₂ (Coordinator.Notes r) done entries)
    (hsessions : m.sessions = c.sessions)
    (hm : Coordinator.Unjudged { c with metrics := c.metrics.pushAll entries } m)
    (hsame : c'.sessions =
      ((m.abandon s.key r.sessionId stage err).releaseFor s.key found p).sessions)
    (hc' : Coordinator.Unjudged ((m.abandon s.key r.sessionId stage err).releaseFor s.key found p)
      c') : Coordinator.GaveUp r done stage err c c' := by
  have hclosed : c'.sessions =
      (c.sessions.modify s.key fun x => x.close (some err.message)).remove r.sessionId := by
    rw [hsame, ← hsessions, ← Coordinator.sessions_noteFailure stage.node.nodeId err m]
    rfl
  -- the rest of giving up leaves what was noted of the nodes alone
  have hrest : ∀ id, Coordinator.Spares (m.noteFailure stage.node.nodeId err) c' id := by
    intro id
    have hreleased : Coordinator.Spares (m.noteFailure stage.node.nodeId err)
        ((m.abandon s.key r.sessionId stage err).releaseFor s.key found p) id :=
      ⟨Coordinator.health_releaseStages _ _ id, fun _ => .rfl⟩
    exact hreleased.trans (hc'.spares id)
  have hbefore : ∀ id, Coordinator.Spares c m id := fun id =>
    ⟨hm.health id, by simp [hm.heartbeats]⟩
  refine ⟨fun id => ?_, ?_, ⟨entries, hnotes, ?_⟩, fun habsence => ?_, fun id hid => ?_⟩
  · rw [hclosed, SessionTable.get?_remove,
      hc.get?_modify_key (SessionTable.keeps_close (some err.message)) hs]
    split <;> rfl
  · rw [hc'.forwardCalls]
    exact (congrArg (·.forwardCalls) (m.stats_noteFailure stage.node.nodeId err)).trans
      hm.forwardCalls
  · rw [CentralMetrics.gains_iff, hc'.metrics]
    exact (m.metrics_noteFailure stage.node.nodeId err).trans hm.metrics
  · have hmarked := Coordinator.blames_markUnhealthy m stage.node.nodeId err
    rw [← Coordinator.noteFailure_of_absence habsence] at hmarked
    exact hmarked.congr (hbefore _).health (hrest _)
  · exact ((hbefore id).trans (Coordinator.spares_noteFailure hid m)).trans (hrest id)

/-- A forward pass that fails is turned away without a trace, or it has got through the stages
before the one that failed and the coordinator has given up its session. -/
theorem executeForward_rejects_or_gaveUp {r : ExecuteForward} {err : ServiceError}
    (hn : Reached describe n) (herr : ∀ a, err ≠ .aborted a)
    (hrun : Runs Answered (ofCoordinator (Coordinator.executeForward describe r)) n (.error err)
      n') :
    (n' = n ∧ n.coordinator.Rejects r err) ∨
    ∃ s p done stage rest between report m k,
      n.coordinator.sessions.get? r.sessionId = some s ∧ s.plan = some p ∧
      selected r p = done ++ stage :: rest ∧
      Runs Answered (ofCoordinator (Coordinator.runStages describe r done r.input .start)) n
        (.ok (between, report)) m ∧
      Runs Answered (ofCoordinator (Coordinator.runStage describe stage r between)) m (.error err)
        k ∧
      Coordinator.GaveUp r done stage err n.coordinator n'.coordinator := by
  have hready := hn.ready
  generalize hresult : Except.error err = result at hrun
  cases executeForward_outcome hready.sound hrun with
  | invalid hinvalid =>
    obtain rfl := Except.error.inj hresult
    exact .inl ⟨rfl, .invalid hinvalid⟩
  | unknown hunknown =>
    obtain rfl := Except.error.inj hresult
    exact .inl ⟨rfl, .unknown hunknown⟩
  | idle hs hidle =>
    obtain rfl := Except.error.inj hresult
    exact .inl ⟨rfl, Coordinator.rejects_of_stagesToRun hready hs hidle⟩
  | aborted hpass => exact absurd (Except.error.inj hresult) (herr _)
  | @failed s p stage _ found k _ hs hplan _ hpass hclose =>
    obtain rfl := Except.error.inj hresult
    obtain ⟨done, rest, between, report, m, hselected, hdone, hstage⟩ := runStages_error hpass
    obtain ⟨entries, hnotes, hrecords⟩ := records_runStages hdone
    have hsessions : k.coordinator.sessions = n.coordinator.sessions :=
      sessions_of_quiet (Coordinator.calm_runStages describe r _ r.input .start).quiet hpass
    have hfailed := unjudged_of_within (Coordinator.lenient_unjudged.runStage describe
      Coordinator.unjudged_noteSuccess stage r between) hstage
    have hclosed := unjudged_of_within (Coordinator.lenient_unjudged.closeStages describe _ _)
      hclose
    refine .inr ⟨s, p, done, stage, rest, between, report, m, k, hs, hplan, hselected, hdone, hstage,
      gaveUp_abandon hready.sound hs hnotes hsessions (hrecords.trans hfailed) ?_ hclosed⟩
    exact sessions_of_quiet (Coordinator.calm_closeStages describe _ _).quiet hclose
  | done => cases hresult

private def desertedJobs : List (Coordinator.Job Binary64) :=
  [.serve (.registerWorker ((Peer.small "w" (.passthrough "cpu" 0)).worker.capability.descriptor
      "w:1")),
    .install { (default : Plan Binary64) with stages := [.small 0 "c", .small 1 "w"] },
    .serve (.createSession ⟨"s", ⟨"", 0, "", false⟩, [], 0, .u8⟩),
    .serve (.createSession ⟨"t", ⟨"", 0, "", false⟩, [], 0, .u8⟩)]

private def withoutListeners (n : Network Binary64) : Network Binary64 :=
  { n with peers := n.peers.map fun p => { p with listening := false } }

private def desertedNetwork (c : Coordinator Binary64) : Network Binary64 :=
  withoutListeners ((small c [.small "w" (.passthrough "cpu" 0)]).afterJobs .payload desertedJobs)

private theorem reached_withoutListeners {n : Network Binary64}
    (hn : Reached Encoding.payload.describe n) :
    Reached Encoding.payload.describe (withoutListeners n) := by
  have hsame : (withoutListeners n).coordinator =
      { n.coordinator with clock := n.coordinator.clock, embedded := n.coordinator.embedded } := rfl
  exact hn.drift hsame

private theorem reached_desertedNetwork {c : Coordinator Binary64}
    (hstart : Coordinator.small .standard = .ok c) :
    Reached Encoding.payload.describe (desertedNetwork c) := by
  have hfirst : Reached Encoding.payload.describe (small c [.small "w" (.passthrough "cpu" 0)]) :=
    .start hstart
  exact reached_withoutListeners (hfirst.afterJobs desertedJobs)

private def desertedForward : ExecuteForward := ⟨"s", 5, ⟨.u8, [1], [3], 1⟩, []⟩

/-- The second of two stages is on a worker that has stopped listening. -/
theorem executeForward_rejects_or_gaveUp_deserted :
    ∃ (n n' : Network Binary64) (err : ServiceError), Reached Encoding.payload.describe n ∧
      err = .nodeUnreachable "w" connectionRefused ∧ n' ≠ n ∧
      Runs Answered (ofCoordinator (Coordinator.executeForward Encoding.payload.describe
        desertedForward)) n (.error err) n' ∧
      ((n' = n ∧ n.coordinator.Rejects desertedForward err) ∨
      ∃ s p done stage rest between report m k,
        n.coordinator.sessions.get? "s" = some s ∧ s.plan = some p ∧
        selected desertedForward p = done ++ stage :: rest ∧
        Runs Answered (ofCoordinator (Coordinator.runStages Encoding.payload.describe
          desertedForward done desertedForward.input .start)) n (.ok (between, report)) m ∧
        Runs Answered (ofCoordinator (Coordinator.runStage Encoding.payload.describe stage
          desertedForward between)) m (.error err) k ∧
        Coordinator.GaveUp desertedForward done stage err n.coordinator n'.coordinator) := by
  have houtcome : ((Coordinator.small .standard).toOption.map fun c =>
      let (result, n') := perform .payload
        (Coordinator.executeForward Encoding.payload.describe desertedForward) (desertedNetwork c)
      (errorOf? result, n'.coordinator.sessions.ids, (desertedNetwork c).coordinator.sessions.ids)) =
      some (some (.nodeUnreachable "w" connectionRefused), ["t"], ["s", "t"]) := by
    decide +kernel
  cases hstart : Coordinator.small .standard with
  | error err => simp [hstart, Except.toOption] at houtcome
  | ok c =>
    simp only [hstart, Except.toOption, Option.map_some, Option.some.injEq, Prod.mk.injEq]
      at houtcome
    obtain ⟨hresult, hafter, hbefore⟩ := houtcome
    have hreached := reached_desertedNetwork hstart
    generalize desertedNetwork c = n at hresult hafter hbefore hreached
    have hrun := (runs_perform .payload
      (Coordinator.executeForward Encoding.payload.describe desertedForward) n).mono
        Exchanged.answered
    generalize perform .payload (Coordinator.executeForward Encoding.payload.describe
      desertedForward) n = outcome at hresult hafter hrun
    obtain ⟨result, n'⟩ := outcome
    cases result with
    | ok x => cases hresult
    | error err =>
      obtain rfl := Option.some.inj hresult
      refine ⟨n, n', _, hreached, rfl, ?_, hrun,
        executeForward_rejects_or_gaveUp hreached (fun a ha => by cases ha) hrun⟩
      rintro rfl
      rw [hbefore] at hafter
      exact absurd hafter (by decide)

end Network

end LayerPipeline
