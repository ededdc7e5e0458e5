import LayerPipeline.Proofs.Service.Outbox
import LayerPipeline.Proofs.Service.Ready

/-!
# Executions and their reports

Two write to the metrics of a coordinator. The coordinator notes every stage of a forward pass whose
output it accepts; and a worker that sends reports to it sends one of every stage that it runs, also
when the coordinator notes that stage too or has no use for its output. Once all reports have
arrived, the metrics count what was accepted and what was pushed.
-/

namespace LayerPipeline

open Procedure

variable {α : Type} [Scalar α]

theorem Coordinator.metrics_start {config : CoordinatorConfig α} {capability : Capability α}
    {backend : Backend α} {profile : List (LayerCost α)} {address : String} {clock : Clock}
    {ids : IdSource} {overheadMs : α} {c : Coordinator α}
    (h : start config capability backend profile address clock ids overheadMs = .ok c) :
    ∃ capacity, c.metrics = .empty capacity := by
  unfold start at h
  split at h
  · cases h
  · split at h
    · cases h
    · cases h
      exact ⟨_, rfl⟩

/-- The stages that a forward pass runs, if it gets as far as the first one. -/
def Coordinator.stagesOf? (c : Coordinator α) (r : ExecuteForward) : Option (List (Stage α)) :=
  match r.input.validate with
  | .error _ => none
  | .ok _ =>
    match c.sessions.get? r.sessionId with
    | none => none
    | some s => (c.stagesToRun s.key r).toOption.map (·.2)

namespace Network

variable {e : Encoding α} {n n' m : Network α} {l l' : Ledger α}

/-! ## Forward passes -/

/-- Where the worker of a stage sends its report. A stage that runs inside the coordinator has
none. -/
def sink? (e : Encoding α) (r : ExecuteForward) (s : Stage α) (input : Tensor) (n : Network α) :
    Option String :=
  if n.coordinator.isLocal s then none
  else
    match s.node.address with
    | none => none
    | some address =>
      let request : ExecuteForward := ⟨r.sessionId, r.tokenIndex, input, [toString s.stageId]⟩
      match reader? e ⟨n.coordinator.config.link, address, .executeForward request⟩ n with
      | none => none
      | some p => p.worker.reportsTo? request

/-- A stage is accepted if the coordinator goes on with its output. A record of it has come in
then. -/
def stagesLedger (e : Encoding α) (r : ExecuteForward) :
    List (Stage α) → Tensor → Network α → Ledger α
  | [], _, _ => .empty
  | s :: rest, input, n =>
    let pushed := n.sent (n.sink? e r s input) r.subject
    match perform e (Coordinator.runStage e.describe s r input) n with
    | (.error _, _) => ⟨[], pushed, []⟩
    | (.ok (output, report), m) =>
      let entry : MetricsRecord α := ⟨s.node.nodeId, some r.sessionId, some r.tokenIndex, report,
        m.coordinator.clock.text⟩
      ⟨[r.subject], pushed, [entry]⟩ ++
        stagesLedger e r rest output (m.setCoordinator (m.coordinator.recordStage s r report))

/-- What the coordinator accepts in a forward pass and what is pushed to it because of the pass. -/
def passLedger (e : Encoding α) (r : ExecuteForward) (n : Network α) : Ledger α :=
  match n.coordinator.stagesOf? r with
  | none => .empty
  | some stages => stagesLedger e r stages r.input n

/-- Of a stage outside of any session, the coordinator only has the report that it was asked to
send to itself. -/
def asideLedger (r : StageForward) (n : Network α) : Ledger α :=
  match n.coordinator.stageOfPlan r with
  | .error _ => .empty
  | .ok s => ⟨[], n.sent (n.coordinator.embedded.reportsAside? r s.layers) r.subject, []⟩

/-- What a job of the coordinator adds. -/
def ledger (e : Encoding α) (n : Network α) : Coordinator.Job α → Ledger α
  | .serve (.executeForward r) => passLedger e r (n.setCoordinator n.coordinator.countRequest)
  | .serve (.stageForward r) => asideLedger r (n.setCoordinator n.coordinator.countRequest)
  | _ => .empty

theorem perform_of_runs {β : Type} {p : Coordinator.Action α β} {b : β}
    (hrun : Runs (Exchanged e) (ofCoordinator p) n b n') : perform e p n = (b, n') :=
  call_of_runs (surroundings e) hrun

theorem books_runStage {r : ExecuteForward} {s : Stage α} {input : Tensor}
    {result : Except ServiceError (Tensor × ExecutionReport α)}
    (hrun : Runs (Exchanged e) (ofCoordinator (Coordinator.runStage e.describe s r input)) n result
      n') : Books n n' ⟨[], n.sent (n.sink? e r s input) r.subject, []⟩ := by
  simp only [Coordinator.runStage, ofCoordinator_bind, runs_bind, runs_ofCoordinator_read] at hrun
  obtain ⟨_, n, ⟨rfl, rfl⟩, hrun⟩ := hrun
  split at hrun
  · next hlocal =>
    obtain ⟨w, hforward, rfl⟩ := runs_onEmbedded hrun
    have hsilent := (Worker.mute_forward _ _ _ _).silent hforward
    simp only [sink?, hlocal, if_true]
    exact tacit_setCoordinator rfl hsilent.2
  · next hremote =>
    simp only [ofCoordinator_bind, runs_bind, runs_ofCoordinator_read] at hrun
    obtain ⟨_, n, ⟨rfl, rfl⟩, hrun⟩ := hrun
    cases haddress : s.node.address with
    | none =>
      simp only [Coordinator.channelTo, haddress] at hrun
      obtain ⟨-, rfl⟩ := hrun
      simp only [sink?, hremote, haddress]
      exact Tacit.refl n'
    | some address =>
      simp only [Coordinator.channelTo, haddress, Channel.executeForward,
        Channel.callWithConnectRetry, ofCoordinator_bind, runs_bind] at hrun
      obtain ⟨_, m, ⟨answer, _, hcall, rfl, rfl⟩, hrun⟩ := hrun
      have hanswer := runs_retrying (Exchanged.unreached _) hcall
      have hbooks : Books n m ⟨[], n.sent (n.sink? e r s input) r.subject, []⟩ := by
        simp only [sink?, hremote, haddress, Bool.false_eq_true, if_false]
        split
        · next hnone => exact hanswer.tacit_of_reader? hnone
        · next p hp => exact hanswer.books rfl hp
      have hrest : Tacit m n' := by
        split at hrun
        · obtain ⟨-, rfl⟩ := hrun
          exact .refl n'
        · split at hrun
          · obtain ⟨-, rfl⟩ := hrun
            exact .refl n'
          · simp only [ofCoordinator_bind, ofCoordinator_pure, runs_bind, runs_ofCoordinator_read,
              runs_ofCoordinator_update, runs_pure] at hrun
            obtain ⟨_, _, ⟨rfl, rfl⟩, _, _, rfl, -, rfl⟩ := hrun
            exact tacit_setCoordinator rfl rfl
      simpa using hbooks.trans hrest

theorem books_runStages {r : ExecuteForward} {stages : List (Stage α)} {input : Tensor}
    {progress : Coordinator.Progress α}
    {result : Except (Stage α × ServiceError) (Tensor × ExecutionReport α)}
    (hrun : Runs (Exchanged e) (ofCoordinator (Coordinator.runStages e.describe r stages input
      progress)) n result n') : Books n n' (stagesLedger e r stages input n) := by
  induction stages generalizing n input progress with
  | nil =>
    obtain ⟨-, rfl⟩ := hrun
    exact Tacit.refl n'
  | cons s stages ih =>
    rw [Coordinator.runStages, ofCoordinator_bind, runs_bind] at hrun
    obtain ⟨result, m, hstage, hrun⟩ := hrun
    have hbooks := books_runStage hstage
    rw [stagesLedger, perform_of_runs hstage]
    split at hrun
    · obtain ⟨-, rfl⟩ := hrun
      exact hbooks
    · next output report =>
      simp only [ofCoordinator_bind, runs_bind, runs_ofCoordinator_update] at hrun
      obtain ⟨_, _, rfl, hrun⟩ := hrun
      -- the coordinator notes the stage before it goes on with the next one
      have hrecord : Books m (m.setCoordinator (m.coordinator.recordStage s r report))
          ⟨[r.subject], [], [⟨s.node.nodeId, some r.sessionId, some r.tokenIndex, report,
            m.coordinator.clock.text⟩]⟩ :=
        books_setCoordinator (c := m.coordinator.recordStage s r report)
          [⟨s.node.nodeId, some r.sessionId, some r.tokenIndex, report, m.coordinator.clock.text⟩]
          rfl rfl
      have hhead := hbooks.trans hrecord
      have hpass := hhead.trans (ih hrun)
      simpa using hpass

theorem books_executeForward {r : ExecuteForward}
    {result : Except ServiceError (Tensor × ExecutionReport α)}
    (hrun : Runs (Exchanged e) (ofCoordinator (Coordinator.executeForward e.describe r)) n result
      n') : Books n n' (passLedger e r n) := by
  unfold Coordinator.executeForward at hrun
  split at hrun
  · next hinvalid =>
    obtain ⟨-, rfl⟩ := hrun
    simp only [passLedger, Coordinator.stagesOf?, hinvalid]
    exact Tacit.refl n'
  · next hvalid =>
    simp only [ofCoordinator_bind, runs_bind, runs_ofCoordinator_read] at hrun
    obtain ⟨_, n, ⟨rfl, rfl⟩, hrun⟩ := hrun
    split at hrun
    · next hkey =>
      obtain ⟨-, rfl⟩ := hrun
      simp only [passLedger, Coordinator.stagesOf?, hvalid, Option.map_eq_none_iff.mp hkey]
      exact Tacit.refl n'
    · next key hkey =>
      obtain ⟨s, hs, rfl⟩ := Option.map_eq_some_iff.mp hkey
      simp only [ofCoordinator_bind, runs_bind, runs_ofCoordinator_acquire,
        runs_ofCoordinator_read] at hrun
      obtain ⟨_, _, rfl, _, n, ⟨rfl, rfl⟩, hrun⟩ := hrun
      split at hrun
      · next err herr =>
        simp only [ofCoordinator_bind, ofCoordinator_pure, runs_bind, runs_ofCoordinator_release,
          runs_pure] at hrun
        obtain ⟨_, _, rfl, -, rfl⟩ := hrun
        simp only [passLedger, Coordinator.stagesOf?, hvalid, hs, herr, Except.toOption,
          Option.map_none]
        exact Tacit.refl n'
      · next plan stages hstages =>
        rw [ofCoordinator_bind, runs_bind] at hrun
        obtain ⟨outcome, m, hpass, hrun⟩ := hrun
        have hbooks := books_runStages hpass
        have hrest : Tacit m n' := by
          split at hrun
          · simp only [ofCoordinator_bind, ofCoordinator_pure, runs_bind,
              runs_ofCoordinator_release, runs_pure] at hrun
            obtain ⟨_, _, rfl, -, rfl⟩ := hrun
            exact .refl n'
          · next stage err _ =>
            have hmoves := permits_steady.failedForward e.describe r s.key stage err plan
            exact tacit_of_moves hmoves hrun
          · simp only [ofCoordinator_bind, ofCoordinator_pure, runs_bind, runs_ofCoordinator_update,
              runs_ofCoordinator_release, runs_pure] at hrun
            obtain ⟨_, _, rfl, _, _, rfl, _, _, rfl, -, rfl⟩ := hrun
            exact tacit_setCoordinator rfl rfl
        simp only [passLedger, Coordinator.stagesOf?, hvalid, hs, hstages, Except.toOption,
          Option.map_some]
        simpa using hbooks.trans hrest

/-! ## Jobs -/

theorem books_stageForward {r : StageForward} {result : Except Abort (StageForwarded α)}
    (hrun : Runs (Exchanged e) (ofCoordinator (Coordinator.stageForward r)) n result n') :
    Books n n' (asideLedger r n) := by
  simp only [Coordinator.stageForward, ofCoordinator_bind, runs_bind,
    runs_ofCoordinator_read] at hrun
  obtain ⟨_, n, ⟨rfl, rfl⟩, hrun⟩ := hrun
  cases hs : n.coordinator.stageOfPlan r with
  | error err =>
    rw [hs] at hrun
    obtain ⟨-, rfl⟩ := hrun
    rw [asideLedger, hs]
    exact Tacit.refl n'
  | ok s =>
    rw [hs] at hrun
    obtain ⟨w, hstage, rfl⟩ := runs_onEmbedded hrun
    rw [asideLedger, hs]
    exact books_setEmbedded (Worker.sends_runStage hstage)

/-- A job in which nobody else hands in a report. -/
theorem books_job {job : Coordinator.Job α} (hjob : ∀ r, job ≠ .serve (.submitMetrics r)) {u : Unit}
    (hrun : Runs (Exchanged e) (ofCoordinator (job.procedure e.describe)) n u n') :
    Books n n' (n.ledger e job) := by
  by_cases hforward : ∃ r, job = .serve (.executeForward r)
  · obtain ⟨r, rfl⟩ := hforward
    simp only [Coordinator.Job.procedure, Coordinator.handle, ofCoordinator_bind,
      ofCoordinator_pure, runs_bind, runs_ofCoordinator_update, runs_pure] at hrun
    obtain ⟨_, _, ⟨_, _, rfl, result, m, hpass, hanswer⟩, -, rfl⟩ := hrun
    have hm : n' = m := by split at hanswer <;> exact hanswer.2
    exact hm ▸ (tacit_countRequest n).trans (books_executeForward hpass)
  by_cases hstage : ∃ r, job = .serve (.stageForward r)
  · obtain ⟨r, rfl⟩ := hstage
    simp only [Coordinator.Job.procedure, Coordinator.handle, ofCoordinator_bind,
      ofCoordinator_pure, runs_bind, runs_ofCoordinator_update, runs_pure] at hrun
    obtain ⟨_, _, ⟨_, _, rfl, result, m, hpass, -, rfl⟩, -, rfl⟩ := hrun
    exact (tacit_countRequest n).trans (books_stageForward hpass)
  · have hnone : n.ledger e job = .empty := by
      unfold ledger
      split <;> simp_all
    rw [hnone]
    refine tacit_of_moves (permits_steady.job e.describe fun request hrequest => ?_) hrun
    refine permits_steady.handle e.describe ?_ ?_ ?_ ?_ ?_
    · rintro r rfl
      exact absurd ⟨r, hrequest⟩ hforward
    · rintro r rfl
      exact absurd ⟨r, hrequest⟩ hstage
    · rintro r rfl
      exact absurd hrequest (hjob r)
    · intro d _
      refine permits_steady.registerWorker e.describe (Coordinator.moves_atomically fun c => ?_)
        fun answer => Coordinator.moves_atomically fun c => ?_
      · split
        · next henroll =>
          obtain ⟨_, -, rfl⟩ := Coordinator.enroll_eq_ok henroll
          exact ⟨rfl, rfl⟩
        · exact ⟨rfl, rfl⟩
      · obtain ⟨registry, heq, -⟩ := c.confirm_cases d answer
        rw [heq]
        exact ⟨rfl, rfl⟩
    · intro h _
      refine Coordinator.moves_atomically fun c => ?_
      rcases c.heartbeat_cases h with heq | heq <;> (rw [heq]; exact ⟨rfl, rfl⟩)

/-! ## Workers that do not push -/

/-- No worker sends its reports to the coordinator. -/
def Unreported (n : Network α) : Prop := ∀ p ∈ n.peers, p.worker.metricsSink? ≠ some n.address

omit [Scalar α] in
theorem Books.unreported (h : Books n n' l) (hn : n.Unreported) : n'.Unreported := by
  intro p hp
  obtain ⟨q, hq, hconfig⟩ := h.configs p hp
  rw [h.address, Worker.metricsSink?, hconfig]
  exact hn q hq

omit [Scalar α] in
theorem sent_sink? (hn : n.Unreported) (r : ExecuteForward) (s : Stage α) (input : Tensor) :
    n.sent (n.sink? e r s input) r.subject = [] := by
  refine if_neg fun hsink => ?_
  unfold sink? at hsink
  split at hsink
  · cases hsink
  · split at hsink
    · cases hsink
    · simp only at hsink
      split at hsink
      · cases hsink
      · next p hp =>
        unfold Worker.reportsTo? at hsink
        split at hsink
        · exact hn p (List.mem_of_find?_eq_some (reader?_eq_some_iff.mp hp).2.2.1) hsink
        · cases hsink

theorem pushed_stagesLedger (hn : n.Unreported) (r : ExecuteForward) (stages : List (Stage α))
    (input : Tensor) : (stagesLedger e r stages input n).pushed = [] := by
  induction stages generalizing n input with
  | nil => rfl
  | cons s stages ih =>
    have hstage := books_runStage (runs_perform e (Coordinator.runStage e.describe s r input) n)
    simp only [stagesLedger, sent_sink? hn]
    split
    · rfl
    · next output report m hperform =>
      have hm : (m.setCoordinator (m.coordinator.recordStage s r report)).Unreported := by
        rw [hperform] at hstage
        exact hstage.unreported hn
      exact ih hm output

/-- No worker sends its reports to the coordinator, and the job does not have it send itself one. -/
def Discreet (n : Network α) (job : Coordinator.Job α) : Prop :=
  n.Unreported ∧ ∀ r, job = .serve (.stageForward r) → r.metricsUrl ≠ some n.address

theorem pushed_ledger {job : Coordinator.Job α} (h : n.Discreet job) :
    (n.ledger e job).pushed = [] := by
  have hcounted : (n.setCoordinator n.coordinator.countRequest).Unreported := h.1
  unfold ledger
  split
  · unfold passLedger
    split
    · rfl
    · exact pushed_stagesLedger hcounted _ _ _
  · next r =>
    unfold asideLedger
    split
    · rfl
    · refine if_neg fun hsink => ?_
      unfold Worker.reportsAside? at hsink
      split at hsink
      · exact h.2 r rfl hsink
      · cases hsink
  · rfl

/-! ## Delivery -/

/-- What is sent to the coordinator gets there. -/
def Receives (n : Network α) : Prop := n.listening = true ∧ n.peer? n.address = none

omit [Scalar α] in
theorem Receives.congr (h : n.Receives) (haddress : n'.address = n.address)
    (hlistening : n'.listening = n.listening)
    (hsites : n'.peers.map Peer.site = n.peers.map Peer.site) : n'.Receives := by
  refine ⟨hlistening.trans h.1, ?_⟩
  have hnone := congrArg (Option.map Peer.site) h.2
  rw [map_site_peer?, ← hsites, ← haddress, ← map_site_peer?] at hnone
  simpa using hnone

omit [Scalar α] in
theorem Receives.handIn (h : n.Receives) (report : String × MetricsRecord α) :
    (n.handIn report).Receives := by
  unfold Network.handIn
  split
  · exact h.congr rfl rfl (sites_setWorker n _ _)
  · split
    · exact h.congr rfl rfl rfl
    · exact h

omit [Scalar α] in
theorem books_handIn (h : n.Receives) (report : String × MetricsRecord α) :
    Books n (n.handIn report)
      ⟨([report].filter fun x => x.1 = n.address).map (·.2.subject), [],
        ([report].filter fun x => x.1 = n.address).map (·.2)⟩ := by
  by_cases haddress : report.1 = n.address
  · have hhandIn : n.handIn report =
        n.setCoordinator (n.coordinator.countRequest.submitMetrics report.2).2 := by
      simp [Network.handIn, haddress, h.1, h.2, setCoordinator]
    rw [hhandIn]
    simp only [haddress, decide_true, List.filter_cons_of_pos, List.filter_nil]
    exact books_setCoordinator (c := (n.coordinator.countRequest.submitMetrics report.2).2)
      [report.2] rfl rfl
  · simp only [haddress, decide_false, List.filter_cons, List.filter_nil, Network.handIn]
    split
    · next p hp => exact tacit_setWorker hp ⟨rfl, rfl⟩
    · split
      · next hown => simp_all
      · exact Tacit.refl n

omit [Scalar α] in
theorem books_handIns (h : n.Receives) (reports : List (String × MetricsRecord α)) :
    Books n (reports.foldl Network.handIn n)
      ⟨(reports.filter fun x => x.1 = n.address).map (·.2.subject), [],
        (reports.filter fun x => x.1 = n.address).map (·.2)⟩ := by
  induction reports generalizing n with
  | nil => exact Tacit.refl n
  | cons report reports ih =>
    have hhead := books_handIn h report
    have htail := ih (h.handIn report)
    rw [hhead.address] at htail
    have hall := hhead.trans htail
    rwa [Ledger.mk_append_mk, ← List.map_append, ← List.map_append, ← List.filter_append] at hall

/-- The network when its reports have been taken along, before they arrive. -/
def collected (n : Network α) : Network α :=
  { n with
    coordinator := { n.coordinator with embedded := { n.coordinator.embedded with outbox := [] } }
    peers := n.peers.map fun p => { p with worker := { p.worker with outbox := [] } } }

omit [Scalar α] in
theorem deliverReports_eq (n : Network α) :
    n.deliverReports = n.reports.foldl Network.handIn n.collected := rfl

omit [Scalar α] in
theorem arrivals_collected (n : Network α) : n.collected.arrivals = [] := by
  simp [arrivals, reports, collected]

omit [Scalar α] in
theorem Receives.collected (h : n.Receives) : n.collected.Receives := by
  refine h.congr rfl rfl ?_
  simp [Network.collected, Function.comp_def, Peer.site]

/-! ## Whole runs -/

/-- All executions of a ledger are accounted for: their reports have come in or are on their way. -/
structure Accounted (n : Network α) (l : Ledger α) : Prop where
  addresses : (n.peers.map (·.address)).Nodup
  stored : ∃ capacity, n.coordinator.metrics = (CentralMetrics.empty capacity).pushAll l.received
  counted : ((l.received ++ n.arrivals).map MetricsRecord.subject).Perm (l.accepted ++ l.pushed)

omit [Scalar α] in
theorem Accounted.books (hn : Accounted n l) (h : Books n n' l') : Accounted n' (l ++ l') := by
  obtain ⟨capacity, hmetrics⟩ := hn.stored
  refine ⟨h.addresses ▸ hn.addresses, ⟨capacity, ?_⟩, ?_⟩
  · rw [h.recorded, hmetrics, Ledger.received_append, CentralMetrics.pushAll_append]
  · have hperm := hn.counted
    have hsent := h.sent hn.addresses
    rw [List.perm_iff_count] at hperm hsent ⊢
    intro subject
    have hbefore := hperm subject
    have hadded := hsent subject
    simp only [List.map_append, Ledger.received_append, Ledger.accepted_append,
      Ledger.pushed_append, List.count_append, h.noted] at hbefore hadded ⊢
    omega

omit [Scalar α] in
/-- Reports that arrive move from those on their way to those that have come in. -/
theorem Accounted.deliver (hn : Accounted n l) (h : n.Receives) :
    Accounted n.deliverReports (l ++ ⟨[], [], n.arrivals⟩) := by
  obtain ⟨capacity, hmetrics⟩ := hn.stored
  have hcollected : (n.collected.peers.map (·.address)).Nodup := by
    simpa [Network.collected, Function.comp_def] using hn.addresses
  have hbooks := books_handIns h.collected n.reports
  rw [← deliverReports_eq] at hbooks
  have hnone : n.deliverReports.arrivals = [] := by
    have hperm := hbooks.sent hcollected
    rw [arrivals_collected] at hperm
    exact List.map_eq_nil_iff.mp hperm.eq_nil
  refine ⟨hbooks.addresses ▸ hcollected, ⟨capacity, ?_⟩, ?_⟩
  · have hsame : n.collected.coordinator.metrics = n.coordinator.metrics := rfl
    rw [hbooks.recorded, hsame, hmetrics, Ledger.received_append, CentralMetrics.pushAll_append]
    rfl
  · rw [hnone, List.append_nil]
    simpa using hn.counted

/-- What can become of a network since its coordinator was started, with the executions so far, if
the coordinator is given jobs that a condition admits. Nobody but the workers hands in reports, and
none of theirs is lost. The ledger keeps all of them. -/
inductive Course (e : Encoding α) (admits : Network α → Coordinator.Job α → Prop) :
    Network α → Ledger α → Prop
  | start {n : Network α} {config : CoordinatorConfig α} {capability : Capability α}
      {backend : Backend α} {profile : List (LayerCost α)} {address : String} {clock : Clock}
      {ids : IdSource} {overheadMs : α} :
      Coordinator.start config capability backend profile address clock ids overheadMs =
        .ok n.coordinator → n.peers = [] → Course e admits n .empty
  | work {n : Network α} {l : Ledger α} (job : Coordinator.Job α) : Course e admits n l →
      admits n job → (∀ r, job ≠ .serve (.submitMetrics r)) →
      Course e admits (perform e (job.procedure e.describe) n).2 (l ++ n.ledger e job)
  | deliver {n : Network α} {l : Ledger α} : Course e admits n l → n.Receives →
      Course e admits n.deliverReports (l ++ ⟨[], [], n.arrivals⟩)
  /-- Time passes, and workers come and go and do something of their own accord. -/
  | drift {n n' : Network α} {l : Ledger α} {clock : Clock} {embedded : Worker α} :
      Course e admits n l → n'.coordinator = { n.coordinator with clock, embedded } →
      n'.address = n.address → (n'.peers.map (·.address)).Nodup → n'.reports.Perm n.reports →
      Course e admits n' l

variable {admits : Network α → Coordinator.Job α → Prop}

theorem Course.accounted (h : Course e admits n l) : Accounted n l := by
  induction h with
  | start hstart hpeers =>
    obtain ⟨capacity, hmetrics⟩ := Coordinator.metrics_start hstart
    obtain ⟨-, -, -, -, -, -, hembedded⟩ := Coordinator.start_eq_ok hstart
    refine ⟨by simp [hpeers], ⟨capacity, hmetrics⟩, ?_⟩
    simp [arrivals, reports, hpeers, hembedded, Worker.start, Ledger.empty]
  | work job _ _ hjob ih => exact ih.books (books_job hjob (runs_perform e _ _))
  | deliver _ hreceives ih => exact ih.deliver hreceives
  | drift _ hcoordinator haddress haddresses hreports ih =>
    obtain ⟨capacity, hmetrics⟩ := ih.stored
    refine ⟨haddresses, ⟨capacity, by rw [hcoordinator]; exact hmetrics⟩, ?_⟩
    refine List.Perm.trans ((List.Perm.append_left _ ?_).map _) ih.counted
    rw [arrivals, arrivals, haddress]
    exact (hreports.filter _).map _

theorem Course.pushed_eq_nil (hadmits : ∀ m job, admits m job → m.Discreet job)
    (h : Course e admits n l) : l.pushed = [] := by
  induction h with
  | start => rfl
  | work job _ hjob _ ih =>
    rw [Ledger.pushed_append, ih, pushed_ledger (hadmits _ _ hjob), List.append_nil]
  | deliver _ _ ih => rw [Ledger.pushed_append, ih, List.append_nil]
  | drift _ _ _ _ _ ih => exact ih

end Network

namespace CentralMetrics

/-- Of the reports that have come in the store holds the latest, and they are as many as the
executions in a list, altogether and for every session and token. -/
structure Tallies (c : CentralMetrics α) (received : List (MetricsRecord α))
    (executions : List Subject) : Prop where
  stored : c.records = received.rtake c.capacity
  totalReceived : c.totalReceived = received.length
  total : received.length = executions.length
  counts : ∀ subject,
    (received.map MetricsRecord.subject).count subject = executions.count subject

omit [Scalar α] in
theorem tallies_pushAll {capacity : Nat} {received : List (MetricsRecord α)}
    {executions : List Subject} (h : (received.map MetricsRecord.subject).Perm executions) :
    ((empty capacity : CentralMetrics α).pushAll received).Tallies received executions := by
  obtain ⟨hrecords, hcapacity, htotal⟩ := gains_iff.mpr (Eq.refl ((empty capacity).pushAll received))
  refine ⟨?_, ?_, ?_, List.perm_iff_count.mp h⟩
  · rw [hrecords, hcapacity]
    rfl
  · rw [htotal]
    exact Nat.zero_add _
  · rw [← h.length_eq, List.length_map]

end CentralMetrics

namespace Network

variable {e : Encoding α} {admits : Network α → Coordinator.Job α → Prop} {n : Network α}
  {l : Ledger α}

/-- Once all reports have arrived, the metrics count what the coordinator accepted and what workers
pushed to it. So they count every accepted execution once just if nothing was pushed, as in runs
where no worker sends its reports to the coordinator. -/
theorem tallies_accepted_iff (hn : Course e admits n l) (harrived : n.arrivals = []) :
    n.coordinator.metrics.Tallies l.received (l.accepted ++ l.pushed) ∧
      (n.coordinator.metrics.Tallies l.received l.accepted ↔ l.pushed = []) ∧
      ((∀ m job, admits m job → m.Discreet job) →
        n.coordinator.metrics.Tallies l.received l.accepted) := by
  obtain ⟨capacity, hmetrics⟩ := hn.accounted.stored
  have hperm := hn.accounted.counted
  rw [harrived, List.append_nil] at hperm
  have hall : n.coordinator.metrics.Tallies l.received (l.accepted ++ l.pushed) := by
    rw [hmetrics]
    exact CentralMetrics.tallies_pushAll hperm
  have hiff : n.coordinator.metrics.Tallies l.received l.accepted ↔ l.pushed = [] := by
    constructor
    · intro haccepted
      have hlength := hall.total.symm.trans haccepted.total
      rw [List.length_append] at hlength
      exact List.eq_nil_of_length_eq_zero (by omega)
    · intro hnone
      rwa [hnone, List.append_nil] at hall
  exact ⟨hall, hiff, fun hadmits => hiff.mpr (hn.pushed_eq_nil hadmits)⟩

/-- The ledger of jobs that are done one after the other. -/
private def jobsLedger (e : Encoding α) : List (Coordinator.Job α) → Network α → Ledger α
  | [], _ => .empty
  | job :: jobs, n =>
    n.ledger e job ++ jobsLedger e jobs (perform e (job.procedure e.describe) n).2

private theorem Course.afterJobs (jobs : List (Coordinator.Job α))
    (hjobs : ∀ job ∈ jobs, ∀ r, job ≠ .serve (.submitMetrics r))
    (hn : Course e (fun _ _ => True) n l) :
    Course e (fun _ _ => True) (n.afterJobs e jobs) (l ++ jobsLedger e jobs n) := by
  induction jobs generalizing n l with
  | nil =>
    rw [jobsLedger, Ledger.append_empty]
    exact hn
  | cons job jobs ih =>
    have hrest := ih (fun x hx => hjobs x (List.mem_cons_of_mem job hx))
      (hn.work job trivial (hjobs job List.mem_cons_self))
    rwa [Ledger.append_assoc] at hrest

private def pushingWorker : Peer Binary64 :=
  let p := Peer.small "w" (.passthrough "cpu" 0)
  { p with worker := { p.worker with
    config := { p.worker.config with coordinatorAddress := some "c:1", pushMetrics := true } } }

private def oneToken : List (Coordinator.Job Binary64) :=
  [.install { (default : Plan Binary64) with stages := [.small 0 "c", .small 1 "w"] },
    .serve (.createSession ⟨"s", ⟨"", 0, "", false⟩, [], 0, .u8⟩),
    .serve (.executeForward ⟨"s", 7, ⟨.u8, [1], [3], 1⟩, []⟩)]

private def afterToken (c : Coordinator Binary64) : Network Binary64 :=
  (small c [pushingWorker]).afterJobs .payload oneToken

/-- A pass through a stage of the coordinator and one of a worker that pushes is two executions, and
three reports come in. -/
theorem tallies_accepted_iff_pushing :
    ∃ (n : Network Binary64) (l : Ledger Binary64), Course .payload (fun _ _ => True) n l ∧
      l.accepted = [(some "s", some 7), (some "s", some 7)] ∧ l.pushed = [(some "s", some 7)] ∧
      n.arrivals = [] ∧ n.coordinator.metrics.totalReceived = 3 ∧
      ¬n.coordinator.metrics.Tallies l.received l.accepted := by
  have hfacts : (Coordinator.small .standard).toOption.map (fun c =>
      ((afterToken c).listening, ((afterToken c).peer? (afterToken c).address).isNone,
        (afterToken c).deliverReports.arrivals.length)) = some (true, true, 0) := by
    decide +kernel
  have hexecuted : (Coordinator.small .standard).toOption.map (fun c =>
      ((jobsLedger .payload oneToken (small c [pushingWorker])).accepted,
        (jobsLedger .payload oneToken (small c [pushingWorker])).pushed)) =
      some ([(some "s", some 7), (some "s", some 7)], [(some "s", some 7)]) := by
    decide +kernel
  cases hstart : Coordinator.small .standard with
  | error err => simp [hstart, Except.toOption] at hfacts
  | ok c =>
    simp only [hstart, Except.toOption, Option.map_some, Option.some.injEq, Prod.mk.injEq,
      Option.isNone_iff_eq_none, List.length_eq_zero_iff] at hfacts hexecuted
    obtain ⟨hlistening, hfree, harrived⟩ := hfacts
    obtain ⟨haccepted, hpushed⟩ := hexecuted
    have halone : Course .payload (fun _ _ => True) (small c []) .empty := .start hstart rfl
    have hjoined : Course .payload (fun _ _ => True) (small c [pushingWorker]) .empty :=
      halone.drift rfl rfl (List.nodup_singleton _) (.refl _)
    have htoken := hjoined.afterJobs oneToken (by simp [oneToken])
    rw [Ledger.empty_append] at htoken
    generalize jobsLedger .payload oneToken (small c [pushingWorker]) = l at haccepted hpushed htoken
    have hn := htoken.deliver ⟨hlistening, hfree⟩
    obtain ⟨hall, hiff, -⟩ := tallies_accepted_iff hn harrived
    rw [Ledger.accepted_append, Ledger.pushed_append, List.append_nil, List.append_nil, haccepted,
      hpushed] at hall hiff
    refine ⟨_, _, hn, ?_, ?_, harrived, hall.totalReceived.trans hall.total, fun htallies => ?_⟩
    · rw [Ledger.accepted_append, haccepted, List.append_nil]
    · rw [Ledger.pushed_append, hpushed, List.append_nil]
    · rw [Ledger.accepted_append, List.append_nil, haccepted] at htallies
      cases hiff.mp htallies

end Network

end LayerPipeline
