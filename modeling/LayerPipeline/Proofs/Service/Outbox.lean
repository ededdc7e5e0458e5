import LayerPipeline.Proofs.Service.SlidingWindow
import LayerPipeline.Proofs.Service.Marks
import LayerPipeline.Proofs.Service.Permits
import LayerPipeline.Proofs.Service.WorkerTable

/-!
# Reports on their way

A worker puts a report on its way when it has run a stage and is told where reports go, and at no
other time. So the reports that are on their way to the coordinator grow by those of the stages that
its workers run for it, and nothing else that it asks of them adds any.
-/

namespace LayerPipeline

open Procedure

variable {α β : Type}

/-- The session and the token that a report is about. -/
abbrev Subject := Option String × Option UInt64

/-- The session and the token that a record is about. -/
def MetricsRecord.subject (entry : MetricsRecord α) : Subject := (entry.sessionId, entry.tokenIndex)

/-- The session and the token of a forward pass. -/
def ExecuteForward.subject (r : ExecuteForward) : Subject := (some r.sessionId, some r.tokenIndex)

/-- The session and the token that a stage outside of any session is run for. -/
def StageForward.subject (r : StageForward) : Subject := (some r.sessionId, some r.tokenIndex)

/-- Requests that open, close or ask, and have no stage run. -/
def Request.isBrief : Request α → Bool
  | .createSession _ | .closeSession _ | .reportCapabilities _ => true
  | _ => false

namespace Worker

/-! ## Workers -/

variable {w w' m : Worker α} {to? : Option String} {subject : Subject}

/-- Work that neither puts a report on its way nor changes where reports go. -/
def Silent (w w' : Worker α) : Prop := w'.config = w.config ∧ w'.outbox = w.outbox

theorem Silent.trans (h : Silent w m) (h' : Silent m w') : Silent w w' :=
  ⟨h'.1.trans h.1, h'.2.trans h.2⟩

/-- A procedure of silent steps. -/
def Mute (p : Worker.Action α β) : Prop := Confined Silent (fun _ => True) (fun _ => True) p

theorem Mute.silent {p : Worker.Action α β} (hp : Mute p) {b : β} (hrun : Runs Unasked p w b w') :
    Silent w w' := by
  have hrefl : ∀ w : Worker α, Silent w w := fun _ => ⟨rfl, rfl⟩
  exact Confined.runs hrefl Silent.trans (fun q => nomatch q) hp hrun

theorem mute_read (f : Worker α → β) : Mute (read f : Worker.Action α β) :=
  fun _ => ⟨⟨rfl, rfl⟩, trivial⟩

theorem mute_closeSession (id : String) : Mute (closeSession id : Worker.Action α _) := by
  refine Confined.bind (fun w => ⟨⟨rfl, rfl⟩, trivial⟩) fun found => ?_
  cases found with
  | none => trivial
  | some key => exact ⟨trivial, fun w => ⟨⟨rfl, rfl⟩, trivial, trivial⟩⟩

theorem mute_compute (stageId : String) (layers : List String) (input : Tensor) :
    Mute (compute stageId layers input : Worker.Action α _) :=
  Confined.bind (mute_read _) fun _ _ => ⟨⟨rfl, rfl⟩, trivial⟩

theorem silent_openSession (w : Worker α) (r : CreateSession) : Silent w (w.openSession r).2 := by
  rcases w.openSession_cases r with ⟨_, -, heq⟩ | ⟨-, -, heq⟩ <;> (rw [heq]; exact ⟨rfl, rfl⟩)

variable [Scalar α]

theorem mute_createSession (r : CreateSession) : Mute (createSession r : Worker.Action α _) := by
  refine Confined.bind (fun w => ⟨silent_openSession w r, trivial⟩) fun opened => ?_
  refine Confined.bind (mute_read _) fun _ => ?_
  rcases opened with ⟨id, err | u⟩ <;> trivial

theorem mute_forward (id : String) (token : UInt64) (input : Tensor) (stageIds : List String) :
    Mute (forward id token input stageIds : Worker.Action α _) := by
  unfold forward
  cases input.validate with
  | error err => trivial
  | ok _ =>
    refine Confined.bind (mute_read _) fun found => ?_
    cases found with
    | none => trivial
    | some key =>
      refine Confined.bind ⟨trivial, trivial⟩ fun _ => Confined.bind (mute_read _) fun stage => ?_
      cases stage with
      | error err => exact ⟨trivial, trivial⟩
      | ok stage =>
        refine Confined.bind (mute_compute _ _ _) fun answered => ?_
        obtain ⟨answer, elapsedMs⟩ := answered
        cases answer with
        | error err =>
          exact fun w => ⟨⟨rfl, rfl⟩, trivial, fun w => ⟨⟨rfl, rfl⟩, trivial⟩⟩
        | ok output =>
          refine fun w => ⟨⟨rfl, rfl⟩, trivial, fun w => ⟨⟨rfl, rfl⟩, ?_⟩⟩
          exact fun w => ⟨⟨rfl, rfl⟩, trivial⟩

/-- One report is put on its way to the address, if there is one. -/
def Sends (w w' : Worker α) (to? : Option String) (subject : Subject) : Prop :=
  w'.config = w.config ∧
    match to? with
    | none => w'.outbox = w.outbox
    | some address =>
      ∃ entry, entry.subject = subject ∧ w'.outbox = w.outbox ++ [(address, entry)]

omit [Scalar α] in
theorem Silent.sends (h : Silent w m) (h' : Sends m w' to? subject) : Sends w w' to? subject := by
  unfold Sends
  rw [← h.1, ← h.2]
  exact h'

/-- Where the report of a pass goes: nowhere if the engine is not called or fails. -/
def reportsTo? (w : Worker α) (r : ExecuteForward) : Option String :=
  match w.engineAnswer? r.sessionId r.input r.stageIds with
  | some (.ok _) => w.metricsSink?
  | _ => none

theorem sends_executeForward {r : ExecuteForward} {result : Except Abort (ForwardResult α)}
    (hrun : Runs Unasked (executeForward r) w result w') :
    Sends w w' (w.reportsTo? r) r.subject := by
  simp only [executeForward, runs_bind] at hrun
  obtain ⟨outcome, m, hforward, hrun⟩ := hrun
  have hsilent := (mute_forward _ _ _ _).silent hforward
  have hsink : m.metricsSink? = w.metricsSink? := by rw [metricsSink?, metricsSink?, hsilent.1]
  have hstop : ∀ err, outcome = .error err → w' = m := by
    rintro err rfl
    split at hrun
    · exact hrun.2
    · exact hrun.2
    · next heq => cases heq
  refine hsilent.sends ?_
  cases forward_outcome hforward with
  | passed hanswer =>
    simp only [runs_bind, runs_update, runs_pure] at hrun
    obtain ⟨_, _, rfl, -, rfl⟩ := hrun
    simp only [reportsTo?, hanswer, hsink]
    cases w.metricsSink? with
    | none => exact ⟨rfl, rfl⟩
    | some address => exact ⟨rfl, _, rfl, rfl⟩
  | rejected hanswer => simp [reportsTo?, hanswer, Sends, hstop _ rfl]
  | failed hanswer => simp [reportsTo?, hanswer, Sends, hstop _ rfl]

/-- Where the report of a stage outside of any session goes. -/
def reportsAside? (w : Worker α) (r : StageForward) (layers : List String) : Option String :=
  match r.activations.validate, w.engine.compute (toString r.stageId) layers r.activations with
  | .ok _, .ok _ => r.metricsUrl
  | _, _ => none

theorem sends_runStage {r : StageForward} {layers : List String}
    {result : Except Abort (StageForwarded α)}
    (hrun : Runs Unasked (runStage r layers) w result w') :
    Sends w w' (w.reportsAside? r layers) r.subject := by
  unfold runStage at hrun
  split at hrun
  · next hinvalid =>
    obtain ⟨-, rfl⟩ := hrun
    simp [reportsAside?, hinvalid, Sends]
  · next hinvalid =>
    obtain ⟨-, rfl⟩ := hrun
    simp [reportsAside?, hinvalid, Sends]
  · next hvalid =>
    simp only [runs_bind, runs_compute] at hrun
    obtain ⟨_, _, ⟨rfl, rfl⟩, hrun⟩ := hrun
    dsimp only at hrun
    split at hrun
    · next hanswer =>
      obtain ⟨-, rfl⟩ := hrun
      simp [reportsAside?, hvalid, hanswer, Sends]
    · next hanswer =>
      obtain ⟨-, rfl⟩ := hrun
      simp [reportsAside?, hvalid, hanswer, Sends]
    · next output hanswer =>
      simp only [runs_bind, runs_update, runs_read, runs_pure] at hrun
      obtain ⟨_, _, rfl, _, _, ⟨rfl, rfl⟩, _, _, rfl, -, rfl⟩ := hrun
      simp only [reportsAside?, hvalid, hanswer]
      cases r.metricsUrl with
      | none => exact ⟨rfl, rfl⟩
      | some url => exact ⟨rfl, _, rfl, rfl⟩

theorem mute_handle {request : Request α} (h : request.isBrief = true) :
    Mute (handle request : Worker.Action α _) := by
  refine Confined.bind (fun w => ⟨⟨rfl, rfl⟩, trivial⟩) fun _ => ?_
  cases request with
  | createSession r => exact Confined.bind (mute_createSession r) fun _ => trivial
  | closeSession r => exact Confined.bind (mute_closeSession r.sessionId) fun _ => trivial
  | reportCapabilities r => exact Confined.bind (mute_read _) fun _ => trivial
  | _ => cases h

end Worker

/-! ## Networks -/

/-- Executions by the session and the token they were for: those that a coordinator has accepted,
and those that a worker has reported to it. With them goes the history of the metrics: all reports
that have come in, also those that are not stored any more. -/
structure Ledger (α : Type) where
  accepted : List Subject
  pushed : List Subject
  received : List (MetricsRecord α)
deriving DecidableEq

namespace Ledger

/-- The ledger before the first execution. -/
def empty : Ledger α := ⟨[], [], []⟩

instance : Append (Ledger α) :=
  ⟨fun a b => ⟨a.accepted ++ b.accepted, a.pushed ++ b.pushed, a.received ++ b.received⟩⟩

@[simp] theorem mk_append_mk (a b c d : List Subject) (x y : List (MetricsRecord α)) :
    (⟨a, b, x⟩ ++ ⟨c, d, y⟩ : Ledger α) = ⟨a ++ c, b ++ d, x ++ y⟩ := rfl

@[simp] theorem accepted_append (a b : Ledger α) :
    (a ++ b).accepted = a.accepted ++ b.accepted := rfl

@[simp] theorem pushed_append (a b : Ledger α) : (a ++ b).pushed = a.pushed ++ b.pushed := rfl

@[simp] theorem received_append (a b : Ledger α) :
    (a ++ b).received = a.received ++ b.received := rfl

@[simp] theorem append_empty (l : Ledger α) : l ++ empty = l := by
  cases l
  simp [empty]

@[simp] theorem empty_append (l : Ledger α) : empty ++ l = l := rfl

theorem append_assoc (a b c : Ledger α) : a ++ b ++ c = a ++ (b ++ c) := by
  cases a
  cases b
  cases c
  simp

end Ledger

namespace Network

variable {n n' m : Network α} {l l' : Ledger α}

/-- The reports that are on their way to the coordinator. -/
def arrivals (n : Network α) : List (MetricsRecord α) :=
  (n.reports.filter fun report => report.1 = n.address).map (·.2)

/-- The metrics of the coordinator have grown by what it accepted, the reports that are on their way
to it by what was pushed. -/
structure Books (n n' : Network α) (l : Ledger α) : Prop where
  address : n'.address = n.address
  addresses : n'.peers.map (·.address) = n.peers.map (·.address)
  configs : ∀ p' ∈ n'.peers, ∃ p ∈ n.peers, p'.worker.config = p.worker.config
  recorded : n'.coordinator.metrics = n.coordinator.metrics.pushAll l.received
  noted : l.received.map MetricsRecord.subject = l.accepted
  sent : (n.peers.map (·.address)).Nodup →
    (n'.arrivals.map MetricsRecord.subject).Perm (n.arrivals.map MetricsRecord.subject ++ l.pushed)

/-- Nothing comes in and nothing is put on its way. -/
abbrev Tacit (n n' : Network α) : Prop := Books n n' .empty

theorem Books.trans (h : Books n m l) (h' : Books m n' l') : Books n n' (l ++ l') := by
  refine ⟨h'.address.trans h.address, h'.addresses.trans h.addresses, fun p hp => ?_, ?_, ?_,
    fun hn => ?_⟩
  · obtain ⟨q, hq, hconfig⟩ := h'.configs p hp
    obtain ⟨q', hq', hconfig'⟩ := h.configs q hq
    exact ⟨q', hq', hconfig.trans hconfig'⟩
  · rw [h'.recorded, h.recorded, Ledger.received_append, CentralMetrics.pushAll_append]
  · rw [Ledger.received_append, List.map_append, h.noted, h'.noted, Ledger.accepted_append]
  · have hm : (m.peers.map (·.address)).Nodup := by rwa [h.addresses]
    have hsent := (h'.sent hm).trans ((h.sent hn).append_right l'.pushed)
    rwa [List.append_assoc] at hsent

theorem books_setCoordinator {c : Coordinator α} (entries : List (MetricsRecord α))
    (hmetrics : c.metrics = n.coordinator.metrics.pushAll entries)
    (houtbox : c.embedded.outbox = n.coordinator.embedded.outbox) :
    Books n (n.setCoordinator c) ⟨entries.map MetricsRecord.subject, [], entries⟩ := by
  have harrivals : (n.setCoordinator c).arrivals = n.arrivals := by
    simp only [arrivals, reports, coordinator_setCoordinator, houtbox]
    rfl
  refine ⟨rfl, rfl, fun p hp => ⟨p, hp, rfl⟩, hmetrics, rfl, fun _ => ?_⟩
  rw [harrivals, List.append_nil]

theorem tacit_setCoordinator {c : Coordinator α} (hmetrics : c.metrics = n.coordinator.metrics)
    (houtbox : c.embedded.outbox = n.coordinator.embedded.outbox) :
    Tacit n (n.setCoordinator c) :=
  books_setCoordinator [] hmetrics houtbox

theorem Tacit.refl (n : Network α) : Tacit n n := tacit_setCoordinator rfl rfl

/-- The reports of a worker take their place among those of the others. -/
theorem reports_setWorker (hn : (n.peers.map (·.address)).Nodup) {address : String} {p : Peer α}
    (hp : n.peer? address = some p) {w : Worker α} {entries : List (String × MetricsRecord α)}
    (hw : w.outbox = p.worker.outbox ++ entries) :
    (n.setWorker address w).reports.Perm (n.reports ++ entries) := by
  obtain ⟨hmatch, before, after, hpeers, hbefore⟩ := List.find?_eq_some_iff_append.mp hp
  have hafter : ∀ x ∈ after, (x.listening && decide (x.address = address)) = false := by
    simp only [Bool.and_eq_true, decide_eq_true_eq] at hmatch
    obtain ⟨-, rfl⟩ := hmatch
    simp only [hpeers, List.map_append, List.map_cons, List.nodup_append, List.nodup_cons] at hn
    intro x hx
    have hne : x.address ≠ p.address := fun heq => hn.2.1.1 (heq ▸ List.mem_map_of_mem hx)
    simp [hne]
  -- no other worker listens at the address
  have hset : (n.setWorker address w).peers = before ++ { p with worker := w } :: after := by
    have hsame : ∀ ps : List (Peer α),
        (∀ x ∈ ps, (x.listening && decide (x.address = address)) = false) →
        ps.map (fun x => if (x.listening && decide (x.address = address)) = true then
          { x with worker := w } else x) = ps := by
      intro ps hps
      refine (List.map_congr_left fun x hx => ?_).trans (List.map_id ps)
      rw [hps x hx]
      rfl
    simp only [setWorker, hpeers, List.map_append, List.map_cons, hmatch, if_true]
    have hother : ∀ x ∈ before, (x.listening && decide (x.address = address)) = false :=
      fun x hx => (Bool.not_eq_true' _).mp (hbefore x hx)
    rw [hsame before hother, hsame after hafter]
  simp only [reports, hset, hpeers, List.flatMap_append, List.flatMap_cons, hw, List.append_assoc]
  exact ((List.perm_append_comm.append_left _).append_left _).append_left _

/-- What a worker sends to the coordinator is on its way there. -/
def sent (n : Network α) (to? : Option String) (subject : Subject) : List Subject :=
  if to? = some n.address then [subject] else []

/-- One worker may have put a report on its way. -/
theorem sent_of_sends {w w' : Worker α} {to? : Option String} {subject : Subject}
    (hsends : Worker.Sends w w' to? subject) (haddress : n'.address = n.address)
    (hreports : ∀ entries, w'.outbox = w.outbox ++ entries →
      n'.reports.Perm (n.reports ++ entries)) :
    (n'.arrivals.map MetricsRecord.subject).Perm
      (n.arrivals.map MetricsRecord.subject ++ n.sent to? subject) := by
  have harrivals : ∀ entries, w'.outbox = w.outbox ++ entries →
      (n'.arrivals.map MetricsRecord.subject).Perm (n.arrivals.map MetricsRecord.subject ++
        (entries.filter fun x => x.1 = n.address).map (·.2.subject)) := by
    intro entries hentries
    have hperm := ((hreports entries hentries).filter fun x => x.1 = n.address).map (·.2.subject)
    simpa [arrivals, haddress, Function.comp_def] using hperm
  cases to? with
  | none => simpa [sent] using harrivals [] (by simpa using hsends.2)
  | some receiver =>
    obtain ⟨-, entry, rfl, hentry⟩ := hsends
    have hone := harrivals _ hentry
    by_cases h : receiver = n.address <;> simpa [sent, h] using hone

theorem books_setWorker {address : String} {p : Peer α} (hp : n.peer? address = some p)
    {w : Worker α} {to? : Option String} {subject : Subject}
    (hw : Worker.Sends p.worker w to? subject) :
    Books n (n.setWorker address w) ⟨[], n.sent to? subject, []⟩ := by
  have haddresses : (n.setWorker address w).peers.map (·.address) = n.peers.map (·.address) := by
    have hsites := congrArg (List.map (·.1)) (sites_setWorker n address w)
    simpa [Function.comp_def, Peer.site] using hsites
  refine ⟨rfl, haddresses, fun p' hp' => ?_, rfl, rfl, fun hn => ?_⟩
  · obtain ⟨x, hx, rfl⟩ := List.mem_map.mp hp'
    by_cases h : (x.listening && decide (x.address = address)) = true
    · exact ⟨p, List.mem_of_find?_eq_some hp, by simpa [h] using hw.1⟩
    · exact ⟨x, hx, by simp [h]⟩
  · exact sent_of_sends hw rfl fun entries hentries => reports_setWorker hn hp hentries

theorem books_setEmbedded {w : Worker α} {to? : Option String} {subject : Subject}
    (hw : Worker.Sends n.coordinator.embedded w to? subject) :
    Books n (n.setEmbedded w) ⟨[], n.sent to? subject, []⟩ := by
  refine ⟨rfl, rfl, fun p hp => ⟨p, hp, rfl⟩, rfl, rfl, fun _ => ?_⟩
  refine sent_of_sends hw rfl fun entries hentries => ?_
  simp only [reports, setEmbedded, coordinator_setCoordinator, peers_setCoordinator, hentries,
    List.append_assoc]
  exact List.perm_append_comm.append_left _

theorem tacit_setWorker {address : String} {p : Peer α} (hp : n.peer? address = some p)
    {w : Worker α} (hw : Worker.Silent p.worker w) : Tacit n (n.setWorker address w) := by
  have hsends : Worker.Sends p.worker w none (none, none) := hw
  exact books_setWorker hp hsends

theorem tacit_countRequest (n : Network α) :
    Tacit n (n.setCoordinator n.coordinator.countRequest) :=
  tacit_setCoordinator rfl rfl

/-! ## Calls -/

section Calls

variable [Scalar α] {e : Encoding α} {a : Except LinkError (Response α)} {q : Call α}

/-- The worker that gets to read a call. -/
def reader? (e : Encoding α) (q : Call α) (n : Network α) : Option (Peer α) :=
  if q.config.callTimeoutMs = 0 ∨ UInt32.size ≤ e.requestBytes q.request then none
  else (n.peer? q.address).filter fun p => e.requestBytes q.request ≤ p.frameLimit

omit [Scalar α] in
theorem reader?_eq_some_iff {p : Peer α} : reader? e q n = some p ↔
    q.config.callTimeoutMs ≠ 0 ∧ e.requestBytes q.request < UInt32.size ∧
      n.peer? q.address = some p ∧ e.requestBytes q.request ≤ p.frameLimit := by
  unfold reader?
  split
  · next h =>
    constructor
    · intro hnone
      cases hnone
    · intro ⟨htime, hsize, _⟩
      rcases h with h | h
      · exact absurd h htime
      · omega
  · next h =>
    rw [not_or, Nat.not_le] at h
    simp [h, Option.filter_eq_some_iff]

/-- A call that no worker gets to read adds nothing. -/
theorem Exchanged.tacit_of_reader? (h : Exchanged e q n a n') (hq : reader? e q n = none) :
    Tacit n n' := by
  cases h.outcome with
  | unsent err => exact .refl n
  | unread reason hp => exact tacit_setWorker hp ⟨rfl, rfl⟩
  | served hp htime hsize hlimit =>
    cases hq.symm.trans (reader?_eq_some_iff.mpr ⟨htime, hsize, hp, hlimit⟩)
  | echo => exact tacit_countRequest n
  | stuck => exact tacit_countRequest n

theorem Exchanged.tacit (h : Exchanged e q n a n') (hq : q.request.isBrief = true) :
    Tacit n n' := by
  cases h.outcome with
  | unsent err => exact .refl n
  | unread reason hp => exact tacit_setWorker hp ⟨rfl, rfl⟩
  | served hp _ _ _ hrun =>
    exact tacit_setWorker hp ((Worker.mute_handle hq).silent (Worker.runs_of_run hrun))
  | echo => exact tacit_countRequest n
  | stuck => exact tacit_countRequest n

/-- A pass that a worker gets to read adds the report of the worker. -/
theorem Exchanged.books {p : Peer α} {r : ExecuteForward} (h : Exchanged e q n a n')
    (hq : q.request = .executeForward r) (hp : reader? e q n = some p) :
    Books n n' ⟨[], n.sent (p.worker.reportsTo? r) r.subject, []⟩ := by
  obtain ⟨htime, hsize, hp, hlimit⟩ := reader?_eq_some_iff.mp hp
  obtain ⟨p', hp', heq⟩ := Takes.exchange_eq ⟨htime, hsize, p, hp, hlimit⟩
  cases hp.symm.trans hp'
  obtain ⟨-, rfl⟩ := h
  rw [heq]
  have hrun := Worker.runs_run (Worker.handle q.request) p.worker
  rw [hq] at hrun ⊢
  simp only [Worker.handle, runs_bind, runs_update, runs_pure] at hrun
  obtain ⟨_, _, rfl, result, _, hforward, -, rfl⟩ := hrun
  have hcount : Worker.Silent p.worker p.worker.countRequest := ⟨rfl, rfl⟩
  exact books_setWorker hp' (hcount.sends (Worker.sends_executeForward hforward))

/-! ## Other work of a coordinator -/

/-- Work that neither takes in a report nor puts one on its way. -/
def Steady (c c' : Coordinator α) : Prop :=
  c'.metrics = c.metrics ∧ c'.embedded.outbox = c.embedded.outbox

omit [Scalar α] in
theorem steady_dropSilent (c : Coordinator α) : Steady c c.dropSilent := by
  obtain ⟨_, _, heq⟩ := c.dropSilent_eq
  rw [heq]
  exact ⟨rfl, rfl⟩

theorem steady_of_touches {c c' : Coordinator α} (h : Coordinator.Touches c c') : Steady c c' := by
  cases h with
  | aside _ _ _ _ _ hmetrics hembedded => exact ⟨hmetrics, by rw [hembedded]⟩
  | dropSilent => exact steady_dropSilent c
  | activate | judge | reserveFor | releaseFor => exact ⟨rfl, rfl⟩

/-- Whatever the coordinator does for others, passes through stages and reports apart, adds
nothing. -/
theorem permits_steady :
    Coordinator.Permits (Coordinator.Moves (Steady (α := α)) fun q => q.request.isBrief = true) where
  toComposes := Coordinator.composes_moves _ _
  touch hf := Coordinator.moves_atomically fun c => steady_of_touches (hf c)
  openEmbedded r := Confined.widen ((Worker.mute_createSession r).within fun _ _ h => ⟨rfl, h.2⟩)
  closeEmbedded id := Confined.widen ((Worker.mute_closeSession id).within fun _ _ h => ⟨rfl, h.2⟩)
  askOpen _ _ _ := ⟨rfl, fun _ => trivial⟩
  askClose _ _ _ := ⟨rfl, fun _ => trivial⟩
  askReport _ _ _ := ⟨rfl, fun _ => trivial⟩

theorem tacit_of_moves {p : Coordinator.Action α β} {b : β}
    (hp : Coordinator.Moves Steady (fun q => q.request.isBrief = true) p)
    (hrun : Runs (Exchanged e) (ofCoordinator p) n b n') : Tacit n n' := by
  refine Confined.runs Tacit.refl (fun h h' => h.trans h') ?_
    (hp.within fun n c h => tacit_setCoordinator h.1 h.2) hrun
  intro q n a n' hq hanswer
  exact hanswer.tacit hq

end Calls

end Network

end LayerPipeline
