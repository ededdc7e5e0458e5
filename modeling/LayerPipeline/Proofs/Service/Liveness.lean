import LayerPipeline.Proofs.Service.Exclusion

/-!
# Heartbeats and health

The roster knows which nodes are healthy, and the heartbeat monitor which nodes are waited for.
Almost everything that a coordinator does changes the two together. Where it does not, a node is
waited for that is unhealthy already, or that is the coordinator itself.
-/

namespace LayerPipeline

open Procedure

variable {α : Type}

/-! ## The monitor -/

namespace HeartbeatMonitor

variable {m : HeartbeatMonitor} {id k : String} {t now : Nat}

theorem mem_beat : (k, t) ∈ (m.beat id now).lastSeen ↔
    k = id ∧ t = now ∨ k ≠ id ∧ (k, t) ∈ m.lastSeen := by
  simp [beat, and_comm]

theorem mem_remove : (k, t) ∈ (m.remove id).lastSeen ↔ k ≠ id ∧ (k, t) ∈ m.lastSeen := by
  simp [remove, and_comm]

theorem mem_tracked : id ∈ m.tracked ↔ ∃ t, (id, t) ∈ m.lastSeen := by
  simp [tracked]

theorem mem_timedOut : id ∈ m.timedOut now ↔
    ∃ t, (id, t) ∈ m.lastSeen ∧ m.timeout < now - t := by
  simp [timedOut]

end HeartbeatMonitor

/-! ## Health -/

namespace Registry

/-- The same nodes are healthy. -/
def SameHealth (r r' : Registry α) : Prop := ∀ id, r'.isHealthy id = r.isHealthy id

theorem SameHealth.of_roster {r r' : Registry α} (h : r'.roster = r.roster) : SameHealth r r' := by
  intro id
  rw [isHealthy, isHealthy, get?, get?, h]

theorem SameHealth.trans {r m r' : Registry α} (h : SameHealth r m) (h' : SameHealth m r') :
    SameHealth r r' :=
  fun id => (h' id).trans (h id)

/-- A change of one node that leaves its health alone. -/
theorem sameHealth_of_modify {r r' : Registry α} {f : RegisteredNode α → RegisteredNode α}
    (id : String) (hroster : r'.roster = r.roster.modify id f)
    (hf : ∀ n, (f n).healthy = n.healthy) : SameHealth r r' := by
  intro k
  rw [isHealthy, isHealthy, get?_of_modify hroster]
  split
  · next hk =>
    rw [hk, Option.map_map]
    congr 2
    funext n
    exact hf n
  · rfl

theorem sameHealth_recordSuccess (r : Registry α) (id : String) :
    SameHealth r (r.recordSuccess id) :=
  sameHealth_of_modify id rfl fun _ => rfl

theorem isHealthy_markUnhealthy (r : Registry α) (id reason k : String) :
    (r.markUnhealthy id reason).isHealthy k = if k = id then false else r.isHealthy k := by
  rw [isHealthy, markUnhealthy, get?_modify]
  split
  · cases r.get? id <;> rfl
  · rfl

section Scalar

variable [Scalar α]

theorem isHealthy_register {r r' : Registry α} {d : Descriptor α} (h : r.register d = .ok r')
    (k : String) : r'.isHealthy k = if k = d.nodeId then true else r.isHealthy k := by
  rw [isHealthy, get?_register h]
  split
  · rfl
  · rfl

theorem sameHealth_reserve (r : Registry α) (id : String) (gb : α) :
    SameHealth r ((r.reserve id gb).toOption.getD r) := by
  unfold reserve
  split
  · split
    · exact .of_roster rfl
    · exact sameHealth_of_modify id rfl fun _ => rfl
  · exact .of_roster rfl

theorem sameHealth_release (r : Registry α) (id : String) (gb : α) :
    SameHealth r ((r.release id gb).toOption.getD r) := by
  unfold release
  split
  · exact .of_roster rfl
  · simp only
    split
    · exact sameHealth_of_modify id rfl fun _ => rfl
    · exact .of_roster rfl
    · exact sameHealth_of_modify id rfl fun _ => rfl

theorem sameHealth_reserveStages (r : Registry α) (stages : List (Stage α)) :
    SameHealth r (Coordinator.reserveStages r stages) := by
  unfold Coordinator.reserveStages
  induction stages generalizing r with
  | nil => exact .of_roster rfl
  | cons s stages ih => exact (sameHealth_reserve r _ _).trans (ih _)

theorem sameHealth_releaseStages (r : Registry α) (stages : List (Stage α)) :
    SameHealth r (Coordinator.releaseStages r stages) := by
  unfold Coordinator.releaseStages
  induction stages generalizing r with
  | nil => exact .of_roster rfl
  | cons s stages ih => exact (sameHealth_release r _ _).trans (ih _)

theorem sameHealth_updateLoad (r : Registry α) (id : String) (load : α) (active : UInt32) :
    SameHealth r (r.updateLoad id load active) := by
  unfold updateLoad
  split
  · exact sameHealth_of_modify id rfl fun _ => rfl
  · exact .of_roster rfl

end Scalar

end Registry

/-! ## Steps of a coordinator -/

namespace Coordinator

variable {c m c' : Coordinator α} {id : String}

/-- The coordinator takes part, and the id is its own. -/
def IsOwn (c : Coordinator α) (id : String) : Prop :=
  c.config.participate = true ∧ id = c.nodeId

/-- A node has the same health, and was last heard of at the same time. -/
def SameSigns (id : String) (c c' : Coordinator α) : Prop :=
  c'.registry.isHealthy id = c.registry.isHealthy id ∧
    ∀ t, (id, t) ∈ c'.heartbeats.lastSeen ↔ (id, t) ∈ c.heartbeats.lastSeen

/-- What the coordinator goes by does not change. -/
structure SameRules (c c' : Coordinator α) : Prop where
  config : c'.config = c.config
  capability : c'.capability = c.capability
  timeout : c'.heartbeats.timeout = c.heartbeats.timeout

/-- No node gives a sign of life: each of them is as it was, or is unhealthy and no longer waited
for. -/
structure Watches (c c' : Coordinator α) : Prop extends SameRules c c' where
  node : ∀ id, SameSigns id c c' ∨
    c'.registry.isHealthy id = false ∧ ∀ t, (id, t) ∉ c'.heartbeats.lastSeen

/-- One node gives a sign of life, all others are as they were. -/
structure Hears (id : String) (c c' : Coordinator α) : Prop extends SameRules c c' where
  seen : ∀ t, (id, t) ∈ c'.heartbeats.lastSeen ↔ t = c.clock.micros
  other : ∀ k, k ≠ id → SameSigns k c c'

theorem SameRules.isOwn_iff (h : SameRules c c') : c'.IsOwn id ↔ c.IsOwn id := by
  rw [IsOwn, IsOwn, nodeId, nodeId, h.config, h.capability]

theorem watches_of_sameHealth (hconfig : c'.config = c.config)
    (hcapability : c'.capability = c.capability) (hheartbeats : c'.heartbeats = c.heartbeats)
    (hregistry : c.registry.SameHealth c'.registry) : Watches c c' where
  config := hconfig
  capability := hcapability
  timeout := by rw [hheartbeats]
  node id := .inl ⟨hregistry id, by rw [hheartbeats]; exact fun _ => Iff.rfl⟩

theorem Watches.refl (c : Coordinator α) : Watches c c :=
  watches_of_sameHealth rfl rfl rfl (.of_roster rfl)

theorem Watches.trans (h : Watches c m) (h' : Watches m c') : Watches c c' where
  config := h'.config.trans h.config
  capability := h'.capability.trans h.capability
  timeout := h'.timeout.trans h.timeout
  node id := by
    rcases h'.node id with ⟨hhealth, hseen⟩ | hout
    · rw [SameSigns, hhealth]
      simp only [hseen]
      exact h.node id
    · exact .inr hout

theorem watches_markUnhealthy (id reason : String) (c : Coordinator α) :
    Watches c (c.markUnhealthy id reason) where
  config := rfl
  capability := rfl
  timeout := rfl
  node k := by
    simp only [SameSigns, markUnhealthy, Registry.isHealthy_markUnhealthy,
      HeartbeatMonitor.mem_remove]
    by_cases hk : k = id <;> simp [hk]

theorem Watches.unhealthy (h : Watches c c') (hid : c.registry.isHealthy id = false) :
    c'.registry.isHealthy id = false := by
  rcases h.node id with ⟨hhealth, -⟩ | ⟨hhealth, -⟩
  · rw [hhealth, hid]
  · exact hhealth

theorem watches_foldl_markUnhealthy (silent : List String) (reason : String) (c : Coordinator α) :
    Watches c (silent.foldl (fun c id => c.markUnhealthy id reason) c) := by
  induction silent generalizing c with
  | nil => exact .refl c
  | cons id silent ih => exact (watches_markUnhealthy id reason c).trans (ih _)

theorem watches_dropSilent (c : Coordinator α) : Watches c c.dropSilent :=
  watches_foldl_markUnhealthy _ _ c

/-- A node that was silent for too long is unhealthy after a sweep. -/
theorem isHealthy_dropSilent (hid : id ∈ c.heartbeats.timedOut c.clock.micros) :
    c.dropSilent.registry.isHealthy id = false := by
  unfold dropSilent
  generalize c.heartbeats.timedOut c.clock.micros = silent at hid
  induction silent generalizing c with
  | nil => cases hid
  | cons k silent ih =>
    by_cases hlater : id ∈ silent
    · exact ih hlater
    · obtain rfl : id = k := (List.mem_cons.mp hid).resolve_right hlater
      refine (watches_foldl_markUnhealthy silent _ _).unhealthy ?_
      exact (c.registry.isHealthy_markUnhealthy id _ id).trans (if_pos rfl)

section Scalar

variable [Scalar α]

theorem Touches.watches (h : Touches c c') : Watches c c' := by
  cases h with
  | aside hconfig hcapability hregistry _ hheartbeats =>
    exact watches_of_sameHealth hconfig hcapability hheartbeats (.of_roster (by rw [hregistry]))
  | activate => exact watches_of_sameHealth rfl rfl rfl (.of_roster rfl)
  | judge id reason => exact watches_markUnhealthy id reason c
  | dropSilent => exact watches_dropSilent c
  | reserveFor _ p =>
    exact watches_of_sameHealth rfl rfl rfl (c.registry.sameHealth_reserveStages p.stages)
  | releaseFor _ _ p =>
    exact watches_of_sameHealth rfl rfl rfl (c.registry.sameHealth_releaseStages p.stages)

theorem permitsPasses_watches :
    PermitsPasses (Moves (Watches : Coordinator α → _ → Prop) fun _ => True) := by
  refine permitsPasses_moves ⟨.refl, fun c w _ => ?_⟩ (fun _ _ h => h.watches) (fun id c => ?_)
    fun c metrics => ?_
  · exact watches_of_sameHealth rfl rfl rfl (.of_roster rfl)
  · exact watches_of_sameHealth rfl rfl rfl (c.registry.sameHealth_recordSuccess id)
  · exact watches_of_sameHealth rfl rfl rfl (.of_roster rfl)

omit [Scalar α] in
theorem watches_countRequest (c : Coordinator α) : Watches c c.countRequest :=
  watches_of_sameHealth rfl rfl rfl (.of_roster rfl)

omit [Scalar α] in
theorem watches_of_moves {β : Type} {p : Action α β} {b : β}
    (hp : Moves Watches (fun _ => True) p) (hrun : Runs Answered p c b c') : Watches c c' := by
  refine Confined.runs .refl .trans ?_ hp hrun
  rintro q c a c' - (rfl | rfl)
  · exact .refl _
  · exact watches_countRequest c

/-- The node that a job is taken for a sign of life of: a registration that is accepted, or a
heartbeat of a node that is healthy. -/
def Job.sign? (c : Coordinator α) : Job α → Option String
  | .serve (.registerWorker d) => (c.enroll d).toOption.map fun _ => d.nodeId
  | .serve (.heartbeat h) => if c.registry.isHealthy h.nodeId then some h.nodeId else none
  | _ => none

variable {describe : Response α → String}

theorem enroll_countRequest (c : Coordinator α) (d : Descriptor α) :
    c.countRequest.enroll d = (c.enroll d).map countRequest := by
  rw [enroll, enroll, show c.countRequest.config = c.config from rfl,
    show c.countRequest.nodeId = c.nodeId from rfl,
    show c.countRequest.registry = c.registry from rfl]
  split
  · rfl
  · cases c.registry.register d <;> rfl

theorem not_isOwn_of_enroll {d : Descriptor α} (h : c.enroll d = .ok m) : ¬c.IsOwn d.nodeId := by
  rintro ⟨hparticipate, hid⟩
  simp [enroll, hparticipate, hid] at h

theorem hears_enroll {d : Descriptor α} (h : c.enroll d = .ok m) : Hears d.nodeId c m := by
  obtain ⟨registry, hregistry, rfl⟩ := enroll_eq_ok h
  refine ⟨⟨rfl, rfl, rfl⟩, fun t => ?_, fun k hk => ⟨?_, fun t => ?_⟩⟩
  · exact HeartbeatMonitor.mem_beat.trans (by simp)
  · exact (Registry.isHealthy_register hregistry k).trans (if_neg hk)
  · exact HeartbeatMonitor.mem_beat.trans (by simp [hk])

/-- The answer to the query that follows a registration changes no signs of other nodes, and the
monitor not at all. -/
theorem Hears.confirm {d : Descriptor α} (h : Hears d.nodeId c m)
    (answer : Except LinkError (CapabilityReport α)) :
    Hears d.nodeId c (m.confirm d answer).2 := by
  obtain ⟨registry, heq, hregistry⟩ := m.confirm_cases d answer
  have hhealth : ∀ k, k ≠ d.nodeId → registry.isHealthy k = m.registry.isHealthy k := by
    intro k hk
    rcases hregistry with rfl | ⟨report, hreport⟩ | ⟨reason, rfl⟩
    · rfl
    · rcases m.registry.applyCapabilities_cases report with ⟨_, -, hok⟩ | ⟨-, _, herror⟩
      · cases hreport.symm.trans hok
        rfl
      · cases hreport.symm.trans herror
    · exact (m.registry.isHealthy_markUnhealthy d.nodeId reason k).trans (if_neg hk)
  rw [heq]
  exact ⟨⟨h.config, h.capability, h.timeout⟩, h.seen,
    fun k hk => ⟨(hhealth k hk).trans (h.other k hk).1, (h.other k hk).2⟩⟩

/-- A registration that is accepted is a sign of life, whether the worker answers then or not. -/
theorem runs_registerWorker {d : Descriptor α} {u : Unit}
    (hrun : Runs Answered (Job.procedure describe (.serve (.registerWorker d))) c u c') :
    (∃ err, c.enroll d = .error err) ∧ c' = c.countRequest ∨
      ∃ m, c.enroll d = .ok m ∧ Hears d.nodeId c c' := by
  simp only [Job.procedure, handle, runs_bind, runs_update, runs_pure] at hrun
  obtain ⟨_, _, ⟨_, _, rfl, result, k, hregister, hanswer⟩, -, rfl⟩ := hrun
  obtain rfl : c' = k := by split at hanswer <;> exact hanswer.2
  rcases registerWorker_outcome (fun _ _ _ _ h => h) hregister with
    ⟨err, henroll, -, rfl⟩ | ⟨m, answer, stats, henroll, -, rfl, -⟩
  · left
    rw [enroll_countRequest] at henroll
    cases h : c.enroll d with
    | error err => exact ⟨⟨err, rfl⟩, rfl⟩
    | ok m => simp [h, Except.map] at henroll
  · right
    obtain ⟨m', hm'⟩ := enroll_of_countRequest henroll
    obtain ⟨hrules, hseen, hother⟩ := hears_enroll henroll
    have hcounted : Hears d.nodeId c { m with stats } :=
      ⟨⟨hrules.config, hrules.capability, hrules.timeout⟩, hseen, hother⟩
    exact ⟨m', hm', hcounted.confirm answer⟩

/-- A heartbeat of a healthy node is a sign of life, any other changes nothing. -/
theorem runs_heartbeat {h : Heartbeat α} {u : Unit}
    (hrun : Runs Answered (Job.procedure describe (.serve (.heartbeat h))) c u c') :
    c.registry.isHealthy h.nodeId = false ∧ c' = c.countRequest ∨
      c.registry.isHealthy h.nodeId = true ∧ Hears h.nodeId c c' ∧
        c'.registry.isHealthy h.nodeId = true := by
  simp only [Job.procedure, handle, runs_bind, runs_update, runs_atomically, runs_pure] at hrun
  obtain ⟨_, _, ⟨_, _, rfl, _, _, ⟨-, rfl⟩, -, rfl⟩, -, rfl⟩ := hrun
  have hhealth := c.registry.sameHealth_updateLoad h.nodeId h.loadFactor h.activeSessions
  cases hhealthy : c.registry.isHealthy h.nodeId with
  | false =>
    left
    refine ⟨rfl, ?_⟩
    rw [heartbeat, if_neg]
    exact fun hyes => Bool.false_ne_true (hhealthy.symm.trans hyes)
  | true =>
    right
    refine ⟨rfl, ?_⟩
    rw [heartbeat, if_pos (show c.countRequest.registry.isHealthy h.nodeId = true from hhealthy)]
    refine ⟨⟨⟨rfl, rfl, rfl⟩, fun t => ?_, fun x hx => ⟨hhealth x, fun t => ?_⟩⟩,
      (hhealth h.nodeId).trans hhealthy⟩
    · exact HeartbeatMonitor.mem_beat.trans (by simp [countRequest])
    · exact HeartbeatMonitor.mem_beat.trans (by simp [hx, countRequest])

theorem watches_job {job : Job α} {u : Unit} (hsign : job.sign? c = none)
    (hrun : Runs Answered (job.procedure describe) c u c') : Watches c c' := by
  by_cases hregister : ∃ d, job = .serve (.registerWorker d)
  · obtain ⟨d, rfl⟩ := hregister
    rcases runs_registerWorker hrun with ⟨-, rfl⟩ | ⟨m, henroll, -⟩
    · exact watches_countRequest c
    · simp [Job.sign?, henroll, Except.toOption] at hsign
  by_cases hheartbeat : ∃ h, job = .serve (.heartbeat h)
  · obtain ⟨h, rfl⟩ := hheartbeat
    rcases runs_heartbeat hrun with ⟨-, rfl⟩ | ⟨hhealthy, -⟩
    · exact watches_countRequest c
    · simp [Job.sign?, hhealthy] at hsign
  · have hmoves := permitsPasses_watches.job describe
      (fun d hd => absurd ⟨d, hd⟩ hregister) fun h hh => absurd ⟨h, hh⟩ hheartbeat
    exact watches_of_moves hmoves hrun

theorem hears_job {job : Job α} {u : Unit} (hsign : job.sign? c = some id)
    (hrun : Runs Answered (job.procedure describe) c u c') : Hears id c c' := by
  unfold Job.sign? at hsign
  split at hsign
  · obtain ⟨m, hm, rfl⟩ := Option.map_eq_some_iff.mp hsign
    rcases runs_registerWorker hrun with ⟨⟨err, herr⟩, -⟩ | ⟨-, -, hhears⟩
    · simp [herr, Except.toOption] at hm
    · exact hhears
  · split at hsign
    · next hhealthy =>
      obtain rfl := Option.some.inj hsign
      rcases runs_heartbeat hrun with ⟨hsick, -⟩ | ⟨-, hhears, -⟩
      · cases hsick.symm.trans hhealthy
      · exact hhears
    · cases hsign
  · cases hsign

/-! ## Tracking and health -/

/-- The monitor waits for the nodes that are registered and healthy, the coordinator's own node
apart, and for no others. -/
def Matched (c : Coordinator α) : Prop :=
  ∀ id, id ∈ c.heartbeats.tracked ↔ c.registry.isHealthy id = true ∧ ¬c.IsOwn id

/-- The jobs after which the monitor waits for a node that it should not wait for. -/
inductive Strays (c c' : Coordinator α) : Job α → Prop
  /-- A worker is registered and found unhealthy by the query that follows. -/
  | unanswered {d : Descriptor α} {m : Coordinator α} : c.enroll d = .ok m →
      c'.registry.isHealthy d.nodeId = false → Strays c c' (.serve (.registerWorker d))
  /-- A heartbeat names the coordinator itself. -/
  | own {h : Heartbeat α} : c.registry.isHealthy h.nodeId = true → c.IsOwn h.nodeId →
      Strays c c' (.serve (.heartbeat h))

omit [Scalar α] in
theorem Watches.matched (h : Watches c c') (hc : Matched c) : Matched c' := by
  intro id
  rw [HeartbeatMonitor.mem_tracked, h.isOwn_iff]
  rcases h.node id with ⟨hhealth, hseen⟩ | ⟨hsick, hgone⟩
  · rw [hhealth, ← hc id, HeartbeatMonitor.mem_tracked]
    simp only [hseen]
  · simp [hsick, hgone]

omit [Scalar α] in
/-- A sign of life keeps tracking and health together, if it comes from a node that is to be waited
for. -/
theorem Hears.matched_iff (h : Hears id c c') (hc : Matched c) :
    Matched c' ↔ c'.registry.isHealthy id = true ∧ ¬c.IsOwn id := by
  have hid : id ∈ c'.heartbeats.tracked :=
    HeartbeatMonitor.mem_tracked.mpr ⟨_, (h.seen _).mpr rfl⟩
  constructor
  · intro hc'
    rw [← h.isOwn_iff]
    exact (hc' id).mp hid
  · intro hright k
    by_cases hk : k = id
    · subst hk
      rw [h.isOwn_iff]
      exact ⟨fun _ => hright, fun _ => hid⟩
    · obtain ⟨hhealth, hseen⟩ := h.other k hk
      rw [HeartbeatMonitor.mem_tracked, h.isOwn_iff, hhealth, ← hc k, HeartbeatMonitor.mem_tracked]
      simp only [hseen]

/-- One job keeps tracking and health together, unless it strays. -/
theorem matched_job {job : Job α} {u : Unit} (hc : Matched c)
    (hrun : Runs Answered (job.procedure describe) c u c') : Matched c' ↔ ¬Strays c c' job := by
  cases hsign : job.sign? c with
  | none =>
    refine ⟨fun _ hstrays => ?_, fun _ => (watches_job hsign hrun).matched hc⟩
    cases hstrays with
    | unanswered henroll => simp [Job.sign?, henroll, Except.toOption] at hsign
    | own hhealthy => simp [Job.sign?, hhealthy] at hsign
  | some id =>
    rw [(hears_job hsign hrun).matched_iff hc]
    unfold Job.sign? at hsign
    split at hsign
    · next d =>
      obtain ⟨m, hm, rfl⟩ := Option.map_eq_some_iff.mp hsign
      have henroll : c.enroll d = .ok m := by
        cases h : c.enroll d <;> simp_all [Except.toOption]
      refine ⟨fun ⟨hhealthy, _⟩ hstrays => ?_, fun hgood => ⟨?_, not_isOwn_of_enroll henroll⟩⟩
      · cases hstrays with
        | unanswered _ hsick => cases hsick.symm.trans hhealthy
      · by_contra hsick
        exact hgood (.unanswered henroll ((Bool.not_eq_true _).mp hsick))
    · next h =>
      split at hsign
      · next hhealthy =>
        obtain rfl := Option.some.inj hsign
        refine ⟨fun ⟨_, hother⟩ hstrays => ?_,
          fun hgood => ⟨?_, fun hown => hgood (.own hhealthy hown)⟩⟩
        · cases hstrays with
          | own _ hown => exact hother hown
        · rcases runs_heartbeat hrun with ⟨hsick, -⟩ | ⟨-, -, hhealthy'⟩
          · cases hsick.symm.trans hhealthy
          · exact hhealthy'
      · cases hsign
    · cases hsign

/-- What a coordinator has done since it was started, latest first: its jobs, each with the states
before and after it. Between two jobs time passes, and the worker inside may do something of its own
accord. -/
inductive Chronicle (describe : Response α → String) (first : Coordinator α) :
    List (Job α × Coordinator α × Coordinator α) → Coordinator α → Prop
  | start : Chronicle describe first [] first
  | next {past : List (Job α × Coordinator α × Coordinator α)} {c c' : Coordinator α}
      {job : Job α} {u : Unit} : Chronicle describe first past c →
      Runs Answered (job.procedure describe) c u c' →
      Chronicle describe first ((job, c, c') :: past) c'
  | drift {past : List (Job α × Coordinator α × Coordinator α)} {c : Coordinator α}
      (clock : Clock) (embedded : Worker α) : Chronicle describe first past c →
      Chronicle describe first past { c with clock, embedded }

variable {first : Coordinator α} {past : List (Job α × Coordinator α × Coordinator α)}

theorem Chronicle.matched_iff (h : Chronicle describe first past c) (hfirst : Matched first) :
    (Matched c ∧ ∀ e ∈ past, Matched e.2.1 ∧ Matched e.2.2) ↔
      ∀ e ∈ past, ¬Strays e.2.1 e.2.2 e.1 := by
  induction h with
  | start => simpa using hfirst
  | @next past c c' job u _ hrun ih =>
    simp only [List.forall_mem_cons]
    rw [← ih]
    constructor
    · rintro ⟨hc', ⟨hc, -⟩, hpast⟩
      exact ⟨(matched_job hc hrun).mp hc', hc, hpast⟩
    · rintro ⟨hgood, hc, hpast⟩
      have hc' := (matched_job hc hrun).mpr hgood
      exact ⟨hc', ⟨hc, hc'⟩, hpast⟩
  | drift clock embedded _ ih => exact ih

theorem matched_start {config : CoordinatorConfig α} {capability : Capability α}
    {backend : Backend α} {profile : List (LayerCost α)} {address : String} {clock : Clock}
    {ids : IdSource} {overheadMs : α}
    (h : start config capability backend profile address clock ids overheadMs = .ok c) :
    Matched c := by
  unfold start at h
  split at h
  · cases h
  · next registry hregistry =>
    split at h
    · cases h
    · next heartbeats hheartbeats =>
      obtain rfl := Except.ok.inj h
      have htracked : heartbeats.tracked = [] := by
        unfold HeartbeatMonitor.start? at hheartbeats
        split at hheartbeats
        · rw [← Option.some.inj hheartbeats]
          rfl
        · cases hheartbeats
      intro id
      simp only [htracked, List.not_mem_nil, false_iff, not_and, not_not]
      unfold firstRoster at hregistry
      simp only at hregistry
      split at hregistry
      · next hparticipate =>
        intro hhealthy
        rw [Registry.isHealthy_register hregistry] at hhealthy
        refine ⟨hparticipate, show id = (capability.descriptor address).nodeId from ?_⟩
        by_contra hother
        rw [if_neg hother] at hhealthy
        cases hhealthy
      · obtain rfl := Except.ok.inj hregistry
        intro hhealthy
        cases hhealthy

/-! ## Silent nodes -/

/-- Every healthy node is waited for, the coordinator's own apart. -/
def Covered (c : Coordinator α) : Prop :=
  ∀ id, c.registry.isHealthy id = true → ¬c.IsOwn id → id ∈ c.heartbeats.tracked

theorem covered_job {job : Job α} {u : Unit} (hc : Covered c)
    (hrun : Runs Answered (job.procedure describe) c u c') : Covered c' := by
  intro id hhealthy hother
  have hkeep : SameRules c c' → SameSigns id c c' → id ∈ c'.heartbeats.tracked := by
    rintro hrules ⟨hhealth, hseen⟩
    have htracked := hc id (hhealth ▸ hhealthy) fun hown => hother (hrules.isOwn_iff.mpr hown)
    obtain ⟨t, ht⟩ := HeartbeatMonitor.mem_tracked.mp htracked
    exact HeartbeatMonitor.mem_tracked.mpr ⟨t, (hseen t).mpr ht⟩
  cases hsign : job.sign? c with
  | none =>
    have hwatches := watches_job hsign hrun
    rcases hwatches.node id with hsame | ⟨hsick, -⟩
    · exact hkeep hwatches.toSameRules hsame
    · cases hsick.symm.trans hhealthy
  | some k =>
    have hhears := hears_job hsign hrun
    by_cases hk : id = k
    · exact HeartbeatMonitor.mem_tracked.mpr ⟨_, (hk ▸ hhears.seen _).mpr rfl⟩
    · exact hkeep hhears.toSameRules (hhears.other id hk)

theorem Chronicle.covered (h : Chronicle describe first past c) (hfirst : Covered first) :
    Covered c := by
  induction h with
  | start => exact hfirst
  | next _ hrun ih => exact covered_job ih hrun
  | drift clock embedded _ ih => exact ih

/-- What can become of a coordinator while it gets no sign of life of a node. -/
inductive Silence (describe : Response α → String) (id : String) (c : Coordinator α) :
    Coordinator α → Prop
  | refl : Silence describe id c c
  | next {m c' : Coordinator α} {job : Job α} {u : Unit} : Silence describe id c m →
      job.sign? m ≠ some id → Runs Answered (job.procedure describe) m u c' →
      Silence describe id c c'
  | drift {m : Coordinator α} (clock : Clock) (embedded : Worker α) : Silence describe id c m →
      Silence describe id c { m with clock, embedded }

/-- A node that gives no sign of life stays last heard of at the same time, as long as it is
healthy. -/
theorem Silence.seen (h : Silence describe id c c') :
    c'.heartbeats.timeout = c.heartbeats.timeout ∧
      (c'.registry.isHealthy id = true →
        ∀ t, (id, t) ∈ c.heartbeats.lastSeen → (id, t) ∈ c'.heartbeats.lastSeen) := by
  induction h with
  | refl => exact ⟨rfl, fun _ _ ht => ht⟩
  | @next m c' job u _ hquiet hrun ih =>
    obtain ⟨htimeout, hseen⟩ := ih
    have hkeep : SameSigns id m c' → c'.registry.isHealthy id = true →
        ∀ t, (id, t) ∈ c.heartbeats.lastSeen → (id, t) ∈ c'.heartbeats.lastSeen := by
      rintro ⟨hsame, htimes⟩ hhealthy t ht
      exact (htimes t).mpr (hseen (hsame ▸ hhealthy) t ht)
    cases hsign : job.sign? m with
    | none =>
      have hwatches := watches_job hsign hrun
      refine ⟨hwatches.timeout.trans htimeout, ?_⟩
      rcases hwatches.node id with hsame | ⟨hsick, -⟩
      · exact hkeep hsame
      · simp [hsick]
    | some k =>
      have hhears := hears_job hsign hrun
      refine ⟨hhears.timeout.trans htimeout, hkeep (hhears.other id ?_)⟩
      rintro rfl
      exact hquiet hsign
  | drift clock embedded _ ih => exact ih

/-- A sweep leaves the nodes unhealthy that it was due to report. -/
theorem isHealthy_sweep {busy : List String} {u : Unit}
    (hid : id ∈ c.heartbeats.timedOut c.clock.micros)
    (hrun : Runs Answered (sweep describe busy) c u c') : c'.registry.isHealthy id = false := by
  simp only [sweep, runs_bind, runs_update, runs_read] at hrun
  obtain ⟨_, _, rfl, ids, _, ⟨-, rfl⟩, hrun⟩ := hrun
  have hwatches := watches_of_moves (permitsPasses_watches.closeIdle describe ids) hrun
  exact hwatches.unhealthy (isHealthy_dropSilent hid)

/-- Who is reported as silent. A healthy node that gives no sign of life is reported from some time
on, and is unhealthy after the next sweep. Where tracking and health match, nobody else is. -/
structure Reports (describe : Response α → String) (c : Coordinator α) : Prop where
  silent : ∀ id, c.registry.isHealthy id = true → ¬c.IsOwn id →
    ∃ seen, ∀ c', Silence describe id c c' → c'.registry.isHealthy id = true →
      c.heartbeats.timeout < c'.clock.micros - seen →
      id ∈ c'.heartbeats.timedOut c'.clock.micros ∧
        ∀ busy u c'', Runs Answered (sweep describe busy) c' u c'' →
          c''.registry.isHealthy id = false
  healthy : Matched c → ∀ now, ∀ id ∈ c.heartbeats.timedOut now,
    c.registry.isHealthy id = true ∧ ¬c.IsOwn id

theorem Covered.reports (hc : Covered c) : Reports describe c where
  silent id hhealthy hother := by
    obtain ⟨seen, hseen⟩ := HeartbeatMonitor.mem_tracked.mp (hc id hhealthy hother)
    refine ⟨seen, fun c' hsilence hhealthy' hlate => ?_⟩
    obtain ⟨htimeout, htimes⟩ := hsilence.seen
    have hreported : id ∈ c'.heartbeats.timedOut c'.clock.micros :=
      HeartbeatMonitor.mem_timedOut.mpr ⟨seen, htimes hhealthy' seen hseen, htimeout ▸ hlate⟩
    exact ⟨hreported, fun _ _ _ => isHealthy_sweep hreported⟩
  healthy hmatched now id hid := by
    obtain ⟨t, ht, -⟩ := HeartbeatMonitor.mem_timedOut.mp hid
    exact (hmatched id).mp (HeartbeatMonitor.mem_tracked.mpr ⟨t, ht⟩)

/-- Tracking and health match in every state that a coordinator goes through exactly where no job
strays: where every registered worker answers the query that follows, and no heartbeat names the
coordinator itself. Stray or not, a healthy worker that falls silent is reported. -/
theorem matched_iff_no_stray {config : CoordinatorConfig α} {capability : Capability α}
    {backend : Backend α} {profile : List (LayerCost α)} {address : String} {clock : Clock}
    {ids : IdSource} {overheadMs : α}
    (hstart : start config capability backend profile address clock ids overheadMs = .ok first)
    (h : Chronicle describe first past c) :
    ((Matched c ∧ ∀ e ∈ past, Matched e.2.1 ∧ Matched e.2.2) ↔
      ∀ e ∈ past, ¬Strays e.2.1 e.2.2 e.1) ∧ Reports describe c := by
  have hfirst := matched_start hstart
  have hcovered : Covered first := fun id hhealthy hother => (hfirst id).mpr ⟨hhealthy, hother⟩
  exact ⟨h.matched_iff hfirst, (h.covered hcovered).reports⟩

end Scalar

private def stranger : Descriptor Binary64 :=
  ⟨"w", .cpu, 100.0, none, some 8.0, 1.0, none, none, "w:1"⟩

/-- A job of a coordinator that nobody answers. -/
private def unheard (job : Job Binary64) (c : Coordinator Binary64) : Coordinator Binary64 :=
  (Network.perform .payload (job.procedure Encoding.payload.describe)
    (Network.small c [])).2.coordinator

private theorem runs_unheard (job : Job Binary64) (c : Coordinator Binary64) :
    ∃ u, Runs Answered (job.procedure Encoding.payload.describe) c u (unheard job c) :=
  ⟨_, Network.runs_answered (Network.answered_perform .payload
    (job.procedure Encoding.payload.describe) (Network.small c []))⟩

private def healthOf (c : Coordinator Binary64) (id : String) : Option (Bool × Nat) :=
  (c.registry.get? id).map fun entry => (entry.healthy, entry.consecutiveFailures)

/-- Jobs that nobody answers, with the states before and after each of them. -/
private def recount (jobs : List (Job Binary64)) (c : Coordinator Binary64) :
    List (Job Binary64 × Coordinator Binary64 × Coordinator Binary64) × Coordinator Binary64 :=
  jobs.foldl (fun (past, c) job => ((job, c, unheard job c) :: past, unheard job c)) ([], c)

private theorem chronicle_recount (jobs : List (Job Binary64)) (c : Coordinator Binary64) :
    Chronicle Encoding.payload.describe c (recount jobs c).1 (recount jobs c).2 := by
  suffices h : ∀ past m, Chronicle Encoding.payload.describe c past m →
      Chronicle Encoding.payload.describe c
        (jobs.foldl (fun (past, c) job => ((job, c, unheard job c) :: past, unheard job c))
          (past, m)).1
        (jobs.foldl (fun (past, c) job => ((job, c, unheard job c) :: past, unheard job c))
          (past, m)).2 from h [] c .start
  induction jobs with
  | nil => exact fun _ _ h => h
  | cons job jobs ih =>
    intro past m h
    obtain ⟨_, hrun⟩ := runs_unheard job m
    exact ih _ _ (h.next hrun)

private def strayJobs : List (Job Binary64) :=
  [.serve (.registerWorker stranger), .tick ⟨60000000, ""⟩, .sweep [],
    .serve (.heartbeat ⟨"c", 0, 0.0⟩), .tick ⟨120000000, ""⟩, .sweep []]

/-- A worker that does not answer the query after its registration is found unhealthy a second time
by a sweep. The coordinator, which is sent a heartbeat in its own name, is found unhealthy too. -/
theorem matched_iff_no_stray_unanswered :
    ∃ (first c : Coordinator Binary64)
      (past : List (Job Binary64 × Coordinator Binary64 × Coordinator Binary64)),
      Coordinator.small .standard = .ok first ∧
      Chronicle Encoding.payload.describe first past c ∧
      healthOf c "w" = some (false, 2) ∧ healthOf c "c" = some (false, 1) ∧
      ¬(Matched c ∧ ∀ e ∈ past, Matched e.2.1 ∧ Matched e.2.2) := by
  have hfacts : (Coordinator.small .standard).toOption.map (fun c =>
      ((c.enroll stranger).toOption.isSome,
        (unheard (.serve (.registerWorker stranger)) c).registry.isHealthy "w",
        healthOf (recount strayJobs c).2 "w", healthOf (recount strayJobs c).2 "c")) =
      some (true, false, some (false, 2), some (false, 1)) := by decide +kernel
  cases hstart : Coordinator.small .standard with
  | error err => simp [hstart, Except.toOption] at hfacts
  | ok c =>
    simp only [hstart, Except.toOption, Option.map_some, Option.some.injEq, Prod.mk.injEq]
      at hfacts
    obtain ⟨henroll, hsick, hworker, hown⟩ := hfacts
    have hchronicle := chronicle_recount strayJobs c
    refine ⟨c, _, _, rfl, hchronicle, hworker, hown, fun hmatched => ?_⟩
    refine (matched_iff_no_stray hstart hchronicle).1.mp hmatched
      (.serve (.registerWorker stranger), c, _) (by simp [recount, strayJobs]; rfl) ?_
    cases h : c.enroll stranger with
    | error err => simp [h] at henroll
    | ok m => exact .unanswered h hsick

end Coordinator

end LayerPipeline
