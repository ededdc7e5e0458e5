import LayerPipeline.Proofs.Planning.Coverage
import LayerPipeline.Proofs.Service.Enrolment

/-!
# Unhealthy nodes stay out

Nothing but a registration makes a node healthy again. So from the moment that a node is found
unhealthy until it is registered anew its heartbeats are turned away, and no plan is made with it
that takes its nodes from the roster.
-/

namespace LayerPipeline

open Procedure

variable {α : Type}

/-- A plan has no stages on nodes that it was not made for. -/
theorem Planning.node_mem_of_generate [Scalar α] {config : PlannerConfig α}
    {layers : List (LayerCost α)} {nodes : List (Node α)} {modelName createdAt : String}
    {strategy : Strategy} {plan : Plan α}
    (h : generate config layers nodes modelName strategy createdAt = .ok plan) :
    ∀ s ∈ plan.stages, s.node ∈ nodes := by
  intro s hs
  obtain ⟨blocks, stages, -, hbuild, rfl⟩ := generate_eq_ok h
  rw [finish_stages] at hs
  obtain ⟨i, hi⟩ := List.getElem?_of_mem hs
  obtain ⟨b, -, hstage⟩ := (stagesOf_buildStages hbuild).stageOf hi
  have hmem := List.mem_of_getElem? hstage.node
  exact List.mem_of_mem_filter (List.mem_mergeSort.mp hmem)

namespace Registry

/-! ## Nodes in decline -/

/-- The same nodes, and none is healthy that was not. -/
structure Declines (r r' : Registry α) : Prop where
  ids : r'.ids = r.ids
  unhealthy : ∀ n' ∈ r'.nodes, ∃ n ∈ r.nodes,
    n'.descriptor.nodeId = n.descriptor.nodeId ∧ (n.healthy = false → n'.healthy = false)

theorem Declines.of_nodes {r r' : Registry α} (h : r'.nodes = r.nodes) : Declines r r' := by
  constructor
  · simp only [Registry.ids, h]
  · intro n hn
    exact ⟨n, h ▸ hn, rfl, fun hsick => hsick⟩

theorem Declines.trans {r m r' : Registry α} (h : Declines r m) (h' : Declines m r') :
    Declines r r' := by
  refine ⟨h'.ids.trans h.ids, ?_⟩
  intro n' hn'
  obtain ⟨x, hx, hid', hsick'⟩ := h'.unhealthy n' hn'
  obtain ⟨n, hn, hid, hsick⟩ := h.unhealthy x hx
  exact ⟨n, hn, hid'.trans hid, hsick' ∘ hsick⟩

theorem declines_of_modify {r r' : Registry α} {f : RegisteredNode α → RegisteredNode α}
    (id : String) (hroster : r'.roster = r.roster.modify id f)
    (hf : ∀ n, (f n).descriptor = n.descriptor ∧ (n.healthy = false → (f n).healthy = false)) :
    Declines r r' := by
  have hnodes : r'.nodes = r.nodes.map fun n => if n.descriptor.nodeId = id then f n else n :=
    nodes_eq_map_of_modify hroster fun n => (hf n).1
  constructor
  · simp only [Registry.ids, hnodes, List.map_map]
    refine List.map_congr_left fun n _ => ?_
    by_cases hid : n.descriptor.nodeId = id <;> simp [hid, hf n]
  · simp only [hnodes, List.mem_map]
    rintro _ ⟨n, hn, rfl⟩
    refine ⟨n, hn, ?_⟩
    by_cases hid : n.descriptor.nodeId = id
    · simpa [hid, hf n] using (hf n).2
    · simp [hid]

theorem declines_markUnhealthy (r : Registry α) (id reason : String) :
    Declines r (r.markUnhealthy id reason) :=
  declines_of_modify id rfl fun _ => ⟨rfl, fun _ => rfl⟩

theorem declines_recordSuccess (r : Registry α) (id : String) :
    Declines r (r.recordSuccess id) :=
  declines_of_modify id rfl fun _ => ⟨rfl, fun hsick => hsick⟩

section Scalar

variable [Scalar α]

theorem declines_reserve (r : Registry α) (id : String) (gb : α) :
    Declines r ((r.reserve id gb).toOption.getD r) := by
  unfold reserve
  split
  · split
    · exact .of_nodes rfl
    · exact declines_of_modify id rfl fun _ => ⟨rfl, fun hsick => hsick⟩
  · exact .of_nodes rfl

theorem declines_release (r : Registry α) (id : String) (gb : α) :
    Declines r ((r.release id gb).toOption.getD r) := by
  unfold release
  split
  · exact .of_nodes rfl
  · simp only
    split
    · exact declines_of_modify id rfl fun _ => ⟨rfl, fun hsick => hsick⟩
    · exact .of_nodes rfl
    · exact declines_of_modify id rfl fun _ => ⟨rfl, fun hsick => hsick⟩

theorem declines_reserveStages (r : Registry α) (stages : List (Stage α)) :
    Declines r (Coordinator.reserveStages r stages) := by
  unfold Coordinator.reserveStages
  induction stages generalizing r with
  | nil => exact .of_nodes rfl
  | cons s stages ih => exact (declines_reserve r _ _).trans (ih _)

theorem declines_releaseStages (r : Registry α) (stages : List (Stage α)) :
    Declines r (Coordinator.releaseStages r stages) := by
  unfold Coordinator.releaseStages
  induction stages generalizing r with
  | nil => exact .of_nodes rfl
  | cons s stages ih => exact (declines_release r _ _).trans (ih _)

theorem declines_updateLoad (r : Registry α) (id : String) (load : α) (active : UInt32) :
    Declines r (r.updateLoad id load active) := by
  unfold updateLoad
  split
  · exact declines_of_modify id rfl fun _ => ⟨rfl, fun hsick => hsick⟩
  · exact .of_nodes rfl

end Scalar

/-! ## Barred nodes -/

/-- The node is registered, and it is unhealthy. -/
structure Barred (id : String) (r : Registry α) : Prop where
  registered : id ∈ r.ids
  unhealthy : ∀ n ∈ r.nodes, n.descriptor.nodeId = id → n.healthy = false

theorem Declines.barred {r r' : Registry α} {id : String} (h : Declines r r')
    (hbarred : Barred id r) : Barred id r' := by
  refine ⟨h.ids ▸ hbarred.registered, ?_⟩
  intro n' hn' hid'
  obtain ⟨n, hn, hid, hsick⟩ := h.unhealthy n' hn'
  exact hsick (hbarred.unhealthy n hn (hid.symm.trans hid'))

theorem Barred.register [Scalar α] {r r' : Registry α} {id : String} (hbarred : Barred id r)
    {d : Descriptor α} (hid : d.nodeId ≠ id) (h : r.register d = .ok r') : Barred id r' := by
  rcases nodes_register h with ⟨-, hnodes⟩ | ⟨-, hnodes⟩
  · have hdeclines : ∀ n, n.descriptor.nodeId = id →
        (if n.descriptor.nodeId = d.nodeId then RegisteredNode.fresh d else n) = n := by
      intro n hn
      rw [if_neg]
      rw [hn]
      exact Ne.symm hid
    constructor
    · obtain ⟨n, hn, hnid⟩ := List.mem_map.mp hbarred.registered
      refine List.mem_map.mpr ⟨n, ?_, hnid⟩
      rw [hnodes]
      exact List.mem_map.mpr ⟨n, hn, hdeclines n hnid⟩
    · intro n' hn' hid'
      rw [hnodes] at hn'
      obtain ⟨n, hn, rfl⟩ := List.mem_map.mp hn'
      by_cases hnid : n.descriptor.nodeId = d.nodeId
      · rw [if_pos hnid] at hid'
        exact absurd hid' hid
      · rw [if_neg hnid] at hid' ⊢
        exact hbarred.unhealthy n hn hid'
  · constructor
    · rw [Registry.ids, hnodes, List.map_append]
      exact List.mem_append_left _ hbarred.registered
    · intro n hn hnid
      rw [hnodes] at hn
      rcases List.mem_append.mp hn with hn | hn
      · exact hbarred.unhealthy n hn hnid
      · rw [List.mem_singleton.mp hn] at hnid
        exact absurd hnid hid

theorem barred_of_get? {r : Registry α} {id : String} {entry : RegisteredNode α}
    (h : r.get? id = some entry) (hsick : entry.healthy = false) : Barred id r := by
  refine ⟨isSome_get?_iff.mp (h ▸ rfl), ?_⟩
  rintro n hn rfl
  cases h.symm.trans (mem_nodes_iff.mp hn)
  exact hsick

theorem Barred.get? {r : Registry α} {id : String} (h : Barred id r) :
    ∃ entry, r.get? id = some entry ∧ entry.healthy = false := by
  cases hget : r.get? id with
  | none => exact absurd h.registered (get?_eq_none_iff.mp hget)
  | some entry =>
    obtain ⟨hmem, hid⟩ := get?_eq_some hget
    exact ⟨entry, rfl, h.unhealthy entry hmem hid⟩

theorem Barred.isHealthy {r : Registry α} {id : String} (h : Barred id r) :
    r.isHealthy id = false := by
  obtain ⟨entry, hget, hsick⟩ := h.get?
  simp [Registry.isHealthy, hget, hsick]

theorem Barred.healthyNodes [Scalar α] {r : Registry α} {id : String} (h : Barred id r) :
    ∀ x ∈ r.healthyNodes, x.nodeId ≠ id := by
  intro x hx hid
  obtain ⟨n, hn, rfl⟩ := List.mem_map.mp hx
  obtain ⟨hmem, hhealthy⟩ := List.mem_filter.mp hn
  rw [h.unhealthy n hmem hid] at hhealthy
  cases hhealthy

end Registry

/-! ## What a coordinator does to its roster -/

namespace Coordinator

variable [Scalar α]

omit [Scalar α] in
theorem declines_dropSilent (c : Coordinator α) : c.registry.Declines c.dropSilent.registry := by
  unfold dropSilent
  generalize c.heartbeats.timedOut c.clock.micros = silent
  induction silent generalizing c with
  | nil => exact .of_nodes rfl
  | cons id silent ih =>
    exact (c.registry.declines_markUnhealthy id "heartbeat timeout").trans
      (ih (c.markUnhealthy id "heartbeat timeout"))

theorem declines_heartbeat (h : Heartbeat α) (c : Coordinator α) :
    c.registry.Declines (c.heartbeat h).2.registry := by
  rcases c.heartbeat_cases h with heq | heq
  · rw [heq]
    exact .of_nodes rfl
  · rw [heq]
    exact c.registry.declines_updateLoad _ _ _

theorem declines_confirm (d : Descriptor α) (answer : Except LinkError (CapabilityReport α))
    (c : Coordinator α) : c.registry.Declines (c.confirm d answer).2.registry := by
  rcases c.confirm_outcome d answer with
    ⟨_, _, -, -, -, hafter⟩ | ⟨-, -, hafter | ⟨reason, hafter⟩⟩
  · rw [hafter]
    exact .of_nodes rfl
  · rw [hafter]
    exact .of_nodes rfl
  · rw [hafter]
    exact c.registry.declines_markUnhealthy d.nodeId reason

/-- No node of the roster becomes healthy. -/
def Wanes (c c' : Coordinator α) : Prop := c.registry.Declines c'.registry

theorem Touches.wanes {c c' : Coordinator α} (h : Touches c c') : Wanes c c' := by
  cases h with
  | aside _ _ hregistry => exact .of_nodes (by rw [hregistry])
  | activate => exact .of_nodes rfl
  | judge id reason => exact c.registry.declines_markUnhealthy id reason
  | dropSilent => exact declines_dropSilent c
  | reserveFor _ p => exact c.registry.declines_reserveStages p.stages
  | releaseFor _ _ p => exact c.registry.declines_releaseStages p.stages

variable (describe : Response α → String)

/-- Whatever follows from a decline is kept by every job, if it is kept by the registrations that
are accepted. -/
theorem moves_job {R : Coordinator α → Coordinator α → Prop} (hR : ∀ c c', Wanes c c' → R c c')
    {job : Job α}
    (henroll : ∀ d c c', job = .serve (.registerWorker d) → c.enroll d = .ok c' → R c c') :
    Moves R (fun _ => True) (job.procedure describe) := by
  have hsame : ∀ {c c' : Coordinator α}, c'.registry = c.registry → R c c' :=
    fun h => hR _ _ (.of_nodes (by rw [h]))
  have hpermits : PermitsPasses (Moves R fun _ => True) := by
    refine permitsPasses_moves ⟨fun c => hsame rfl, fun c w _ => hsame rfl⟩ ?_ ?_ ?_
    · exact fun c c' h => hR c c' h.wanes
    · exact fun id c => hR _ _ (c.registry.declines_recordSuccess id)
    · exact fun c metrics => hsame rfl
  refine hpermits.job describe (fun d hd => ?_) fun h _ => ?_
  · refine hpermits.registerWorker describe (moves_atomically fun c => ?_) fun answer => ?_
    · split
      · next c' h => exact henroll d c c' hd h
      · exact hsame rfl
    · exact moves_atomically fun c => hR _ _ (declines_confirm d answer c)
  · exact moves_atomically fun c => hR _ _ (declines_heartbeat h c)

omit describe in
/-- Whether a registration is accepted does not depend on the number of requests. -/
theorem enroll_of_countRequest {c m : Coordinator α} {d : Descriptor α}
    (h : c.countRequest.enroll d = .ok m) : ∃ c', c.enroll d = .ok c' := by
  unfold enroll at h ⊢
  split at h
  · cases h
  · next hown =>
    rw [if_neg (show ¬(c.config.participate && d.nodeId = c.nodeId) = true from hown)]
    split at h
    · cases h
    · next registry hregister =>
      rw [show c.registry.register d = .ok registry from hregister]
      exact ⟨_, rfl⟩

omit describe in
/-- A plan that a request without nodes gets is made for the healthy nodes. -/
theorem planResult_eq_ok {c : Coordinator α} {r : PlanRequest α} (hr : r.nodes = [])
    {answer : PlanResult α} {p : Plan α} (hanswer : (c.planResult r).1 = .ok answer)
    (hp : answer.plan = some p) : ∀ s ∈ p.stages, s.node ∈ c.registry.healthyNodes := by
  have hnodes : c.nodesFor r = .ok c.registry.healthyNodes := by simp [nodesFor, hr]
  unfold planResult at hanswer
  split at hanswer
  · next p' c' hgenerate =>
    obtain rfl := Except.ok.inj hanswer
    obtain rfl := Option.some.inj hp
    unfold generatePlan at hgenerate
    rw [hnodes] at hgenerate
    simp only at hgenerate
    split at hgenerate
    · cases hgenerate
    · next plan hplan =>
      have hsame : plan = p' := by
        split at hgenerate
        · cases hinstall : c.installPlan plan with
          | error err => simp [hinstall, Except.map] at hgenerate
          | ok x => simp_all [Except.map]
        · exact (Prod.mk.inj (Except.ok.inj hgenerate)).1
      exact hsame ▸ Planning.node_mem_of_generate hplan
  · cases hanswer
  · obtain rfl := Except.ok.inj hanswer
    cases hp

/-- The coordinator takes the job for a registration of the node. -/
def Job.Registers (id : String) (c : Coordinator α) (job : Job α) : Prop :=
  ∃ d c', job = .serve (.registerWorker d) ∧ d.nodeId = id ∧ c.enroll d = .ok c'

end Coordinator

/-! ## Between two registrations -/

namespace Network

variable {describe : Response α → String} {n n' : Network α} {id : String}

/-- Work that moves within a relation, whatever other nodes answer. -/
theorem related_of_moves {β : Type} {R : Coordinator α → Coordinator α → Prop}
    (hrefl : ∀ c, R c c) (htrans : ∀ {c m c'}, R c m → R m c' → R c c')
    (hcount : ∀ c, R c c.countRequest) {p : Coordinator.Action α β} {b : β}
    (hp : Coordinator.Moves R (fun _ => True) p)
    (hrun : Runs Answered (ofCoordinator p) n b n') : R n.coordinator n'.coordinator := by
  refine Confined.runs hrefl htrans ?_ hp (runs_answered hrun)
  rintro q c a c' - (rfl | rfl)
  · exact hrefl _
  · exact hcount c

variable [Scalar α]

theorem barred_job {job : Coordinator.Job α} {u : Unit}
    (hjob : ¬job.Registers id n.coordinator)
    (hrun : Runs Answered (ofCoordinator (job.procedure describe)) n u n')
    (hn : n.coordinator.registry.Barred id) : n'.coordinator.registry.Barred id := by
  have hother : (∀ d, job = .serve (.registerWorker d) → d.nodeId ≠ id) →
      n'.coordinator.registry.Barred id := by
    intro hd
    refine related_of_moves (R := fun c c' => c.registry.Barred id → c'.registry.Barred id)
      (fun _ h => h) (fun h h' => h' ∘ h) (fun _ h => h) ?_ hrun hn
    refine Coordinator.moves_job describe (fun c c' hwanes h => hwanes.barred h) ?_
    intro d c c' hregister henroll hc
    obtain ⟨registry, hregistry, rfl⟩ := Coordinator.enroll_eq_ok henroll
    exact hc.register (hd d hregister) hregistry
  by_cases hd : ∃ d, job = .serve (.registerWorker d) ∧ d.nodeId = id
  · -- a registration of the node itself, which is refused
    obtain ⟨d, rfl, hid⟩ := hd
    have hrun := runs_answered hrun
    simp only [Coordinator.Job.procedure, Coordinator.handle, runs_bind, runs_update,
      runs_pure] at hrun
    obtain ⟨_, _, ⟨_, _, rfl, result, m, hregister, hanswer⟩, -, rfl⟩ := hrun
    have hm : n'.coordinator = m := by
      split at hanswer <;> exact hanswer.2
    rcases Coordinator.registerWorker_outcome (fun _ _ _ _ h => h) hregister with
      ⟨_, -, -, rfl⟩ | ⟨_, _, _, henroll, -⟩
    · rw [hm]
      exact hn
    · obtain ⟨c', hc'⟩ := Coordinator.enroll_of_countRequest henroll
      exact absurd ⟨d, c', rfl, hid, hc'⟩ hjob
  · exact hother fun d hregister hid => hd ⟨d, hregister, hid⟩

/-- What can become of a network while its coordinator does not take any job for a registration of
a node. -/
inductive Unregistered (describe : Response α → String) (id : String) (n : Network α) :
    Network α → Prop
  | refl : Unregistered describe id n n
  | work {m n' : Network α} {job : Coordinator.Job α} {u : Unit} : Unregistered describe id n m →
      ¬job.Registers id m.coordinator →
      Runs Answered (ofCoordinator (job.procedure describe)) m u n' →
      Unregistered describe id n n'
  | drift {m n' : Network α} {clock : Clock} {embedded : Worker α} :
      Unregistered describe id n m → n'.coordinator = { m.coordinator with clock, embedded } →
      Unregistered describe id n n'

theorem Unregistered.barred (h : Unregistered describe id n n')
    (hn : n.coordinator.registry.Barred id) : n'.coordinator.registry.Barred id := by
  induction h with
  | refl => exact hn
  | work _ hjob hrun ih => exact barred_job hjob hrun ih
  | drift _ heq ih =>
    rw [heq]
    exact ih

/-- A node is registered, but unhealthy and out of all plans, and its heartbeats change nothing. -/
structure Excluded (describe : Response α → String) (id : String) (n : Network α) : Prop where
  registered : ∃ entry, n.coordinator.registry.get? id = some entry ∧ entry.healthy = false
  roster : ∀ x ∈ n.coordinator.registry.healthyNodes, x.nodeId ≠ id
  heartbeat : ∀ (h : Heartbeat α) result n', h.nodeId = id →
    (Runs Answered (ofCoordinator (Coordinator.handle describe (.heartbeat h))) n result n' ↔
      result = .ok (.heartbeatSeen ⟨false⟩) ∧
      n' = n.setCoordinator n.coordinator.countRequest)
  plans : ∀ (r : PlanRequest α) answer n' p, r.nodes = [] →
    Runs Answered (ofCoordinator (Coordinator.handle describe (.generatePlan r))) n
      (.ok (.planned answer)) n' → answer.plan = some p → ∀ s ∈ p.stages, s.node.nodeId ≠ id

theorem excluded_of_barred (h : n.coordinator.registry.Barred id) : Excluded describe id n := by
  refine ⟨h.get?, h.healthyNodes, ?_, ?_⟩
  · rintro beat result n' rfl
    have hheartbeat : n.coordinator.countRequest.heartbeat beat =
        (⟨false⟩, n.coordinator.countRequest) := by
      rw [Coordinator.heartbeat, if_neg]
      rw [show n.coordinator.countRequest.registry = n.coordinator.registry from rfl, h.isHealthy]
      exact Bool.false_ne_true
    simp only [Coordinator.handle, ofCoordinator_bind, ofCoordinator_pure, runs_bind,
      runs_ofCoordinator_update, runs_ofCoordinator_atomically, runs_pure]
    constructor
    · rintro ⟨_, _, rfl, _, _, ⟨rfl, rfl⟩, rfl, rfl⟩
      simp [hheartbeat]
    · rintro ⟨rfl, rfl⟩
      exact ⟨(), _, rfl, _, _, ⟨rfl, rfl⟩, by simp [hheartbeat]⟩
  · intro r answer n' p hr hrun hp s hs
    simp only [Coordinator.handle, ofCoordinator_bind, ofCoordinator_pure, runs_bind,
      runs_ofCoordinator_update, runs_ofCoordinator_atomically, runs_pure] at hrun
    obtain ⟨_, _, rfl, result, _, ⟨rfl, rfl⟩, hanswer, -⟩ := hrun
    cases hresult : (n.coordinator.countRequest.planResult r).1 with
    | error a => simp [hresult, Except.map] at hanswer
    | ok answer' =>
      simp only [coordinator_setCoordinator, hresult, Except.map, Except.ok.injEq,
        Response.planned.injEq] at hanswer
      subst hanswer
      exact h.healthyNodes s.node (Coordinator.planResult_eq_ok hr hresult hp s hs)

/-- A node that is unhealthy stays out until the coordinator takes a job for its registration,
whatever else is done and whatever other nodes answer meanwhile. -/
theorem excluded_until_registered {entry : RegisteredNode α}
    (hentry : n.coordinator.registry.get? id = some entry) (hsick : entry.healthy = false)
    (hrun : Unregistered describe id n n') : Excluded describe id n' :=
  excluded_of_barred (hrun.barred (Registry.barred_of_get? hentry hsick))

theorem Unregistered.afterJobs {e : Encoding α} {jobs : List (Coordinator.Job α)}
    (hjobs : ∀ job ∈ jobs, ∀ d, job ≠ .serve (.registerWorker d)) {m : Network α}
    (h : Unregistered e.describe id n m) : Unregistered e.describe id n (m.afterJobs e jobs) := by
  induction jobs generalizing m with
  | nil => exact h
  | cons job jobs ih =>
    refine ih (fun x hx => hjobs x (List.mem_cons_of_mem job hx)) (h.work ?_
      (answered_perform e (job.procedure e.describe) m))
    rintro ⟨d, -, hregister, -⟩
    exact hjobs job List.mem_cons_self d hregister

private def lateJobs : List (Coordinator.Job Binary64) :=
  [.serve (.registerWorker ((Peer.small "w" (.passthrough "cpu" 0)).worker.capability.descriptor
      "w:1")),
    .install { (default : Plan Binary64) with stages := [.small 0 "c", .small 1 "w"] },
    .serve (.createSession ⟨"s", ⟨"", 0, "", false⟩, [], 0, .u8⟩),
    .tick ⟨60000000, ""⟩, .sweep []]

private def goodJobs : List (Coordinator.Job Binary64) :=
  [.serve (.executeForward ⟨"s", 0, ⟨.u8, [1], [3], 1⟩, []⟩), .serve (.closeSession ⟨"s"⟩)]

private def lateNetwork (c : Coordinator Binary64) : Network Binary64 :=
  (small c [.small "w" (.passthrough "cpu" 0)]).afterJobs .payload lateJobs

private def failuresOf (n : Network Binary64) : Option (Bool × Nat) :=
  (n.coordinator.registry.get? "w").map fun entry => (entry.healthy, entry.consecutiveFailures)

/-- A worker that was silent for too long runs a stage and forgets its failures by it, but is not
healthy again. -/
theorem excluded_until_registered_late :
    ∃ n n' : Network Binary64, Reached Encoding.payload.describe n ∧
      failuresOf n = some (false, 1) ∧ Unregistered Encoding.payload.describe "w" n n' ∧
      failuresOf n' = some (false, 0) ∧ Excluded Encoding.payload.describe "w" n' := by
  have hfacts : (Coordinator.small .standard).toOption.map (fun c =>
      (failuresOf (lateNetwork c), failuresOf ((lateNetwork c).afterJobs .payload goodJobs))) =
      some (some (false, 1), some (false, 0)) := by decide +kernel
  cases hstart : Coordinator.small .standard with
  | error err => simp [hstart, Except.toOption] at hfacts
  | ok c =>
    simp only [hstart, Except.toOption, Option.map_some, Option.some.injEq, Prod.mk.injEq]
      at hfacts
    obtain ⟨hlate, hgood⟩ := hfacts
    have hn : Reached Encoding.payload.describe (lateNetwork c) :=
      Reached.afterJobs lateJobs (.start hstart)
    have hrun : Unregistered Encoding.payload.describe "w" (lateNetwork c)
        ((lateNetwork c).afterJobs .payload goodJobs) := by
      refine Unregistered.afterJobs ?_ .refl
      simp [goodJobs]
    obtain ⟨entry, hentry, hfailures⟩ := Option.map_eq_some_iff.mp hlate
    exact ⟨_, _, hn, hlate, hrun, hgood,
      excluded_until_registered hentry (Prod.mk.inj hfailures).1 hrun⟩

end Network

end LayerPipeline
