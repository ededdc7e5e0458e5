import LayerPipeline.Proofs.Service.Exclusion
import LayerPipeline.Proofs.Service.Lifecycle

/-!
# Planning beside open sessions

A planning request replaces the active plan by a valid one or changes nothing. A session is bound to
the plan that is active when it is opened: whatever is planned later, its passes run the stages of
that plan, and its end returns their memory.
-/

namespace LayerPipeline

open Procedure

variable {α : Type}

namespace Coordinator

/-- The plan that an open session is bound to. -/
def planOf? (c : Coordinator α) (id : String) : Option (Plan α) :=
  (c.sessions.get? id).bind (·.plan)

/-- The stages that an open session is bound to. -/
def heldStages (c : Coordinator α) (id : String) : List (Stage α) :=
  ((c.planOf? id).map (·.stages)).getD []

section Scalar

variable [Scalar α] {c c' : Coordinator α}

/-! ## The active plan -/

/-- The active plan, if there is one, passes its check. -/
def PlanValid (c : Coordinator α) : Prop := ∀ p, c.plan = some p → p.validate = .ok ()

theorem PlanValid.of_plan (hc : PlanValid c) (h : c'.plan = c.plan) : PlanValid c' := by
  intro p hp
  exact hc p (h ▸ hp)

theorem Touches.planValid (h : Touches c c') (hc : PlanValid c) : PlanValid c' := by
  cases h with
  | aside _ _ _ hplan => exact hc.of_plan hplan
  | activate hvalid =>
    intro p hp
    exact Option.some.inj hp ▸ hvalid
  | dropSilent =>
    have hdropped : Undisturbed (fun _ => True) c c.dropSilent := undisturbed_dropSilent c
    exact hc.of_plan hdropped.plan
  | judge | reserveFor | releaseFor => exact hc

/-- Only planning requests and installed plans change the active plan, and they check it first. -/
theorem moves_planValid (describe : Response α → String) (job : Job α) :
    Moves (fun c c' => PlanValid c → PlanValid c') (fun _ => True) (job.procedure describe) := by
  have hpermits : PermitsPasses (Moves (fun c c' : Coordinator α => PlanValid c → PlanValid c')
      fun _ => True) := by
    refine permitsPasses_moves ⟨fun _ hc => hc, fun _ _ _ hc => hc⟩ ?_ ?_ ?_
    · exact fun _ _ h => h.planValid
    · exact fun _ _ hc => hc
    · exact fun _ _ hc => hc
  refine hpermits.job describe (fun d _ => ?_) fun h _ => moves_atomically fun c hc => ?_
  · refine hpermits.registerWorker describe (moves_atomically fun c hc => ?_)
      fun answer => moves_atomically fun c hc => ?_
    · split
      · next henroll =>
        obtain ⟨_, -, rfl⟩ := enroll_eq_ok henroll
        exact hc
      · exact hc
    · obtain ⟨_, heq, -⟩ := c.confirm_cases d answer
      exact hc.of_plan (by rw [heq])
  · rcases c.heartbeat_cases h with heq | heq <;> exact hc.of_plan (by rw [heq])

/-- What a planning request comes to: a plan that becomes the active one, a plan that is only
answered, or no plan. -/
inductive PlanningOutcome (c : Coordinator α) (r : PlanRequest α) :
    Except Abort (PlanResult α) → Coordinator α → Prop
  | activated {a : PlanResult α} {p : Plan α} : r.activate = true → a.success = true →
      a.plan = some p → p.validate = .ok () → PlanningOutcome c r (.ok a) { c with plan := some p }
  | proposed {a : PlanResult α} : r.activate = false → a.success = true →
      PlanningOutcome c r (.ok a) c
  | failed {result : Except Abort (PlanResult α)} : (∀ a, result = .ok a → a.success = false) →
      PlanningOutcome c r result c

theorem generatePlan_eq_ok {c c' : Coordinator α} {r : PlanRequest α} {p : Plan α}
    (h : c.generatePlan r = .ok (p, c')) :
    ∃ nodes, c.nodesFor r = .ok nodes ∧
      Planning.generate c.config.planner (r.layers.getD c.profile) nodes r.modelName r.strategy
        c.clock.text = .ok p ∧
      (r.activate = true ∧ p.validate = .ok () ∧ c' = { c with plan := some p } ∨
        r.activate = false ∧ c' = c) := by
  unfold generatePlan at h
  split at h
  · cases h
  · next nodes hnodes =>
    split at h
    · cases h
    · next plan hplan =>
      split at h
      · next hactivate =>
        unfold installPlan at h
        split at h
        · cases h
        · next hvalid =>
          cases h
          exact ⟨nodes, hnodes, hplan, .inl ⟨hactivate, hvalid, rfl⟩⟩
      · next hactivate =>
        cases h
        exact ⟨nodes, hnodes, hplan, .inr ⟨(Bool.not_eq_true _).mp hactivate, rfl⟩⟩

theorem planResult_outcome (c : Coordinator α) (r : PlanRequest α) :
    PlanningOutcome c r (c.planResult r).1 (c.planResult r).2 := by
  unfold planResult
  split
  · next p c' hgenerate =>
    obtain ⟨_, -, -, ⟨hactivate, hvalid, rfl⟩ | ⟨hidle, rfl⟩⟩ := generatePlan_eq_ok hgenerate
    · exact .activated hactivate rfl rfl hvalid
    · exact .proposed hidle rfl
  · refine .failed fun a ha => ?_
    cases ha
  · refine .failed fun a ha => ?_
    cases ha
    rfl

/-- Reasons for which a coordinator cannot make the plan that it is asked for. -/
inductive Unplannable (c : Coordinator α) (r : PlanRequest α) : Prop
  | descriptor {d : Descriptor α} : d ∈ r.nodes → d.validate ≠ .ok () → Unplannable c r
  | noLayers : r.layers.getD c.profile = [] → Unplannable c r
  | noNodes : r.nodes = [] → c.registry.healthyNodes = [] → Unplannable c r
  | infeasible {nodes : List (Node α)} {err : PlanningError} : c.nodesFor r = .ok nodes →
      Planning.generate c.config.planner (r.layers.getD c.profile) nodes r.modelName r.strategy
        c.clock.text = .error err → Unplannable c r
  | rejected {nodes : List (Node α)} {p : Plan α} : c.nodesFor r = .ok nodes →
      Planning.generate c.config.planner (r.layers.getD c.profile) nodes r.modelName r.strategy
        c.clock.text = .ok p → r.activate = true → p.validate ≠ .ok () → Unplannable c r

omit [Scalar α] in
theorem exists_of_mapM_eq_ok {ε β γ : Type} {f : β → Except ε γ} {xs : List β} {ys : List γ}
    (h : xs.mapM f = .ok ys) : ∀ x ∈ xs, ∃ y, f x = .ok y := by
  induction xs generalizing ys with
  | nil => simp
  | cons x xs ih =>
    rw [List.mapM_cons] at h
    cases hx : f x with
    | error e => simp [hx, bind, Except.bind] at h
    | ok y =>
      cases hxs : xs.mapM f with
      | error e => simp [hx, hxs, bind, Except.bind] at h
      | ok ys' => exact List.forall_mem_cons.mpr ⟨⟨y, hx⟩, ih hxs⟩

theorem nodesFor_descriptor {c : Coordinator α} {r : PlanRequest α} {nodes : List (Node α)}
    (h : c.nodesFor r = .ok nodes) : ∀ d ∈ r.nodes, d.validate = .ok () := by
  intro d hd
  unfold nodesFor at h
  split at h
  · next hempty => simp [List.isEmpty_iff.mp hempty] at hd
  · obtain ⟨y, hy⟩ := exists_of_mapM_eq_ok h d hd
    split at hy
    · cases hy
    · assumption

theorem Unplannable.generatePlan {c : Coordinator α} {r : PlanRequest α} (h : Unplannable c r)
    (x : Plan α × Coordinator α) : c.generatePlan r ≠ .ok x := by
  intro hgenerate
  obtain ⟨nodes, hnodes, hplan, hresult⟩ := generatePlan_eq_ok hgenerate
  cases h with
  | descriptor hd hinvalid => exact hinvalid (nodesFor_descriptor hnodes _ hd)
  | noLayers hlayers =>
    rw [hlayers] at hplan
    cases hplan
  | noNodes hnone hhealthy =>
    simp only [nodesFor, hnone, List.isEmpty_nil, if_true, hhealthy, Except.ok.injEq] at hnodes
    subst hnodes
    generalize r.layers.getD c.profile = layers at hplan
    cases layers <;> cases hplan
  | infeasible hnodes' hfails =>
    obtain rfl := Except.ok.inj (hnodes.symm.trans hnodes')
    cases hplan.symm.trans hfails
  | rejected hnodes' hplan' hactivate hinvalid =>
    obtain rfl := Except.ok.inj (hnodes.symm.trans hnodes')
    obtain rfl := Except.ok.inj (hplan.symm.trans hplan')
    rcases hresult with ⟨-, hvalid, -⟩ | ⟨hidle, -⟩
    · exact hinvalid hvalid
    · cases hactivate.symm.trans hidle

theorem Unplannable.success {c : Coordinator α} {r : PlanRequest α} (h : Unplannable c r)
    {a : PlanResult α} (ha : (c.planResult r).1 = .ok a) : a.success = false := by
  unfold planResult at ha
  split at ha
  · next hgenerate => exact absurd hgenerate (h.generatePlan _)
  · cases ha
  · cases ha
    rfl

/-! ## Stages returned -/

theorem releaseStages_append (r : Registry α) (xs ys : List (Stage α)) :
    releaseStages r (xs ++ ys) = releaseStages (releaseStages r xs) ys :=
  List.foldl_append

/-- The roster after a forward pass through a plan: a stage that failed is judged, and the memory of
the whole plan is returned. -/
def rosterAfter (c : Coordinator α) (p : Plan α) :
    Except (Stage α × ServiceError) (Tensor × ExecutionReport α) → Registry α
  | .ok _ => c.registry
  | .error (_, .aborted _) => c.registry
  | .error (s, err) => releaseStages (c.noteFailure s.node.nodeId err).registry p.stages

omit [Scalar α] in
theorem planOf?_eq_join (c : Coordinator α) (id : String) :
    c.planOf? id = ((c.sessions.get? id).map (·.plan)).join := by
  cases h : c.sessions.get? id <;> simp [planOf?, h]

omit [Scalar α] in
theorem heldStages_of_planOf? {id : String} {p : Plan α} (h : c.planOf? id = some p) :
    c.heldStages id = p.stages := by
  rw [heldStages, h]
  rfl

end Scalar

end Coordinator

namespace Network

variable [Scalar α] {describe : Response α → String} {n m n' : Network α} {id : String}

theorem Reached.planValid (h : Reached describe n) : n.coordinator.PlanValid := by
  induction h with
  | start hstart =>
    obtain ⟨-, -, hplan, -⟩ := Coordinator.start_eq_ok hstart
    intro p hp
    cases hplan.symm.trans hp
  | @work n n' job u _ hrun ih =>
    exact related_of_moves (R := fun c c' => c.PlanValid → c'.PlanValid) (fun _ hc => hc)
      (fun h h' => h' ∘ h) (fun _ hc => hc) (Coordinator.moves_planValid describe job) hrun ih
  | drift _ heq ih =>
    rw [heq]
    exact ih

theorem runs_generatePlan {r : PlanRequest α} {result : Except Abort (Response α)}
    (hrun : Runs Answered (ofCoordinator (Coordinator.handle describe (.generatePlan r))) n result
      n') :
    result = (n.coordinator.countRequest.planResult r).1.map .planned ∧
      n' = n.setCoordinator (n.coordinator.countRequest.planResult r).2 := by
  simp only [Coordinator.handle, ofCoordinator_bind, ofCoordinator_pure, runs_bind,
    runs_ofCoordinator_update, runs_ofCoordinator_atomically, runs_pure] at hrun
  obtain ⟨_, _, rfl, _, _, ⟨rfl, rfl⟩, rfl, rfl⟩ := hrun
  exact ⟨rfl, rfl⟩

/-! ## Plans of open sessions -/

/-- What can become of a network while a session stays open. -/
inductive Staying (describe : Response α → String) (id : String) (n : Network α) :
    Network α → Prop
  | refl : Staying describe id n n
  | work {m n' : Network α} {job : Coordinator.Job α} {u : Unit} : Staying describe id n m →
      Runs Answered (ofCoordinator (job.procedure describe)) m u n' →
      (n'.coordinator.sessions.get? id).isSome → Staying describe id n n'
  | drift {m n' : Network α} {clock : Clock} {embedded : Worker α} : Staying describe id n m →
      n'.coordinator = { m.coordinator with clock, embedded } → Staying describe id n n'

theorem planOf?_job {job : Coordinator.Job α} {u : Unit}
    (hsound : n.coordinator.sessions.Sound)
    (hrun : Runs Answered (ofCoordinator (job.procedure describe)) n u n')
    (hbefore : (n.coordinator.sessions.get? id).isSome)
    (hafter : (n'.coordinator.sessions.get? id).isSome) :
    n'.coordinator.planOf? id = n.coordinator.planOf? id := by
  by_cases hcreate : ∃ r, job = .serve (.createSession r)
  · obtain ⟨r, rfl⟩ := hcreate
    obtain ⟨_, hrun⟩ := runs_serve.mp hrun
    obtain ⟨outcome, hrun, -⟩ := runs_handle_createSession hrun
    have hm : (n.setCoordinator n.coordinator.countRequest).coordinator.sessions.Sound := hsound
    have hfound := createSession_found hm hrun id
    split at hfound
    · rw [show n.coordinator.sessions.get? id = none from hfound.1] at hbefore
      cases hbefore
    · rw [Coordinator.planOf?_eq_join, hfound, Coordinator.planOf?_eq_join]
      rfl
  · obtain ⟨s', hs'⟩ := Option.isSome_iff_exists.mp hafter
    obtain ⟨s, hs, hplan⟩ := found_of_tame
      (Coordinator.tame_job describe fun r hr => hcreate ⟨r, hr⟩) hsound hrun hs'
    simp [Coordinator.planOf?, hs, hs', hplan]

theorem Staying.planOf? (h : Staying describe id n n') (hn : Reached describe n)
    (hopen : (n.coordinator.sessions.get? id).isSome) :
    Reached describe n' ∧ n'.coordinator.planOf? id = n.coordinator.planOf? id := by
  have hall : Reached describe n' ∧ (n'.coordinator.sessions.get? id).isSome ∧
      n'.coordinator.planOf? id = n.coordinator.planOf? id := by
    induction h with
    | refl => exact ⟨hn, hopen, rfl⟩
    | work _ hrun hafter ih =>
      obtain ⟨hreached, hbefore, hplan⟩ := ih
      exact ⟨hreached.work hrun, hafter,
        (planOf?_job hreached.ready.sound hrun hbefore hafter).trans hplan⟩
    | drift _ heq ih =>
      obtain ⟨hreached, hbefore, hplan⟩ := ih
      refine ⟨hreached.drift heq, ?_, ?_⟩
      · rw [heq]
        exact hbefore
      · rw [← hplan, heq]
        rfl
  exact ⟨hall.1, hall.2.2⟩

theorem Staying.afterJobs {e : Encoding α} {jobs : List (Coordinator.Job α)}
    (hjobs : ∀ k ≤ jobs.length, (((m.afterJobs e (jobs.take k)).coordinator.sessions.get?
      id).isSome)) (h : Staying e.describe id n m) :
    Staying e.describe id n (m.afterJobs e jobs) := by
  induction jobs generalizing m with
  | nil => exact h
  | cons job jobs ih =>
    refine ih (fun k hk => hjobs (k + 1) (Nat.succ_le_succ hk))
      (h.work (answered_perform e (job.procedure e.describe) m) ?_)
    exact hjobs 1 (by simp)

/-! ## What passes run and what is returned -/

omit [Scalar α] in
theorem registry_closeStages {stages : List (Stage α)} {u : Unit}
    (hrun : Runs Answered (ofCoordinator (Coordinator.closeStages describe id stages)) n u n') :
    n'.coordinator.registry = n.coordinator.registry := by
  have hlenient : Coordinator.Lenient (fun _ => True)
      (fun c c' : Coordinator α => c'.registry = c.registry) := ⟨fun _ => rfl, fun _ _ _ => rfl⟩
  exact related_of_within (R := fun c c' => c'.registry = c.registry) (fun _ => rfl)
    (fun h h' => h'.trans h) (fun _ => rfl) (hlenient.closeStages describe id stages) hrun

/-- What a forward pass of a session comes to that is bound to a plan: the pass is refused before
the first stage, or it runs the selected stages of the plan. -/
inductive PassOutcome (describe : Response α → String) (n : Network α) (r : ExecuteForward)
    (p : Plan α) : Except ServiceError (Tensor × ExecutionReport α) → Network α → Prop
  | refused {err : ServiceError} : PassOutcome describe n r p (.error err) n
  | ran {outcome : Except (Stage α × ServiceError) (Tensor × ExecutionReport α)}
      {m n' : Network α} :
      Runs Answered (ofCoordinator (Coordinator.runStages describe r (selected r p) r.input .start))
        n outcome m →
      n'.coordinator.registry = m.coordinator.rosterAfter p outcome →
      PassOutcome describe n r p (outcome.mapError Prod.snd) n'

theorem executeForward_pass (hsound : n.coordinator.sessions.Sound) {r : ExecuteForward}
    {p : Plan α} (hp : n.coordinator.planOf? r.sessionId = some p)
    {result : Except ServiceError (Tensor × ExecutionReport α)}
    (hrun : Runs Answered (ofCoordinator (Coordinator.executeForward describe r)) n result n') :
    PassOutcome describe n r p result n' := by
  unfold Coordinator.executeForward at hrun
  split at hrun
  · obtain ⟨rfl, rfl⟩ := hrun
    exact .refused
  · simp only [ofCoordinator_bind, runs_bind, runs_ofCoordinator_read] at hrun
    obtain ⟨_, n, ⟨rfl, rfl⟩, hrun⟩ := hrun
    split at hrun
    · obtain ⟨rfl, rfl⟩ := hrun
      exact .refused
    · next key hkey =>
      obtain ⟨s, hs, rfl⟩ := Option.map_eq_some_iff.mp hkey
      simp only [ofCoordinator_bind, runs_bind, runs_ofCoordinator_acquire,
        runs_ofCoordinator_read] at hrun
      obtain ⟨_, _, rfl, _, n, ⟨rfl, rfl⟩, hrun⟩ := hrun
      split at hrun
      · simp only [ofCoordinator_bind, ofCoordinator_pure, runs_bind, runs_ofCoordinator_release,
          runs_pure] at hrun
        obtain ⟨_, _, rfl, rfl, rfl⟩ := hrun
        exact .refused
      · next q stages hstages =>
        obtain ⟨s', hs', -, hplan, rfl, -⟩ := Coordinator.stagesToRun_eq_ok hstages
        obtain rfl : s = s' := Option.some.inj ((hsound.session?_of_get? hs).symm.trans hs')
        obtain rfl : q = p := by simpa [Coordinator.planOf?, hs, hplan] using hp
        rw [ofCoordinator_bind, runs_bind] at hrun
        obtain ⟨outcome, m, hpass, hrun⟩ := hrun
        split at hrun
        · simp only [ofCoordinator_bind, ofCoordinator_pure, runs_bind,
            runs_ofCoordinator_release, runs_pure] at hrun
          obtain ⟨_, _, rfl, rfl, rfl⟩ := hrun
          exact .ran hpass rfl
        · next stage err hne =>
          simp only [ofCoordinator_bind, ofCoordinator_pure, runs_bind, runs_ofCoordinator_update,
            runs_ofCoordinator_atomically, runs_ofCoordinator_release, runs_pure] at hrun
          obtain ⟨_, _, rfl, found, _, ⟨-, rfl⟩, _, _, rfl, _, _, rfl, _, _, rfl, _, _, hclose, rfl,
            rfl⟩ := hrun
          refine .ran hpass ?_
          rw [registry_closeStages hclose]
          cases err with
          | aborted a => exact absurd rfl (hne a)
          | _ => rfl
        · simp only [ofCoordinator_bind, ofCoordinator_pure, runs_bind, runs_ofCoordinator_update,
            runs_ofCoordinator_release, runs_pure] at hrun
          obtain ⟨_, _, rfl, _, _, rfl, _, _, rfl, rfl, rfl⟩ := hrun
          exact .ran hpass rfl

theorem registry_closeSession {reason : Option String} {a : SessionClosed}
    (hrun : Runs Answered (ofCoordinator (Coordinator.closeSession describe id reason)) n a n') :
    n'.coordinator.registry =
      Coordinator.releaseStages n.coordinator.registry (n.coordinator.heldStages id) := by
  simp only [Coordinator.closeSession, ofCoordinator_bind, runs_bind,
    runs_ofCoordinator_atomically] at hrun
  obtain ⟨_, _, ⟨rfl, rfl⟩, hrun⟩ := hrun
  split at hrun
  · next hnone =>
    obtain ⟨-, rfl⟩ := hrun
    simp [Coordinator.heldStages, Coordinator.planOf?, hnone, Coordinator.releaseStages,
      Coordinator.dropSession]
  · next s hs =>
    simp only [ofCoordinator_bind, runs_bind, runs_ofCoordinator_acquire,
      runs_ofCoordinator_atomically] at hrun
    obtain ⟨_, _, rfl, found, _, ⟨-, rfl⟩, hrun⟩ := hrun
    split at hrun
    · next hplan =>
      simp only [ofCoordinator_bind, ofCoordinator_pure, runs_bind, runs_ofCoordinator_release,
        runs_pure] at hrun
      obtain ⟨_, _, rfl, -, rfl⟩ := hrun
      simp [Coordinator.heldStages, Coordinator.planOf?, hs, hplan, Coordinator.releaseStages,
        Coordinator.dropSession, Coordinator.endSession, Coordinator.modifySession]
    · next p hplan =>
      simp only [ofCoordinator_bind, ofCoordinator_pure, runs_bind, runs_ofCoordinator_update,
        runs_ofCoordinator_release, runs_pure] at hrun
      obtain ⟨_, _, rfl, _, m, hclose, _, _, rfl, -, rfl⟩ := hrun
      have hheld : n.coordinator.planOf? id = some p := by simp [Coordinator.planOf?, hs, hplan]
      rw [registry_closeStages hclose, Coordinator.heldStages_of_planOf? hheld]
      rfl

/-- A session that is closed leaves the plans of the others alone. -/
theorem planOf?_closeSession {reason : Option String} {a : SessionClosed} {other : String}
    (hother : other ≠ id)
    (hrun : Runs Answered (ofCoordinator (Coordinator.closeSession describe id reason)) n a n') :
    n'.coordinator.planOf? other = n.coordinator.planOf? other := by
  rw [Coordinator.planOf?_eq_join, Coordinator.planOf?_eq_join]
  cases closeSession_outcome hrun with
  | absent =>
    rw [coordinator_setCoordinator, Coordinator.dropSession, SessionTable.get?_remove,
      if_neg hother]
  | taken hs hsessions hclose =>
    rw [sessions_of_quiet (Coordinator.calm_closeStages describe _ _).quiet hclose,
      coordinator_setCoordinator, hsessions, SessionTable.map_plan_modify _
        (SessionTable.keeps_close _) (Session.plan_close _), SessionTable.get?_remove,
      if_neg hother]

theorem registry_closeIdle {ids : List String} (hids : ids.Nodup) {u : Unit}
    (hrun : Runs Answered (ofCoordinator (Coordinator.closeIdle describe ids)) n u n') :
    n'.coordinator.registry = Coordinator.releaseStages n.coordinator.registry
      (ids.flatMap n.coordinator.heldStages) := by
  induction ids generalizing n with
  | nil => exact hrun.2 ▸ rfl
  | cons id ids ih =>
    rw [Coordinator.closeIdle, ofCoordinator_bind, runs_bind] at hrun
    obtain ⟨_, m, hclose, hrest⟩ := hrun
    obtain ⟨hid, hids⟩ := List.nodup_cons.mp hids
    have hothers : ids.flatMap m.coordinator.heldStages =
        ids.flatMap n.coordinator.heldStages := by
      refine List.flatMap_congr fun x hx => ?_
      have hother : x ≠ id := by
        rintro rfl
        exact hid hx
      rw [Coordinator.heldStages, planOf?_closeSession hother hclose]
      rfl
    rw [ih hids hrest, hothers, registry_closeSession hclose, List.flatMap_cons,
      Coordinator.releaseStages_append]

theorem registry_sweep (hsound : n.coordinator.sessions.Sound) {busy : List String} {u : Unit}
    (hrun : Runs Answered (ofCoordinator (Coordinator.sweep describe busy)) n u n') :
    n'.coordinator.registry = Coordinator.releaseStages n.coordinator.dropSilent.registry
      ((n.idleIds busy).flatMap n.coordinator.heldStages) := by
  simp only [Coordinator.sweep, ofCoordinator_bind, runs_bind, runs_ofCoordinator_update,
    runs_ofCoordinator_read] at hrun
  obtain ⟨_, _, rfl, ids, _, ⟨hids, rfl⟩, hrun⟩ := hrun
  obtain ⟨registry, heartbeats, heq⟩ := n.coordinator.dropSilent_eq
  have hidle : ids = n.idleIds busy := by
    rw [hids, coordinator_setCoordinator, heq]
    rfl
  have hnodup : ids.Nodup := hidle ▸ hsound.ids_nodup.sublist (List.filter_sublist.map _)
  rw [registry_closeIdle hnodup hrun, hidle, coordinator_setCoordinator]
  congr 2
  rw [heq]
  rfl

/-! ## Planning and open sessions -/

/-- A session runs by a plan: its passes run stages of the plan, and its end returns the memory of
the plan. -/
structure RunsBy (describe : Response α → String) (id : String) (p : Plan α) (n : Network α) :
    Prop where
  plan : n.coordinator.planOf? id = some p
  held : n.coordinator.heldStages id = p.stages
  forward : ∀ {r result n'}, r.sessionId = id →
    Runs Answered (ofCoordinator (Coordinator.executeForward describe r)) n result n' →
      PassOutcome describe n r p result n'
  close : ∀ {reason a n'},
    Runs Answered (ofCoordinator (Coordinator.closeSession describe id reason)) n a n' →
      n'.coordinator.registry = Coordinator.releaseStages n.coordinator.registry p.stages
  sweep : ∀ {busy u n'},
    Runs Answered (ofCoordinator (Coordinator.sweep describe busy)) n u n' →
      n'.coordinator.registry = Coordinator.releaseStages n.coordinator.dropSilent.registry
        ((n.idleIds busy).flatMap n.coordinator.heldStages)

theorem Reached.runsBy (hn : Reached describe n) {p : Plan α}
    (hp : n.coordinator.planOf? id = some p) : RunsBy describe id p n where
  plan := hp
  held := Coordinator.heldStages_of_planOf? hp
  forward := by
    rintro r result n' rfl hrun
    exact executeForward_pass hn.ready.sound hp hrun
  close hrun := by rw [registry_closeSession hrun, Coordinator.heldStages_of_planOf? hp]
  sweep hrun := registry_sweep hn.ready.sound hrun

/-- The planning request has brought no plan. -/
def PlanningFailed (result : Except Abort (Response α)) : Prop :=
  ∀ a, result = .ok (.planned a) → a.success = false

/-- Planning is kept apart from open sessions: the active plan is valid, a planning request replaces
it or changes nothing but the number of requests, and a session runs by the plan that was active
when it was opened for as long as it stays open. -/
structure PlansApart (describe : Response α → String) (n : Network α) : Prop where
  valid : n.coordinator.PlanValid
  unchanged : ∀ {r result n'},
    Runs Answered (ofCoordinator (Coordinator.handle describe (.generatePlan r))) n result n' →
      r.activate = false ∨ PlanningFailed result →
        n' = n.setCoordinator n.coordinator.countRequest
  failed : ∀ {r result n'}, n.coordinator.Unplannable r →
    Runs Answered (ofCoordinator (Coordinator.handle describe (.generatePlan r))) n result n' →
      PlanningFailed result
  replaced : ∀ {r result n'},
    Runs Answered (ofCoordinator (Coordinator.handle describe (.generatePlan r))) n result n' →
      n' = n.setCoordinator n.coordinator.countRequest ∨
      ∃ a p, result = .ok (.planned a) ∧ a.plan = some p ∧
        n' = n.setCoordinator { n.coordinator.countRequest with plan := some p }
  bound : ∀ {r a n'},
    Runs Answered (ofCoordinator (Coordinator.handle describe (.createSession r))) n
      (.ok (.sessionCreated a)) n' → a.success = true →
      ∃ p, n.coordinator.plan = some p ∧
        ∀ m, Staying describe a.sessionId n' m → RunsBy describe a.sessionId p m

theorem unchanged_generatePlan {r : PlanRequest α} {result : Except Abort (Response α)}
    (hrun : Runs Answered (ofCoordinator (Coordinator.handle describe (.generatePlan r))) n result
      n') (h : r.activate = false ∨ PlanningFailed result) :
    n' = n.setCoordinator n.coordinator.countRequest := by
  obtain ⟨rfl, rfl⟩ := runs_generatePlan hrun
  have houtcome := n.coordinator.countRequest.planResult_outcome r
  generalize n.coordinator.countRequest.planResult r = planned at houtcome h ⊢
  obtain ⟨result, c⟩ := planned
  cases houtcome with
  | activated hactivate hsuccess =>
    rcases h with hidle | hfailed
    · cases hactivate.symm.trans hidle
    · cases hsuccess.symm.trans (hfailed _ rfl)
  | proposed => rfl
  | failed => rfl

theorem failed_generatePlan {r : PlanRequest α} (hr : n.coordinator.Unplannable r)
    {result : Except Abort (Response α)}
    (hrun : Runs Answered (ofCoordinator (Coordinator.handle describe (.generatePlan r))) n result
      n') : PlanningFailed result := by
  obtain ⟨rfl, -⟩ := runs_generatePlan hrun
  intro a ha
  have hcounted : n.coordinator.countRequest.Unplannable r := by
    cases hr with
    | descriptor hd hinvalid => exact .descriptor hd hinvalid
    | noLayers hlayers => exact .noLayers hlayers
    | noNodes hnone hhealthy => exact .noNodes hnone hhealthy
    | infeasible hnodes hfails => exact .infeasible hnodes hfails
    | rejected hnodes hplan hactivate hinvalid => exact .rejected hnodes hplan hactivate hinvalid
  cases hresult : (n.coordinator.countRequest.planResult r).1 with
  | error err => simp [hresult, Except.map] at ha
  | ok a' =>
    rw [hresult] at ha
    cases ha
    exact hcounted.success hresult

theorem replaced_generatePlan {r : PlanRequest α} {result : Except Abort (Response α)}
    (hrun : Runs Answered (ofCoordinator (Coordinator.handle describe (.generatePlan r))) n result
      n') :
    n' = n.setCoordinator n.coordinator.countRequest ∨
      ∃ a p, result = .ok (.planned a) ∧ a.plan = some p ∧
        n' = n.setCoordinator { n.coordinator.countRequest with plan := some p } := by
  obtain ⟨rfl, rfl⟩ := runs_generatePlan hrun
  have houtcome := n.coordinator.countRequest.planResult_outcome r
  generalize n.coordinator.countRequest.planResult r = planned at houtcome ⊢
  obtain ⟨result, c⟩ := planned
  cases houtcome with
  | activated _ _ hplan => exact .inr ⟨_, _, rfl, hplan, rfl⟩
  | proposed => exact .inl rfl
  | failed => exact .inl rfl

theorem Reached.bound (hn : Reached describe n) {r : CreateSession} {a : SessionCreated α}
    (hrun : Runs Answered (ofCoordinator (Coordinator.handle describe (.createSession r))) n
      (.ok (.sessionCreated a)) n') (ha : a.success = true) :
    ∃ p, n.coordinator.plan = some p ∧
      ∀ m, Staying describe a.sessionId n' m → RunsBy describe a.sessionId p m := by
  have hn' : Reached describe n' := hn.work (u := ()) (runs_serve.mpr ⟨_, hrun⟩)
  obtain ⟨outcome, hcreate, hanswer⟩ := runs_handle_createSession hrun
  obtain rfl := (hanswer a.sessionId).mp (by simp [openedBy, ha])
  have hm : (n.setCoordinator n.coordinator.countRequest).coordinator.sessions.Sound :=
    hn.ready.sound
  have hfound := createSession_found hm hcreate a.sessionId
  rw [if_pos rfl] at hfound
  obtain ⟨-, p, hplan, hfound⟩ := hfound
  have hopen : (n'.coordinator.sessions.get? a.sessionId).isSome := by
    rw [← Option.isSome_map (f := Session.plan), hfound]
    rfl
  refine ⟨p, hplan, fun m hstay => ?_⟩
  obtain ⟨hm, hsame⟩ := hstay.planOf? hn' hopen
  refine hm.runsBy ?_
  rw [hsame, Coordinator.planOf?_eq_join, hfound]
  rfl

theorem plansApart_of_reached (hn : Reached describe n) : PlansApart describe n where
  valid := hn.planValid
  unchanged hrun h := unchanged_generatePlan hrun h
  failed hr hrun := failed_generatePlan hr hrun
  replaced hrun := replaced_generatePlan hrun
  bound hrun ha := hn.bound hrun ha

private def planNamed (name : String) : Plan Binary64 :=
  { (default : Plan Binary64) with planName := name, stages := [.small 0 "c"] }

private def openingNetwork (c : Coordinator Binary64) : Network Binary64 :=
  (small c []).afterJobs .payload [.install (planNamed "old")]

private def openingCall (c : Coordinator Binary64) :
    Except Abort (Response Binary64) × Network Binary64 :=
  perform .payload (Coordinator.handle Encoding.payload.describe
    (.createSession ⟨"s", ⟨"", 0, "", false⟩, [], 0, .u8⟩)) (openingNetwork c)

private def emptyRequest : PlanRequest Binary64 := ⟨"m", .balanced, [], some [], true⟩

private def replanningJobs : List (Coordinator.Job Binary64) :=
  [.install (planNamed "new"), .serve (.generatePlan emptyRequest)]

/-- A session runs by its old plan when another one has been installed and a planning request has
failed. -/
theorem plansApart_of_reached_replanned :
    ∃ n m : Network Binary64, Reached Encoding.payload.describe n ∧
      PlansApart Encoding.payload.describe n ∧ n.coordinator.plan = some (planNamed "old") ∧
      m.coordinator.plan = some (planNamed "new") ∧
      RunsBy Encoding.payload.describe "s" (planNamed "old") m := by
  have hfacts : (Coordinator.small .standard).toOption.map (fun c =>
      ((openingNetwork c).coordinator.plan, openedBy (openingCall c).1,
        ((openingCall c).2.afterJobs .payload replanningJobs).coordinator.plan,
        (List.range 3).all fun k => (((openingCall c).2.afterJobs .payload
          (replanningJobs.take k)).coordinator.sessions.get? "s").isSome)) =
      some (some (planNamed "old"), some "s", some (planNamed "new"), true) := by decide +kernel
  cases hstart : Coordinator.small .standard with
  | error err => simp [hstart, Except.toOption] at hfacts
  | ok c =>
    simp only [hstart, Except.toOption, Option.map_some, Option.some.injEq, Prod.mk.injEq]
      at hfacts
    obtain ⟨hold, hopened, hnew, hstays⟩ := hfacts
    have hn : Reached Encoding.payload.describe (openingNetwork c) :=
      Reached.afterJobs _ (.start hstart)
    have hrun := answered_perform .payload (Coordinator.handle Encoding.payload.describe
      (.createSession ⟨"s", ⟨"", 0, "", false⟩, [], 0, .u8⟩)) (openingNetwork c)
    obtain ⟨a, hanswer, ha, hid⟩ := openedBy_eq_some hopened
    obtain ⟨p, hp, hbound⟩ := (plansApart_of_reached hn).bound (hanswer ▸ hrun) ha
    cases hold.symm.trans hp
    rw [hid] at hbound
    refine ⟨_, _, hn, plansApart_of_reached hn, hold, hnew, hbound _ (.afterJobs ?_ .refl)⟩
    intro k hk
    exact List.all_eq_true.mp hstays k (List.mem_range.mpr (Nat.lt_succ_of_le hk))

end Network

end LayerPipeline
