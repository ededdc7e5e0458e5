import LayerPipeline.Proofs.Planning.Validity
import LayerPipeline.Proofs.Service.Balance

/-!
# Reservations over whole histories

After every complete request and every sweep, what is reserved on a node is what the open sessions
hold of it, up to the first registration of a node on which open sessions hold memory: a node that
registers is entered with nothing reserved.
-/

namespace LayerPipeline.Coordinator

open Planning Procedure

/-! ## Jobs -/

section Jobs

variable (describe : Response ℚ → String) {c c' : Coordinator ℚ}

/-- A session that is entered and taken out again leaves no trace. -/
theorem kept_undo {c m : Coordinator ℚ} {r : CreateSession} {p : Plan ℚ} {reason : Option String}
    (hid : c.sessions.get? (c.newSession r p).id = none)
    (hm : Undisturbed (fun _ => True) (c.entered r p) m) :
    Kept c ((m.endSession c.sessions.nextKey reason).2.dropSession (c.newSession r p).id) := by
  have hkeeps := SessionTable.keeps_close (α := ℚ) reason
  have hadded : m.sessions = c.sessions.add (c.newSession r p) := hm.sessions
  have hsessions : ((m.endSession c.sessions.nextKey reason).2.dropSession
      (c.newSession r p).id).sessions = ((c.sessions.add (c.newSession r p)).modify
        c.sessions.nextKey (·.close reason)).remove (c.newSession r p).id := by
    rw [← hadded]
    rfl
  intro hrest
  refine kept_of_same (fun hs => ?_) ?_ (fun hr => hr.of_same hm.reserved hm.matcher) hm.reserved
    hm.plan hm.profile hrest
  · rw [hsessions]
    exact ((hs.add hid).modify _ hkeeps).remove _
  · rw [hsessions, hrest.sessions.opened_add_modify_remove hid hkeeps]

/-- A session that is entered and made active holds the memory of its plan. -/
theorem kept_activate {c m : Coordinator ℚ} {r : CreateSession} {p : Plan ℚ}
    (hid : c.sessions.get? (c.newSession r p).id = none) (hactive : c.plan = some p)
    (hm : Undisturbed (fun _ => True) (c.entered r p) m) (now : Nat) :
    Kept c ((m.modifySession c.sessions.nextKey (activated now)).reserveFor
      c.sessions.nextKey p) := by
  intro hrest
  have hadded : m.sessions = c.sessions.add (c.newSession r p) := hm.sessions
  have hsessions : ((m.modifySession c.sessions.nextKey (activated now)).reserveFor
      c.sessions.nextKey p).sessions =
      (c.sessions.add (c.newSession r p)).modify c.sessions.nextKey (activated now) := by
    rw [← hadded]
    rfl
  have hopened := hrest.sessions.opened_add_modify (c.newSession r p) (activated now)
  rw [← hsessions] at hopened
  refine kept_open hactive ?_ hopened rfl hm.reserved hm.matcher rfl hm.plan hm.profile hrest
  rw [hsessions]
  exact (hrest.sessions.add hid).modify _ fun _ => ⟨rfl, rfl⟩

/-- A session that failed is taken out, and its memory is returned. -/
theorem kept_abandon {c m : Coordinator ℚ} {id : String} {s : Session ℚ} {p : Plan ℚ}
    (hs : c.sessions.get? id = some s) (hplan : s.plan = some p)
    (hm : Undisturbed (fun _ => True) c m) {reason : Option String} {found : SessionState} :
    Kept c (((m.endSession s.key reason).2.dropSession id).releaseFor s.key found p) := by
  have hkeeps := SessionTable.keeps_close (α := ℚ) reason
  have hsessions :
      (((m.endSession s.key reason).2.dropSession id).releaseFor s.key found p).sessions =
      (c.sessions.modify s.key (·.close reason)).remove id := by
    rw [← hm.sessions]
    rfl
  refine kept_close hs (fun h => ?_) (fun h => ?_) hm.reserved hm.matcher ?_ hm.plan hm.profile
  · rw [hsessions]
    exact (h.modify _ hkeeps).remove id
  · rw [hsessions]
    exact h.opened_modify_remove hs hkeeps
  · rw [Session.stages_of_plan hplan]
    rfl

theorem kept_createSession {r : CreateSession} {result : Except ServiceError String}
    (hrun : Runs Answered (createSession describe r) c result c') : Kept c c' := by
  simp only [createSession, runs_bind, runs_read] at hrun
  obtain ⟨_, c, ⟨rfl, rfl⟩, hrun⟩ := hrun
  split at hrun
  · obtain ⟨-, rfl⟩ := hrun
    exact .refl _
  · next plan hplan =>
    simp only [runs_bind, runs_atomically] at hrun
    obtain ⟨_, _, ⟨rfl, rfl⟩, hrun⟩ := hrun
    rcases c.enter_cases r plan with ⟨e, henter⟩ | ⟨hid, henter⟩
    · rw [henter] at hrun
      obtain ⟨-, rfl⟩ := hrun
      exact Alike.kept ⟨rfl, rfl, rfl, rfl, id⟩
    · rw [henter] at hrun
      simp only [runs_bind, runs_acquire] at hrun
      obtain ⟨_, _, rfl, _, m, hopen, hrun⟩ := hrun
      have hcalm : Undisturbed (fun _ => True) _ m :=
        (calm_openStages describe (fun _ => trivial) r [] plan.stages).undisturbed hopen
      split at hrun
      · next s err opened =>
        simp only [runs_bind, runs_update, runs_atomically, runs_release, runs_pure] at hrun
        obtain ⟨_, _, rfl, _, _, ⟨-, rfl⟩, _, _, rfl, _, _, rfl, _, m', hclose, -, rfl⟩ := hrun
        have hfailure := hcalm.trans (undisturbed_noteFailure s.node.nodeId err m)
        exact (kept_undo hid hfailure).trans
          ((calm_closeStages describe _ opened).undisturbed hclose).kept
      · simp only [runs_bind, runs_atomically] at hrun
        obtain ⟨_, _, ⟨rfl, rfl⟩, hrun⟩ := hrun
        refine fun hrest => ?_
        have hstate : m.sessions.stateAt c.sessions.nextKey = some .created := by
          rw [hcalm.sessions]
          exact (hrest.sessions.stateAt_add hid _).trans (if_pos rfl)
        have hsound : m.sessions.Sound := hcalm.sessions ▸ hrest.sessions.add hid
        have hkey : c.sessions.nextKey < m.sessions.nextKey := by
          rw [hcalm.sessions]
          exact Nat.lt_succ_self _
        rcases activateSession_cases hsound hkey with ⟨hne, -⟩ | ⟨-, hactivate⟩
        · exact absurd hstate hne
        · rw [hactivate] at hrun
          simp only [runs_bind, runs_update, runs_release, runs_pure] at hrun
          obtain ⟨_, _, rfl, _, _, rfl, -, rfl⟩ := hrun
          exact kept_activate hid hplan hcalm _ hrest

theorem kept_closeSession {id : String} {reason : Option String} {result : SessionClosed}
    (hrun : Runs Answered (closeSession describe id reason) c result c') : Kept c c' := by
  simp only [closeSession, runs_bind, runs_atomically] at hrun
  obtain ⟨_, _, ⟨rfl, rfl⟩, hrun⟩ := hrun
  split at hrun
  · next hnone =>
    obtain ⟨-, rfl⟩ := hrun
    have hopened : (c.sessions.remove id).opened = c.sessions.opened := by
      refine List.filter_eq_self.mpr fun x hx => ?_
      simpa using List.find?_eq_none.mp hnone x hx
    refine kept_of_same (fun hs => hs.remove id) ?_ (fun hr => hr) rfl rfl rfl
    exact congrArg _ hopened
  · next s hs =>
    simp only [runs_bind, runs_acquire, runs_atomically] at hrun
    obtain ⟨_, _, rfl, found, _, ⟨-, rfl⟩, hrun⟩ := hrun
    have hkeeps := SessionTable.keeps_close (α := ℚ) reason
    split at hrun
    · next hplan =>
      simp only [runs_bind, runs_release, runs_pure] at hrun
      obtain ⟨_, _, rfl, -, rfl⟩ := hrun
      refine kept_close hs (fun h => (h.remove id).modify _ hkeeps)
        (fun h => h.opened_remove_modify hs _) rfl rfl ?_ rfl rfl
      have hstages : s.stages = [] := by simp [Session.stages, hplan]
      rw [hstages]
      rfl
    · next plan hplan =>
      simp only [runs_bind, runs_update, runs_release, runs_pure] at hrun
      obtain ⟨_, _, rfl, _, m, hclose, _, _, rfl, -, rfl⟩ := hrun
      refine Kept.trans ?_ ((calm_closeStages describe id plan.stages).undisturbed hclose).kept
      refine kept_close hs (fun h => (h.remove id).modify _ hkeeps)
        (fun h => h.opened_remove_modify hs _) rfl rfl ?_ rfl rfl
      rw [Session.stages_of_plan hplan]
      rfl

theorem kept_executeForward {r : ExecuteForward}
    {result : Except ServiceError (Tensor × ExecutionReport ℚ)}
    (hrun : Runs Answered (executeForward describe r) c result c') : Kept c c' := by
  unfold executeForward at hrun
  split at hrun
  · obtain ⟨-, rfl⟩ := hrun
    exact .refl _
  · simp only [runs_bind, runs_read] at hrun
    obtain ⟨_, c, ⟨rfl, rfl⟩, hrun⟩ := hrun
    split at hrun
    · obtain ⟨-, rfl⟩ := hrun
      exact .refl _
    · next key hkey =>
      obtain ⟨s, hs, rfl⟩ := Option.map_eq_some_iff.mp hkey
      simp only [runs_bind, runs_acquire, runs_read] at hrun
      obtain ⟨_, _, rfl, _, c, ⟨rfl, rfl⟩, hrun⟩ := hrun
      split at hrun
      · simp only [runs_bind, runs_release, runs_pure] at hrun
        obtain ⟨_, _, rfl, -, rfl⟩ := hrun
        exact .refl _
      · next plan stages hstages =>
        simp only [runs_bind] at hrun
        obtain ⟨outcome, m, hstep, hrun⟩ := hrun
        have hcalm : Undisturbed (fun _ => True) c m :=
          (calm_runStages describe r stages r.input .start).undisturbed hstep
        split at hrun
        · simp only [runs_bind, runs_release, runs_pure] at hrun
          obtain ⟨_, _, rfl, -, rfl⟩ := hrun
          exact hcalm.kept
        · next failed err _ =>
          simp only [runs_bind, runs_update, runs_atomically, runs_release, runs_pure] at hrun
          obtain ⟨_, _, rfl, _, _, ⟨-, rfl⟩, _, _, rfl, _, _, rfl, _, _, rfl, _, _, hclose, -,
            rfl⟩ := hrun
          have hfailure := hcalm.trans (undisturbed_noteFailure failed.node.nodeId err m)
          refine Kept.trans (fun hrest => ?_)
            ((calm_closeStages describe _ _).undisturbed hclose).kept
          -- the plan that was read under the lock is that of the session in the table
          obtain ⟨s', hs', -, hplan, -, -⟩ := stagesToRun_eq_ok hstages
          cases (hrest.sessions.session?_of_get? hs).symm.trans hs'
          exact kept_abandon hs hplan hfailure hrest
        · simp only [runs_bind, runs_update, runs_release, runs_pure] at hrun
          obtain ⟨_, _, rfl, _, _, rfl, _, _, rfl, -, rfl⟩ := hrun
          refine hcalm.kept.trans (kept_of_same (fun h => ?_) ?_ (fun h => h) rfl rfl rfl)
          · exact h.modify _ (SessionTable.keeps_recordForward _ _)
          · change (m.sessions.opened.map _).map _ = _
            rw [List.map_map]
            refine List.map_congr_left fun x _ => ?_
            by_cases hkey : x.key = s.key
            · simp only [Function.comp_apply, hkey, if_true]
              rfl
            · simp [hkey]

theorem kept_closeIdle {ids : List String} {u : Unit}
    (hrun : Runs Answered (closeIdle describe ids) c u c') : Kept c c' := by
  induction ids generalizing c with
  | nil =>
    obtain ⟨-, rfl⟩ := hrun
    exact .refl _
  | cons id ids ih =>
    simp only [closeIdle, runs_bind] at hrun
    obtain ⟨_, m, hclose, hrest⟩ := hrun
    exact (kept_closeSession describe hclose).trans (ih hrest)

theorem kept_sweep {busy : List String} {u : Unit}
    (hrun : Runs Answered (sweep describe busy) c u c') : Kept c c' := by
  simp only [sweep, runs_bind, runs_update, runs_read] at hrun
  obtain ⟨_, _, rfl, _, _, ⟨-, rfl⟩, hrun⟩ := hrun
  exact (undisturbed_dropSilent c).kept.trans (kept_closeIdle describe hrun)

/-! ### Plans -/

theorem memory_nonneg_of_generate {config : PlannerConfig ℚ} {layers : List (LayerCost ℚ)}
    {nodes : List (Node ℚ)} {modelName createdAt : String} {strategy : Strategy} {p : Plan ℚ}
    (h : generate config layers nodes modelName strategy createdAt = .ok p)
    (hlayers : ∀ l ∈ layers, 0 ≤ l.memoryMb) : ∀ x ∈ p.stages, 0 ≤ x.memoryMb := by
  intro x hx
  obtain ⟨start, stop, -, -, -, hmemory, -⟩ := accepts_of_generate h x hx
  rw [hmemory, sum_exact]
  refine List.sum_nonneg fun y hy => ?_
  obtain ⟨l, hl, rfl⟩ := List.mem_map.mp hy
  exact hlayers l (List.mem_of_mem_drop (List.mem_of_mem_take hl))

/-- Another plan becomes the active one. -/
theorem kept_setPlan {p : Plan ℚ} (hp : ∀ x ∈ p.stages, 0 ≤ x.memoryMb) :
    Kept c { c with plan := some p } := by
  refine fun hrest => ⟨{ hrest with plan := ?_ }, id⟩
  rintro _ ⟨⟩
  exact hp

theorem kept_planResult {r : PlanRequest ℚ}
    (hr : ∀ layers ∈ r.layers, ∀ l ∈ layers, 0 ≤ l.memoryMb) : Kept c (c.planResult r).2 := by
  rcases c.planResult_cases r with heq | ⟨nodes, p, hgenerate, -, heq⟩
  · rw [heq]
    exact .refl c
  · rw [heq]
    intro hrest
    refine kept_setPlan (memory_nonneg_of_generate hgenerate fun l hl => ?_) hrest
    cases hlayers : r.layers with
    | none => exact hrest.profile l (by simpa [hlayers] using hl)
    | some layers => exact hr layers hlayers l (by simpa [hlayers] using hl)

theorem kept_install {p : Plan ℚ} (hp : ∀ x ∈ p.stages, 0 ≤ x.memoryMb) : Kept c (c.install p) := by
  rcases c.install_cases p with heq | ⟨-, heq⟩
  · rw [heq]
    exact .refl c
  · rw [heq]
    exact kept_setPlan hp

theorem alike_heartbeat (h : Heartbeat ℚ) : c.registry.Sound → Alike c (c.heartbeat h).2 := by
  intro hr
  rcases c.heartbeat_cases h with heq | heq
  · rw [heq]
    exact (Undisturbed.refl c).alike
  · obtain ⟨hsound, hreserved⟩ := hr.updateLoad h.nodeId h.loadFactor h.activeSessions
    rw [heq]
    exact ⟨rfl, rfl, rfl, hreserved, fun _ => hsound⟩

theorem alike_confirm (d : Descriptor ℚ) (answer : Except LinkError (CapabilityReport ℚ)) :
    c.registry.Sound → Alike c (c.confirm d answer).2 := by
  intro hr
  obtain ⟨registry, heq, hcase⟩ := c.confirm_cases d answer
  rw [heq]
  rcases hcase with rfl | ⟨report, happly⟩ | ⟨reason, rfl⟩
  · exact (Undisturbed.refl c).alike
  · obtain ⟨hsound, hreserved⟩ := hr.applyCapabilities happly
    exact ⟨rfl, rfl, rfl, hreserved, fun _ => hsound⟩
  · exact ⟨rfl, rfl, rfl, c.registry.reserved_markUnhealthy _ _, fun h => h.markUnhealthy _ _⟩

/-- A registration that is accepted. -/
def Admits (c : Coordinator ℚ) (d : Descriptor ℚ) : Prop := ∃ m, c.enroll d = .ok m

theorem admits_iff {d : Descriptor ℚ} : c.Admits d ↔
    ¬ (c.config.participate && d.nodeId = c.nodeId) = true ∧
      ∃ registry, c.registry.register d = .ok registry := by
  unfold Admits enroll
  split
  · next hown => simp [hown]
  · next hown => cases c.registry.register d <;> simp [hown]

/-- After a registration that is accepted, the balance holds if the open sessions hold nothing of
the node, and only then. -/
theorem accounted_enroll (hrest : Resting c) {d : Descriptor ℚ} (h : c.enroll d = .ok c') :
    Resting c' ∧ (Accounted c → (Accounted c' ↔ c.sessions.held d.nodeId = 0)) := by
  obtain ⟨registry, hregister, rfl⟩ := enroll_eq_ok h
  obtain ⟨hsound, hreserved⟩ := hrest.registry.register hregister
  refine ⟨{ hrest with registry := hsound }, fun hbalance => ?_⟩
  rw [accounted_iff] at hbalance ⊢
  constructor
  · intro hbalance'
    exact (hbalance' (d.nodeId, 0) ((hreserved _).mpr (.inl rfl))).symm
  · intro hzero e he
    rcases (hreserved e).mp he with rfl | ⟨hold, -⟩
    · exact hzero.symm
    · exact hbalance e hold

theorem accounted_registerWorker (hrest : Resting c) {d : Descriptor ℚ}
    {result : Except ServiceError (WorkerRegistered ℚ)}
    (hrun : Runs Answered (registerWorker describe d) c result c') :
    Resting c' ∧ (Accounted c → (Accounted c' ↔
      (c.Admits d → c.sessions.held d.nodeId = 0))) := by
  simp only [registerWorker, runs_bind, runs_atomically] at hrun
  obtain ⟨_, _, ⟨rfl, rfl⟩, hrun⟩ := hrun
  cases henroll : c.enroll d with
  | error e =>
    rw [henroll] at hrun
    obtain ⟨-, rfl⟩ := hrun
    exact ⟨hrest, fun h => by simp [h, Admits, henroll]⟩
  | ok m =>
    rw [henroll] at hrun
    simp only [runs_bind, runs_read, runs_atomically] at hrun
    obtain ⟨config, _, ⟨-, rfl⟩, answer, m', hask, confirmed, _, ⟨-, rfl⟩, hrun⟩ := hrun
    have hlast : c' = (m'.confirm d answer).2 := by
      cases confirmed <;> exact hrun.2
    obtain ⟨hm, hbalance⟩ := accounted_enroll hrest henroll
    have hasked := ((calm_reportCapabilities describe _ _ _).undisturbed hask).alike
    have hconfirmed := alike_confirm d answer (hasked.sound hm.registry)
    rw [hlast]
    refine ⟨(hasked.kept.trans hconfirmed.kept hm).1, fun h => ?_⟩
    rw [hconfirmed.accounted_iff, hasked.accounted_iff, hbalance h]
    simp [Admits, henroll]

/-! ### Requests -/

theorem kept_handle {request : Request ℚ} {result : Except Abort (Response ℚ)}
    (hrun : Runs Answered (handle describe request) c result c')
    (hlayers : ∀ r, request = .generatePlan r → ∀ layers ∈ r.layers, ∀ l ∈ layers, 0 ≤ l.memoryMb)
    (hregister : ∀ d, request ≠ .registerWorker d) : Kept c c' := by
  by_cases hcalm : request.isCalm = true
  · exact ((calm_handle describe hcalm).undisturbed hrun).kept
  simp only [handle, runs_bind, runs_update] at hrun
  obtain ⟨_, _, rfl, hrun⟩ := hrun
  refine (undisturbed_countRequest c).kept.trans ?_
  cases request with
  | createSession r =>
    simp only [runs_bind, runs_read] at hrun
    obtain ⟨_, _, ⟨-, rfl⟩, created, m, hcreate, hrun⟩ := hrun
    have hlast : c' = m := by
      split at hrun <;> exact hrun.2
    exact hlast ▸ kept_createSession describe hcreate
  | executeForward r =>
    simp only [runs_bind] at hrun
    obtain ⟨forwarded, m, hforward, hrun⟩ := hrun
    have hlast : c' = m := by
      split at hrun <;> exact hrun.2
    exact hlast ▸ kept_executeForward describe hforward
  | closeSession r =>
    simp only [runs_bind, runs_pure] at hrun
    obtain ⟨_, _, hclose, -, rfl⟩ := hrun
    exact kept_closeSession describe hclose
  | generatePlan r =>
    simp only [runs_bind, runs_atomically, runs_pure] at hrun
    obtain ⟨_, _, ⟨-, rfl⟩, -, rfl⟩ := hrun
    exact kept_planResult (hlayers r rfl)
  | heartbeat h =>
    simp only [runs_bind, runs_atomically, runs_pure] at hrun
    obtain ⟨_, _, ⟨-, rfl⟩, -, rfl⟩ := hrun
    exact fun hrest => (alike_heartbeat h hrest.registry).kept hrest
  | registerWorker d => exact absurd rfl (hregister d)
  | _ => exact absurd rfl hcalm

theorem accounted_handle_registerWorker (hrest : Resting c) {d : Descriptor ℚ}
    {result : Except Abort (Response ℚ)}
    (hrun : Runs Answered (handle describe (.registerWorker d)) c result c') :
    Resting c' ∧ (Accounted c → (Accounted c' ↔
      (c.Admits d → c.sessions.held d.nodeId = 0))) := by
  simp only [handle, runs_bind, runs_update] at hrun
  obtain ⟨_, _, rfl, registered, m, hregister, hrun⟩ := hrun
  have hlast : c' = m := by
    split at hrun <;> exact hrun.2
  have hcounted := (undisturbed_countRequest c).alike
  obtain ⟨hrest', hbalance⟩ :=
    accounted_registerWorker describe (hcounted.kept hrest).1 (hlast ▸ hregister)
  refine ⟨hrest', fun h => (hbalance (hcounted.accounted_iff.mpr h)).trans ?_⟩
  rw [admits_iff, admits_iff]
  rfl

/-! ### Any job -/

/-- A job that brings no layers and no stages of negative memory. -/
def Job.Weighed : Job ℚ → Prop
  | .serve (.generatePlan r) => ∀ layers ∈ r.layers, ∀ l ∈ layers, 0 ≤ l.memoryMb
  | .install p => ∀ x ∈ p.stages, 0 ≤ x.memoryMb
  | _ => True

/-- The job is no registration of a node on which open sessions hold memory. -/
def Job.Fresh (job : Job ℚ) (c : Coordinator ℚ) : Prop :=
  ∀ d, job = .serve (.registerWorker d) → c.Admits d → c.sessions.held d.nodeId = 0

theorem accounted_job (hrest : Resting c) {job : Job ℚ} (hjob : job.Weighed) {u : Unit}
    (hrun : Runs Answered (job.procedure describe) c u c') :
    Resting c' ∧ (Accounted c → (Accounted c' ↔ job.Fresh c)) := by
  by_cases hregister : ∃ d, job = .serve (.registerWorker d)
  · obtain ⟨d, rfl⟩ := hregister
    simp only [Job.procedure, runs_bind, runs_pure] at hrun
    obtain ⟨_, _, hhandle, -, rfl⟩ := hrun
    obtain ⟨hrest', hbalance⟩ := accounted_handle_registerWorker describe hrest hhandle
    refine ⟨hrest', fun h => (hbalance h).trans ?_⟩
    simp [Job.Fresh]
  · have hkept : Kept c c' := by
      cases job with
      | serve request =>
        simp only [Job.procedure, runs_bind, runs_pure] at hrun
        obtain ⟨_, _, hhandle, -, rfl⟩ := hrun
        refine kept_handle describe hhandle ?_ fun d hd => hregister ⟨d, hd ▸ rfl⟩
        rintro r rfl
        exact hjob
      | sweep busy => exact kept_sweep describe hrun
      | install p =>
        cases runs_update.mp hrun
        exact kept_install hjob
      | tick clock =>
        cases runs_update.mp hrun
        exact Alike.kept ⟨rfl, rfl, rfl, rfl, id⟩
    have hfresh : job.Fresh c := fun d hd => absurd ⟨d, hd⟩ hregister
    obtain ⟨hrest', hbalance⟩ := hkept hrest
    exact ⟨hrest', fun h => iff_of_true (hbalance h) hfresh⟩

end Jobs

/-! ## Histories -/

/-- What a coordinator has done since it was started, latest first: its jobs, each with the state
that it was begun in. -/
inductive History (describe : Response ℚ → String) (first : Coordinator ℚ) :
    List (Job ℚ × Coordinator ℚ) → Coordinator ℚ → Prop
  | start : History describe first [] first
  | next {past : List (Job ℚ × Coordinator ℚ)} {c c' : Coordinator ℚ} {job : Job ℚ} :
    History describe first past c → Runs Answered (job.procedure describe) c () c' →
      History describe first ((job, c) :: past) c'

theorem History.accounted_iff {describe : Response ℚ → String} {first c : Coordinator ℚ}
    {past : List (Job ℚ × Coordinator ℚ)} (h : History describe first past c)
    (hfirst : Resting first) (hbalance : Accounted first) (hjobs : ∀ e ∈ past, e.1.Weighed) :
    Resting c ∧ ((∀ x ∈ c :: past.map (·.2), Accounted x) ↔ ∀ e ∈ past, e.1.Fresh e.2) := by
  induction h with
  | start => exact ⟨hfirst, by simpa using hbalance⟩
  | @next past c c' job _ hrun ih =>
    obtain ⟨hrest, hpast⟩ := ih fun e he => hjobs e (List.mem_cons_of_mem _ he)
    obtain ⟨hrest', hstep⟩ := accounted_job describe hrest (hjobs _ List.mem_cons_self) hrun
    refine ⟨hrest', ?_⟩
    change (∀ x ∈ c' :: c :: past.map (·.2), Accounted x) ↔ _
    rw [List.forall_mem_cons, hpast, List.forall_mem_cons]
    constructor
    · rintro ⟨hlast, hold⟩
      exact ⟨(hstep (hpast.mpr hold c List.mem_cons_self)).mp hlast, hold⟩
    · rintro ⟨hfresh, hold⟩
      exact ⟨(hstep (hpast.mpr hold c List.mem_cons_self)).mpr hfresh, hold⟩

/-- A coordinator that was just started holds nothing for anybody. -/
theorem resting_start {config : CoordinatorConfig ℚ} {capability : Capability ℚ}
    {backend : Backend ℚ} {profile : List (LayerCost ℚ)} {address : String} {clock : Clock}
    {ids : IdSource} {overheadMs : ℚ} {c : Coordinator ℚ}
    (h : start config capability backend profile address clock ids overheadMs = .ok c)
    (hprofile : ∀ l ∈ profile, 0 ≤ l.memoryMb) : Resting c ∧ Accounted c := by
  obtain ⟨hsessions, -, hplan, rfl, hroster, -, -⟩ := start_eq_ok h
  have hempty : (Registry.empty config.matcher).Sound :=
    ⟨List.nodup_nil, by simp [Registry.reserved]⟩
  have hregistry : c.registry.Sound ∧ ∀ e ∈ c.registry.reserved, e.2 = 0 := by
    unfold firstRoster at hroster
    simp only at hroster
    split at hroster
    · obtain ⟨hsound, hreserved⟩ := hempty.register hroster
      refine ⟨hsound, fun e he => ?_⟩
      rcases (hreserved e).mp he with rfl | ⟨hnone, -⟩
      · rfl
      · cases hnone
    · rw [← Except.ok.inj hroster]
      exact ⟨hempty, by simp [Registry.reserved]⟩
  refine ⟨⟨hsessions ▸ SessionTable.sound_empty, hregistry.1, ?_, by simp [hplan], hprofile⟩, ?_⟩
  · simp [hsessions, SessionTable.empty]
  · rw [accounted_iff]
    intro e he
    rw [hregistry.2 e he, hsessions]
    rfl

/-- In a history of complete jobs since the start, with no layers of negative memory, the reserved
memory of every registered node is always what the open sessions hold of it, unless a registration
is accepted for a node on which open sessions hold memory. Then the node is free of reservations
while those sessions stay open. -/
theorem reserved_eq_held_iff {config : CoordinatorConfig ℚ} {capability : Capability ℚ}
    {backend : Backend ℚ} {profile : List (LayerCost ℚ)} {address : String} {clock : Clock}
    {ids : IdSource} {overheadMs : ℚ} {describe : Response ℚ → String} {first c : Coordinator ℚ}
    {past : List (Job ℚ × Coordinator ℚ)}
    (hstart : start config capability backend profile address clock ids overheadMs = .ok first)
    (hprofile : ∀ l ∈ profile, 0 ≤ l.memoryMb) (h : History describe first past c)
    (hjobs : ∀ e ∈ past, e.1.Weighed) :
    (∀ x ∈ c :: past.map (·.2), ∀ n ∈ x.registry.nodes,
      n.reservedGb = x.sessions.held n.descriptor.nodeId) ↔
    ∀ job x d, (job, x) ∈ past → job = .serve (.registerWorker d) → (∃ x', x.enroll d = .ok x') →
      x.sessions.held d.nodeId = 0 := by
  obtain ⟨hfirst, hbalance⟩ := resting_start hstart hprofile
  refine (h.accounted_iff hfirst hbalance hjobs).2.trans ?_
  constructor
  · intro hfresh job x d hmem hjob
    exact hfresh (job, x) hmem d hjob
  · rintro hfresh ⟨job, x⟩ hmem d hjob
    exact hfresh job x d hmem hjob

private def returning : Descriptor ℚ := ⟨"w", .cpu, 100, none, some 8, 1, none, none, "w:1"⟩

private def busyJobs : List (Job ℚ) :=
  [.serve (.registerWorker returning), .serve (.generatePlan ⟨"m", .balanced, [], none, true⟩),
    .serve (.createSession ⟨"a", ⟨"", 0, "", false⟩, [], 0, .u8⟩)]

private def willingWorker : Surroundings (Coordinator ℚ) (Call ℚ) (Except LinkError (Response ℚ)) :=
  fun q c =>
    match q.request with
    | .createSession _ => (.ok (.sessionCreated ⟨true, "", none, default⟩), c, 0)
    | _ => (.ok (.capabilities (Capability.basic "w" .cpu).report), c, 0)

private theorem answered_willingWorker (q : Call ℚ) (c : Coordinator ℚ) :
    Answered q c (willingWorker q c).1 (willingWorker q c).2.1 := by
  unfold willingWorker
  split <;> exact .inl rfl

private def history : List (Job ℚ) → List (Job ℚ × Coordinator ℚ) → Coordinator ℚ →
    List (Job ℚ × Coordinator ℚ) × Coordinator ℚ
  | [], past, c => (past, c)
  | job :: jobs, past, c =>
    history jobs ((job, c) :: past) ((job.procedure fun _ => "").call willingWorker c).2

private theorem history_spec (jobs : List (Job ℚ)) {first c : Coordinator ℚ}
    {past : List (Job ℚ × Coordinator ℚ)} (h : History (fun _ => "") first past c) :
    History (fun _ => "") first (history jobs past c).1 (history jobs past c).2 ∧
      (history jobs past c).1.map (·.1) = jobs.reverse ++ past.map (·.1) := by
  induction jobs generalizing past c with
  | nil => exact ⟨h, rfl⟩
  | cons job jobs ih =>
    obtain ⟨hhistory, hjobs⟩ :=
      ih (h.next (runs_call answered_willingWorker (job.procedure fun _ => "") c))
    exact ⟨hhistory, hjobs.trans (by simp)⟩

private def busyProfile : List (LayerCost ℚ) := [.basic "layer" 10 1024]

private def busyCoordinator : Except ServiceError (Coordinator ℚ) :=
  start { CoordinatorConfig.standard with participate := false } (.basic "c" .cpu)
    (.passthrough "cpu" 0) busyProfile "c:1" ⟨0, ""⟩ ⟨0, fun _ => "generated"⟩ 0

private def readmitted (c : Coordinator ℚ) : Coordinator ℚ :=
  (((Job.serve (.registerWorker returning)).procedure fun _ => "").call willingWorker c).2

/-- A worker registers again while a session holds a gigabyte of it. -/
theorem reserved_eq_held_iff_readmission :
    ∃ first past c c', busyCoordinator = .ok first ∧
      History (fun _ => "") first ((.serve (.registerWorker returning), c) :: past) c' ∧
      past.map (·.1) = busyJobs.reverse ∧
      c.registry.reserved = [("w", 1)] ∧ c.sessions.held "w" = 1 ∧
      c'.registry.reserved = [("w", 0)] ∧ c'.sessions.held "w" = 1 ∧
      ¬ (∀ x ∈ c' :: c :: past.map (·.2), ∀ n ∈ x.registry.nodes,
        n.reservedGb = x.sessions.held n.descriptor.nodeId) := by
  have houtcome : (busyCoordinator.toOption.map fun first =>
      let c := (history busyJobs [] first).2
      ((c.enroll returning).toOption.isSome,
        [c, readmitted c].map fun c => (c.registry.reserved, c.sessions.held "w"))) =
      some (true, [([("w", 1)], 1), ([("w", 0)], 1)]) := by
    decide +kernel
  cases hstart : busyCoordinator with
  | error e => simp [hstart, Except.toOption] at houtcome
  | ok first =>
    obtain ⟨hhistory, hpast⟩ := history_spec busyJobs (.start : History _ first [] first)
    generalize (history busyJobs [] first).1 = past at hhistory hpast
    simp only [hstart, Except.toOption, Option.map_some] at houtcome
    generalize (history busyJobs [] first).2 = c at hhistory houtcome
    simp only [Option.some.injEq, Prod.mk.injEq, List.map_cons, List.map_nil,
      List.cons.injEq] at houtcome
    obtain ⟨hadmitted, ⟨hreserved, hheld⟩, ⟨hreserved', hheld'⟩, -⟩ := houtcome
    have hlast := hhistory.next
      (runs_call answered_willingWorker ((Job.serve (.registerWorker returning)).procedure _) c)
    rw [List.map_nil, List.append_nil] at hpast
    refine ⟨first, past, c, readmitted c, rfl, hlast, hpast, hreserved, hheld, hreserved', hheld',
      fun hall => ?_⟩
    have hweighed : ∀ e ∈ (Job.serve (.registerWorker returning), c) :: past, e.1.Weighed := by
      intro e he
      rcases List.mem_cons.mp he with rfl | he
      · trivial
      · have hjob := hpast ▸ List.mem_map_of_mem he
        simp only [busyJobs, List.mem_reverse, List.mem_cons, List.not_mem_nil, or_false] at hjob
        rcases hjob with hjob | hjob | hjob <;> simp [hjob, Job.Weighed]
    have hadmits : ∃ x, c.enroll returning = .ok x := by
      cases henroll : c.enroll returning with
      | error e => simp [henroll] at hadmitted
      | ok x => exact ⟨x, rfl⟩
    have hzero := (reserved_eq_held_iff hstart (by decide +kernel) hlast hweighed).mp hall _ c
      returning List.mem_cons_self rfl hadmits
    rw [show returning.nodeId = "w" from rfl, hheld] at hzero
    exact one_ne_zero hzero

end LayerPipeline.Coordinator
