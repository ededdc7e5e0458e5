import LayerPipeline.Proofs.Service.Occupancy
import LayerPipeline.Proofs.Service.Permits
import LayerPipeline.Proofs.Service.Ready

/-!
# Sessions from call to call

The sessions of a coordinator, and of the worker inside it, between complete calls. A coordinator
opens a session on its active plan, and what it does for anything else leaves the plan of an open
session alone, or takes the session out. So a forward pass never finds its session unfit, and a
session that is gone is not found again before another one is opened under its id.
-/

namespace LayerPipeline

open Procedure

variable {α β : Type}

theorem Session.plan_close (reason : Option String) (s : Session α) :
    (s.close reason).plan = s.plan := by
  by_cases h : s.state = .closed <;> simp [close, h]

theorem SessionTable.map_plan_modify (t : SessionTable α) {key : Nat} {f : Session α → Session α}
    (hf : Keeps f) (hplan : ∀ s, (f s).plan = s.plan) {id : String} :
    ((t.modify key f).get? id).map (·.plan) = (t.get? id).map (·.plan) := by
  rw [get?_modify t key hf, Option.map_map]
  congr 1
  funext s
  by_cases hkey : s.key = key <;> simp [change, hkey, hplan]

namespace Coordinator

variable {c c' : Coordinator α}

/-! ## The worker inside -/

theorem runs_onEmbedded {E : Answers (Coordinator α) (Call α) (Except LinkError (Response α))}
    {p : Worker.Action α β} {b : β} (hrun : Runs E (onEmbedded p) c b c') :
    ∃ w, Runs Worker.Unasked p c.embedded b w ∧ c' = { c with embedded := w } := by
  unfold onEmbedded at hrun
  induction p generalizing c with
  | done x =>
    obtain ⟨rfl, rfl⟩ := hrun
    exact ⟨_, ⟨rfl, rfl⟩, rfl⟩
  | atomic f next ih => exact ih _ hrun
  | lock key next ih => exact ih hrun
  | unlock key next ih => exact ih hrun
  | wait ms next ih => exact ih hrun
  | ask q => exact nomatch q

/-- Whatever other nodes answer, the worker inside goes along a relation. -/
abbrev Inside (R : Worker α → Worker α → Prop) (p : Action α β) : Prop :=
  ∀ c b c', Runs Answered p c b c' → R c.embedded c'.embedded

section Inside

variable {R : Worker α → Worker α → Prop}

theorem inside_atomically (hrefl : ∀ w, R w w) {f : Coordinator α → β × Coordinator α}
    (hf : ∀ c, (f c).2.embedded = c.embedded) : Inside R (atomically f) := by
  rintro c b c' ⟨-, rfl⟩
  exact (hf c) ▸ hrefl _

theorem inside_update (hrefl : ∀ w, R w w) {f : Coordinator α → Coordinator α}
    (hf : ∀ c, (f c).embedded = c.embedded) : Inside R (update f) :=
  inside_atomically (f := fun c => ((), f c)) hrefl hf

variable [Scalar α]

theorem Touches.embedded (h : Touches c c') : c'.embedded = c.embedded := by
  cases h with
  | aside _ _ _ _ _ _ hembedded => exact hembedded
  | dropSilent =>
    obtain ⟨_, _, heq⟩ := c.dropSilent_eq
    rw [heq]
  | activate | judge | reserveFor | releaseFor => rfl

theorem permitsPasses_inside (hrefl : ∀ w, R w w) (htrans : ∀ {w m w'}, R w m → R m w' → R w w')
    (hopen : ∀ {r a w w'}, Runs Worker.Unasked (Worker.createSession r) w a w' → R w w')
    (hclose : ∀ {id a w w'}, Runs Worker.Unasked (Worker.closeSession id) w a w' → R w w')
    (hforward : ∀ {id token input result w w'},
      Runs Worker.Unasked (Worker.forward id token input []) w result w' → R w w')
    (hstage : ∀ {r layers result w w'},
      Runs Worker.Unasked (Worker.runStage r layers) w result w' → R w w') :
    PermitsPasses (Inside R : ∀ {β : Type}, Action α β → Prop) := by
  have hinside : ∀ {β : Type} {p : Worker.Action α β},
      (∀ {b w w'}, Runs Worker.Unasked p w b w' → R w w') → Inside R (onEmbedded p) := by
    intro β p hp c b c' hrun
    obtain ⟨w, hworker, rfl⟩ := runs_onEmbedded hrun
    exact hp hworker
  have hasks : ∀ q : Call α, Inside R (question q) := by
    rintro q c a c' hrun
    rcases runs_question.mp hrun with rfl | rfl <;> exact hrefl _
  exact {
    done := by
      rintro β b c _ c' ⟨-, rfl⟩
      exact hrefl _
    bind := by
      intro β γ p k hp hk c b c' hrun
      obtain ⟨_, m, hfirst, hrest⟩ := runs_bind.mp hrun
      exact htrans (hp _ _ _ hfirst) (hk _ _ _ _ hrest)
    acquire := by
      intro key c u c' hrun
      exact runs_acquire.mp hrun ▸ hrefl _
    release := by
      intro key c u c' hrun
      exact runs_release.mp hrun ▸ hrefl _
    pause := by
      intro ms c u c' hrun
      exact runs_pause.mp hrun ▸ hrefl _
    touch := fun hf => inside_atomically hrefl fun c => (hf c).embedded
    openEmbedded := fun _ => hinside hopen
    closeEmbedded := fun _ => hinside hclose
    askOpen := fun _ _ _ => hasks _
    askClose := fun _ _ _ => hasks _
    askReport := fun _ _ _ => hasks _
    noteSuccess := fun _ => inside_update hrefl fun _ => rfl
    recordStage := fun _ _ _ => inside_update hrefl fun _ => rfl
    submitMetrics := fun _ => inside_atomically hrefl fun _ => rfl
    forwardEmbedded := fun _ _ _ => hinside hforward
    stageEmbedded := fun _ _ => hinside hstage
    askForward := fun _ _ _ => hasks _ }

/-- The worker inside stays in order, whatever it is used for. -/
theorem permitsPasses_orderly :
    PermitsPasses (Inside (fun w w' => w.Orderly → w'.Orderly) :
      ∀ {β : Type}, Action α β → Prop) :=
  permitsPasses_inside (fun _ => id) (fun h h' => h' ∘ h)
    (fun hrun hw => Worker.orderly_createSession hw hrun)
    (fun hrun hw => (Worker.sheds_closeSession hw.sound hrun).orderly hw)
    (fun hrun hw => (Worker.sheds_forward hw.sound hrun).orderly hw)
    (fun hrun hw => (Worker.sheds_runStage hw.sound hrun).orderly hw)

theorem inside_job (describe : Response α → String) (job : Job α) :
    Inside (fun w w' => w.Orderly → w'.Orderly) (job.procedure describe) := by
  have hrefl : ∀ w : Worker α, w.Orderly → w.Orderly := fun _ => id
  refine permitsPasses_orderly.job describe (fun d _ => ?_) fun h _ => ?_
  · refine permitsPasses_orderly.toPermits.registerWorker describe ?_ fun answer => ?_
    · refine inside_atomically hrefl fun c => ?_
      split
      · next henroll =>
        obtain ⟨_, -, rfl⟩ := enroll_eq_ok henroll
        rfl
      · rfl
    · refine inside_atomically hrefl fun c => ?_
      obtain ⟨_, heq, -⟩ := c.confirm_cases d answer
      rw [heq]
  · refine inside_atomically hrefl fun c => ?_
    rcases c.heartbeat_cases h with heq | heq <;> rw [heq]

end Inside

/-! ## Fitness for a forward pass -/

theorem stagesToRun_fit (hready : c.sessions.Ready) {s : Session α} {id : String}
    (hs : c.sessions.get? id = some s) {r : ExecuteForward} {err : ServiceError}
    (h : c.stagesToRun s.key r = .error err) : ¬err.IsLapse := by
  obtain ⟨hactive, p, hplan⟩ := hready.active s (SessionTable.get?_eq_some hs).1
  simp only [stagesToRun, hready.sound.session?_of_get? hs, Session.ensureActive, hactive,
    hplan] at h
  split at h
  · cases h
    rintro ⟨⟩
  · cases h

theorem stageOutput_fit {s : Stage α} {a : ForwardResult α} {err : ServiceError}
    (h : stageOutput s a = .error err) : ¬err.IsLapse := by
  unfold stageOutput at h
  split at h
  · split at h
    · cases h
      rintro ⟨⟩
    · split at h
      · cases h
        exact ServiceError.not_isLapse_ofData _
      · cases h
  · cases h
    rintro ⟨⟩

end Coordinator

theorem ServiceError.not_isLapse_ofLink (node : String) (err : LinkError) :
    ¬(ServiceError.ofLink node err).IsLapse := by
  cases err <;> rintro ⟨⟩

namespace Network

variable {describe : Response α → String} {n m n' : Network α} {id : String}

theorem inside_answered {R : Worker α → Worker α → Prop} {p : Coordinator.Action α β} {b : β}
    (hp : Coordinator.Inside R p) (hrun : Runs Answered (ofCoordinator p) n b n') :
    R n.coordinator.embedded n'.coordinator.embedded :=
  hp _ _ _ (runs_answered hrun)

/-- The plans of sessions that are found after the work are those before it, and the sessions were
there before. -/
theorem found_of_tame {p : Coordinator.Action α β} (hp : Coordinator.Tame (fun _ => True) p)
    (hsound : n.coordinator.sessions.Sound) {b : β}
    (hrun : Runs Answered (ofCoordinator p) n b n') {s' : Session α}
    (hs' : n'.coordinator.sessions.get? id = some s') :
    ∃ s, n.coordinator.sessions.get? id = some s ∧ s'.plan = s.plan := by
  have hretains : Coordinator.Retains (fun _ => True) n.coordinator n'.coordinator := by
    refine Confined.runs .refl .trans ?_ hp (runs_answered hrun)
    rintro q c a c' - (rfl | rfl)
    · exact .refl _
    · exact (Coordinator.undisturbed_countRequest c).retains
  obtain ⟨hmem, rfl⟩ := SessionTable.get?_eq_some hs'
  obtain ⟨s, hs, hid, hplan⟩ := hretains.opened hsound s' hmem
  exact ⟨s, hid ▸ hsound.get?_of_mem hs, hplan⟩

variable [Scalar α]

/-- A pass complains about a session only if the engine inside the coordinator says so. -/
theorem runStage_lapse (hn : n.coordinator.embedded.Orderly) {s : Stage α} {r : ExecuteForward}
    {input : Tensor} {err : ServiceError} (herr : err.IsLapse)
    (hrun : Runs Answered (ofCoordinator (Coordinator.runStage describe s r input)) n (.error err)
      n') :
    n.coordinator.embedded.engineAnswer? r.sessionId input [] = some (.error err) := by
  simp only [Coordinator.runStage, ofCoordinator_bind, runs_bind, runs_ofCoordinator_read] at hrun
  obtain ⟨_, n, ⟨rfl, rfl⟩, hrun⟩ := hrun
  split at hrun
  · obtain ⟨w, hworker, -⟩ := runs_onEmbedded hrun
    exact hn.forward herr hworker
  · simp only [ofCoordinator_bind, runs_bind, runs_ofCoordinator_read] at hrun
    obtain ⟨config, n, ⟨rfl, rfl⟩, hrun⟩ := hrun
    split at hrun
    · next e hway =>
      obtain ⟨heq, -⟩ := hrun
      cases heq
      unfold Coordinator.channelTo at hway
      split at hway
      · cases hway
      · cases hway
        cases herr
    · rw [ofCoordinator_bind, runs_bind] at hrun
      obtain ⟨answer, k, -, hrun⟩ := hrun
      split at hrun
      · obtain ⟨heq, -⟩ := hrun
        cases heq
        exact absurd herr (ServiceError.not_isLapse_ofLink _ _)
      · split at hrun
        · next e houtput =>
          obtain ⟨heq, -⟩ := hrun
          cases heq
          exact absurd herr (Coordinator.stageOutput_fit houtput)
        · simp only [ofCoordinator_bind, ofCoordinator_pure, runs_bind, runs_pure] at hrun
          obtain ⟨_, _, -, _, _, -, heq, -⟩ := hrun
          cases heq

theorem executeForward_lapse (hready : n.coordinator.sessions.Ready)
    (hn : n.coordinator.embedded.Orderly) {r : ExecuteForward} {err : ServiceError}
    (herr : err.IsLapse)
    (hrun : Runs Answered (ofCoordinator (Coordinator.executeForward describe r)) n (.error err)
      n') :
    ∃ calls stageId layers input, n.coordinator.embedded.calls <+: calls ∧
      calls <+: n'.coordinator.embedded.calls ∧
      (n.coordinator.embedded.backend.after calls).compute stageId layers input = .error err := by
  have houtcome := executeForward_outcome hready.sound hrun
  generalize hresult : Except.error err = result at houtcome
  cases houtcome with
  | invalid =>
    cases hresult
    exact absurd herr (ServiceError.not_isLapse_ofData _)
  | unknown =>
    cases hresult
    cases herr
  | idle hs hstages =>
    cases hresult
    exact absurd herr (Coordinator.stagesToRun_fit hready hs hstages)
  | aborted =>
    cases hresult
    cases herr
  | @failed s _ stage _ _ k _ _ _ _ hpass hclose =>
    cases hresult
    obtain ⟨done, _, between, _, m, -, hdone, hstage⟩ := runStages_error hpass
    -- until the stage that failed, the worker inside was in order, and it was the same engine that
    -- was called
    have hm : m.coordinator.embedded.Orderly :=
      inside_answered (Coordinator.permitsPasses_orderly.runStages describe r done r.input .start)
        hdone hn
    have hcalm : Coordinator.Undisturbed (fun _ => True) n.coordinator m.coordinator :=
      undisturbed_of_calm (Coordinator.calm_runStages describe r done r.input .start)
        (fun _ _ _ _ h => h) hdone
    have hanswer := runStage_lapse hm herr hstage
    unfold Worker.engineAnswer? at hanswer
    split at hanswer
    · cases hanswer
    · split at hanswer
      · cases hanswer
      · split at hanswer
        · cases hanswer
        · have hstopped : Coordinator.Undisturbed (fun _ => True) m.coordinator k.coordinator :=
            undisturbed_of_calm (Coordinator.calm_runStage describe stage r between)
              (fun _ _ _ _ h => h) hstage
          have hclosed : Coordinator.Undisturbed (fun _ => True) _ n'.coordinator :=
            undisturbed_of_calm (Coordinator.calm_closeStages describe _ _)
              (fun _ _ _ _ h => h) hclose
          have hcalls : (k.coordinator.abandon s.key r.sessionId stage err).embedded.calls <+:
              n'.coordinator.embedded.calls := hclosed.embedded.calls
          rw [Coordinator.embedded_abandon] at hcalls
          rw [Worker.engine, hcalm.embedded.backend] at hanswer
          exact ⟨_, _, _, _, hcalm.embedded.calls, hstopped.embedded.calls.trans hcalls,
            Option.some.inj hanswer⟩
  | done => cases hresult

/-! ## Plans of the open sessions -/

/-- Who asks for a session gets one on the active plan, under an id that was not in use. -/
theorem createSession_found (hsound : n.coordinator.sessions.Sound) {r : CreateSession}
    {result : Except ServiceError String}
    (hrun : Runs Answered (ofCoordinator (Coordinator.createSession describe r)) n result n')
    (id : String) :
    if result = .ok id then
      n.coordinator.sessions.get? id = none ∧ ∃ p, n.coordinator.plan = some p ∧
        (n'.coordinator.sessions.get? id).map (·.plan) = some (some p)
    else
      (n'.coordinator.sessions.get? id).map (·.plan) =
        (n.coordinator.sessions.get? id).map (·.plan) := by
  have hopening : ∀ {p : Plan α} {outcome} {m : Network α},
      Runs Answered (ofCoordinator (Coordinator.openStages describe
        (n.coordinator.newSession r p).id r [] p.stages))
        (n.setCoordinator (n.coordinator.entered r p)) outcome m →
      m.coordinator.sessions = n.coordinator.sessions.add (n.coordinator.newSession r p) :=
    sessions_of_quiet (Coordinator.calm_openStages describe (fun _ => trivial) r [] _).quiet
  cases createSession_outcome (fun _ _ _ _ h => h) hsound hrun with
  | noPlan => rw [if_neg (by simp)]
  | refused _ heq => rw [if_neg (by simp), coordinator_setCoordinator, heq]
  | @undone p s err opened m _ _ hid hopen hclose =>
    rw [if_neg (by simp), sessions_of_quiet (Coordinator.calm_closeStages describe _ _).quiet hclose]
    change ((((m.coordinator.noteFailure s.node.nodeId err).sessions.modify _ _).remove _).get?
      id).map _ = _
    rw [Coordinator.sessions_noteFailure, hopening hopen, SessionTable.get?_remove]
    split
    · next heq => rw [heq, hid]
    · next hne =>
      rw [SessionTable.map_plan_modify _ (SessionTable.keeps_close _) (Session.plan_close _),
        SessionTable.get?_add hid, if_neg hne]
  | @opened p m hplan hid hopen =>
    change if _ then _ ∧ ∃ p, _ ∧ ((m.coordinator.sessions.modify _ _).get? id).map _ = _ else
      ((m.coordinator.sessions.modify _ _).get? id).map _ = _
    have hkeeps : SessionTable.Keeps (Coordinator.activated (α := α) m.coordinator.clock.micros) :=
      fun _ => ⟨rfl, rfl⟩
    rw [hopening hopen, SessionTable.map_plan_modify _ hkeeps fun _ => rfl,
      SessionTable.get?_add hid]
    split
    · next heq =>
      obtain rfl := Except.ok.inj heq
      exact ⟨hid, p, hplan, by rw [if_pos rfl]; rfl⟩
    · next hne =>
      rw [if_neg]
      rintro rfl
      exact hne rfl

theorem closeSession_absent {reason : Option String} {a : SessionClosed}
    (hrun : Runs Answered (ofCoordinator (Coordinator.closeSession describe id reason)) n a n') :
    n'.coordinator.sessions.get? id = none := by
  cases closeSession_outcome hrun with
  | absent => simp [Coordinator.dropSession, SessionTable.get?_remove]
  | taken hs hsessions hclose =>
    rw [sessions_of_quiet (Coordinator.calm_closeStages describe _ _).quiet hclose,
      coordinator_setCoordinator, hsessions,
      SessionTable.get?_modify _ _ (SessionTable.keeps_close _), SessionTable.get?_remove,
      if_pos rfl]
    rfl

omit [Scalar α] in
/-- Work that opens no session leaves an id free. -/
theorem absent_of_tame {p : Coordinator.Action α β} (hp : Coordinator.Tame (fun _ => True) p)
    (hsound : n.coordinator.sessions.Sound) {b : β} (hrun : Runs Answered (ofCoordinator p) n b n')
    (hid : n.coordinator.sessions.get? id = none) : n'.coordinator.sessions.get? id = none := by
  rw [Option.eq_none_iff_forall_ne_some]
  intro s hs
  obtain ⟨_, hbefore, -⟩ := found_of_tame hp hsound hrun hs
  cases hid.symm.trans hbefore

theorem closeIdle_absent (hn : n.coordinator.sessions.Ready) {ids : List String} {u : Unit}
    (hrun : Runs Answered (ofCoordinator (Coordinator.closeIdle describe ids)) n u n') :
    ∀ id ∈ ids, n'.coordinator.sessions.get? id = none := by
  induction ids generalizing n with
  | nil => simp
  | cons id ids ih =>
    rw [Coordinator.closeIdle, ofCoordinator_bind, runs_bind] at hrun
    obtain ⟨_, m, hclose, hrest⟩ := hrun
    have hm := ready_closeSession hn hclose
    intro x hx
    rcases List.mem_cons.mp hx with rfl | hx
    · exact absent_of_tame (Coordinator.tame_closeIdle describe ids) hm.sound hrest
        (closeSession_absent hclose)
    · exact ih hm hrest x hx

/-! ## Turns -/

/-- The answer to a request for a session names the session that was opened. -/
theorem runs_handle_createSession {r : CreateSession} {result : Except Abort (Response α)}
    (hrun : Runs Answered (ofCoordinator (Coordinator.handle describe (.createSession r))) n result
      n') :
    ∃ outcome, Runs Answered (ofCoordinator (Coordinator.createSession describe r))
        (n.setCoordinator n.coordinator.countRequest) outcome n' ∧
      ∀ id, openedBy result = some id ↔ outcome = .ok id := by
  simp only [Coordinator.handle, ofCoordinator_bind, runs_bind, runs_ofCoordinator_update,
    runs_ofCoordinator_read] at hrun
  obtain ⟨_, _, rfl, _, _, ⟨rfl, rfl⟩, outcome, m, hcreate, hrun⟩ := hrun
  refine ⟨outcome, ?_, fun id => ?_⟩
  · split at hrun <;> exact hrun.2 ▸ hcreate
  · split at hrun <;> (obtain ⟨rfl, -⟩ := hrun; simp [openedBy])

/-- A complete call to the coordinator, one of its sweeps, a plan that is installed, or a time in
which the worker inside has a turn; and the id of the session that is opened. -/
inductive Turn (describe : Response α → String) (n : Network α) :
    Option String → Network α → Prop
  | serve {request : Request α} {result : Except Abort (Response α)} {n' : Network α} :
      Runs Answered (ofCoordinator (Coordinator.handle describe request)) n result n' →
      Turn describe n (openedBy result) n'
  | sweep {busy : List String} {u : Unit} {n' : Network α} :
      Runs Answered (ofCoordinator (Coordinator.sweep describe busy)) n u n' →
      Turn describe n none n'
  | install (p : Plan α) :
      Turn describe n none (n.setCoordinator (n.coordinator.install p))
  | drift {clock : Clock} {opened : Option String} {w : Worker α} {n' : Network α} :
      Worker.Turn n.coordinator.embedded opened w →
      n'.coordinator = { n.coordinator with clock, embedded := w } → Turn describe n none n'

theorem runs_serve {request : Request α} {u : Unit} :
    Runs Answered (ofCoordinator ((Coordinator.Job.serve request).procedure describe)) n u n' ↔
      ∃ result,
        Runs Answered (ofCoordinator (Coordinator.handle describe request)) n result n' := by
  simp [Coordinator.Job.procedure, runs_bind]

theorem Turn.embedded {opened : Option String} (h : Turn describe n opened n')
    (hn : n.coordinator.embedded.Orderly) : n'.coordinator.embedded.Orderly := by
  cases h with
  | serve hrun =>
    exact inside_answered (b := ()) (Coordinator.inside_job describe _)
      (runs_serve.mpr ⟨_, hrun⟩) hn
  | @sweep busy _ _ hrun =>
    exact inside_answered (Coordinator.inside_job describe (.sweep busy)) hrun hn
  | install p =>
    rcases n.coordinator.install_cases p with heq | ⟨-, heq⟩ <;>
      (rw [coordinator_setCoordinator, heq]; exact hn)
  | drift hturn heq =>
    rw [heq]
    exact hturn.orderly hn

theorem Turn.absent {opened : Option String} (h : Turn describe n opened n')
    (hn : n.coordinator.sessions.Ready) (hopened : opened ≠ some id)
    (hid : n.coordinator.sessions.get? id = none) : n'.coordinator.sessions.get? id = none := by
  cases h with
  | @serve request result _ hrun =>
    by_cases hcreate : ∃ r, request = .createSession r
    · obtain ⟨r, rfl⟩ := hcreate
      obtain ⟨outcome, hrun, hanswer⟩ := runs_handle_createSession hrun
      have hsound : (n.setCoordinator n.coordinator.countRequest).coordinator.sessions.Sound :=
        hn.sound
      have hfound := createSession_found hsound hrun id
      rw [if_neg fun heq => hopened ((hanswer id).mpr heq), coordinator_setCoordinator] at hfound
      rw [← Option.map_eq_none_iff, hfound]
      exact Option.map_eq_none_iff.mpr hid
    · exact absent_of_tame (Coordinator.tame_handle describe fun r hr => hcreate ⟨r, hr⟩)
        hn.sound hrun hid
  | sweep hrun => exact absent_of_tame (Coordinator.tame_sweep describe _) hn.sound hrun hid
  | install p =>
    rcases n.coordinator.install_cases p with heq | ⟨-, heq⟩ <;>
      (rw [coordinator_setCoordinator, heq]; exact hid)
  | drift _ heq =>
    rw [heq]
    exact hid

/-- What can become of a network since its coordinator was started, when the coordinator and the
worker inside it do one thing at a time. Other nodes answer and become whatever they like. -/
inductive Attended (describe : Response α → String) : Network α → Prop
  | start {n : Network α} {config : CoordinatorConfig α} {capability : Capability α}
      {backend : Backend α} {profile : List (LayerCost α)} {address : String} {clock : Clock}
      {ids : IdSource} {overheadMs : α} :
      Coordinator.start config capability backend profile address clock ids overheadMs =
        .ok n.coordinator → Attended describe n
  | turn {n n' : Network α} {opened : Option String} : Attended describe n →
      Turn describe n opened n' → Attended describe n'

theorem Attended.reached (h : Attended describe n) : Reached describe n := by
  induction h with
  | start hstart => exact .start hstart
  | @turn n n' _ _ hturn ih =>
    cases hturn with
    | serve hrun => exact ih.work (u := ()) (runs_serve.mpr ⟨_, hrun⟩)
    | @sweep busy _ _ hrun =>
      have hjob : Runs Answered (ofCoordinator ((Coordinator.Job.sweep busy).procedure describe)) n
          _ n' := hrun
      exact ih.work hjob
    | install p =>
      have hjob : Runs Answered (ofCoordinator ((Coordinator.Job.install p).procedure describe)) n
          () _ := runs_ofCoordinator_update.mpr rfl
      exact ih.work hjob
    | drift _ heq => exact ih.drift heq

theorem Attended.job (hn : Attended describe n) {job : Coordinator.Job α} {u : Unit}
    (hrun : Runs Answered (ofCoordinator (job.procedure describe)) n u n') :
    Attended describe n' := by
  cases job with
  | serve request =>
    obtain ⟨_, hrun⟩ := runs_serve.mp hrun
    exact hn.turn (.serve hrun)
  | sweep busy => exact hn.turn (.sweep hrun)
  | install p =>
    rw [runs_ofCoordinator_update.mp hrun]
    exact hn.turn (.install p)
  | tick clock =>
    rw [runs_ofCoordinator_update.mp hrun]
    exact hn.turn (.drift (.drift n.coordinator.embedded.clock n.coordinator.embedded.outbox) rfl)

theorem Attended.afterJobs {e : Encoding α} (jobs : List (Coordinator.Job α))
    (hn : Attended e.describe n) : Attended e.describe (n.afterJobs e jobs) := by
  induction jobs generalizing n with
  | nil => exact hn
  | cons job jobs ih => exact ih (hn.job (answered_perform e _ n))

theorem Attended.embedded (h : Attended describe n) : n.coordinator.embedded.Orderly := by
  induction h with
  | start hstart =>
    obtain ⟨-, -, -, -, -, -, hembedded⟩ := Coordinator.start_eq_ok hstart
    rw [hembedded]
    exact Worker.orderly_start ..
  | turn _ hturn ih => exact hturn.embedded ih

/-- What can become of a network while its coordinator opens no session with an id. -/
inductive Unopened (describe : Response α → String) (id : String) (n : Network α) :
    Network α → Prop
  | refl : Unopened describe id n n
  | turn {m n' : Network α} {opened : Option String} : Unopened describe id n m →
      Turn describe m opened n' → opened ≠ some id → Unopened describe id n n'

theorem Unopened.absent (h : Unopened describe id n n') (hn : Attended describe n)
    (hid : n.coordinator.sessions.get? id = none) : n'.coordinator.sessions.get? id = none := by
  have hboth : Attended describe n' ∧ n'.coordinator.sessions.get? id = none := by
    induction h with
    | refl => exact ⟨hn, hid⟩
    | turn _ hturn hopened ih =>
      exact ⟨ih.1.turn hturn, hturn.absent ih.1.reached.ready hopened ih.2⟩
  exact hboth.2

/-- The sessions that a sweep finds idle. -/
def idleIds (n : Network α) (busy : List String) : List String :=
  n.coordinator.sessions.idle n.coordinator.clock.micros
    (n.coordinator.config.sessionTimeoutSecs.toNat * 1000000) busy

/-- The ways in which a coordinator loses a session: a request to close it, a sweep that finds it
idle, and a pass through its stages that fails. -/
inductive Loses (describe : Response α → String) (id : String) (n : Network α) :
    Network α → Prop
  | closed {result : Except Abort (Response α)} {n' : Network α} :
      Runs Answered (ofCoordinator (Coordinator.handle describe (.closeSession ⟨id⟩))) n result
        n' → Loses describe id n n'
  | swept {busy : List String} {u : Unit} {n' : Network α} :
      id ∈ n.idleIds busy →
      Runs Answered (ofCoordinator (Coordinator.sweep describe busy)) n u n' →
      Loses describe id n n'
  | failed {s : Session α} {r : ExecuteForward} {p : Plan α} {stages : List (Stage α)}
      {a : ForwardResult α} {n' : Network α} : r.sessionId = id → r.input.validate = .ok () →
      n.coordinator.sessions.get? id = some s →
      n.coordinator.stagesToRun s.key r = .ok (p, stages) →
      Runs Answered (ofCoordinator (Coordinator.handle describe (.executeForward r))) n
        (.ok (.forwarded a)) n' → a.success = false → Loses describe id n n'

/-- Losing a session is a turn. -/
theorem Loses.turn (h : Loses describe id n n') : ∃ opened, Turn describe n opened n' := by
  cases h with
  | closed hrun => exact ⟨_, .serve hrun⟩
  | swept _ hrun => exact ⟨_, .sweep hrun⟩
  | failed _ _ _ _ hrun => exact ⟨_, .serve hrun⟩

theorem Loses.absent (h : Loses describe id n n') (hn : n.coordinator.sessions.Ready) :
    n'.coordinator.sessions.get? id = none := by
  cases h with
  | closed hrun =>
    simp only [Coordinator.handle, ofCoordinator_bind, ofCoordinator_pure, runs_bind,
      runs_ofCoordinator_update, runs_pure] at hrun
    obtain ⟨_, _, rfl, _, _, hclose, -, rfl⟩ := hrun
    exact closeSession_absent hclose
  | swept hidle hrun =>
    simp only [Coordinator.sweep, ofCoordinator_bind, runs_bind, runs_ofCoordinator_update,
      runs_ofCoordinator_read] at hrun
    obtain ⟨_, _, rfl, _, _, ⟨rfl, rfl⟩, hrun⟩ := hrun
    have hdropped : Coordinator.Undisturbed (fun _ => True) n.coordinator _ :=
      Coordinator.undisturbed_dropSilent n.coordinator
    have hm : (n.setCoordinator n.coordinator.dropSilent).coordinator.sessions.Ready :=
      hdropped.sessions ▸ hn
    refine closeIdle_absent hm hrun id ?_
    obtain ⟨_, _, heq⟩ := n.coordinator.dropSilent_eq
    rw [coordinator_setCoordinator, heq]
    exact hidle
  | @failed s r p stages a _ heq hvalid hs hstages hrun hfailed =>
    subst heq
    simp only [Coordinator.handle, ofCoordinator_bind, runs_bind,
      runs_ofCoordinator_update] at hrun
    obtain ⟨_, _, rfl, outcome, m, hforward, hrun⟩ := hrun
    have hm : m = n' := by split at hrun <;> exact hrun.2.symm
    subst hm
    have hsound : (n.setCoordinator n.coordinator.countRequest).coordinator.sessions.Sound :=
      hn.sound
    cases executeForward_outcome hsound hforward with
    | invalid hinvalid => cases hvalid.symm.trans hinvalid
    | unknown hnone => exact hnone
    | idle hs' herror =>
      cases hs.symm.trans hs'
      cases hstages.symm.trans herror
    | aborted => cases hrun.1
    | failed _ _ _ _ hclose =>
      rw [sessions_of_quiet (Coordinator.calm_closeStages describe _ _).quiet hclose]
      simp [Coordinator.abandon, Coordinator.dropSession, Coordinator.releaseFor,
        SessionTable.get?_remove]
    | done =>
      cases hrun.1
      cases hfailed

/-- What a coordinator keeps to, one call at a time. -/
structure Tidy (describe : Response α → String) (n : Network α) : Prop where
  serving : ∀ s ∈ n.coordinator.sessions.opened,
    n.coordinator.sessions.get? s.id = some s ∧ s.state = .active ∧ ∃ p, s.plan = some p
  /-- What is wrong with the session of a pass, the engine inside the coordinator has answered in the
  course of the pass. -/
  forward : ∀ {r err n'},
    Runs Answered (ofCoordinator (Coordinator.executeForward describe r)) n (.error err) n' →
      err.IsLapse → ∃ calls stageId layers input, n.coordinator.embedded.calls <+: calls ∧
        calls <+: n'.coordinator.embedded.calls ∧
        (n.coordinator.embedded.backend.after calls).compute stageId layers input = .error err
  absent : ∀ {id n'}, n.coordinator.sessions.get? id = none → Unopened describe id n n' →
    n'.coordinator.sessions.get? id = none
  lost : ∀ {id m n'}, Loses describe id n m → Unopened describe id m n' →
    n'.coordinator.sessions.get? id = none
  embedded : n.coordinator.embedded.Tidy

theorem Attended.tidy (hn : Attended describe n) : Tidy describe n := by
  have hready := hn.reached.ready
  refine ⟨fun s hs => ⟨hready.sound.get?_of_mem hs, hready.active s hs⟩,
    fun hrun herr => executeForward_lapse hready hn.embedded herr hrun,
    fun hid hrun => hrun.absent hn hid, fun hloses hrun => ?_, hn.embedded.tidy⟩
  obtain ⟨_, hturn⟩ := hloses.turn
  exact hrun.absent (hn.turn hturn) (hloses.absent hready)

end Network

/-- Workers and coordinators that do one thing at a time never have a session too many or an unfit
one, and never find one again that they have lost. -/
theorem sessions_tidy (describe : Response α → String) [Scalar α] :
    (∀ w : Worker α, w.Attended → w.Tidy) ∧
      ∀ n : Network α, n.Attended describe → n.Tidy describe :=
  ⟨fun _ hw => hw.orderly.tidy, fun _ hn => hn.tidy⟩

private def createNamed (id : String) : Request Binary64 :=
  .createSession ⟨id, ⟨"", 0, "", false⟩, [], 0, .u8⟩

private def crowdedWorker : Worker Binary64 :=
  ["s", "t"].foldl (fun w id => ((Worker.handle (createNamed id)).run .none w).2.1)
    (.start { WorkerConfig.standard with maxSessions := 1 } (.basic "w" .cpu)
      (.passthrough "cpu" 0) ⟨0, ""⟩ ⟨0, fun _ => "generated"⟩)

private def busyNetwork (c : Coordinator Binary64) : Network Binary64 :=
  (Network.small c []).afterJobs .payload
    [.install { (default : Plan Binary64) with stages := [.small 0 "c"] }, .serve (createNamed "s")]

/-- A worker that may have one session has turned away another one, and a coordinator loses its
session by a request to close it. -/
theorem sessions_tidy_crowded :
    ∃ (w : Worker Binary64) (n n' : Network Binary64), w.Attended ∧ w.config.maxSessions = 1 ∧
      w.sessions.ids = ["s"] ∧ w.Tidy ∧ n.Attended Encoding.payload.describe ∧
      n.coordinator.sessions.ids = ["s"] ∧ n.Tidy Encoding.payload.describe ∧
      n.Loses Encoding.payload.describe "s" n' ∧ n'.coordinator.sessions.get? "s" = none := by
  have hcrowded : crowdedWorker.sessions.ids = ["s"] := by decide +kernel
  have hworker : crowdedWorker.Attended :=
    ((Worker.Attended.start ..).turn (.serve (Worker.runs_run _ _))).turn
      (.serve (Worker.runs_run _ _))
  have hbusy : (Coordinator.small .standard).toOption.map
      (fun c => (busyNetwork c).coordinator.sessions.ids) = some ["s"] := by decide +kernel
  cases hstart : Coordinator.small .standard with
  | error err => simp [hstart, Except.toOption] at hbusy
  | ok c =>
    simp only [hstart, Except.toOption, Option.map_some, Option.some.injEq] at hbusy
    have hn : (busyNetwork c).Attended Encoding.payload.describe :=
      Network.Attended.afterJobs _ (.start hstart)
    generalize busyNetwork c = n at hbusy hn
    have hclosed : n.Loses Encoding.payload.describe "s" _ :=
      .closed (Network.answered_perform .payload
        (Coordinator.handle Encoding.payload.describe (.closeSession ⟨"s"⟩)) n)
    have htidy := sessions_tidy (α := Binary64) Encoding.payload.describe
    exact ⟨_, _, _, hworker, rfl, hcrowded, htidy.1 _ hworker, hn, hbusy, htidy.2 _ hn, hclosed,
      (htidy.2 _ hn).lost hclosed .refl⟩

end LayerPipeline
