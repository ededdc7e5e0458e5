import LayerPipeline.Proofs.Service.Calm
import LayerPipeline.Proofs.Service.Sections

/-!
# What a coordinator does, section by section

Whatever is to be shown of all that a coordinator does has to be shown of a handful of things: of
the few kinds of sections that look after nodes, plans and sessions, of what the worker inside does,
and of the questions to other nodes. The ways in which procedures are put together from these are
walked through here once, for any property that goes from the parts of a procedure to the whole.
-/

namespace LayerPipeline.Coordinator

open Procedure

variable {α β : Type} {R : Coordinator α → Coordinator α → Prop} {Q : Call α → Prop}

/-! ## Sections -/

/-- What a section does that looks after nodes, plans and sessions. -/
inductive Touches [Scalar α] (c : Coordinator α) : Coordinator α → Prop
  /-- At most the sessions, the journal, the names, the figures and the clock change. -/
  | aside {c' : Coordinator α} : c'.config = c.config → c'.capability = c.capability →
      c'.registry = c.registry → c'.plan = c.plan → c'.heartbeats = c.heartbeats →
      c'.metrics = c.metrics → c'.embedded = c.embedded → Touches c c'
  | activate {p : Plan α} : p.validate = .ok () → Touches c { c with plan := some p }
  | judge (id reason : String) : Touches c (c.markUnhealthy id reason)
  | dropSilent : Touches c c.dropSilent
  | reserveFor (key : Nat) (p : Plan α) : Touches c (c.reserveFor key p)
  | releaseFor (key : Nat) (found : SessionState) (p : Plan α) :
      Touches c (c.releaseFor key found p)

section Touches

variable [Scalar α]

theorem Touches.refl (c : Coordinator α) : Touches c c := .aside rfl rfl rfl rfl rfl rfl rfl

theorem touches_noteFailure (id : String) (err : ServiceError) (c : Coordinator α) :
    Touches c (c.noteFailure id err) := by
  unfold noteFailure
  split
  · exact .judge id err.message
  · exact .refl c

theorem touches_enter (r : CreateSession) (p : Plan α) (c : Coordinator α) :
    Touches c (c.enter r p).2 := by
  rcases c.enter_cases r p with ⟨err, heq⟩ | ⟨-, heq⟩ <;>
    (rw [heq]; exact .aside rfl rfl rfl rfl rfl rfl rfl)

theorem touches_activateSession (key : Nat) (c : Coordinator α) :
    Touches c (c.activateSession key).2 := by
  unfold activateSession
  split
  · exact .refl c
  · split
    · exact .refl c
    · exact .aside rfl rfl rfl rfl rfl rfl rfl

theorem touches_planResult (r : PlanRequest α) (c : Coordinator α) :
    Touches c (c.planResult r).2 := by
  rcases c.planResult_cases r with heq | ⟨_, _, -, hvalid, heq⟩
  · rw [heq]
    exact .refl c
  · rw [heq]
    exact .activate hvalid

theorem touches_install (p : Plan α) (c : Coordinator α) : Touches c (c.install p) := by
  rcases c.install_cases p with heq | ⟨hvalid, heq⟩
  · rw [heq]
    exact .refl c
  · rw [heq]
    exact .activate hvalid

end Touches

/-! ## Properties of procedures -/

/-- A property that goes from the parts of a procedure to the whole. -/
structure Composes (M : ∀ {β : Type}, Action α β → Prop) : Prop where
  done : ∀ {β : Type} (b : β), M (pure b : Action α β)
  bind : ∀ {β γ : Type} {p : Action α β} {k : β → Action α γ}, M p → (∀ b, M (k b)) → M (p >>= k)
  acquire : ∀ key, M (acquire key)
  release : ∀ key, M (release key)
  pause : ∀ ms, M (pause ms)

/-- What suffices to look after nodes and to open and close sessions. Forward passes, registrations
and reports need more. -/
structure Permits [Scalar α] (M : ∀ {β : Type}, Action α β → Prop) : Prop extends Composes M where
  touch : ∀ {β : Type} {f : Coordinator α → β × Coordinator α}, (∀ c, Touches c (f c).2) →
    M (atomically f)
  openEmbedded : ∀ r, M (onEmbedded (Worker.createSession r))
  closeEmbedded : ∀ id, M (onEmbedded (Worker.closeSession id))
  askOpen : ∀ config address r, M (question ⟨config, address, .createSession r⟩)
  askClose : ∀ config address r, M (question ⟨config, address, .closeSession r⟩)
  askReport : ∀ config address r, M (question ⟨config, address, .reportCapabilities r⟩)

/-- What suffices for everything but registrations and heartbeats. -/
structure PermitsPasses [Scalar α] (M : ∀ {β : Type}, Action α β → Prop) : Prop
    extends Permits M where
  noteSuccess : ∀ id, M (update fun c => c.noteSuccess id)
  recordStage : ∀ s r report, M (update fun c => c.recordStage s r report)
  submitMetrics : ∀ entry, M (atomically fun c => c.submitMetrics entry)
  forwardEmbedded : ∀ id token input, M (onEmbedded (Worker.forward id token input []))
  stageEmbedded : ∀ r layers, M (onEmbedded (Worker.runStage r layers))
  askForward : ∀ config address r, M (question ⟨config, address, .executeForward r⟩)

/-- A question that is asked until it is answered or the patience is at an end. -/
theorem Composes.retrying {M : ∀ {β : Type}, Action α β → Prop} (hM : Composes M)
    (describe : Response α → String) {config : LinkConfig} {address : String}
    {request : Request α} (hask : M (question ⟨config, address, request⟩))
    (retryOn : LinkError → Bool) (retries pauseMs : Nat) :
    M ((channel describe config address).retrying retryOn request retries pauseMs) := by
  induction retries generalizing pauseMs with
  | zero => exact hask
  | succ retries ih =>
    refine hM.bind hask fun answer => ?_
    cases answer with
    | ok a => exact hM.done _
    | error e =>
      by_cases he : retryOn e = true
      · simp only [he, if_true]
        exact hM.bind (hM.pause _) fun _ => ih _
      · simp only [he]
        exact hM.done _

namespace Permits

variable [Scalar α] {M : ∀ {β : Type}, Action α β → Prop} (hM : Permits M)
  (describe : Response α → String)
include hM

theorem read (f : Coordinator α → β) : M (Procedure.read f) :=
  hM.touch (f := fun c => (f c, c)) .refl

theorem update {f : Coordinator α → Coordinator α} (hf : ∀ c, Touches c (f c)) :
    M (Procedure.update f) :=
  hM.touch (f := fun c => ((), f c)) hf

/-! ## Stages -/

theorem closeStage (id : String) (s : Stage α) : M (closeStage describe id s) := by
  refine hM.bind (hM.read _) fun here => ?_
  split
  · exact hM.bind (hM.closeEmbedded id) fun _ => hM.done _
  · refine hM.bind (hM.read _) fun config => ?_
    split
    · exact hM.done _
    · next way hway =>
      obtain ⟨address, -, rfl⟩ := channelTo_eq_ok describe hway
      refine hM.bind (hM.bind ?_ fun _ => hM.done _) fun _ => hM.done _
      exact hM.retrying describe (hM.askClose ..) _ _ _

theorem closeStages (id : String) (stages : List (Stage α)) :
    M (closeStages describe id stages) := by
  induction stages with
  | nil => exact hM.done _
  | cons s stages ih => exact hM.bind (hM.closeStage describe id s) fun _ => ih

theorem openStage (s : Stage α) (id : String) (r : CreateSession) :
    M (openStage describe s id r) := by
  refine hM.bind (hM.read _) fun here => ?_
  split
  · exact hM.bind (hM.openEmbedded _) fun _ => hM.done _
  · refine hM.bind (hM.read _) fun config => ?_
    split
    · exact hM.done _
    · next way hway =>
      obtain ⟨address, -, rfl⟩ := channelTo_eq_ok describe hway
      refine hM.bind (hM.bind ?_ fun _ => hM.done _) fun answer => ?_
      · exact hM.retrying describe (hM.askOpen ..) _ _ _
      · cases answer <;> exact hM.done _

theorem openStages (id : String) (r : CreateSession) (opened stages : List (Stage α)) :
    M (openStages describe id r opened stages) := by
  induction stages generalizing opened with
  | nil => exact hM.done _
  | cons s stages ih =>
    refine hM.bind (hM.openStage describe s id r) fun result => ?_
    cases result with
    | error err => exact hM.done _
    | ok _ => exact ih _

/-! ## Sessions -/

theorem endSession (key : Nat) (reason : Option String) :
    M (atomically fun c => c.endSession key reason) :=
  hM.touch fun _ => .aside rfl rfl rfl rfl rfl rfl rfl

theorem dropSession (id : String) : M (Procedure.update fun c => c.dropSession id) :=
  hM.update fun _ => .aside rfl rfl rfl rfl rfl rfl rfl

theorem createSession (r : CreateSession) : M (createSession describe r) := by
  refine hM.bind (hM.read _) fun plan => ?_
  cases plan with
  | none => exact hM.done _
  | some plan =>
    refine hM.bind (hM.touch fun c => touches_enter r plan c) fun entered => ?_
    rcases entered with err | ⟨id, key⟩
    · exact hM.done _
    · refine hM.bind (hM.acquire _) fun _ => ?_
      refine hM.bind (hM.openStages describe id r [] plan.stages) fun failed => ?_
      rcases failed with _ | ⟨s, err, opened⟩
      · refine hM.bind (hM.touch fun c => touches_activateSession key c) fun result => ?_
        cases result with
        | error err => exact hM.bind (hM.release _) fun _ => hM.done _
        | ok _ =>
          refine hM.bind (hM.update fun c => .reserveFor key plan) fun _ => ?_
          exact hM.bind (hM.release _) fun _ => hM.done _
      · refine hM.bind (hM.update fun c => touches_noteFailure _ err c) fun _ => ?_
        refine hM.bind (hM.endSession key _) fun _ => ?_
        refine hM.bind (hM.release _) fun _ => ?_
        refine hM.bind (hM.dropSession id) fun _ => ?_
        exact hM.bind (hM.closeStages describe id opened) fun _ => hM.done _

theorem closeSession (id : String) (reason : Option String) :
    M (closeSession describe id reason) := by
  refine hM.bind (hM.touch fun c => .aside rfl rfl rfl rfl rfl rfl rfl) fun found => ?_
  cases found with
  | none => exact hM.done _
  | some s =>
    refine hM.bind (hM.acquire _) fun _ => ?_
    refine hM.bind (hM.endSession s.key reason) fun found => ?_
    cases s.plan with
    | none => exact hM.bind (hM.release _) fun _ => hM.done _
    | some plan =>
      refine hM.bind (hM.update fun c => .releaseFor _ _ _) fun _ => ?_
      refine hM.bind (hM.closeStages describe _ _) fun _ => ?_
      exact hM.bind (hM.release _) fun _ => hM.done _

theorem failedForward (r : ExecuteForward) (key : Nat) (s : Stage α) (err : ServiceError)
    (plan : Plan α) :
    M (do
      Procedure.update fun c => c.noteFailure s.node.nodeId err
      let found ← atomically fun c => c.endSession key (some err.message)
      Procedure.release (.pipeline key)
      Procedure.update fun c => c.dropSession r.sessionId
      Procedure.update fun c => c.releaseFor key found plan
      Coordinator.closeStages describe r.sessionId
        (plan.stages.filter fun x => x.node.nodeId ≠ s.node.nodeId)
      return .error err : Action α (Except ServiceError (Tensor × ExecutionReport α))) := by
  refine hM.bind (hM.update fun c => touches_noteFailure _ err c) fun _ => ?_
  refine hM.bind (hM.endSession key _) fun found => ?_
  refine hM.bind (hM.release _) fun _ => ?_
  refine hM.bind (hM.dropSession _) fun _ => ?_
  refine hM.bind (hM.update fun c => .releaseFor _ _ _) fun _ => ?_
  exact hM.bind (hM.closeStages describe _ _) fun _ => hM.done _

/-- A forward pass has the property if its way through the stages has. -/
theorem executeForward {r : ExecuteForward}
    (hstages : ∀ stages, M (runStages describe r stages r.input .start)) :
    M (executeForward describe r) := by
  unfold Coordinator.executeForward
  cases r.input.validate with
  | error err => exact hM.done _
  | ok _ =>
    refine hM.bind (hM.read _) fun found => ?_
    cases found with
    | none => exact hM.done _
    | some key =>
      refine hM.bind (hM.acquire _) fun _ => ?_
      refine hM.bind (hM.read _) fun stages => ?_
      rcases stages with err | ⟨plan, stages⟩
      · exact hM.bind (hM.release _) fun _ => hM.done _
      · refine hM.bind (hstages stages) fun outcome => ?_
        rcases outcome with ⟨s, err⟩ | ⟨output, report⟩
        · cases err with
          | aborted a => exact hM.bind (hM.release _) fun _ => hM.done _
          | _ => exact hM.failedForward describe r key s _ plan
        · refine hM.bind (hM.update fun c => .aside rfl rfl rfl rfl rfl rfl rfl) fun _ => ?_
          refine hM.bind (hM.release _) fun _ => ?_
          exact hM.bind (hM.update fun c => .aside rfl rfl rfl rfl rfl rfl rfl)
            fun _ => hM.done _

/-! ## Nodes and jobs -/

/-- A registration has the property if its two sections have. -/
theorem registerWorker {d : Descriptor α}
    (henroll : M (atomically fun c : Coordinator α =>
      match c.enroll d with
      | .ok c' => ((.ok (), c') : Except ServiceError Unit × Coordinator α)
      | .error err => (.error err, c)))
    (hconfirm : ∀ answer, M (atomically fun c => c.confirm d answer)) :
    M (registerWorker describe d) := by
  refine hM.bind henroll fun enrolled => ?_
  cases enrolled with
  | error err => exact hM.done _
  | ok _ =>
    refine hM.bind (hM.read _) fun config => ?_
    refine hM.bind (hM.bind ?_ fun _ => hM.done _) fun answer => ?_
    · exact hM.retrying describe (hM.askReport ..) _ _ _
    · refine hM.bind (hconfirm answer) fun result => ?_
      cases result <;> exact hM.done _

theorem closeIdle (ids : List String) : M (closeIdle describe ids) := by
  induction ids with
  | nil => exact hM.done _
  | cons id ids ih => exact hM.bind (hM.closeSession describe id _) fun _ => ih

theorem sweep (busy : List String) : M (sweep describe busy) := by
  refine hM.bind (hM.update fun c => .dropSilent) fun _ => ?_
  exact hM.bind (hM.read _) fun ids => hM.closeIdle describe ids

/-- A request is served with the property if what needs more than is permitted has it. -/
theorem handle {request : Request α}
    (hforward : ∀ r, request = .executeForward r → M (Coordinator.executeForward describe r))
    (hstage : ∀ r, request = .stageForward r → M (stageForward r))
    (hsubmit : ∀ r, request = .submitMetrics r → M (atomically fun c => c.submitMetrics r))
    (hregister : ∀ d, request = .registerWorker d → M (Coordinator.registerWorker describe d))
    (hheartbeat : ∀ h, request = .heartbeat h → M (atomically fun c => c.heartbeat h)) :
    M (handle describe request) := by
  refine hM.bind (hM.update fun c => .aside rfl rfl rfl rfl rfl rfl rfl) fun _ => ?_
  cases request with
  | createSession r =>
    refine hM.bind (hM.read _) fun info => ?_
    refine hM.bind (hM.createSession describe r) fun result => ?_
    rcases result with err | id
    · cases err <;> exact hM.done _
    · exact hM.done _
  | executeForward r =>
    refine hM.bind (hforward r rfl) fun result => ?_
    rcases result with err | ⟨output, report⟩
    · cases err <;> exact hM.done _
    · exact hM.done _
  | closeSession r => exact hM.bind (hM.closeSession describe _ _) fun _ => hM.done _
  | ping r => exact hM.bind (hM.read _) fun _ => hM.done _
  | reportCapabilities r => exact hM.bind (hM.read _) fun _ => hM.done _
  | health => exact hM.bind (hM.read _) fun _ => hM.done _
  | generatePlan r =>
    exact hM.bind (hM.touch fun c => touches_planResult r c) fun _ => hM.done _
  | registerWorker d =>
    refine hM.bind (hregister d rfl) fun result => ?_
    rcases result with err | a
    · cases err <;> exact hM.done _
    · exact hM.done _
  | stageForward r => exact hM.bind (hstage r rfl) fun _ => hM.done _
  | submitMetrics r => exact hM.bind (hsubmit r rfl) fun _ => hM.done _
  | queryMetrics r => exact hM.bind (hM.read _) fun _ => hM.done _
  | heartbeat h => exact hM.bind (hheartbeat h rfl) fun _ => hM.done _

theorem job {job : Job α}
    (hserve : ∀ request, job = .serve request → M (Coordinator.handle describe request)) :
    M (job.procedure describe) := by
  cases job with
  | serve request => exact hM.bind (hserve request rfl) fun _ => hM.done _
  | sweep busy => exact hM.sweep describe busy
  | install p => exact hM.update fun c => touches_install p c
  | tick clock => exact hM.update fun c => .aside rfl rfl rfl rfl rfl rfl rfl

end Permits

namespace PermitsPasses

variable [Scalar α] {M : ∀ {β : Type}, Action α β → Prop} (hM : PermitsPasses M)
  (describe : Response α → String)
include hM

theorem runStage (s : Stage α) (r : ExecuteForward) (input : Tensor) :
    M (runStage describe s r input) := by
  refine hM.bind (hM.read _) fun here => ?_
  split
  · exact hM.forwardEmbedded ..
  · refine hM.bind (hM.read _) fun config => ?_
    split
    · exact hM.done _
    · next way hway =>
      obtain ⟨address, -, rfl⟩ := channelTo_eq_ok describe hway
      refine hM.bind (hM.bind ?_ fun _ => hM.done _) fun answer => ?_
      · exact hM.retrying describe (hM.askForward ..) _ _ _
      · cases answer with
        | error e => exact hM.done _
        | ok a =>
          simp only
          split
          · exact hM.done _
          · refine hM.bind (hM.read _) fun _ => ?_
            exact hM.bind (hM.noteSuccess _) fun _ => hM.done _

theorem runStages (r : ExecuteForward) (stages : List (Stage α)) (input : Tensor)
    (progress : Progress α) : M (runStages describe r stages input progress) := by
  induction stages generalizing input progress with
  | nil => exact hM.done _
  | cons s stages ih =>
    refine hM.bind (hM.runStage describe s r input) fun result => ?_
    rcases result with err | ⟨output, report⟩
    · exact hM.done _
    · exact hM.bind (hM.recordStage s r report) fun _ => ih _ _

theorem stageForward (r : StageForward) : M (stageForward r) := by
  refine hM.bind (hM.read _) fun found => ?_
  cases found with
  | error err => exact hM.done _
  | ok s => exact hM.stageEmbedded r s.layers

/-- Every job is done with the property, if registrations and heartbeats are. -/
theorem job {job : Job α}
    (hregister : ∀ d, job = .serve (.registerWorker d) → M (registerWorker describe d))
    (hheartbeat : ∀ h, job = .serve (.heartbeat h) → M (atomically fun c => c.heartbeat h)) :
    M (job.procedure describe) := by
  refine hM.toPermits.job describe fun request hrequest => ?_
  refine hM.handle describe (fun r _ => ?_) (fun r _ => hM.stageForward r)
    (fun r _ => hM.submitMetrics r) ?_ ?_
  · exact hM.executeForward describe fun stages => hM.runStages describe r stages r.input .start
  · exact fun d hd => hregister d (hd ▸ hrequest)
  · exact fun h hh => hheartbeat h (hh ▸ hrequest)

end PermitsPasses

/-! ## Properties of sections -/

/-- Sections may be steps of `R` and questions may be in `Q`. -/
abbrev Moves (R : Coordinator α → Coordinator α → Prop) (Q : Call α → Prop) (p : Action α β) :
    Prop :=
  Confined R (fun _ => True) Q p

theorem moves_atomically {f : Coordinator α → β × Coordinator α} (hf : ∀ c, R c (f c).2) :
    Moves R Q (atomically f : Action α β) :=
  fun c => ⟨hf c, trivial⟩

theorem moves_update {f : Coordinator α → Coordinator α} (hf : ∀ c, R c (f c)) :
    Moves R Q (update f : Action α Unit) :=
  fun c => ⟨hf c, trivial⟩

theorem moves_of_within {p : Action α β} (hp : Within (fun _ => True) R p) :
    Moves R (fun _ => True) p :=
  hp.mono (fun _ _ h => h) (fun _ _ => trivial) fun _ _ => trivial

theorem composes_moves (R : Coordinator α → Coordinator α → Prop) (Q : Call α → Prop) :
    Composes (Moves R Q) where
  done _ := trivial
  bind := Confined.bind
  acquire _ := ⟨trivial, trivial⟩
  release _ := ⟨trivial, trivial⟩
  pause _ := trivial

/-- A relation that has room for the worker inside and for what else a coordinator does. -/
theorem permitsPasses_moves [Scalar α] (hR : Lenient (fun _ => True) R)
    (htouch : ∀ c c', Touches c c' → R c c') (hsuccess : ∀ id c, R c (c.noteSuccess id))
    (hmetrics : ∀ c metrics, R c { c with metrics }) :
    PermitsPasses (Moves R fun _ => True) where
  toComposes := composes_moves R _
  touch hf := moves_atomically fun c => htouch _ _ (hf c)
  openEmbedded _ := moves_of_within
    (hR.onEmbedded (Worker.tame_createSession fun _ => trivial))
  closeEmbedded id := moves_of_within (hR.onEmbedded (Worker.tame_closeSession id))
  askOpen _ _ _ := ⟨trivial, fun _ => trivial⟩
  askClose _ _ _ := ⟨trivial, fun _ => trivial⟩
  askReport _ _ _ := ⟨trivial, fun _ => trivial⟩
  noteSuccess id := moves_update (hsuccess id)
  recordStage _ _ _ := moves_update fun c => hmetrics c _
  submitMetrics _ := moves_atomically fun c => hmetrics c _
  forwardEmbedded _ _ _ := moves_of_within (hR.onEmbedded (Worker.tame_forward ..))
  stageEmbedded r layers := moves_of_within (hR.onEmbedded (Worker.tame_runStage r layers))
  askForward _ _ _ := ⟨trivial, fun _ => trivial⟩

end LayerPipeline.Coordinator
