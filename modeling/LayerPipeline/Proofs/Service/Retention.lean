import LayerPipeline.Proofs.Service.Calm
import LayerPipeline.Proofs.Service.Sections

/-!
# Sessions of a coordinator and their plans

A session runs through the plan it was entered with: whatever a coordinator does, an open session
keeps its id and its plan until it is gone, and no session appears in the table but by a request to
open one.
-/

namespace LayerPipeline.Coordinator

open Procedure

variable {α β : Type} {free : String → Prop} {c c' : Coordinator α}

/-- No session is entered, the open ones keep their plans, and the worker inside binds at most
sessions with free ids. -/
structure Retains (free : String → Prop) (c c' : Coordinator α) : Prop where
  config : c'.config = c.config
  capability : c'.capability = c.capability
  names : c'.ids.name = c.ids.name
  sound : c.sessions.Sound → c'.sessions.Sound
  opened : c.sessions.Sound → ∀ s' ∈ c'.sessions.opened, ∃ s ∈ c.sessions.opened,
    s'.id = s.id ∧ s'.plan = s.plan
  embedded : Worker.Retains free c.embedded c'.embedded

theorem retains_of_sessions (hconfig : c'.config = c.config)
    (hcapability : c'.capability = c.capability) (hids : c'.ids = c.ids)
    (hsessions : c'.sessions = c.sessions)
    (hembedded : Worker.Retains free c.embedded c'.embedded) : Retains free c c' where
  config := hconfig
  capability := hcapability
  names := hids ▸ rfl
  sound hs := hsessions ▸ hs
  opened _ s hs := ⟨s, hsessions ▸ hs, rfl, rfl⟩
  embedded := hembedded

theorem Undisturbed.retains (h : Undisturbed free c c') : Retains free c c' :=
  retains_of_sessions h.config h.capability h.ids h.sessions h.embedded

theorem Retains.refl (c : Coordinator α) : Retains free c c := (Undisturbed.refl c).retains

theorem Retains.trans {m : Coordinator α} (h : Retains free c m) (h' : Retains free m c') :
    Retains free c c' where
  config := h'.config.trans h.config
  capability := h'.capability.trans h.capability
  names := h'.names.trans h.names
  sound := h'.sound ∘ h.sound
  opened hs s' hs' := by
    obtain ⟨x, hx, hid, hplan⟩ := h'.opened (h.sound hs) s' hs'
    obtain ⟨s, hs, hid', hplan'⟩ := h.opened hs x hx
    exact ⟨s, hs, hid.trans hid', hplan.trans hplan'⟩
  embedded := h.embedded.trans h'.embedded

/-! ## Sections -/

theorem retains_modifySession (c : Coordinator α) (key : Nat) {f : Session α → Session α}
    (hf : SessionTable.Keeps f) (hplan : ∀ s, (f s).plan = s.plan) :
    Retains free c (c.modifySession key f) := by
  refine { Retains.refl c with sound := fun h => h.modify key hf, opened := fun _ s' hs' => ?_ }
  obtain ⟨s, hs, rfl⟩ := List.mem_map.mp (show s' ∈ c.sessions.opened.map _ from hs')
  refine ⟨s, hs, ?_⟩
  by_cases hkey : s.key = key
  · simp only [hkey, if_true]
    exact ⟨(hf s).2, hplan s⟩
  · simp [hkey]

theorem retains_endSession (c : Coordinator α) (key : Nat) (reason : Option String) :
    Retains free c (c.endSession key reason).2 := by
  refine retains_modifySession c key (SessionTable.keeps_close reason) fun s => ?_
  by_cases h : s.state = .closed <;> simp [Session.close, h]

theorem retains_dropSession (c : Coordinator α) (id : String) :
    Retains free c (c.dropSession id) :=
  { Retains.refl c with
    sound := fun h => h.remove id
    opened := fun _ s hs => ⟨s, List.mem_of_mem_filter hs, rfl, rfl⟩ }

variable [Scalar α]

theorem retains_planResult (c : Coordinator α) (r : PlanRequest α) :
    Retains free c (c.planResult r).2 := by
  rcases c.planResult_cases r with heq | ⟨_, p, -, -, heq⟩
  · rw [heq]
    exact .refl c
  · rw [heq]
    exact { Retains.refl c with }

theorem retains_install (c : Coordinator α) (p : Plan α) : Retains free c (c.install p) := by
  rcases c.install_cases p with heq | ⟨-, heq⟩
  · rw [heq]
    exact .refl c
  · rw [heq]
    exact { Retains.refl c with }

theorem retains_heartbeat (c : Coordinator α) (h : Heartbeat α) :
    Retains free c (c.heartbeat h).2 := by
  rcases c.heartbeat_cases h with heq | heq
  · rw [heq]
    exact .refl c
  · rw [heq]
    exact { Retains.refl c with }

/-! ## Procedures -/

/-- Every section of the procedure retains the sessions, and it asks for no sessions but those with
free ids. -/
def Tame (free : String → Prop) (p : Action α β) : Prop :=
  Confined (Retains free) (fun _ => True) (fun q => Worker.Opens free q.request) p

omit [Scalar α] in
theorem Calm.tame {p : Action α β} (hp : Calm free p) : Tame free p :=
  hp.mono (fun _ _ h => h.retains) (fun _ _ => trivial) fun _ => id

omit [Scalar α] in
theorem tame_atomically {f : Coordinator α → β × Coordinator α}
    (hf : ∀ c, Retains free c (f c).2) : Tame free (atomically f : Action α β) :=
  fun c => ⟨hf c, trivial⟩

omit [Scalar α] in
theorem tame_update {f : Coordinator α → Coordinator α} (hf : ∀ c, Retains free c (f c)) :
    Tame free (update f : Action α Unit) :=
  fun c => ⟨hf c, trivial⟩

variable (describe : Response α → String)

theorem tame_closeSession (id : String) (reason : Option String) :
    Tame free (closeSession describe id reason) := by
  refine Confined.bind (tame_atomically fun c => retains_dropSession c id) fun found => ?_
  cases found with
  | none => trivial
  | some s =>
    refine Confined.bind ⟨trivial, trivial⟩ fun _ => ?_
    refine Confined.bind (tame_atomically fun c => retains_endSession c _ _) fun found => ?_
    cases s.plan with
    | none => exact ⟨trivial, trivial⟩
    | some plan =>
      refine Confined.bind (tame_update fun c => { Retains.refl c with }) fun _ => ?_
      exact Confined.bind (calm_closeStages describe _ _).tame fun _ => ⟨trivial, trivial⟩

/-- The end of a forward pass that failed in a stage. -/
theorem tame_failedForward (r : ExecuteForward) (key : Nat) (s : Stage α) (e : ServiceError)
    (plan : Plan α) :
    Tame free
      (do
        update fun c => c.noteFailure s.node.nodeId e
        let found ← atomically fun c => c.endSession key (some e.message)
        release (.pipeline key)
        update fun c => c.dropSession r.sessionId
        update fun c => c.releaseFor key found plan
        closeStages describe r.sessionId
          (plan.stages.filter fun x => x.node.nodeId ≠ s.node.nodeId)
        return .error e : Action α (Except ServiceError (Tensor × ExecutionReport α))) := by
  refine Confined.bind (calm_update (undisturbed_noteFailure _ e)).tame fun _ => ?_
  refine Confined.bind (tame_atomically fun c => retains_endSession c _ _) fun found => ?_
  refine Confined.bind ⟨trivial, trivial⟩ fun _ => ?_
  refine Confined.bind (tame_update fun c => retains_dropSession c _) fun _ => ?_
  refine Confined.bind (tame_update fun c => { Retains.refl c with }) fun _ => ?_
  exact Confined.bind (calm_closeStages describe _ _).tame fun _ => trivial

theorem tame_executeForward (r : ExecuteForward) : Tame free (executeForward describe r) := by
  unfold executeForward
  cases r.input.validate with
  | error e => trivial
  | ok _ =>
    refine Confined.bind (calm_read _).tame fun found => ?_
    cases found with
    | none => trivial
    | some key =>
      refine Confined.bind ⟨trivial, trivial⟩ fun _ => ?_
      refine Confined.bind (calm_read _).tame fun stages => ?_
      rcases stages with e | ⟨plan, stages⟩
      · exact ⟨trivial, trivial⟩
      · refine Confined.bind (calm_runStages describe _ _ _ _).tame fun outcome => ?_
        rcases outcome with ⟨s, e⟩ | ⟨output, report⟩
        · cases e with
          | aborted a => exact ⟨trivial, trivial⟩
          | _ => exact tame_failedForward describe r key s _ plan
        · refine Confined.bind (tame_update fun c => ?_) fun _ => ?_
          · exact retains_modifySession c key (SessionTable.keeps_recordForward _ _) fun _ => rfl
          · exact ⟨trivial, fun c => ⟨{ Retains.refl c with }, trivial⟩⟩

theorem tame_closeIdle (ids : List String) : Tame free (closeIdle describe ids) := by
  induction ids with
  | nil => trivial
  | cons id ids ih => exact Confined.bind (tame_closeSession describe _ _) fun _ => ih

theorem tame_sweep (busy : List String) : Tame free (sweep describe busy) := by
  refine Confined.bind (calm_update undisturbed_dropSilent).tame fun _ => ?_
  exact Confined.bind (calm_read _).tame fun ids => tame_closeIdle describe ids

theorem tame_registerWorker (d : Descriptor α) : Tame free (registerWorker describe d) := by
  refine Confined.bind (tame_atomically fun c => ?_) fun enrolled => ?_
  · split
    · next c' h =>
      obtain ⟨registry, -, rfl⟩ := enroll_eq_ok h
      exact { Retains.refl c with }
    · exact .refl c
  · cases enrolled with
    | error e => trivial
    | ok _ =>
      refine Confined.bind (calm_read _).tame fun config => ?_
      refine Confined.bind (calm_reportCapabilities describe _ _ _).tame fun answer => ?_
      refine Confined.bind (tame_atomically fun c => ?_) fun a => ?_
      · obtain ⟨registry, heq, -⟩ := confirm_cases c d answer
        rw [heq]
        exact { Retains.refl c with }
      · cases a <;> trivial

theorem tame_handle {request : Request α} (h : ∀ r, request ≠ .createSession r) :
    Tame free (handle describe request) := by
  by_cases hcalm : request.isCalm = true
  · exact (calm_handle describe hcalm).tame
  refine Confined.bind (calm_update undisturbed_countRequest).tame fun _ => ?_
  cases request with
  | createSession r => exact absurd rfl (h r)
  | executeForward r =>
    refine Confined.bind (tame_executeForward describe r) fun result => ?_
    rcases result with e | ⟨output, report⟩
    · cases e <;> trivial
    · trivial
  | closeSession r => exact Confined.bind (tame_closeSession describe _ _) fun _ => trivial
  | generatePlan r =>
    exact Confined.bind (tame_atomically fun c => retains_planResult c r) fun _ => trivial
  | registerWorker d =>
    refine Confined.bind (tame_registerWorker describe d) fun result => ?_
    rcases result with e | a
    · cases e <;> trivial
    · trivial
  | heartbeat beat =>
    exact Confined.bind (tame_atomically fun c => retains_heartbeat c beat) fun _ => trivial
  | _ => exact absurd rfl hcalm

/-- Every job but a request to open a session. -/
theorem tame_job {job : Job α} (h : ∀ r, job ≠ .serve (.createSession r)) :
    Tame free (job.procedure describe) := by
  cases job with
  | serve request =>
    exact Confined.bind (tame_handle describe fun r hr => h r (hr ▸ rfl)) fun _ => trivial
  | sweep busy => exact tame_sweep describe busy
  | install p => exact tame_update fun c => retains_install c p
  | tick clock => exact tame_update fun c => { Retains.refl c with }

end LayerPipeline.Coordinator
