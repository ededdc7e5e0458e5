import LayerPipeline.Proofs.Service.Binding
import LayerPipeline.Proofs.Service.Entries
import LayerPipeline.Service.Pipeline

/-!
# Work that leaves the sessions of a coordinator alone

Setting up, running and taking down stages happens on other nodes, or in the worker inside the
coordinator. Of the coordinator itself it changes the health of nodes, the collected metrics and the
counters, but never a session, the active plan or reserved memory.
-/

namespace LayerPipeline

open Procedure

/-- Requests that are about no session, no plan and no node of the roster. -/
def Request.isCalm {α : Type} : Request α → Bool
  | .ping _ | .reportCapabilities _ | .health | .stageForward _ | .submitMetrics _
  | .queryMetrics _ => true
  | _ => false

namespace Registry

variable {α : Type}

/-- What is reserved on each node. -/
def reserved (r : Registry α) : List (String × α) :=
  r.nodes.map fun n => (n.descriptor.nodeId, n.reservedGb)

theorem reserved_modify {id : String} {f : RegisteredNode α → RegisteredNode α}
    {hid : ∀ n, n.descriptor.nodeId = id → (f n).descriptor.nodeId = id}
    (hf : ∀ n, (f n).descriptor = n.descriptor ∧ (f n).reservedGb = n.reservedGb)
    (r : Registry α) : (r.modify id f hid).reserved = r.reserved := by
  rw [reserved, nodes_modify, List.map_map]
  refine List.map_congr_left fun n _ => ?_
  by_cases hn : n.descriptor.nodeId = id <;> simp [hn, hf n]

theorem reserved_markUnhealthy (r : Registry α) (id reason : String) :
    (r.markUnhealthy id reason).reserved = r.reserved := by
  refine reserved_modify ?_ r
  exact fun _ => ⟨rfl, rfl⟩

theorem reserved_recordSuccess (r : Registry α) (id : String) :
    (r.recordSuccess id).reserved = r.reserved := by
  refine reserved_modify ?_ r
  exact fun _ => ⟨rfl, rfl⟩

end Registry

namespace Coordinator

variable {α β γ : Type}

/-- Sessions, active plan and reserved memory stay as they are, and the worker inside binds at most
sessions with free ids. -/
structure Undisturbed (free : String → Prop) (c c' : Coordinator α) : Prop where
  config : c'.config = c.config
  capability : c'.capability = c.capability
  sessions : c'.sessions = c.sessions
  journal : c'.journal = c.journal
  plan : c'.plan = c.plan
  profile : c'.profile = c.profile
  reserved : c'.registry.reserved = c.registry.reserved
  matcher : c'.registry.matcher = c.registry.matcher
  ids : c'.ids = c.ids
  embedded : Worker.Retains free c.embedded c'.embedded

section Undisturbed

variable {free : String → Prop}

theorem Undisturbed.refl (c : Coordinator α) : Undisturbed free c c :=
  ⟨rfl, rfl, rfl, rfl, rfl, rfl, rfl, rfl, rfl, .refl _⟩

theorem Undisturbed.trans {c m c' : Coordinator α} (h : Undisturbed free c m)
    (h' : Undisturbed free m c') : Undisturbed free c c' where
  config := h'.config.trans h.config
  capability := h'.capability.trans h.capability
  sessions := h'.sessions.trans h.sessions
  journal := h'.journal.trans h.journal
  plan := h'.plan.trans h.plan
  profile := h'.profile.trans h.profile
  reserved := h'.reserved.trans h.reserved
  matcher := h'.matcher.trans h.matcher
  ids := h'.ids.trans h.ids
  embedded := h.embedded.trans h'.embedded

theorem undisturbed_countRequest (c : Coordinator α) : Undisturbed free c c.countRequest :=
  { Undisturbed.refl c with }

theorem undisturbed_markUnhealthy (id reason : String) (c : Coordinator α) :
    Undisturbed free c (c.markUnhealthy id reason) :=
  { Undisturbed.refl c with reserved := c.registry.reserved_markUnhealthy id reason }

theorem undisturbed_noteFailure (id : String) (e : ServiceError) (c : Coordinator α) :
    Undisturbed free c (c.noteFailure id e) := by
  unfold noteFailure
  split
  · exact undisturbed_markUnhealthy id e.message c
  · exact .refl c

theorem undisturbed_noteSuccess (id : String) (c : Coordinator α) :
    Undisturbed free c (c.noteSuccess id) :=
  { Undisturbed.refl c with reserved := c.registry.reserved_recordSuccess id }

theorem undisturbed_dropSilent (c : Coordinator α) : Undisturbed free c c.dropSilent := by
  unfold dropSilent
  generalize c.heartbeats.timedOut c.clock.micros = silent
  induction silent generalizing c with
  | nil => exact .refl c
  | cons id silent ih => exact (undisturbed_markUnhealthy id _ c).trans (ih _)

end Undisturbed

/-! ## Work on stages -/

section Lenient

variable {free : String → Prop}

/-- The relation lets a coordinator stay as it is, and lets the worker inside it do whatever binds
at most sessions with free ids. -/
structure Lenient (free : String → Prop) (R : Coordinator α → Coordinator α → Prop) : Prop where
  refl : ∀ c, R c c
  embedded : ∀ c w, Worker.Retains free c.embedded w → R c { c with embedded := w }

/-- Every section of the procedure is a step of the relation, and it asks for no sessions but those
with free ids. -/
def Within (free : String → Prop) (R : Coordinator α → Coordinator α → Prop) (p : Action α β) :
    Prop :=
  Confined R Lock.IsStage (fun q => Worker.Opens free q.request) p

variable {R : Coordinator α → Coordinator α → Prop} (hR : Lenient free R)
include hR

theorem Lenient.read (f : Coordinator α → β) : Within free R (read f : Action α β) :=
  fun c => ⟨hR.refl c, trivial⟩

theorem Lenient.onEmbedded {p : Worker.Action α β} (hp : Worker.Tame free p) :
    Within free R (onEmbedded p) :=
  Confined.widen (hp.within fun c w hw => hR.embedded c w hw)

omit hR in
theorem within_retrying (describe : Response α → String) (config : LinkConfig) (address : String)
    (retryOn : LinkError → Bool) {request : Request α} (hrequest : Worker.Opens free request)
    (retries pauseMs : Nat) :
    Within free R
      ((channel describe config address).retrying retryOn request retries pauseMs) := by
  induction retries generalizing pauseMs with
  | zero => exact ⟨hrequest, fun _ => trivial⟩
  | succ retries ih =>
    refine Confined.bind ⟨hrequest, fun _ => trivial⟩ fun answer => ?_
    cases answer with
    | ok a => trivial
    | error e =>
      by_cases he : retryOn e = true
      · simp only [he, if_true]
        exact Confined.bind trivial fun _ => ih _
      · simp only [he]
        trivial

omit hR in
theorem channelTo_eq_ok (describe : Response α → String) {config : LinkConfig} {s : Stage α}
    {way : Channel (Action α) α} (h : channelTo describe config s = .ok way) :
    ∃ address, s.node.address = some address ∧ way = channel describe config address := by
  unfold channelTo at h
  split at h
  · next address haddress => exact ⟨address, haddress, (Except.ok.inj h).symm⟩
  · cases h

variable (describe : Response α → String)

theorem Lenient.closeStage (id : String) (s : Stage α) :
    Within free R (closeStage describe id s) := by
  refine Confined.bind (hR.read _) fun here => ?_
  split
  · exact Confined.bind (hR.onEmbedded (Worker.tame_closeSession _)) fun a => trivial
  · refine Confined.bind (hR.read _) fun config => ?_
    split
    · trivial
    · next way hway =>
      obtain ⟨address, -, rfl⟩ := channelTo_eq_ok describe hway
      refine Confined.bind (Confined.bind ?_ fun _ => trivial) fun _ => trivial
      exact within_retrying describe _ _ _ (by rintro _ ⟨⟩) _ _

theorem Lenient.closeStages (id : String) (stages : List (Stage α)) :
    Within free R (closeStages describe id stages) := by
  induction stages with
  | nil => trivial
  | cons s stages ih => exact Confined.bind (hR.closeStage describe id s) fun _ => ih

variable [Scalar α]

section Opening

variable {id : String} (hid : ∀ ids, free (Worker.chooseId id ids).1)
include hid

theorem Lenient.openStage (s : Stage α) (r : CreateSession) :
    Within free R (openStage describe s id r) := by
  refine Confined.bind (hR.read _) fun here => ?_
  split
  · exact Confined.bind (hR.onEmbedded (Worker.tame_createSession hid)) fun a => trivial
  · refine Confined.bind (hR.read _) fun config => ?_
    split
    · trivial
    · next way hway =>
      obtain ⟨address, -, rfl⟩ := channelTo_eq_ok describe hway
      refine Confined.bind (Confined.bind ?_ fun _ => trivial) fun answer => ?_
      · refine within_retrying describe _ _ _ ?_ _ _
        rintro _ ⟨⟩
        exact hid
      · cases answer <;> trivial

theorem Lenient.openStages (r : CreateSession) (opened stages : List (Stage α)) :
    Within free R (openStages describe id r opened stages) := by
  induction stages generalizing opened with
  | nil => trivial
  | cons s stages ih =>
    refine Confined.bind (hR.openStage describe hid s r) fun result => ?_
    cases result with
    | error e => trivial
    | ok _ => exact ih _

end Opening

theorem Lenient.runStage (hsuccess : ∀ id c, R c (c.noteSuccess id)) (s : Stage α)
    (r : ExecuteForward) (input : Tensor) : Within free R (runStage describe s r input) := by
  refine Confined.bind (hR.read _) fun here => ?_
  split
  · exact hR.onEmbedded (Worker.tame_forward ..)
  · refine Confined.bind (hR.read _) fun config => ?_
    split
    · trivial
    · next way hway =>
      obtain ⟨address, -, rfl⟩ := channelTo_eq_ok describe hway
      refine Confined.bind (Confined.bind ?_ fun _ => trivial) fun answer => ?_
      · exact within_retrying describe _ _ _ (by rintro _ ⟨⟩) _ _
      · cases answer with
        | error e => trivial
        | ok a =>
          simp only
          split
          · trivial
          · exact Confined.bind (hR.read _) fun _ c => ⟨hsuccess s.node.nodeId c, trivial⟩

end Lenient

/-! ## Calm work -/

/-- A procedure whose sections all leave sessions, plan and reservations alone, and that asks for no
sessions but those with free ids. -/
def Calm (free : String → Prop) (p : Action α β) : Prop :=
  Confined (Undisturbed free) Lock.IsStage (fun q => Worker.Opens free q.request) p

variable {free : String → Prop}

theorem lenient_undisturbed : Lenient free (Undisturbed free : Coordinator α → _ → Prop) where
  refl := .refl
  embedded _ _ hw := ⟨rfl, rfl, rfl, rfl, rfl, rfl, rfl, rfl, rfl, hw⟩

theorem calm_pure (b : β) : Calm free (pure b : Action α β) := trivial

theorem calm_read (f : Coordinator α → β) : Calm free (read f : Action α β) :=
  lenient_undisturbed.read f

theorem calm_update {f : Coordinator α → Coordinator α} (hf : ∀ c, Undisturbed free c (f c)) :
    Calm free (update f : Action α Unit) :=
  fun c => ⟨hf c, trivial⟩

variable (describe : Response α → String)

theorem calm_reportCapabilities (config : LinkConfig) (address id : String) :
    Calm free ((channel describe config address).reportCapabilities config id) :=
  Confined.bind (within_retrying describe _ _ _ (by rintro _ ⟨⟩) _ _) fun _ => calm_pure _

theorem calm_closeStages (id : String) (stages : List (Stage α)) :
    Calm free (closeStages describe id stages) :=
  lenient_undisturbed.closeStages describe id stages

variable [Scalar α]

theorem calm_openStage {id : String} (hid : ∀ ids, free (Worker.chooseId id ids).1) (s : Stage α)
    (r : CreateSession) : Calm free (openStage describe s id r) :=
  lenient_undisturbed.openStage describe hid s r

theorem calm_openStages {id : String} (hid : ∀ ids, free (Worker.chooseId id ids).1)
    (r : CreateSession) (opened stages : List (Stage α)) :
    Calm free (openStages describe id r opened stages) :=
  lenient_undisturbed.openStages describe hid r opened stages

theorem calm_runStage (s : Stage α) (r : ExecuteForward) (input : Tensor) :
    Calm free (runStage describe s r input) :=
  lenient_undisturbed.runStage describe undisturbed_noteSuccess s r input

theorem calm_runStages (r : ExecuteForward) (stages : List (Stage α)) (input : Tensor)
    (progress : Progress α) : Calm free (runStages describe r stages input progress) := by
  induction stages generalizing input progress with
  | nil => exact calm_pure _
  | cons s stages ih =>
    refine Confined.bind (calm_runStage describe s r input) fun result => ?_
    cases result with
    | error e => exact calm_pure _
    | ok x =>
      refine Confined.bind (calm_update fun c => ?_) fun _ => ih _ _
      exact { Undisturbed.refl c with }

theorem calm_stageForward (r : StageForward) : Calm free (stageForward r : Action α _) := by
  refine Confined.bind (calm_read _) fun found => ?_
  cases found with
  | error e => exact calm_pure _
  | ok s => exact lenient_undisturbed.onEmbedded (Worker.tame_runStage _ _)

theorem calm_handle {request : Request α} (h : request.isCalm = true) :
    Calm free (handle describe request) := by
  refine Confined.bind (calm_update undisturbed_countRequest) fun _ => ?_
  cases request with
  | ping r => exact Confined.bind (calm_read _) fun _ => calm_pure _
  | reportCapabilities r => exact Confined.bind (calm_read _) fun _ => calm_pure _
  | health => exact Confined.bind (calm_read _) fun _ => calm_pure _
  | stageForward r => exact Confined.bind (calm_stageForward r) fun _ => calm_pure _
  | submitMetrics r => exact fun c => ⟨{ Undisturbed.refl c with }, trivial⟩
  | queryMetrics r => exact Confined.bind (calm_read _) fun _ => calm_pure _
  | _ => cases h

/-! ## Complete calls -/

omit [Scalar α]

/-- Whatever other nodes answer, of the coordinator a call changes at most the number of requests it
has served, when it has called itself. -/
def Answered : Answers (Coordinator α) (Call α) (Except LinkError (Response α)) :=
  fun _ c _ c' => c' = c ∨ c' = c.countRequest

theorem Calm.undisturbed {p : Action α β} (hp : Calm free p) {c c' : Coordinator α} {b : β}
    (hrun : Runs Answered p c b c') : Undisturbed free c c' := by
  refine Confined.runs Undisturbed.refl Undisturbed.trans (fun _ c _ c' _ hanswer => ?_) hp hrun
  rcases hanswer with rfl | rfl
  · exact .refl _
  · exact undisturbed_countRequest c

end Coordinator

end LayerPipeline
