import LayerPipeline.Proofs.Service.SessionTable
import LayerPipeline.Service.Pipeline

/-!
# Sections of a coordinator

What the sections of a coordinator do, by their result.
-/

namespace LayerPipeline.Coordinator

variable {α : Type}

/-- A coordinator starts with no sessions, no plan and no reservations. -/
theorem start_eq_ok [Scalar α] {config : CoordinatorConfig α} {capability : Capability α}
    {backend : Backend α} {profile : List (LayerCost α)} {address : String} {clock : Clock}
    {ids : IdSource} {overheadMs : α} {c : Coordinator α}
    (h : start config capability backend profile address clock ids overheadMs = .ok c) :
    c.sessions = .empty ∧ c.journal = [] ∧ c.plan = none ∧ c.profile = profile ∧
      firstRoster config capability address = .ok c.registry ∧ c.ids = ids ∧
      c.embedded = .start (embeddedConfig config address) capability backend clock ids := by
  unfold start at h
  split at h
  · cases h
  · next registry hregistry =>
    split at h
    · cases h
    · cases h
      exact ⟨rfl, rfl, rfl, rfl, hregistry, rfl, rfl⟩

/-! ## Plans and nodes -/

theorem planResult_cases [Scalar α] (c : Coordinator α) (r : PlanRequest α) :
    (c.planResult r).2 = c ∨
    ∃ nodes p, Planning.generate c.config.planner (r.layers.getD c.profile) nodes r.modelName
        r.strategy c.clock.text = .ok p ∧ p.validate = .ok () ∧
      (c.planResult r).2 = { c with plan := some p } := by
  have hgenerate : ∀ p c', c.generatePlan r = .ok (p, c') → c' = c ∨
      ∃ nodes, Planning.generate c.config.planner (r.layers.getD c.profile) nodes r.modelName
        r.strategy c.clock.text = .ok p ∧ p.validate = .ok () ∧ c' = { c with plan := some p } := by
    intro p c' h
    unfold generatePlan at h
    split at h
    · cases h
    · next nodes _ =>
      split at h
      · cases h
      · next plan hplan =>
        split at h
        · unfold installPlan at h
          split at h
          · cases h
          · next hvalid =>
            cases h
            exact .inr ⟨nodes, hplan, hvalid, rfl⟩
        · cases h
          exact .inl rfl
  simp only [planResult]
  split
  · next p c' h =>
    rcases hgenerate p c' h with heq | ⟨nodes, hplan, hvalid, heq⟩
    · exact .inl heq
    · exact .inr ⟨nodes, p, hplan, hvalid, heq⟩
  · exact .inl rfl
  · exact .inl rfl

theorem enroll_eq_ok [Scalar α] {c c' : Coordinator α} {d : Descriptor α}
    (h : c.enroll d = .ok c') : ∃ registry, c.registry.register d = .ok registry ∧
      c' = { c with registry, heartbeats := c.heartbeats.beat d.nodeId c.clock.micros } := by
  unfold enroll at h
  split at h
  · cases h
  · split at h
    · cases h
    · next registry hregister =>
      cases h
      exact ⟨registry, hregister, rfl⟩

theorem confirm_cases [Scalar α] (c : Coordinator α) (d : Descriptor α)
    (answer : Except LinkError (CapabilityReport α)) :
    ∃ registry, (c.confirm d answer).2 = { c with registry } ∧
      (registry = c.registry ∨ (∃ report, c.registry.applyCapabilities report = .ok registry) ∨
        ∃ reason, registry = c.registry.markUnhealthy d.nodeId reason) := by
  simp only [confirm]
  split
  · next registry happlied =>
    split at happlied
    · next report => exact ⟨registry, rfl, .inr (.inl ⟨report, happlied⟩)⟩
    · cases happlied
  · exact ⟨c.registry, rfl, .inl rfl⟩
  · exact ⟨_, rfl, .inr (.inr ⟨_, rfl⟩)⟩

theorem heartbeat_cases [Scalar α] (c : Coordinator α) (h : Heartbeat α) :
    (c.heartbeat h).2 = c ∨
    (c.heartbeat h).2 = { c with
      registry := c.registry.updateLoad h.nodeId h.loadFactor h.activeSessions
      heartbeats := c.heartbeats.beat h.nodeId c.clock.micros } := by
  unfold heartbeat
  split
  · exact .inr rfl
  · exact .inl rfl

/-- Of a coordinator that drops silent nodes, only the roster and the monitor change. -/
theorem dropSilent_eq (c : Coordinator α) :
    ∃ registry heartbeats, c.dropSilent = { c with registry, heartbeats } := by
  unfold dropSilent
  generalize c.heartbeats.timedOut c.clock.micros = silent
  induction silent generalizing c with
  | nil => exact ⟨_, _, rfl⟩
  | cons id silent ih =>
    obtain ⟨registry, heartbeats, heq⟩ := ih (c.markUnhealthy id "heartbeat timeout")
    exact ⟨registry, heartbeats, heq⟩

/-! ## Sessions -/

/-- The session that a request opens on a plan, as it is entered. -/
def newSession (c : Coordinator α) (r : CreateSession) (p : Plan α) : Session α :=
  let id := (Worker.chooseId r.sessionId c.ids).1
  { (Session.create id r.maxSequenceLength r.dtype c.clock.micros : Session α) with plan := some p }

/-- The coordinator after the session was entered. -/
def entered (c : Coordinator α) (r : CreateSession) (p : Plan α) : Coordinator α :=
  { c with
    ids := (Worker.chooseId r.sessionId c.ids).2
    sessions := c.sessions.add (c.newSession r p) }

theorem enter_cases (c : Coordinator α) (r : CreateSession) (p : Plan α) :
    (∃ e, c.enter r p = (.error e, { c with ids := (Worker.chooseId r.sessionId c.ids).2 })) ∨
    (c.sessions.get? (c.newSession r p).id = none ∧
      c.enter r p = (.ok ((c.newSession r p).id, c.sessions.nextKey), c.entered r p)) := by
  simp only [enter, entered, newSession]
  split
  · next sessions hinsert =>
    obtain ⟨hid, rfl⟩ := SessionTable.insertWithin_eq_ok hinsert
    exact .inr ⟨hid, rfl⟩
  · next e _ => exact .inl ⟨e, rfl⟩

/-- The session that a call has set up is active from now on. -/
def activated (now : Nat) (s : Session α) : Session α :=
  { s with state := .active, lastActive := now }

/-- A session that was entered becomes active unless it was closed before. -/
theorem activateSession_cases {c : Coordinator α} (hsound : c.sessions.Sound) {key : Nat}
    (hkey : key < c.sessions.nextKey) :
    (c.sessions.stateAt key ≠ some .created ∧ ∃ e, c.activateSession key = (.error e, c)) ∨
    (c.sessions.stateAt key = some .created ∧
      c.activateSession key = (.ok (), c.modifySession key (activated c.clock.micros))) := by
  cases hs : c.sessions.session? key with
  | none =>
    rw [hsound.session?_eq_none_iff] at hs
    omega
  | some s =>
    simp only [activateSession, hs, Session.activate, SessionTable.stateAt, Option.map_some]
    by_cases hstate : s.state = .created
    · -- the section writes back the session it has read
      have hmodify : c.sessions.modify key (fun _ => activated c.clock.micros s) =
          c.sessions.modify key (activated c.clock.micros) := by
        refine hsound.modify_congr fun x hx => ?_
        rw [Option.some.inj (hs.symm.trans hx)]
      refine .inr ⟨by rw [hstate], ?_⟩
      rw [modifySession, ← hmodify]
      simp [hstate, modifySession, activated]
    · exact .inl ⟨by simp [hstate], by simp [hstate]⟩

theorem stagesToRun_eq_ok {c : Coordinator α} {key : Nat} {r : ExecuteForward} {p : Plan α}
    {stages : List (Stage α)} (h : c.stagesToRun key r = .ok (p, stages)) :
    ∃ s, c.sessions.session? key = some s ∧ s.state = .active ∧ s.plan = some p ∧
      stages = p.stages.filter (fun s =>
        r.stageIds.isEmpty || r.stageIds.contains (toString s.stageId)) ∧ stages ≠ [] := by
  unfold stagesToRun at h
  split at h
  · cases h
  · next s hs =>
    split at h
    · cases h
    · next hactive =>
      have hstate : s.state = .active := by
        unfold Session.ensureActive at hactive
        split at hactive <;> simp_all
      split at h
      · cases h
      · next plan hplan =>
        simp only at h
        split at h
        · cases h
        · next hne =>
          obtain ⟨rfl, rfl⟩ := Prod.mk.inj (Except.ok.inj h)
          exact ⟨s, hs, hstate, hplan, rfl, by simpa using hne⟩

/-! ## Jobs -/

/-- What a coordinator is given to do. -/
inductive Job (α : Type) where
  | serve (request : Request α)
  | sweep (busy : List String)
  /-- A plan that was read from a file is made the active one. -/
  | install (p : Plan α)
  /-- The clock moves on. -/
  | tick (clock : Clock)

/-- The coordinator with a plan installed, if the plan is valid. -/
def install [Scalar α] (c : Coordinator α) (p : Plan α) : Coordinator α :=
  (c.installPlan p).toOption.getD c

theorem install_cases [Scalar α] (c : Coordinator α) (p : Plan α) :
    c.install p = c ∨ p.validate = .ok () ∧ c.install p = { c with plan := some p } := by
  unfold install installPlan
  split
  · exact .inl rfl
  · next hvalid => exact .inr ⟨hvalid, rfl⟩

/-- What the coordinator does for a job. -/
def Job.procedure [Scalar α] (describe : Response α → String) : Job α → Action α Unit
  | .serve request => do
    let _ ← handle describe request
  | .sweep busy => Coordinator.sweep describe busy
  | .install p => Procedure.update fun c => c.install p
  | .tick clock => Procedure.update fun c => { c with clock }

end LayerPipeline.Coordinator
