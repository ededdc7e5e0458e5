import LayerPipeline.Proofs.Service.Reserved
import LayerPipeline.Proofs.Service.Sections

/-!
# The balance of reserved memory

What the open sessions of a coordinator hold of its nodes, and which changes of sessions and nodes
keep this equal to what is reserved: to open a session and reserve its memory, to take one out and
return its memory, and everything that touches neither.
-/

namespace LayerPipeline

open Planning

/-! ## Memory held by sessions -/

/-- The stages that a session runs through. -/
def Session.stages (s : Session ℚ) : List (Stage ℚ) := (s.plan.map (·.stages)).getD []

theorem Session.stages_of_plan {s : Session ℚ} {p : Plan ℚ} (h : s.plan = some p) :
    s.stages = p.stages := by
  simp [Session.stages, h]

/-- What a session holds of a node. -/
def Session.holds (s : Session ℚ) (id : String) : ℚ := shareOf id s.stages

namespace SessionTable

variable {α : Type} {t : SessionTable α}

/-- What the open sessions hold of a node. -/
def held (t : SessionTable ℚ) (id : String) : ℚ := (t.opened.map (·.holds id)).sum

theorem Sound.key_lt (ht : t.Sound) {s : Session α} (hs : s ∈ t.opened) : s.key < t.nextKey :=
  (ht.mem_keys s.key).mp (List.mem_map_of_mem (List.mem_append_left _ hs))

/-- A change of the newest session. -/
theorem Sound.opened_add_modify (ht : t.Sound) (s : Session α) (f : Session α → Session α) :
    ((t.add s).modify t.nextKey f).opened = t.opened ++ [f { s with key := t.nextKey }] := by
  have hold : t.opened.map (change t.nextKey f) = t.opened := by
    refine (List.map_congr_left fun x hx => ?_).trans (List.map_id _)
    have hne : x.key ≠ t.nextKey := Nat.ne_of_lt (ht.key_lt hx)
    simp [change, hne]
  rw [opened_modify, opened_add, List.map_append, hold]
  simp [change]

/-- A session that is taken out again leaves the others as they were. -/
theorem Sound.opened_add_modify_remove (ht : t.Sound) {s : Session α} (hid : t.get? s.id = none)
    {f : Session α → Session α} (hf : Keeps f) :
    (((t.add s).modify t.nextKey f).remove s.id).opened = t.opened := by
  have hnew : (f { s with key := t.nextKey }).id = s.id := (hf _).2
  have hold : t.opened.filter (fun x => x.id ≠ s.id) = t.opened := by
    refine List.filter_eq_self.mpr fun x hx => ?_
    simpa using List.find?_eq_none.mp hid x hx
  change (((t.add s).modify t.nextKey f).opened.filter fun x => x.id ≠ s.id) = _
  rw [ht.opened_add_modify, List.filter_append, hold]
  simp [hnew]

/-- Of the sessions with other ids, none has the key of this one. -/
theorem Sound.map_change_filter (ht : t.Sound) {id : String} {s : Session α}
    (hs : t.get? id = some s) (f : Session α → Session α) :
    (t.opened.filter fun x => x.id ≠ id).map (change s.key f) =
      t.opened.filter fun x => x.id ≠ id := by
  obtain ⟨hmem, rfl⟩ := get?_eq_some hs
  refine (List.map_congr_left fun x hx => ?_).trans (List.map_id _)
  obtain ⟨hx, hid⟩ := List.mem_filter.mp hx
  have hne : x.key ≠ s.key := by
    intro hkey
    have heq := List.inj_on_of_nodup_map ht.keys_nodup (List.mem_append_left _ hx)
      (List.mem_append_left _ hmem) hkey
    simp [heq] at hid
  simp [change, hne]

theorem Sound.opened_modify_remove (ht : t.Sound) {id : String} {s : Session α}
    (hs : t.get? id = some s) {f : Session α → Session α} (hf : Keeps f) :
    ((t.modify s.key f).remove id).opened = t.opened.filter fun x => x.id ≠ id := by
  change (t.opened.map (change s.key f)).filter _ = _
  rw [List.filter_map, ← ht.map_change_filter hs f]
  congr 2
  funext x
  simp [(keeps_change hf s.key x).2]

theorem Sound.opened_remove_modify (ht : t.Sound) {id : String} {s : Session α}
    (hs : t.get? id = some s) (f : Session α → Session α) :
    ((t.remove id).modify s.key f).opened = t.opened.filter fun x => x.id ≠ id :=
  ht.map_change_filter hs f

theorem Sound.opened_perm (ht : t.Sound) {id : String} {s : Session α} (hs : t.get? id = some s) :
    t.opened.Perm (s :: t.opened.filter fun x => x.id ≠ id) := by
  obtain ⟨hmem, rfl⟩ := get?_eq_some hs
  have hnodup : t.opened.Nodup := ht.ids_nodup.of_map _
  refine (List.perm_ext_iff_of_nodup hnodup ?_).mpr fun x => ?_
  · exact List.nodup_cons.mpr ⟨by simp, hnodup.filter _⟩
  · rw [List.mem_cons, List.mem_filter]
    constructor
    · intro hx
      by_cases hid : x.id = s.id
      · exact .inl (List.inj_on_of_nodup_map ht.ids_nodup hx hmem hid)
      · exact .inr ⟨hx, by simpa using hid⟩
    · rintro (rfl | ⟨hx, -⟩)
      · exact hmem
      · exact hx

/-- What the others hold, when one session is taken out. -/
theorem Sound.held_eq_add {t : SessionTable ℚ} (ht : t.Sound) {id : String} {s : Session ℚ}
    (hs : t.get? id = some s) (node : String) :
    t.held node =
      s.holds node + ((t.opened.filter fun x => x.id ≠ id).map (·.holds node)).sum := by
  rw [held, ((ht.opened_perm hs).map _).sum_eq, List.map_cons, List.sum_cons]

end SessionTable

namespace Coordinator

/-! ## States between jobs -/

/-- What is reserved on every registered node is what the open sessions hold of it. -/
def Accounted (c : Coordinator ℚ) : Prop :=
  ∀ n ∈ c.registry.nodes, n.reservedGb = c.sessions.held n.descriptor.nodeId

theorem accounted_iff {c : Coordinator ℚ} :
    c.Accounted ↔ ∀ e ∈ c.registry.reserved, e.2 = c.sessions.held e.1 := by
  simp [Accounted, Registry.reserved]

/-- A coordinator between two jobs: its tables are in order, and no stage it knows of needs less
than no memory. -/
structure Resting (c : Coordinator ℚ) : Prop where
  sessions : c.sessions.Sound
  registry : c.registry.Sound
  opened : ∀ s ∈ c.sessions.opened, ∀ x ∈ s.stages, 0 ≤ x.memoryMb
  plan : ∀ p ∈ c.plan, ∀ x ∈ p.stages, 0 ≤ x.memoryMb
  profile : ∀ l ∈ c.profile, 0 ≤ l.memoryMb

/-- From a state between jobs to another one, with the balance kept. -/
def Kept (c c' : Coordinator ℚ) : Prop := Resting c → Resting c' ∧ (Accounted c → Accounted c')

theorem Kept.refl (c : Coordinator ℚ) : Kept c c := fun h => ⟨h, id⟩

theorem Kept.trans {c m c' : Coordinator ℚ} (h : Kept c m) (h' : Kept m c') : Kept c c' := by
  intro hrest
  obtain ⟨hm, hbalance⟩ := h hrest
  obtain ⟨hrest', hbalance'⟩ := h' hm
  exact ⟨hrest', hbalance' ∘ hbalance⟩

/-- A change of sessions that leaves their plans alone, and of nodes that leaves the reserved memory
alone. -/
theorem kept_of_same {c c' : Coordinator ℚ} (hsessions : c.sessions.Sound → c'.sessions.Sound)
    (hstages : c'.sessions.opened.map Session.stages = c.sessions.opened.map Session.stages)
    (hregistry : c.registry.Sound → c'.registry.Sound)
    (hreserved : c'.registry.reserved = c.registry.reserved)
    (hplan : c'.plan = c.plan) (hprofile : c'.profile = c.profile) : Kept c c' := by
  intro hrest
  refine ⟨⟨hsessions hrest.sessions, hregistry hrest.registry, ?_, hplan ▸ hrest.plan,
    hprofile ▸ hrest.profile⟩, ?_⟩
  · intro s hs
    obtain ⟨s', hs', heq⟩ := List.mem_map.mp (hstages ▸ List.mem_map_of_mem hs)
    exact heq ▸ hrest.opened s' hs'
  · have hheld : ∀ id, c'.sessions.held id = c.sessions.held id := by
      intro id
      have hmap := congrArg (List.map (shareOf id)) hstages
      rw [List.map_map, List.map_map] at hmap
      exact congrArg List.sum hmap
    simp only [accounted_iff, hreserved, hheld]
    exact id

/-- A change of what is known about nodes, their reserved memory apart. -/
structure Alike (c c' : Coordinator ℚ) : Prop where
  sessions : c'.sessions = c.sessions
  plan : c'.plan = c.plan
  profile : c'.profile = c.profile
  reserved : c'.registry.reserved = c.registry.reserved
  sound : c.registry.Sound → c'.registry.Sound

theorem Undisturbed.alike {c c' : Coordinator ℚ} (h : Undisturbed (fun _ => True) c c') :
    Alike c c' :=
  { h with sound := fun hr => hr.of_same h.reserved h.matcher }

theorem Alike.kept {c c' : Coordinator ℚ} (h : Alike c c') : Kept c c' :=
  kept_of_same (fun hs => h.sessions ▸ hs) (by rw [h.sessions]) h.sound h.reserved h.plan h.profile

theorem Undisturbed.kept {c c' : Coordinator ℚ} (h : Undisturbed (fun _ => True) c c') :
    Kept c c' :=
  h.alike.kept

theorem Alike.accounted_iff {c c' : Coordinator ℚ} (h : Alike c c') :
    c'.Accounted ↔ c.Accounted := by
  rw [Coordinator.accounted_iff, Coordinator.accounted_iff, h.reserved, h.sessions]

/-- A session opens on the active plan. -/
theorem kept_open {c c' : Coordinator ℚ} {p : Plan ℚ} {s : Session ℚ} {r : Registry ℚ}
    (hactive : c.plan = some p) (hsessions : c'.sessions.Sound)
    (hopened : c'.sessions.opened = c.sessions.opened ++ [s]) (hs : s.plan = some p)
    (hreserved : r.reserved = c.registry.reserved) (hmatcher : r.matcher = c.registry.matcher)
    (hregistry : c'.registry = reserveStages r p.stages)
    (hplan : c'.plan = c.plan) (hprofile : c'.profile = c.profile) : Kept c c' := by
  intro hrest
  obtain ⟨hsound, hadded⟩ :=
    reserveStages_exact (hrest.registry.of_same hreserved hmatcher) p.stages
  rw [← hregistry, hreserved] at hadded
  have hstages := Session.stages_of_plan hs
  refine ⟨⟨hsessions, hregistry ▸ hsound, ?_, hplan ▸ hrest.plan, hprofile ▸ hrest.profile⟩, ?_⟩
  · intro x hx
    rw [hopened, List.mem_append, List.mem_singleton] at hx
    rcases hx with hx | rfl
    · exact hrest.opened x hx
    · exact hstages ▸ hrest.plan p hactive
  · rw [accounted_iff, accounted_iff, hadded]
    intro hbalance e' he'
    obtain ⟨e, he, rfl⟩ := List.mem_map.mp he'
    simp [hbalance e he, SessionTable.held, hopened, Session.holds, hstages]

/-- A session is taken out, and its memory is returned. -/
theorem kept_close {c c' : Coordinator ℚ} {id : String} {s : Session ℚ} {r : Registry ℚ}
    (hs : c.sessions.get? id = some s) (hsessions : c.sessions.Sound → c'.sessions.Sound)
    (hopened : c.sessions.Sound →
      c'.sessions.opened = c.sessions.opened.filter fun x => x.id ≠ id)
    (hreserved : r.reserved = c.registry.reserved) (hmatcher : r.matcher = c.registry.matcher)
    (hregistry : c'.registry = releaseStages r s.stages)
    (hplan : c'.plan = c.plan) (hprofile : c'.profile = c.profile) : Kept c c' := by
  intro hrest
  have hopened := hopened hrest.sessions
  have hsound := hrest.registry.of_same hreserved hmatcher
  have hmemory := hrest.opened s (SessionTable.get?_eq_some hs).1
  refine ⟨⟨hsessions hrest.sessions, hregistry ▸ sound_releaseStages hsound s.stages, ?_,
    hplan ▸ hrest.plan, hprofile ▸ hrest.profile⟩, ?_⟩
  · intro x hx
    rw [hopened] at hx
    exact hrest.opened x (List.mem_of_mem_filter hx)
  · rw [accounted_iff, accounted_iff]
    intro hbalance
    have hheld := hrest.sessions.held_eq_add hs
    -- the session is one of those whose memory is reserved, so that much can be returned
    have hcovered : ∀ e ∈ r.reserved, shareOf e.1 s.stages ≤ e.2 := by
      intro e he
      rw [hreserved] at he
      rw [hbalance e he, hheld]
      refine le_add_of_nonneg_right (List.sum_nonneg fun x hx => ?_)
      obtain ⟨y, hy, rfl⟩ := List.mem_map.mp hx
      exact shareOf_nonneg (hrest.opened y (List.mem_of_mem_filter hy)) e.1
    have hreturned := releaseStages_exact hsound hmemory hcovered
    rw [← hregistry, hreserved] at hreturned
    intro e' he'
    rw [hreturned] at he'
    obtain ⟨e, he, rfl⟩ := List.mem_map.mp he'
    rw [hbalance e he, hheld, SessionTable.held, hopened]
    simp [Session.holds]

end Coordinator

end LayerPipeline
