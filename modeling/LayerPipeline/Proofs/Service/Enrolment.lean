import LayerPipeline.Proofs.Service.Permits
import LayerPipeline.Proofs.Service.Ready
import LayerPipeline.Proofs.Service.Reserved

/-!
# Registration of a worker

A coordinator enters a worker under the id that its registration names, and then asks it what it
offers. What it learns it notes under the id that the answer names. The two are the same for a
worker that knows who it is; where they differ, the answer is believed about another node.
-/

namespace LayerPipeline

open Procedure

variable {α : Type}

namespace Registry

section Scalar

variable [Scalar α]

theorem matcher_register_of_ne {r r' : Registry α} {d : Descriptor α} (h : r.register d = .ok r')
    {k : String} (hk : k ≠ d.nodeId) : r'.matcher.get? k = r.matcher.get? k := by
  rw [(register_eq_ok h).1, Matcher.get?_register]
  exact if_neg hk

/-! ## Reports -/

/-- The record that a report gives the node it names, if that node is registered and the report can
be reconciled with its entry. -/
def heard? (r : Registry α) (report : CapabilityReport α) : Option (Capability α) :=
  (r.get? report.nodeId).bind fun entry => reportedCapability? entry report

theorem deviceId_of_heard? {r : Registry α} {report : CapabilityReport α} {record : Capability α}
    (h : r.heard? report = some record) : record.deviceId = report.nodeId := by
  obtain ⟨entry, hentry, hrecord⟩ := Option.bind_eq_some_iff.mp h
  obtain ⟨available, -, rfl⟩ := Option.map_eq_some_iff.mp hrecord
  exact (get?_eq_some hentry).2

theorem heard?_register_of_ne {r r' : Registry α} {d : Descriptor α} (h : r.register d = .ok r')
    {report : CapabilityReport α} (hreport : report.nodeId ≠ d.nodeId) :
    r'.heard? report = r.heard? report := by
  rw [heard?, get?_register_of_ne h hreport]
  rfl

theorem applyCapabilities_cases (r : Registry α) (report : CapabilityReport α) :
    (∃ record, r.heard? report = some record ∧ r.applyCapabilities report =
      .ok { r with matcher := r.matcher.register record }) ∨
    r.heard? report = none ∧ ∃ err, r.applyCapabilities report = .error err := by
  unfold applyCapabilities heard?
  cases r.get? report.nodeId with
  | none => exact .inr ⟨rfl, _, rfl⟩
  | some entry =>
    simp only [Option.bind_some]
    cases reportedCapability? entry report with
    | none => exact .inr ⟨rfl, _, rfl⟩
    | some record => exact .inl ⟨record, rfl, rfl⟩

theorem heard?_of_refused {r : Registry α} {report : CapabilityReport α} {err : ServiceError}
    (h : r.applyCapabilities report = .error err) : r.heard? report = none := by
  rcases r.applyCapabilities_cases report with ⟨record, -, happly⟩ | ⟨hheard, -⟩
  · cases happly.symm.trans h
  · exact hheard

end Scalar

end Registry

namespace Coordinator

variable [Scalar α] {c c' : Coordinator α} {d : Descriptor α}

/-! ## Sections -/

/-- What a registered worker is taken for after the answer to the query. -/
theorem confirm_outcome (c : Coordinator α) (d : Descriptor α)
    (answer : Except LinkError (CapabilityReport α)) :
    (∃ report record, answer = .ok report ∧ c.registry.heard? report = some record ∧
      (∃ text, (c.confirm d answer).1 = .ok ⟨d, true, text⟩) ∧
      (c.confirm d answer).2.registry =
        { c.registry with matcher := c.registry.matcher.register record }) ∨
    (∀ report, answer = .ok report → c.registry.heard? report = none) ∧
      (∀ a, (c.confirm d answer).1 = .ok a → a.healthy = false) ∧
      ((c.confirm d answer).2.registry = c.registry ∨
        ∃ reason, (c.confirm d answer).2.registry = c.registry.markUnhealthy d.nodeId reason) := by
  simp only [confirm]
  split
  · next registry happlied =>
    split at happlied
    · next report =>
      rcases c.registry.applyCapabilities_cases report with
        ⟨record, hheard, happly⟩ | ⟨-, err, happly⟩
      · rw [happly] at happlied
        exact .inl ⟨report, record, rfl, hheard, ⟨_, rfl⟩, (Except.ok.inj happlied).symm⟩
      · rw [happly] at happlied
        cases happlied
    · cases happlied
  · next a happlied =>
    refine .inr ⟨?_, by simp, .inl rfl⟩
    rintro report rfl
    exact Registry.heard?_of_refused happlied
  · next err _ happlied =>
    refine .inr ⟨?_, fun a ha => Except.ok.inj ha ▸ rfl, .inr ⟨_, rfl⟩⟩
    rintro report rfl
    exact Registry.heard?_of_refused happlied

section Confirm

variable {answer : Except LinkError (CapabilityReport α)} {report : CapabilityReport α}
  {record : Capability α}

theorem get?_confirm_of_ne (c : Coordinator α) (answer : Except LinkError (CapabilityReport α))
    {id : String} (hid : id ≠ d.nodeId) :
    (c.confirm d answer).2.registry.get? id = c.registry.get? id := by
  rcases c.confirm_outcome d answer with
    ⟨_, _, -, -, -, hafter⟩ | ⟨-, -, hafter | ⟨reason, hafter⟩⟩
  · rw [hafter]
    rfl
  · rw [hafter]
  · rw [hafter, Registry.get?_markUnhealthy_of_ne hid]

theorem confirm_of_heard (hheard : c.registry.heard? report = some record) :
    (∃ a, (c.confirm d (.ok report)).1 = .ok a ∧ a.healthy = true) ∧
      ∀ id, (c.confirm d (.ok report)).2.registry.matcher.get? id =
        if id = report.nodeId then some record else c.registry.matcher.get? id := by
  rcases c.confirm_outcome d (.ok report) with
    ⟨_, _, ⟨⟩, hheard', ⟨text, hresult⟩, hafter⟩ | ⟨hunheard, -⟩
  · cases hheard.symm.trans hheard'
    refine ⟨⟨_, hresult, rfl⟩, fun id => ?_⟩
    rw [hafter, Matcher.get?_register, Registry.deviceId_of_heard? hheard]
  · cases hheard.symm.trans (hunheard report rfl)

theorem confirm_of_unheard (hunheard : ∀ report, answer = .ok report →
    c.registry.heard? report = none) :
    (∀ a, (c.confirm d answer).1 = .ok a → a.healthy = false) ∧
      (c.confirm d answer).2.registry.matcher = c.registry.matcher := by
  rcases c.confirm_outcome d answer with
    ⟨report, _, hanswer, hheard, -⟩ | ⟨-, hsick, hafter | ⟨reason, hafter⟩⟩
  · cases hheard.symm.trans (hunheard report hanswer)
  · exact ⟨hsick, by rw [hafter]⟩
  · exact ⟨hsick, by rw [hafter]; rfl⟩

end Confirm

/-! ## The whole registration -/

/-- The question that follows a registration. -/
def query (describe : Response α → String) (config : LinkConfig) (d : Descriptor α) :
    Action α (Except LinkError (CapabilityReport α)) :=
  (channel describe config d.address).reportCapabilities config d.nodeId

variable {describe : Response α → String}
  {E : Answers (Coordinator α) (Call α) (Except LinkError (Response α))}
  (hE : ∀ q c a c', E q c a c' → Answered q c a c')
include hE

omit [Scalar α] in
/-- The question changes nothing but the number of requests, when the coordinator asks itself. -/
theorem runs_query {config : LinkConfig} {answer : Except LinkError (CapabilityReport α)}
    (hrun : Runs E (query describe config d) c answer c') :
    ∃ stats, c' = { c with stats } := by
  have hmoves : Moves (fun c c' : Coordinator α => ∃ stats, c' = { c with stats })
      (fun _ => True) (query describe config d) :=
    Confined.bind ((composes_moves _ _).retrying describe ⟨trivial, fun _ => trivial⟩ _ _ _)
      fun _ => trivial
  refine Confined.runs ?_ ?_ ?_ hmoves hrun
  · exact fun c => ⟨c.stats, rfl⟩
  · rintro c _ _ ⟨_, rfl⟩ ⟨stats, rfl⟩
    exact ⟨stats, rfl⟩
  · intro q c a c' _ hanswer
    rcases hE q c a c' hanswer with rfl | rfl
    · exact ⟨_, rfl⟩
    · exact ⟨_, rfl⟩

theorem registerWorker_outcome {result : Except ServiceError (WorkerRegistered α)}
    (hrun : Runs E (registerWorker describe d) c result c') :
    (∃ err, c.enroll d = .error err ∧ result = .error err ∧ c' = c) ∨
    ∃ m answer stats, c.enroll d = .ok m ∧
      Runs E (query describe m.config.link d) m answer { m with stats } ∧
      c' = (({ m with stats } : Coordinator α).confirm d answer).2 ∧
      (∀ a, result = .ok a ↔ (({ m with stats } : Coordinator α).confirm d answer).1 = .ok a) := by
  simp only [registerWorker, runs_bind, runs_atomically] at hrun
  obtain ⟨_, _, ⟨rfl, rfl⟩, hrun⟩ := hrun
  cases henroll : c.enroll d with
  | error err =>
    simp only [henroll] at hrun
    exact .inl ⟨err, rfl, hrun⟩
  | ok m =>
    simp only [henroll, runs_bind, runs_read] at hrun
    obtain ⟨_, _, ⟨rfl, rfl⟩, answer, k, hquery, hrun⟩ := hrun
    obtain ⟨stats, rfl⟩ := runs_query hE hquery
    simp only [runs_atomically] at hrun
    obtain ⟨_, _, ⟨rfl, rfl⟩, hrun⟩ := hrun
    refine .inr ⟨_, answer, stats, rfl, hquery, ?_⟩
    split at hrun
    · next hconfirm =>
      obtain ⟨rfl, rfl⟩ := hrun
      exact ⟨rfl, by simp [hconfirm]⟩
    · next hconfirm =>
      obtain ⟨rfl, rfl⟩ := hrun
      exact ⟨rfl, by simp [hconfirm]⟩

/-- A registration leaves other nodes alone, and holds the node for healthy on its own word only. -/
structure OwnOnly (d : Descriptor α) (answer : Except LinkError (CapabilityReport α))
    (c : Coordinator α) (result : Except ServiceError (WorkerRegistered α)) (c' : Coordinator α) :
    Prop where
  entries : ∀ id, id ≠ d.nodeId → c'.registry.get? id = c.registry.get? id
  records : ∀ id, id ≠ d.nodeId → c'.registry.matcher.get? id = c.registry.matcher.get? id
  word : ∀ a, result = .ok a → a.healthy = true →
    ∃ report, answer = .ok report ∧ report.nodeId = d.nodeId

/-- A registration that is accepted stays with its own node, unless the answer to the query is a
usable report of another node of the roster. Such a report becomes the record of that node, and the
worker counts as healthy. A registration that is refused changes nothing. -/
theorem registerWorker_own_only_iff {result : Except ServiceError (WorkerRegistered α)}
    (hrun : Runs E (registerWorker describe d) c result c') :
    (∃ err, c.enroll d = .error err ∧ result = .error err ∧ c' = c) ∨
    ∃ m answer stats, c.enroll d = .ok m ∧
      Runs E (query describe m.config.link d) m answer { m with stats } ∧
      (OwnOnly d answer c result c' ↔
        ∀ report, answer = .ok report → report.nodeId ≠ d.nodeId →
          c.registry.heard? report = none) ∧
      ∀ report record, answer = .ok report → report.nodeId ≠ d.nodeId →
        c.registry.heard? report = some record →
        (∀ id, id ≠ d.nodeId → c'.registry.get? id = c.registry.get? id) ∧
        (∀ id, id ≠ d.nodeId → c'.registry.matcher.get? id =
          if id = report.nodeId then some record else c.registry.matcher.get? id) ∧
        ∃ a, result = .ok a ∧ a.healthy = true := by
  rcases registerWorker_outcome hE hrun with
    hrefused | ⟨m, answer, stats, henroll, hquery, rfl, hresult⟩
  · exact .inl hrefused
  refine .inr ⟨m, answer, stats, henroll, hquery, ?_⟩
  obtain ⟨registry, hregister, rfl⟩ := enroll_eq_ok henroll
  generalize hk : ({ c with
    registry, heartbeats := c.heartbeats.beat d.nodeId c.clock.micros, stats } :
      Coordinator α) = k at hresult ⊢
  have hregistry : k.registry = registry := hk ▸ rfl
  have hentries : ∀ id, id ≠ d.nodeId →
      (k.confirm d answer).2.registry.get? id = c.registry.get? id := by
    intro id hid
    rw [get?_confirm_of_ne k answer hid, hregistry, Registry.get?_register_of_ne hregister hid]
  have hheard : ∀ report : CapabilityReport α, report.nodeId ≠ d.nodeId →
      k.registry.heard? report = c.registry.heard? report := by
    intro report hother
    rw [hregistry, Registry.heard?_register_of_ne hregister hother]
  have hmatcher : ∀ id, id ≠ d.nodeId →
      k.registry.matcher.get? id = c.registry.matcher.get? id := by
    intro id hid
    rw [hregistry, Registry.matcher_register_of_ne hregister hid]
  have hforeign : ∀ report record, answer = .ok report → report.nodeId ≠ d.nodeId →
      c.registry.heard? report = some record →
      (∀ id, id ≠ d.nodeId → (k.confirm d answer).2.registry.matcher.get? id =
        if id = report.nodeId then some record else c.registry.matcher.get? id) ∧
      ∃ a, result = .ok a ∧ a.healthy = true := by
    rintro report record rfl hother hrecord
    obtain ⟨⟨a, ha, hyes⟩, hafter⟩ :=
      confirm_of_heard (d := d) ((hheard report hother).trans hrecord)
    refine ⟨fun id hid => ?_, a, (hresult a).mpr ha, hyes⟩
    rw [hafter, hmatcher id hid]
  refine ⟨⟨?_, ?_⟩, fun report record hanswer hother hrecord =>
    ⟨hentries, hforeign report record hanswer hother hrecord⟩⟩
  · intro honly report hanswer hother
    -- a foreign report that is believed makes the worker healthy on another node's word
    cases hrecord : c.registry.heard? report with
    | none => rfl
    | some record =>
      obtain ⟨-, a, ha, hyes⟩ := hforeign report record hanswer hother hrecord
      obtain ⟨report', hanswer', hown⟩ := honly.word a ha hyes
      cases hanswer.symm.trans hanswer'
      exact absurd hown hother
  · intro hown
    by_cases hword : ∃ report record, answer = .ok report ∧ k.registry.heard? report = some record
    · obtain ⟨report, record, rfl, hrecord⟩ := hword
      have hid : report.nodeId = d.nodeId := by
        by_contra hother
        cases hrecord.symm.trans ((hheard report hother).trans (hown report rfl hother))
      refine ⟨hentries, fun id hne => ?_, fun _ _ _ => ⟨report, rfl, hid⟩⟩
      rw [(confirm_of_heard hrecord).2 id, hid, if_neg hne, hmatcher id hne]
    · have hunheard : ∀ report, answer = .ok report → k.registry.heard? report = none := by
        intro report hanswer
        by_contra hsome
        obtain ⟨record, hrecord⟩ := Option.ne_none_iff_exists'.mp hsome
        exact hword ⟨report, record, hanswer, hrecord⟩
      obtain ⟨hsick, hafter⟩ := confirm_of_unheard (d := d) hunheard
      refine ⟨hentries, fun id hne => ?_, fun a ha hyes => ?_⟩
      · rw [hafter, hmatcher id hne]
      · rw [hsick a ((hresult a).mp ha)] at hyes
        cases hyes

omit hE

private def newcomer : Descriptor Binary64 :=
  ⟨"w", .cpu, 100.0, none, some 8.0, 1.0, none, none, "w:1"⟩

/-- A report of the coordinator's own node, with less memory than it has. -/
private def borrowed : CapabilityReport Binary64 :=
  ((Capability.basic "c" .cpu).withMemory 8.0 1.0).report

private def lend : Surroundings (Coordinator Binary64) (Call Binary64)
    (Except LinkError (Response Binary64)) :=
  fun _ c => (.ok (.capabilities borrowed), c, 0)

/-- Every question is answered with the report. -/
private def Lends : Answers (Coordinator Binary64) (Call Binary64)
    (Except LinkError (Response Binary64)) :=
  fun q c a c' => a = (lend q c).1 ∧ c' = (lend q c).2.1

private theorem runs_query_lends {config : LinkConfig} {d : Descriptor Binary64}
    {c c' : Coordinator Binary64} {answer : Except LinkError (CapabilityReport Binary64)}
    (hrun : Runs Lends (query Dump.dump config d) c answer c') : answer = .ok borrowed := by
  simp only [query, Channel.reportCapabilities, Channel.callWithRetry, runs_bind, runs_pure] at hrun
  obtain ⟨response, _, hcall, rfl, rfl⟩ := hrun
  have hresponse : response = .ok (.capabilities borrowed) := by
    cases hretries : config.maxRetries.toNat with
    | zero =>
      rw [hretries] at hcall
      exact (runs_question.mp hcall).1
    | succ retries =>
      rw [hretries, Channel.retrying, runs_bind] at hcall
      obtain ⟨_, _, hask, hrest⟩ := hcall
      obtain ⟨rfl, -⟩ := runs_question.mp hask
      exact hrest.1
  rw [hresponse]
  rfl

private def lentTo (c : Coordinator Binary64) :
    Except ServiceError (WorkerRegistered Binary64) × Coordinator Binary64 :=
  (registerWorker Dump.dump newcomer).call lend c

/-- A worker answers with a report of the coordinator's own node, which loses memory by it. -/
theorem registerWorker_own_only_iff_borrowed :
    ∃ (c c' : Coordinator Binary64) (a : WorkerRegistered Binary64),
      Coordinator.small .standard = .ok c ∧
      (∀ q c a c', Lends q c a c' → Answered q c a c') ∧
      Runs Lends (registerWorker Dump.dump newcomer) c (.ok a) c' ∧ a.healthy = true ∧
      (c.registry.matcher.get? "c").map (·.availableGb) = some 8.0 ∧
      (c'.registry.matcher.get? "c").map (·.availableGb) = some 1.0 ∧
      ¬OwnOnly newcomer (.ok borrowed) c (.ok a) c' := by
  have hlends : ∀ q c a c', Lends q c a c' → Answered q c a c' := fun _ _ _ _ h => .inl h.2
  have hfacts : (Coordinator.small .standard).toOption.map (fun c =>
      ((lentTo c).1.toOption.map (·.healthy), (c.registry.heard? borrowed).isSome,
        (c.registry.matcher.get? "c").map (·.availableGb),
        ((lentTo c).2.registry.matcher.get? "c").map (·.availableGb))) =
      some (some true, true, some 8.0, some 1.0) := by decide +kernel
  cases hstart : Coordinator.small .standard with
  | error err => simp [hstart, Except.toOption] at hfacts
  | ok c =>
    simp only [hstart, Except.toOption, Option.map_some, Option.some.injEq, Prod.mk.injEq]
      at hfacts
    obtain ⟨hhealthy, hheard, hbefore, hafter⟩ := hfacts
    have hrun : Runs Lends (registerWorker Dump.dump newcomer) c (lentTo c).1 (lentTo c).2 :=
      runs_call (fun _ _ => ⟨rfl, rfl⟩) _ c
    generalize (lentTo c).1 = result, (lentTo c).2 = c' at hhealthy hafter hrun
    cases result with
    | error err => cases hhealthy
    | ok a =>
      refine ⟨c, c', a, rfl, hlends, hrun, Option.some.inj hhealthy, hbefore, hafter, ?_⟩
      intro honly
      rcases registerWorker_own_only_iff hlends hrun with
        ⟨_, -, hrefused, -⟩ | ⟨m, answer, stats, -, hquery, hiff, -⟩
      · cases hrefused
      · obtain rfl := runs_query_lends hquery
        rw [hiff.mp honly borrowed rfl (by decide)] at hheard
        cases hheard

end Coordinator

end LayerPipeline
