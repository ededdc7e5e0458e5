import LayerPipeline.Service.Procedure

/-!
# Complete calls

A procedure that runs from its beginning to its end with nothing beside it. What it asks is answered
in any way that its surroundings admit, so a fact about all runs is a fact about all answers.
-/

namespace LayerPipeline.Procedure

variable {σ τ ι ο β γ : Type}

/-- The answers that surroundings admit: to a question, in a state, an answer and the state after
it. -/
abbrev Answers (σ ι ο : Type) := ι → σ → ο → σ → Prop

/-- A procedure can run from a state to a result and a state. -/
def Runs (E : Answers σ ι ο) : Procedure σ ι ο β → σ → β → σ → Prop
  | .done x, s, b, s' => b = x ∧ s' = s
  | .atomic f next, s, b, s' => Runs E (next s) (f s) b s'
  | .lock _ next, s, b, s' => Runs E next s b s'
  | .unlock _ next, s, b, s' => Runs E next s b s'
  | .wait _ next, s, b, s' => Runs E next s b s'
  | .ask q next, s, b, s' => ∃ a m, E q s a m ∧ Runs E (next a) m b s'

section Steps

variable {E : Answers σ ι ο} {s s' : σ} {b : β} {u : Unit}

@[simp] theorem runs_bind {p : Procedure σ ι ο γ} {k : γ → Procedure σ ι ο β} :
    Runs E (p >>= k) s b s' ↔ ∃ c m, Runs E p s c m ∧ Runs E (k c) m b s' := by
  change Runs E (p.bind k) s b s' ↔ _
  induction p generalizing s with
  | done c =>
    constructor
    · exact fun h => ⟨c, s, ⟨rfl, rfl⟩, h⟩
    · rintro ⟨c', m, ⟨rfl, rfl⟩, h⟩
      exact h
  | atomic f next ih => exact ih s
  | lock key next ih => exact ih
  | unlock key next ih => exact ih
  | wait ms next ih => exact ih
  | ask q next ih =>
    constructor
    · rintro ⟨a, m, hanswer, h⟩
      obtain ⟨c, m', hp, hk⟩ := (ih a).mp h
      exact ⟨c, m', ⟨a, m, hanswer, hp⟩, hk⟩
    · rintro ⟨c, m', ⟨a, m, hanswer, hp⟩, hk⟩
      exact ⟨a, m, hanswer, (ih a).mpr ⟨c, m', hp, hk⟩⟩

@[simp] theorem runs_pure {x : β} :
    Runs E (pure x : Procedure σ ι ο β) s b s' ↔ b = x ∧ s' = s := Iff.rfl

@[simp] theorem runs_atomically {f : σ → β × σ} :
    Runs E (atomically f : Procedure σ ι ο β) s b s' ↔ b = (f s).1 ∧ s' = (f s).2 := Iff.rfl

@[simp] theorem runs_read {f : σ → β} :
    Runs E (read f : Procedure σ ι ο β) s b s' ↔ b = f s ∧ s' = s := Iff.rfl

@[simp] theorem runs_update {f : σ → σ} :
    Runs E (update f : Procedure σ ι ο Unit) s u s' ↔ s' = f s := by
  simp [update, Runs]

@[simp] theorem runs_acquire {key : Lock} :
    Runs E (acquire key : Procedure σ ι ο Unit) s u s' ↔ s' = s := by
  simp [acquire, Runs]

@[simp] theorem runs_release {key : Lock} :
    Runs E (release key : Procedure σ ι ο Unit) s u s' ↔ s' = s := by
  simp [release, Runs]

@[simp] theorem runs_pause {ms : Nat} :
    Runs E (pause ms : Procedure σ ι ο Unit) s u s' ↔ s' = s := by
  simp [pause, Runs]

@[simp] theorem runs_question {q : ι} {a : ο} :
    Runs E (question q : Procedure σ ι ο ο) s a s' ↔ E q s a s' := by
  simp [question, Runs]

end Steps

theorem Runs.mono {E E' : Answers σ ι ο} (hE : ∀ q s a s', E q s a s' → E' q s a s')
    {p : Procedure σ ι ο β} {s s' : σ} {b : β} (hrun : Runs E p s b s') : Runs E' p s b s' := by
  induction p generalizing s with
  | done x => exact hrun
  | atomic f next ih => exact ih s hrun
  | lock key next ih => exact ih hrun
  | unlock key next ih => exact ih hrun
  | wait ms next ih => exact ih hrun
  | ask q next ih =>
    obtain ⟨a, m, hanswer, hrun⟩ := hrun
    exact ⟨a, m, hE q s a m hanswer, ih a hrun⟩

/-- What surroundings answer with is one of the answers they admit. -/
theorem runs_call {E : Answers σ ι ο} {answer : Surroundings σ ι ο}
    (hE : ∀ q s, E q s (answer q s).1 (answer q s).2.1) (p : Procedure σ ι ο β) (s : σ) :
    Runs E p s (p.call answer s).1 (p.call answer s).2 := by
  simp only [call]
  induction p generalizing s with
  | done b => exact ⟨rfl, rfl⟩
  | atomic f next ih => exact ih s (f s)
  | lock key next ih => exact ih s
  | unlock key next ih => exact ih s
  | wait ms next ih => exact ih s
  | ask q next ih => exact ⟨_, _, hE q s, ih _ _⟩

/-- Surroundings that are a function leave a procedure one way to run. -/
theorem call_of_runs (answer : Surroundings σ ι ο)
    {p : Procedure σ ι ο β} {s s' : σ} {b : β}
    (h : Runs (fun q s a s' => a = (answer q s).1 ∧ s' = (answer q s).2.1) p s b s') :
    p.call answer s = (b, s') := by
  simp only [call]
  induction p generalizing s with
  | done x =>
    obtain ⟨rfl, rfl⟩ := h
    rfl
  | atomic f next ih => exact ih s h
  | lock key next ih => exact ih h
  | unlock key next ih => exact ih h
  | wait ms next ih => exact ih h
  | ask q next ih =>
    obtain ⟨_, _, ⟨rfl, rfl⟩, h⟩ := h
    exact ih _ h

/-- Every question that a complete call asks passes a check in the state where it is asked. -/
def everyQuestion (check : ι → σ → Bool) (answer : Surroundings σ ι ο) :
    Procedure σ ι ο β → σ → Bool
  | .done _, _ => true
  | .atomic f next, s => everyQuestion check answer (next s) (f s)
  | .lock _ next, s => everyQuestion check answer next s
  | .unlock _ next, s => everyQuestion check answer next s
  | .wait _ next, s => everyQuestion check answer next s
  | .ask q next, s =>
    check q s && everyQuestion check answer (next (answer q s).1) (answer q s).2.1

theorem runs_of_everyQuestion {E : Answers σ ι ο} {answer : Surroundings σ ι ο}
    {check : ι → σ → Bool}
    (hE : ∀ q s, check q s = true → E q s (answer q s).1 (answer q s).2.1)
    {p : Procedure σ ι ο β} {s : σ} (h : everyQuestion check answer p s = true) :
    Runs E p s (p.call answer s).1 (p.call answer s).2 := by
  simp only [call]
  induction p generalizing s with
  | done b => exact ⟨rfl, rfl⟩
  | atomic f next ih => exact ih s h
  | lock key next ih => exact ih h
  | unlock key next ih => exact ih h
  | wait ms next ih => exact ih h
  | ask q next ih =>
    obtain ⟨hcheck, hnext⟩ := Bool.and_eq_true_iff.mp h
    exact ⟨_, _, hE q s hcheck, ih _ hnext⟩

/-! ## Procedures that are done at once -/

/-- The procedure neither waits nor asks. -/
def Prompt : Procedure σ ι ο β → Prop
  | .done _ => True
  | .atomic _ next => ∀ s, Prompt (next s)
  | .lock _ next => Prompt next
  | .unlock _ next => Prompt next
  | .wait _ _ => False
  | .ask _ _ => False

theorem Prompt.bind {p : Procedure σ ι ο γ} {k : γ → Procedure σ ι ο β} (hp : Prompt p)
    (hk : ∀ c, Prompt (k c)) : Prompt (p >>= k) := by
  change Prompt (p.bind k)
  induction p with
  | done c => exact hk c
  | atomic f next ih => exact fun s => ih s (hp s)
  | lock key next ih => exact ih hp
  | unlock key next ih => exact ih hp
  | wait ms next => exact hp.elim
  | ask q next => exact hp.elim

theorem Prompt.elapsed {p : Procedure σ ι ο β} (hp : Prompt p) (answer : Surroundings σ ι ο)
    (s : σ) : (p.run answer s).2.2 = 0 := by
  induction p generalizing s with
  | done b => rfl
  | atomic f next ih => exact ih s (hp s) (f s)
  | lock key next ih => exact ih hp s
  | unlock key next ih => exact ih hp s
  | wait ms next => exact hp.elim
  | ask q next => exact hp.elim

/-! ## What every section of a procedure does -/

/-- Every section of the procedure is a step of `R`, it takes and gives only locks in `L`, and asks
only questions in `Q`. -/
def Confined (R : σ → σ → Prop) (L : Lock → Prop) (Q : ι → Prop) : Procedure σ ι ο β → Prop
  | .done _ => True
  | .atomic f next => ∀ s, R s (f s) ∧ Confined R L Q (next s)
  | .lock key next => L key ∧ Confined R L Q next
  | .unlock key next => L key ∧ Confined R L Q next
  | .wait _ next => Confined R L Q next
  | .ask q next => Q q ∧ ∀ a, Confined R L Q (next a)

section Confined

variable {R : σ → σ → Prop} {L : Lock → Prop} {Q : ι → Prop}

theorem Confined.bind {p : Procedure σ ι ο γ} {k : γ → Procedure σ ι ο β}
    (hp : Confined R L Q p) (hk : ∀ c, Confined R L Q (k c)) : Confined R L Q (p >>= k) := by
  change Confined R L Q (p.bind k)
  induction p with
  | done c => exact hk c
  | atomic f next ih => exact fun s => ⟨(hp s).1, ih s (hp s).2⟩
  | lock key next ih => exact ⟨hp.1, ih hp.2⟩
  | unlock key next ih => exact ⟨hp.1, ih hp.2⟩
  | wait ms next ih => exact ih hp
  | ask q next ih => exact ⟨hp.1, fun a => ih a (hp.2 a)⟩

theorem Confined.mono {R' : σ → σ → Prop} {L' : Lock → Prop} {Q' : ι → Prop}
    {p : Procedure σ ι ο β} (hp : Confined R L Q p) (hR : ∀ s s', R s s' → R' s s')
    (hL : ∀ key, L key → L' key) (hQ : ∀ q, Q q → Q' q) : Confined R' L' Q' p := by
  induction p with
  | done b => trivial
  | atomic f next ih => exact fun s => ⟨hR _ _ (hp s).1, ih s (hp s).2⟩
  | lock key next ih => exact ⟨hL key hp.1, ih hp.2⟩
  | unlock key next ih => exact ⟨hL key hp.1, ih hp.2⟩
  | wait ms next ih => exact ih hp
  | ask q next ih => exact ⟨hQ q hp.1, fun a => ih a (hp.2 a)⟩

/-- A procedure over a part of a larger state. -/
theorem Confined.within {get : τ → σ} {set : σ → τ → τ} {R' : τ → τ → Prop}
    {p : Procedure σ ι ο β} (hp : Confined R L Q p)
    (hR : ∀ t s', R (get t) s' → R' t (set s' t)) : Confined R' L Q (p.within get set) := by
  induction p with
  | done b => trivial
  | atomic f next ih => exact fun t => ⟨hR t _ (hp (get t)).1, ih _ (hp (get t)).2⟩
  | lock key next ih => exact ⟨hp.1, ih hp.2⟩
  | unlock key next ih => exact ⟨hp.1, ih hp.2⟩
  | wait ms next ih => exact ih hp
  | ask q next ih => exact ⟨hp.1, fun a => ih a (hp.2 a)⟩

theorem Confined.widen {Q₀ : Empty → Prop} {p : Procedure σ Empty Empty β}
    (hp : Confined R L Q₀ p) : Confined R L Q (p.widen : Procedure σ ι ο β) := by
  induction p with
  | done b => trivial
  | atomic f next ih => exact fun s => ⟨(hp s).1, ih s (hp s).2⟩
  | lock key next ih => exact ⟨hp.1, ih hp.2⟩
  | unlock key next ih => exact ⟨hp.1, ih hp.2⟩
  | wait ms next ih => exact ih hp
  | ask q => exact nomatch q

/-- A run is a sequence of the steps its procedure is confined to. -/
theorem Confined.runs {E : Answers σ ι ο} (hrefl : ∀ s, R s s)
    (htrans : ∀ {s m s'}, R s m → R m s' → R s s') (hE : ∀ q s a s', Q q → E q s a s' → R s s')
    {p : Procedure σ ι ο β} {s s' : σ} {b : β} (hp : Confined R L Q p)
    (hrun : Runs E p s b s') : R s s' := by
  induction p generalizing s with
  | done x =>
    obtain ⟨-, rfl⟩ := hrun
    exact hrefl _
  | atomic f next ih => exact htrans (hp s).1 (ih s (hp s).2 hrun)
  | lock key next ih => exact ih hp.2 hrun
  | unlock key next ih => exact ih hp.2 hrun
  | wait ms next ih => exact ih hp hrun
  | ask q next ih =>
    obtain ⟨a, m, hanswer, hnext⟩ := hrun
    exact htrans (hE q s a m hp.1 hanswer) (ih a (hp.2 a) hnext)

end Confined

end LayerPipeline.Procedure
