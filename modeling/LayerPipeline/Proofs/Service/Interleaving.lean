import LayerPipeline.Service.Procedure
import Mathlib.Data.List.Forall2

/-!
# Interleavings

Procedures that run at the same time, with their atomic sections in any order. Which procedure goes
on next, who gets a lock that is free and what a question is answered with is chosen at every step,
so a fact about all choices is a fact about every schedule.

What procedures may do to the shared state is described by a protocol: every procedure plays a role,
a section may change the state only in a way that its role admits, and by that it takes over another
role. An invariant of state and roles that every admitted change keeps holds in every interleaving.
-/

namespace LayerPipeline.Procedure

variable {σ ι ο β γ ρ : Type}

/-! ## Schedules -/

/-- Procedures in the middle of their work, the state they share and the locks that are held. -/
structure Pool (σ ι ο β : Type) where
  state : σ
  held : List Lock
  tasks : List (Procedure σ ι ο β)

/-- What happens next. -/
inductive Choice (σ ι ο β : Type) where
  /-- Another procedure joins. -/
  | start (p : Procedure σ ι ο β)
  /-- A procedure does its next section, or takes a lock that is free. -/
  | go (i : Nat)
  /-- A procedure gets an answer to its question. -/
  | answer (i : Nat) (a : ο)

namespace Pool

/-- Nothing is running. -/
def idle (s : σ) : Pool σ ι ο β := ⟨s, [], []⟩

/-- The pool after a choice, if the choice can be made. -/
def act (pool : Pool σ ι ο β) : Choice σ ι ο β → Option (Pool σ ι ο β)
  | .start p => some { pool with tasks := pool.tasks ++ [p] }
  | .go i =>
    match pool.tasks[i]? with
    | some (.atomic f next) =>
      some { pool with state := f pool.state, tasks := pool.tasks.set i (next pool.state) }
    | some (.lock key next) =>
      if key ∈ pool.held then none
      else some { pool with held := key :: pool.held, tasks := pool.tasks.set i next }
    | some (.unlock key next) =>
      some { pool with held := pool.held.erase key, tasks := pool.tasks.set i next }
    | some (.wait _ next) => some { pool with tasks := pool.tasks.set i next }
    | _ => none
  | .answer i a =>
    match pool.tasks[i]? with
    | some (.ask _ next) => some { pool with tasks := pool.tasks.set i (next a) }
    | _ => none

/-- The pool after a sequence of choices. -/
def run (pool : Pool σ ι ο β) (choices : List (Choice σ ι ο β)) : Option (Pool σ ι ο β) :=
  choices.foldlM act pool

end Pool

/-! ## Protocols -/

/-- What procedures in a role may rely on, and what they may do. -/
structure Protocol (σ ρ : Type) where
  /-- What is true of the state while a procedure is in a role. -/
  sees : ρ → σ → Prop
  /-- An atomic section from a state to another takes a procedure from a role to another. -/
  moves : σ → ρ → σ → ρ → Prop
  takes : Lock → ρ → ρ → Prop
  gives : Lock → ρ → ρ → Prop

/-- A procedure that starts in a role keeps to the protocol, whatever the others do, and ends with a
result and in a role that satisfy `Q`. -/
def Follows (P : Protocol σ ρ) : Procedure σ ι ο β → (β → ρ → Prop) → ρ → Prop
  | .done b, Q, r => Q b r
  | .atomic f next, Q, r =>
    ∀ s, P.sees r s → ∃ r', P.moves s r (f s) r' ∧ Follows P (next s) Q r'
  | .lock key next, Q, r => ∃ r', P.takes key r r' ∧ Follows P next Q r'
  | .unlock key next, Q, r => ∃ r', P.gives key r r' ∧ Follows P next Q r'
  | .wait _ next, Q, r => Follows P next Q r
  | .ask _ next, Q, r => ∀ a, Follows P (next a) Q r

section Follows

variable {P : Protocol σ ρ} {Q : β → ρ → Prop} {r : ρ}

theorem Follows.bind {p : Procedure σ ι ο γ} {k : γ → Procedure σ ι ο β}
    (h : Follows P p (fun c r' => Follows P (k c) Q r') r) : Follows P (p >>= k) Q r := by
  change Follows P (p.bind k) Q r
  induction p generalizing r with
  | done c => exact h
  | atomic f next ih =>
    intro s hs
    obtain ⟨r', hmove, hnext⟩ := h s hs
    exact ⟨r', hmove, ih s hnext⟩
  | lock key next ih =>
    obtain ⟨r', htake, hnext⟩ := h
    exact ⟨r', htake, ih hnext⟩
  | unlock key next ih =>
    obtain ⟨r', hgive, hnext⟩ := h
    exact ⟨r', hgive, ih hnext⟩
  | wait ms next ih => exact ih h
  | ask q next ih => exact fun a => ih a (h a)

theorem Follows.mono {p : Procedure σ ι ο β} {Q' : β → ρ → Prop} (h : Follows P p Q r)
    (hQ : ∀ b r', Q b r' → Q' b r') : Follows P p Q' r := by
  induction p generalizing r with
  | done b => exact hQ b r h
  | atomic f next ih =>
    intro s hs
    obtain ⟨r', hmove, hnext⟩ := h s hs
    exact ⟨r', hmove, ih s hnext⟩
  | lock key next ih =>
    obtain ⟨r', htake, hnext⟩ := h
    exact ⟨r', htake, ih hnext⟩
  | unlock key next ih =>
    obtain ⟨r', hgive, hnext⟩ := h
    exact ⟨r', hgive, ih hnext⟩
  | wait ms next ih => exact ih h
  | ask q next ih => exact fun a => ih a (h a)

theorem follows_atomically {f : σ → β × σ} :
    Follows P (atomically f : Procedure σ ι ο β) Q r ↔
      ∀ s, P.sees r s → ∃ r', P.moves s r (f s).2 r' ∧ Q (f s).1 r' := Iff.rfl

theorem follows_read {f : σ → β} :
    Follows P (read f : Procedure σ ι ο β) Q r ↔
      ∀ s, P.sees r s → ∃ r', P.moves s r s r' ∧ Q (f s) r' := Iff.rfl

theorem follows_update {f : σ → σ} {Q : Unit → ρ → Prop} :
    Follows P (update f : Procedure σ ι ο Unit) Q r ↔
      ∀ s, P.sees r s → ∃ r', P.moves s r (f s) r' ∧ Q () r' := Iff.rfl

theorem follows_acquire {key : Lock} {Q : Unit → ρ → Prop} :
    Follows P (acquire key : Procedure σ ι ο Unit) Q r ↔ ∃ r', P.takes key r r' ∧ Q () r' := Iff.rfl

theorem follows_release {key : Lock} {Q : Unit → ρ → Prop} :
    Follows P (release key : Procedure σ ι ο Unit) Q r ↔ ∃ r', P.gives key r r' ∧ Q () r' := Iff.rfl

end Follows

/-! ## Invariants of interleavings -/

/-- An invariant of state, held locks and roles that everything a protocol admits keeps. -/
structure Protocol.Invariant (P : Protocol σ ρ) (unemployed : ρ)
    (I : σ → List Lock → List ρ → Prop) : Prop where
  sees {s : σ} {held : List Lock} {roles : List ρ} {i : Nat} {r : ρ} :
    I s held roles → roles[i]? = some r → P.sees r s
  moves {s : σ} {held : List Lock} {roles : List ρ} {i : Nat} {r : ρ} {s' : σ} {r' : ρ} :
    I s held roles → roles[i]? = some r → P.moves s r s' r' → I s' held (roles.set i r')
  takes {s : σ} {held : List Lock} {roles : List ρ} {i : Nat} {r : ρ} {key : Lock} {r' : ρ} :
    I s held roles → roles[i]? = some r → key ∉ held → P.takes key r r' →
      I s (key :: held) (roles.set i r')
  gives {s : σ} {held : List Lock} {roles : List ρ} {i : Nat} {r : ρ} {key : Lock} {r' : ρ} :
    I s held roles → roles[i]? = some r → P.gives key r r' →
      I s (held.erase key) (roles.set i r')
  joins {s : σ} {held : List Lock} {roles : List ρ} :
    I s held roles → I s held (roles ++ [unemployed])

/-- Every procedure of the pool is in the middle of following the protocol in a role. -/
def Pool.Governed (P : Protocol σ ρ) (I : σ → List Lock → List ρ → Prop)
    (pool : Pool σ ι ο β) : Prop :=
  ∃ roles, I pool.state pool.held roles ∧
    List.Forall₂ (fun p r => Follows P p (fun _ _ => True) r) pool.tasks roles

theorem forall₂_set {R : β → γ → Prop} {xs : List β} {ys : List γ} (h : List.Forall₂ R xs ys)
    {x : β} {y : γ} (hxy : R x y) (i : Nat) : List.Forall₂ R (xs.set i x) (ys.set i y) := by
  induction h generalizing i with
  | nil => exact .nil
  | cons hhead htail ih =>
    cases i with
    | zero => exact .cons hxy htail
    | succ i => exact .cons hhead (ih i)

theorem forall₂_set_left {R : β → γ → Prop} {xs : List β} {ys : List γ}
    (h : List.Forall₂ R xs ys) {i : Nat} {x : β} {y : γ} (hy : ys[i]? = some y) (hxy : R x y) :
    List.Forall₂ R (xs.set i x) ys := by
  induction h generalizing i with
  | nil => exact .nil
  | cons hhead htail ih =>
    cases i with
    | zero =>
      cases hy
      exact .cons hxy htail
    | succ i => exact .cons hhead (ih hy)

theorem forall₂_getElem? {R : β → γ → Prop} {xs : List β} {ys : List γ}
    (h : List.Forall₂ R xs ys) {i : Nat} {x : β} (hx : xs[i]? = some x) :
    ∃ y, ys[i]? = some y ∧ R x y := by
  induction h generalizing i with
  | nil => simp at hx
  | cons hhead htail ih =>
    cases i with
    | zero =>
      cases hx
      exact ⟨_, rfl, hhead⟩
    | succ i => exact ih hx

section Governed

variable {P : Protocol σ ρ} {unemployed : ρ} {I : σ → List Lock → List ρ → Prop}

/-- One choice keeps the pool governed. -/
theorem Pool.Governed.act (hI : P.Invariant unemployed I) {pool pool' : Pool σ ι ο β}
    {choice : Choice σ ι ο β} (hpool : pool.Governed P I)
    (hstart : ∀ p, choice = .start p → Follows P p (fun _ _ => True) unemployed)
    (hact : pool.act choice = some pool') : pool'.Governed P I := by
  obtain ⟨roles, hinv, htasks⟩ := hpool
  cases choice with
  | start p =>
    cases hact
    exact ⟨roles ++ [unemployed], hI.joins hinv,
      List.rel_append htasks (.cons (hstart p rfl) .nil)⟩
  | go i =>
    simp only [Pool.act] at hact
    split at hact
    · next f next htask =>
      cases hact
      obtain ⟨r, hr, hfollows⟩ := forall₂_getElem? htasks htask
      obtain ⟨r', hmove, hnext⟩ := hfollows pool.state (hI.sees hinv hr)
      exact ⟨_, hI.moves hinv hr hmove, forall₂_set htasks hnext i⟩
    · next key next htask =>
      split at hact
      · cases hact
      · next hfree =>
        cases hact
        obtain ⟨r, hr, r', htake, hnext⟩ := forall₂_getElem? htasks htask
        exact ⟨_, hI.takes hinv hr hfree htake, forall₂_set htasks hnext i⟩
    · next key next htask =>
      cases hact
      obtain ⟨r, hr, r', hgive, hnext⟩ := forall₂_getElem? htasks htask
      exact ⟨_, hI.gives hinv hr hgive, forall₂_set htasks hnext i⟩
    · next ms next htask =>
      cases hact
      obtain ⟨r, hr, hnext⟩ := forall₂_getElem? htasks htask
      exact ⟨roles, hinv, forall₂_set_left htasks hr hnext⟩
    · cases hact
  | answer i a =>
    simp only [Pool.act] at hact
    split at hact
    · next q next htask =>
      cases hact
      obtain ⟨r, hr, hnext⟩ := forall₂_getElem? htasks htask
      exact ⟨roles, hinv, forall₂_set_left htasks hr (hnext a)⟩
    · cases hact

/-- In every interleaving of procedures that follow the protocol, its invariant holds. -/
theorem Pool.Governed.run (hI : P.Invariant unemployed I) {pool pool' : Pool σ ι ο β}
    {choices : List (Choice σ ι ο β)} (hpool : pool.Governed P I)
    (hstart : ∀ p, .start p ∈ choices → Follows P p (fun _ _ => True) unemployed)
    (hrun : pool.run choices = some pool') : pool'.Governed P I := by
  induction choices generalizing pool with
  | nil =>
    cases hrun
    exact hpool
  | cons choice choices ih =>
    rw [Pool.run, List.foldlM_cons, Option.bind_eq_bind, Option.bind_eq_some_iff] at hrun
    obtain ⟨middle, hact, hrest⟩ := hrun
    refine ih (hpool.act hI ?_ hact) (fun p hp => hstart p (List.mem_cons_of_mem _ hp)) hrest
    rintro p rfl
    exact hstart p List.mem_cons_self

end Governed

end LayerPipeline.Procedure
