import LayerPipeline.Proofs.Service.Interleaving
import LayerPipeline.Proofs.Service.SessionTable
import LayerPipeline.Service.Pipeline

/-!
# What calls have in hand of a session

Calls of a coordinator that run at the same time meet at its sessions. Every call is, at every
moment, in a role that says what it has in hand of which session: its lock, the right to reserve its
memory, the duty to return it. A section of a call moves these rights between the call, the table of
sessions and the journal of reservations; counted per session, they never become more.
-/

namespace LayerPipeline

variable {α : Type}

/-! ## What is known of a session -/

namespace SessionTable

/-- One if a session was ever entered under the key. -/
def entered (t : SessionTable α) (key : Nat) : Nat := if key < t.nextKey then 1 else 0

/-- One if the session with the key is active. -/
def active (t : SessionTable α) (key : Nat) : Nat :=
  if t.stateAt key = some .active then 1 else 0

/-- One if the session with the key is not closed. -/
def alive (t : SessionTable α) (key : Nat) : Nat :=
  if t.stateAt key = some .created ∨ t.stateAt key = some .active then 1 else 0

/-- How many open sessions have the key. -/
def listed (t : SessionTable α) (key : Nat) : Nat := t.opened.countP fun s => s.key = key

theorem entered_le_one (t : SessionTable α) (key : Nat) : t.entered key ≤ 1 := by
  unfold entered
  split <;> omega

theorem active_le_alive (t : SessionTable α) (key : Nat) : t.active key ≤ t.alive key := by
  unfold active alive
  grind

theorem active_eq_one_iff {t : SessionTable α} {key : Nat} :
    t.active key = 1 ↔ t.stateAt key = some .active := by
  unfold active
  grind

section Changes

variable {t : SessionTable α}

/-- A new session is entered, listed and alive. -/
theorem Sound.counts_add (ht : t.Sound) {s : Session α} (hid : t.get? s.id = none)
    (hs : s.state = .created) (key : Nat) :
    (t.add s).entered key = t.entered key + (if key = t.nextKey then 1 else 0) ∧
      (t.add s).active key = t.active key ∧
      (t.add s).alive key = t.alive key + (if key = t.nextKey then 1 else 0) ∧
      (t.add s).listed key = t.listed key + (if key = t.nextKey then 1 else 0) := by
  have hnone := ht.stateAt_eq_none_iff.mpr (Nat.le_refl t.nextKey)
  refine ⟨?_, ?_, ?_, ?_⟩
  · change (if key < t.nextKey + 1 then 1 else 0) = _
    unfold entered
    grind
  · simp only [active, ht.stateAt_add hid, hs]
    grind
  · simp only [alive, ht.stateAt_add hid, hs]
    grind
  · simp [listed, opened_add, List.countP_append, List.countP_singleton, eq_comm]

theorem listed_modify (target : Nat) {f : Session α → Session α} (hf : Keeps f) (key : Nat) :
    (t.modify target f).listed key = t.listed key := by
  simp only [listed, opened_modify, List.countP_map]
  congr 1
  funext s
  simp [(keeps_change hf target s).1]

/-- Closing takes the life of the session and leaves the others alone. -/
theorem Sound.counts_close (ht : t.Sound) (target : Nat) (reason : Option String) (key : Nat) :
    let t' := t.modify target fun s => s.close reason
    t'.entered key = t.entered key ∧
      t'.active key = (if key = target then 0 else t.active key) ∧
      t'.alive key = (if key = target then 0 else t.alive key) ∧
      t'.listed key = t.listed key := by
  have hclosed : ∀ s : Session α, (s.close reason).state = .closed := by
    intro s
    by_cases h : s.state = .closed <;> simp [Session.close, h]
  have hstate := ht.stateAt_modify target (keeps_close reason) key
  have hlisted := listed_modify (t := t) target (keeps_close reason) key
  by_cases hkey : key = target
  · subst hkey
    rw [if_pos rfl] at hstate
    exact ⟨rfl, by simp [active, hstate, hclosed], by simp [alive, hstate, hclosed], hlisted⟩
  · rw [if_neg hkey] at hstate
    exact ⟨rfl, by simp [active, hstate, hkey], by simp [alive, hstate, hkey], hlisted⟩

/-- A change of a session that was alive and is active afterwards. -/
theorem Sound.counts_modify (ht : t.Sound) {target : Nat} {f : Session α → Session α}
    (hf : Keeps f) (hbefore : t.alive target = 1)
    (hafter : ∀ s, t.session? target = some s → (f s).state = .active) (key : Nat) :
    let t' := t.modify target f
    t'.entered key = t.entered key ∧
      t'.active key = (if key = target then 1 else t.active key) ∧
      t'.alive key = t.alive key ∧
      t'.listed key = t.listed key := by
  have hstate := ht.stateAt_modify target hf key
  have hfound : ∃ s, t.session? target = some s := by
    cases hsession : t.session? target with
    | none => simp [alive, stateAt, hsession] at hbefore
    | some s => exact ⟨s, rfl⟩
  obtain ⟨s, hs⟩ := hfound
  have hlisted := listed_modify (t := t) target hf key
  by_cases hkey : key = target
  · subst hkey
    rw [if_pos rfl, hs, Option.map_some, hafter s hs] at hstate
    exact ⟨rfl, by simp [active, hstate], by simpa [alive, hstate] using hbefore, hlisted⟩
  · rw [if_neg hkey] at hstate
    exact ⟨rfl, by simp [active, hstate, hkey], by simp [alive, hstate], hlisted⟩

theorem Sound.counts_remove (ht : t.Sound) (id : String) (key : Nat) :
    (t.remove id).entered key = t.entered key ∧
      (t.remove id).active key = t.active key ∧
      (t.remove id).alive key = t.alive key ∧
      (t.remove id).listed key ≤ t.listed key := by
  have hstate := ht.stateAt_remove id key
  exact ⟨rfl, by simp [active, hstate], by simp [alive, hstate], List.filter_sublist.countP_le⟩

/-- A session that is taken out is no longer listed. -/
theorem listed_remove_lt {id : String} {s : Session α} (h : t.get? id = some s) :
    (t.remove id).listed s.key + 1 ≤ t.listed s.key := by
  obtain ⟨hmem, hid⟩ := get?_eq_some h
  have hsplit := List.countP_eq_countP_filter_add t.opened (fun x => decide (x.key = s.key))
    fun x => decide (x.id ≠ id)
  have hpos : 0 < (t.opened.filter fun x => !decide (x.id ≠ id)).countP fun x => x.key = s.key := by
    rw [List.countP_pos_iff]
    exact ⟨s, List.mem_filter.mpr ⟨hmem, by simp [hid]⟩, by simp⟩
  simp only [listed, remove]
  omega

end Changes

end SessionTable

namespace ReservationEvent

/-- How often memory was reserved for a session. -/
def reservations (journal : List ReservationEvent) (key : Nat) : Nat :=
  journal.count (.reserved key)

/-- How often memory was returned for a session that was found in a state. -/
def releasesFound (found : SessionState) (journal : List ReservationEvent) (key : Nat) : Nat :=
  journal.count (.released key found)

/-- The session whose memory was returned. -/
@[grind] def releasedKey? : ReservationEvent → Option Nat
  | .released key _ => some key
  | .reserved _ => none

/-- How often memory was returned for a session. -/
def releases (journal : List ReservationEvent) (key : Nat) : Nat :=
  journal.countP fun e => e.releasedKey? = some key

theorem counts_append (journal : List ReservationEvent) (e : ReservationEvent) (key : Nat) :
    reservations (journal ++ [e]) key =
        reservations journal key + (if e = .reserved key then 1 else 0) ∧
      releasesFound .active (journal ++ [e]) key =
        releasesFound .active journal key + (if e = .released key .active then 1 else 0) ∧
      releases (journal ++ [e]) key =
        releases journal key + if e.releasedKey? = some key then 1 else 0 := by
  simp [reservations, releasesFound, releases, List.count_append, List.count_singleton,
    List.countP_append, List.countP_singleton]

end ReservationEvent

namespace Coordinator

open Procedure

/-! ## Roles -/

/-- What a call has in hand of a session, given by the key of the session. -/
inductive Role where
  | free
  /-- Has entered the session and will set it up. -/
  | entered (key : Nat)
  /-- Sets the session up. -/
  | creating (key : Nat)
  /-- Has made the session active and not yet reserved its memory. -/
  | activated (key : Nat)
  /-- Has taken the session from the table to close it. -/
  | taken (key : Nat)
  | closing (key : Nat)
  /-- Has closed the session, which it found in a state, and will return its memory. -/
  | returning (key : Nat) (found : SessionState)
  /-- Has only the lock. -/
  | locked (key : Nat)
  /-- Runs a forward pass of the session, which was active when it got the lock. -/
  | running (key : Nat)
  /-- Has closed the session after a failed forward pass, and will return its memory. -/
  | failing (key : Nat)
  /-- The same without the lock. -/
  | failed (key : Nat)
deriving DecidableEq

namespace Role

/-- The session whose lock is held. -/
@[grind] def lock? : Role → Option Nat
  | creating key | activated key | closing key | returning key _ | locked key | running key
  | failing key => some key
  | _ => none

/-- The session whose memory may still be reserved. -/
@[grind] def reserver? : Role → Option Nat
  | entered key | creating key | activated key => some key
  | _ => none

/-- The session that is active while its memory is not yet reserved. -/
@[grind] def activator? : Role → Option Nat
  | activated key => some key
  | _ => none

/-- The session that a forward pass runs through. -/
@[grind] def runner? : Role → Option Nat
  | running key => some key
  | _ => none

/-- The session that was found active and whose memory is about to be returned. -/
@[grind] def debtor? : Role → Option Nat
  | returning key found => if found = .active then some key else none
  | failing key | failed key => some key
  | _ => none

/-- The session that was taken from the table to be closed. -/
@[grind] def closer? : Role → Option Nat
  | taken key | closing key | returning key _ => some key
  | _ => none

/-- The session whose forward pass failed. -/
@[grind] def loser? : Role → Option Nat
  | failing key | failed key => some key
  | _ => none

/-- One if the role has the session in hand. -/
@[grind] def share (hand : Role → Option Nat) (r : Role) (key : Nat) : Nat :=
  if hand r = some key then 1 else 0

end Role

/-- How many calls have a session in hand in a certain way. -/
def tally (hand : Role → Option Nat) (roles : List Role) (key : Nat) : Nat :=
  roles.countP fun r => hand r = some key

section Tally

variable (hand : Role → Option Nat) {roles : List Role} {i : Nat} {r : Role}

theorem tally_set (hr : roles[i]? = some r) (r' : Role) (key : Nat) :
    tally hand (roles.set i r') key + r.share hand key =
      tally hand roles key + r'.share hand key := by
  induction roles generalizing i with
  | nil => simp at hr
  | cons x roles ih =>
    cases i with
    | zero =>
      cases hr
      simp only [List.set_cons_zero, tally, Role.share, List.countP_cons]
      grind
    | succ i =>
      have hrest := ih (i := i) hr
      simp only [List.set_cons_succ, tally, Role.share, List.countP_cons] at hrest ⊢
      omega

theorem share_le_tally (hr : roles[i]? = some r) (key : Nat) :
    r.share hand key ≤ tally hand roles key := by
  unfold Role.share
  split
  · next hkey =>
    exact List.countP_pos_iff.mpr ⟨r, List.mem_of_getElem? hr, by simpa using hkey⟩
  · exact Nat.zero_le _

/-- Where one way to have a session in hand is part of another, the calls that have it in the other
way only make up for the difference. -/
theorem tally_add_share_le {part : Role → Option Nat} (whole : Role → Option Nat)
    (hnone : whole .free = none) (hpart : ∀ x key, part x = some key → whole x = some key)
    (hr : roles[i]? = some r) (key : Nat) :
    tally part roles key + r.share whole key ≤ tally whole roles key + r.share part key := by
  have hfree := tally_set part hr .free key
  have hfree' := tally_set whole hr .free key
  have hle : tally part (roles.set i .free) key ≤ tally whole (roles.set i .free) key :=
    List.countP_mono_left fun x _ hx => by simpa using hpart x key (by simpa using hx)
  have hshare : Role.free.share whole key = 0 := by simp [Role.share, hnone]
  omega

theorem tally_join (hfree : hand .free = none) (roles : List Role) (key : Nat) :
    tally hand (roles ++ [.free]) key = tally hand roles key := by
  simp [tally, List.countP_append, hfree]

end Tally

/-! ## The protocol -/

open ReservationEvent

/-- What one section of a call may do to the sessions and to the journal of its coordinator, and the
roles in which it may. -/
inductive Move (c c' : Coordinator α) : Role → Role → Prop where
  | quiet {r : Role} (hsessions : c'.sessions = c.sessions) (hjournal : c'.journal = c.journal) :
    Move c c' r r
  | drop {r : Role} (id : String) (hsessions : c'.sessions = c.sessions.remove id)
    (hjournal : c'.journal = c.journal) : Move c c' r r
  | enter (s : Session α) (hid : c.sessions.get? s.id = none) (hstate : s.state = .created)
    (hsessions : c'.sessions = c.sessions.add s) (hjournal : c'.journal = c.journal) :
    Move c c' .free (.entered c.sessions.nextKey)
  | activate {key : Nat} (f : Session α → Session α) (hf : SessionTable.Keeps f)
    (hbefore : c.sessions.stateAt key = some .created)
    (hafter : ∀ s, c.sessions.session? key = some s → (f s).state = .active)
    (hsessions : c'.sessions = c.sessions.modify key f) (hjournal : c'.journal = c.journal) :
    Move c c' (.creating key) (.activated key)
  | reserve {key : Nat} (hsessions : c'.sessions = c.sessions)
    (hjournal : c'.journal = c.journal ++ [.reserved key]) :
    Move c c' (.activated key) (.locked key)
  | abandon {key : Nat} (reason : Option String)
    (hsessions : c'.sessions = c.sessions.modify key fun s => s.close reason)
    (hjournal : c'.journal = c.journal) : Move c c' (.creating key) (.locked key)
  | take {id : String} {s : Session α} (hfound : c.sessions.get? id = some s)
    (hsessions : c'.sessions = c.sessions.remove id) (hjournal : c'.journal = c.journal) :
    Move c c' .free (.taken s.key)
  | close {key : Nat} {found : SessionState} (reason : Option String)
    (hfound : found = .active ↔ c.sessions.stateAt key = some .active)
    (hsessions : c'.sessions = c.sessions.modify key fun s => s.close reason)
    (hjournal : c'.journal = c.journal) : Move c c' (.closing key) (.returning key found)
  | giveBack {key : Nat} {found : SessionState} (hsessions : c'.sessions = c.sessions)
    (hjournal : c'.journal = c.journal ++ [.released key found]) :
    Move c c' (.returning key found) (.locked key)
  | look {key : Nat} (hactive : c.sessions.stateAt key = some .active)
    (hsessions : c'.sessions = c.sessions) (hjournal : c'.journal = c.journal) :
    Move c c' (.locked key) (.running key)
  | count {key : Nat} (token : UInt64) (now : Nat)
    (hactive : c.sessions.stateAt key = some .active)
    (hsessions : c'.sessions = c.sessions.modify key fun s => s.recordForward token now)
    (hjournal : c'.journal = c.journal) : Move c c' (.running key) (.running key)
  | fail {key : Nat} (reason : Option String)
    (hsessions : c'.sessions = c.sessions.modify key fun s => s.close reason)
    (hjournal : c'.journal = c.journal) : Move c c' (.running key) (.failing key)
  | settle {key : Nat} (hsessions : c'.sessions = c.sessions)
    (hjournal : c'.journal = c.journal ++ [.released key .active]) :
    Move c c' (.failed key) .free

/-- How a lock that a call gets changes its role. -/
inductive Takes : Lock → Role → Role → Prop where
  | stage (key : Nat) (r : Role) : Takes (.stage key) r r
  | create (key : Nat) : Takes (.pipeline key) (.entered key) (.creating key)
  | close (key : Nat) : Takes (.pipeline key) (.taken key) (.closing key)
  | look (key : Nat) : Takes (.pipeline key) .free (.locked key)

/-- How a lock that a call gives back changes its role. -/
inductive Gives : Lock → Role → Role → Prop where
  | stage (key : Nat) (r : Role) : Gives (.stage key) r r
  | locked (key : Nat) : Gives (.pipeline key) (.locked key) .free
  | creating (key : Nat) : Gives (.pipeline key) (.creating key) .free
  | returning (key : Nat) (found : SessionState) :
    Gives (.pipeline key) (.returning key found) .free
  | running (key : Nat) : Gives (.pipeline key) (.running key) .free
  | failing (key : Nat) : Gives (.pipeline key) (.failing key) (.failed key)

/-- What a call in a role can rely on. -/
structure Sees (r : Role) (c : Coordinator α) : Prop where
  sound : c.sessions.Sound
  creating : ∀ key, r = .creating key → key < c.sessions.nextKey
  running : ∀ key, r = .running key → c.sessions.stateAt key = some .active

/-- The protocol of the calls to a coordinator. -/
def protocol : Protocol (Coordinator α) Role where
  sees := Sees
  moves c r c' r' := Move c c' r r'
  takes := Takes
  gives := Gives

/-! ## The balance of a session -/

/-- The rights and duties around one session. -/
@[mk_iff]
structure Balanced (t : SessionTable α) (journal : List ReservationEvent) (held : List Lock)
    (roles : List Role) (key : Nat) : Prop where
  locks : tally Role.lock? roles key = held.count (.pipeline key)
  exclusive : held.count (.pipeline key) ≤ 1
  reserved : tally Role.reserver? roles key + reservations journal key ≤ t.entered key
  settled : tally Role.debtor? roles key + releasesFound .active journal key + t.alive key ≤
    t.entered key
  /-- A session can be taken from the table once, and it can fail once. -/
  released : tally Role.closer? roles key + tally Role.loser? roles key + t.listed key +
    t.alive key + releases journal key ≤ 2 * t.entered key
  active : t.active key ≤ reservations journal key + tally Role.activator? roles key
  running : tally Role.runner? roles key ≤ t.active key
  debts : tally Role.debtor? roles key ≤ reservations journal key

/-- How the change of one role changes all counts. -/
structure Exchanged (roles roles' : List Role) (r r' : Role) (key : Nat) : Prop where
  lock : tally Role.lock? roles' key + r.share Role.lock? key =
    tally Role.lock? roles key + r'.share Role.lock? key
  reserver : tally Role.reserver? roles' key + r.share Role.reserver? key =
    tally Role.reserver? roles key + r'.share Role.reserver? key
  activator : tally Role.activator? roles' key + r.share Role.activator? key =
    tally Role.activator? roles key + r'.share Role.activator? key
  runner : tally Role.runner? roles' key + r.share Role.runner? key =
    tally Role.runner? roles key + r'.share Role.runner? key
  debtor : tally Role.debtor? roles' key + r.share Role.debtor? key =
    tally Role.debtor? roles key + r'.share Role.debtor? key
  closer : tally Role.closer? roles' key + r.share Role.closer? key =
    tally Role.closer? roles key + r'.share Role.closer? key
  loser : tally Role.loser? roles' key + r.share Role.loser? key =
    tally Role.loser? roles key + r'.share Role.loser? key
  activator_le : tally Role.activator? roles key + r.share Role.lock? key ≤
    tally Role.lock? roles key + r.share Role.activator? key
  runner_le : tally Role.runner? roles key + r.share Role.lock? key ≤
    tally Role.lock? roles key + r.share Role.runner? key

theorem exchanged {roles : List Role} {i : Nat} {r : Role} (hr : roles[i]? = some r) (r' : Role)
    (key : Nat) : Exchanged roles (roles.set i r') r r' key where
  lock := tally_set _ hr r' key
  reserver := tally_set _ hr r' key
  activator := tally_set _ hr r' key
  runner := tally_set _ hr r' key
  debtor := tally_set _ hr r' key
  closer := tally_set _ hr r' key
  loser := tally_set _ hr r' key
  activator_le := by
    refine tally_add_share_le _ rfl (fun x _ => ?_) hr key
    cases x <;> simp [Role.activator?, Role.lock?]
  runner_le := by
    refine tally_add_share_le _ rfl (fun x _ => ?_) hr key
    cases x <;> simp [Role.runner?, Role.lock?]

/-- One section of a call keeps the balance of every session. -/
theorem Balanced.move {c c' : Coordinator α} {held : List Lock} {roles : List Role} {key i : Nat}
    {r r' : Role} (hsound : c.sessions.Sound)
    (h : Balanced c.sessions c.journal held roles key) (hr : roles[i]? = some r)
    (hmove : Move c c' r r') : Balanced c'.sessions c'.journal held (roles.set i r') key := by
  have hle := c.sessions.active_le_alive key
  have hone := c.sessions.entered_le_one key
  obtain ⟨hlock, hreserver, hactivator, hrunner, hdebtor, hcloser, hloser, hactivator', hrunner'⟩ :=
    exchanged hr r' key
  obtain ⟨locks, exclusive, reserved, settled, released, active, running, debts⟩ := h
  -- every case states how its section changes the counts; what is left of it is arithmetic
  cases hmove with
  | quiet hsessions hjournal =>
    rw [hsessions, hjournal]
    constructor <;> omega
  | drop id hsessions hjournal =>
    have hcounts := hsound.counts_remove id key
    rw [hsessions, hjournal]
    constructor <;> omega
  | enter s hid hstate hsessions hjournal =>
    have hcounts := hsound.counts_add hid hstate key
    rw [hsessions, hjournal, balanced_iff]
    grind
  | activate f hf hbefore hafter hsessions hjournal =>
    have hcounts := hsound.counts_modify hf (by simp [SessionTable.alive, hbefore]) hafter key
    rw [hsessions, hjournal, balanced_iff]
    grind
  | @reserve target hsessions hjournal =>
    have hcounts := counts_append c.journal (.reserved target) key
    rw [hsessions, hjournal, balanced_iff]
    grind
  | @abandon target reason hsessions hjournal =>
    have hcounts := hsound.counts_close target reason key
    rw [hsessions, hjournal, balanced_iff]
    grind
  | @take id s hfound hsessions hjournal =>
    have hcounts := hsound.counts_remove id key
    have hlisted := SessionTable.listed_remove_lt hfound
    rw [hsessions, hjournal, balanced_iff]
    grind
  | @close target found reason hfound hsessions hjournal =>
    have hcounts := hsound.counts_close target reason key
    have hactive : found = .active ↔ c.sessions.active target = 1 :=
      hfound.trans SessionTable.active_eq_one_iff.symm
    rw [hsessions, hjournal, balanced_iff]
    grind
  | @giveBack target found hsessions hjournal =>
    have hcounts := counts_append c.journal (.released target found) key
    rw [hsessions, hjournal, balanced_iff]
    grind
  | @look target hactive hsessions hjournal =>
    have hactive := SessionTable.active_eq_one_iff.mpr hactive
    rw [hsessions, hjournal, balanced_iff]
    grind
  | @count target token now hactive hsessions hjournal =>
    have hbefore : c.sessions.alive target = 1 := by simp [SessionTable.alive, hactive]
    have hafter : ∀ s, c.sessions.session? target = some s →
        (s.recordForward token now).state = .active := by
      intro s hs
      rw [SessionTable.stateAt, hs] at hactive
      exact Option.some.inj hactive
    have hcounts := hsound.counts_modify (SessionTable.keeps_recordForward token now) hbefore hafter
      key
    have hactive := SessionTable.active_eq_one_iff.mpr hactive
    rw [hsessions, hjournal, balanced_iff]
    grind
  | @fail target reason hsessions hjournal =>
    have hcounts := hsound.counts_close target reason key
    rw [hsessions, hjournal, balanced_iff]
    grind
  | @settle target hsessions hjournal =>
    have hcounts := counts_append c.journal (.released target .active) key
    rw [hsessions, hjournal, balanced_iff]
    grind

/-- Memory that is returned for a session that was found active was reserved before. -/
def Ordered (journal : List ReservationEvent) : Prop :=
  ∀ earlier key later, journal = earlier ++ .released key .active :: later →
    .reserved key ∈ earlier

theorem Ordered.append {journal : List ReservationEvent} (h : Ordered journal)
    {e : ReservationEvent} (he : ∀ key, e = .released key .active → .reserved key ∈ journal) :
    Ordered (journal ++ [e]) := by
  intro earlier key later hsplit
  rcases List.eq_nil_or_concat later with rfl | ⟨later, last, rfl⟩
  · obtain ⟨rfl, hlast⟩ := List.append_inj' hsplit rfl
    exact he key (by simpa using hlast)
  · rw [List.concat_eq_append, ← List.cons_append, ← List.append_assoc] at hsplit
    obtain ⟨hjournal, -⟩ := List.append_inj' hsplit rfl
    exact h earlier key later hjournal

theorem Move.sound {c c' : Coordinator α} {r r' : Role} (hmove : Move c c' r r')
    (hsound : c.sessions.Sound) : c'.sessions.Sound := by
  cases hmove with
  | quiet hsessions _ | reserve hsessions _ | giveBack hsessions _ | look _ hsessions _
  | settle hsessions _ =>
    rw [hsessions]
    exact hsound
  | drop id hsessions _ | take _ hsessions _ =>
    rw [hsessions]
    exact hsound.remove _
  | enter s hid _ hsessions _ =>
    rw [hsessions]
    exact hsound.add hid
  | activate f hf _ _ hsessions _ =>
    rw [hsessions]
    exact hsound.modify _ hf
  | abandon _ hsessions _ | close _ _ hsessions _ | fail _ hsessions _ =>
    rw [hsessions]
    exact hsound.modify _ (SessionTable.keeps_close _)
  | count token now _ hsessions _ =>
    rw [hsessions]
    exact hsound.modify _ (SessionTable.keeps_recordForward token now)

theorem Move.ordered {c c' : Coordinator α} {r r' : Role} (hmove : Move c c' r r')
    (hordered : Ordered c.journal)
    (hdebt : ∀ key, r.debtor? = some key → .reserved key ∈ c.journal) : Ordered c'.journal := by
  cases hmove with
  | reserve _ hjournal =>
    rw [hjournal]
    exact hordered.append (by simp)
  | giveBack _ hjournal =>
    rw [hjournal]
    refine hordered.append fun key hkey => hdebt key ?_
    cases hkey
    rfl
  | settle _ hjournal =>
    rw [hjournal]
    refine hordered.append fun key hkey => hdebt key ?_
    cases hkey
    rfl
  | quiet _ hjournal | drop _ _ hjournal | enter _ _ _ _ hjournal | activate _ _ _ _ _ hjournal
  | abandon _ _ hjournal | take _ _ hjournal | close _ _ _ hjournal | look _ _ hjournal
  | count _ _ _ _ hjournal | fail _ _ hjournal =>
    rw [hjournal]
    exact hordered

/-! ## The invariant -/

/-- Sessions, locks, journal and roles fit together. -/
structure Orderly (c : Coordinator α) (held : List Lock) (roles : List Role) : Prop where
  sound : c.sessions.Sound
  ordered : Ordered c.journal
  balanced : ∀ key, Balanced c.sessions c.journal held roles key

theorem Balanced.take {t : SessionTable α} {journal : List ReservationEvent}
    {held : List Lock} {roles : List Role} {key i : Nat} {lock : Lock} {r r' : Role}
    (h : Balanced t journal held roles key) (hr : roles[i]? = some r) (hfree : lock ∉ held)
    (htake : Takes lock r r') : Balanced t journal (lock :: held) (roles.set i r') key := by
  obtain ⟨hlock, hreserver, hactivator, hrunner, hdebtor, hcloser, hloser, -, -⟩ :=
    exchanged hr r' key
  have hcount : held.count lock = 0 := List.count_eq_zero.mpr hfree
  have hheld := List.count_cons (a := Lock.pipeline key) (b := lock) (l := held)
  obtain ⟨locks, exclusive, reserved, settled, released, active, running, debts⟩ := h
  rw [balanced_iff]
  cases htake <;> grind

theorem Balanced.give {t : SessionTable α} {journal : List ReservationEvent}
    {held : List Lock} {roles : List Role} {key i : Nat} {lock : Lock} {r r' : Role}
    (h : Balanced t journal held roles key) (hr : roles[i]? = some r)
    (hgive : Gives lock r r') : Balanced t journal (held.erase lock) (roles.set i r') key := by
  obtain ⟨hlock, hreserver, hactivator, hrunner, hdebtor, hcloser, hloser, -, -⟩ :=
    exchanged hr r' key
  have hheld := List.count_erase (a := Lock.pipeline key) (b := lock) (l := held)
  obtain ⟨locks, exclusive, reserved, settled, released, active, running, debts⟩ := h
  rw [balanced_iff]
  cases hgive <;> grind

theorem Balanced.join {t : SessionTable α} {journal : List ReservationEvent}
    {held : List Lock} {roles : List Role} {key : Nat} (h : Balanced t journal held roles key) :
    Balanced t journal held (roles ++ [.free]) key := by
  have hlock := tally_join Role.lock? rfl roles key
  have hreserver := tally_join Role.reserver? rfl roles key
  have hactivator := tally_join Role.activator? rfl roles key
  have hrunner := tally_join Role.runner? rfl roles key
  have hdebtor := tally_join Role.debtor? rfl roles key
  have hcloser := tally_join Role.closer? rfl roles key
  have hloser := tally_join Role.loser? rfl roles key
  obtain ⟨locks, exclusive, reserved, settled, released, active, running, debts⟩ := h
  constructor <;> omega

/-- The calls to a coordinator keep its sessions and its journal orderly. -/
theorem invariant_orderly : (protocol (α := α)).Invariant Role.free Orderly where
  sees := by
    intro c held roles i r h hr
    refine ⟨h.sound, ?_, ?_⟩
    · rintro key rfl
      have hshare := share_le_tally Role.reserver? hr key
      have hreserved := (h.balanced key).reserved
      simp only [Role.share, Role.reserver?, if_true] at hshare
      by_contra hnew
      simp only [SessionTable.entered, if_neg hnew] at hreserved
      omega
    · rintro key rfl
      have hshare := share_le_tally Role.runner? hr key
      have hrunning := (h.balanced key).running
      have halive := c.sessions.active_le_alive key
      have hsettled := (h.balanced key).settled
      have hone := c.sessions.entered_le_one key
      simp only [Role.share, Role.runner?, if_true] at hshare
      exact SessionTable.active_eq_one_iff.mp (by omega)
  moves := by
    intro c held roles i r c' r' h hr hmove
    refine ⟨hmove.sound h.sound, hmove.ordered h.ordered ?_, ?_⟩
    · intro key hkey
      have hshare := share_le_tally Role.debtor? hr key
      have hdebts := (h.balanced key).debts
      simp only [Role.share, hkey, if_true] at hshare
      exact List.count_pos_iff.mp (by unfold reservations at hdebts; omega)
    · exact fun key => (h.balanced key).move h.sound hr hmove
  takes h hr hfree htake := ⟨h.sound, h.ordered, fun key => (h.balanced key).take hr hfree htake⟩
  gives h hr hgive := ⟨h.sound, h.ordered, fun key => (h.balanced key).give hr hgive⟩
  joins h := ⟨h.sound, h.ordered, fun key => (h.balanced key).join⟩

end Coordinator

end LayerPipeline
