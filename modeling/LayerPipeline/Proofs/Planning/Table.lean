import LayerPipeline.Proofs.Planning.Partition

/-!
# The table of the search

A cell is filled exactly when the layers before it can be placed in its number of stages, whichever
candidate the comparison keeps, and the blocks found by going back from a filled cell are a
placement with the tally of that cell.
-/

namespace LayerPipeline.Planning

variable {α : Type} [Scalar α]

/-! ## Choosing among candidates -/

section Choice

variable {β : Type} (tol : α) (key : β → α × α)

/-- What is kept of two candidates; the earlier one wins a draw. -/
def prefer (best c : β) : β :=
  if keyLess tol (key c) (key best) then c else best

/-- What is left of a list of candidates after they have been compared in order. -/
def preferred? : List β → Option β
  | [] => none
  | c :: cs => some (cs.foldl (prefer tol key) c)

/-- One more candidate for what may still be empty. -/
def improve : Option β → β → Option β
  | none, c => some c
  | some best, c => if keyLess tol (key c) (key best) then some c else some best

theorem foldl_improve (best : Option β) (cs : List β) :
    cs.foldl (improve tol key) best = preferred? tol key (best.toList ++ cs) := by
  induction cs generalizing best with
  | nil => cases best <;> rfl
  | cons c cs ih =>
    rw [List.foldl_cons, ih]
    cases best with
    | none => rfl
    | some b =>
      by_cases h : keyLess tol (key c) (key b) = true <;> simp [improve, preferred?, prefer, h]

variable {tol key}

theorem foldl_prefer_mem (c : β) (cs : List β) : cs.foldl (prefer tol key) c ∈ c :: cs := by
  induction cs generalizing c with
  | nil => simp
  | cons d cs ih =>
    rw [List.foldl_cons]
    rcases List.mem_cons.mp (ih (prefer tol key c d)) with h | h
    · rw [h, prefer]
      split <;> simp
    · simp [h]

theorem preferred?_mem {cs : List β} {c : β} (h : preferred? tol key cs = some c) : c ∈ cs := by
  cases cs with
  | nil => cases h
  | cons d cs =>
    obtain rfl := Option.some.inj h
    exact foldl_prefer_mem d cs

theorem preferred?_eq_none_iff {cs : List β} : preferred? tol key cs = none ↔ cs = [] := by
  cases cs <;> simp [preferred?]

end Choice

theorem better_eq (tol : α) (strategy : Strategy) :
    better tol strategy = improve tol (fun c => c.tally.key strategy) := by
  funext best c
  cases best <;> rfl

/-! ## One more node -/

section Step

variable (config : PlannerConfig α) (strategy : Strategy) (layers : List (LayerCost α))
  (node : Node α) (prev : Row α)

/-- What a cell is chosen from when a node is added: the cell without the node, and then a last
block on the node from every layer before. -/
def alternatives (i : Nat) : Nat → List (Cell α)
  | 0 => ((prev.cell? i 0).map fun c => ⟨c.tally, .skip⟩).toList
  | k + 1 => ((prev.cell? i (k + 1)).map fun c => ⟨c.tally, .skip⟩).toList ++
      (List.range i).filterMap (candidate? config tolerance (Sequence.ofLayers layers)
        (Host.ofNode config (Sequence.ofLayers layers) node) prev i k)

theorem nextCell?_eq (i k : Nat) :
    nextCell? config tolerance strategy (Sequence.ofLayers layers)
        (Host.ofNode config (Sequence.ofLayers layers) node) prev i k =
      preferred? tolerance (fun c => c.tally.key strategy)
        (alternatives config layers node prev i k) := by
  cases k with
  | zero =>
    rw [nextCell?, alternatives]
    cases prev.cell? i 0 <;> rfl
  | succ k =>
    rw [nextCell?, alternatives, ← foldl_improve, List.foldl_filterMap, better_eq]
    congr 1
    funext best start
    split <;> simp_all

/-- A node that is added is skipped, or it hosts a last block that it accepts. -/
theorem mem_alternatives {i k : Nat} (hi : i ≤ layers.length) (c : Cell α) :
    c ∈ alternatives config layers node prev i k ↔
      (∃ old, prev.cell? i k = some old ∧ c = ⟨old.tally, .skip⟩) ∨
      ∃ before start old, k = before + 1 ∧ start < i ∧ prev.cell? start before = some old ∧
        Accepts config layers node start i ∧
        c = ⟨old.tally.extend (blockMs config layers node start i)
          (blockShare layers node start i), .use start⟩ := by
  have hskip : ∀ k, c ∈ ((prev.cell? i k).map fun c => (⟨c.tally, .skip⟩ : Cell α)).toList ↔
      ∃ old, prev.cell? i k = some old ∧ c = ⟨old.tally, .skip⟩ := by
    intro k
    rw [Option.mem_toList, Option.map_eq_some_iff]
    exact exists_congr fun old => and_congr_right fun _ => eq_comm
  cases k with
  | zero => simp [alternatives, hskip]
  | succ k =>
    rw [alternatives, List.mem_append, hskip, List.mem_filterMap]
    refine or_congr_right ⟨?_, ?_⟩
    · rintro ⟨start, hstart, hc⟩
      have hlt := List.mem_range.mp hstart
      simp only [candidate?, Option.bind_eq_bind, Option.bind_eq_some_iff,
        placeBlock?_eq_some_iff config layers node (Nat.le_of_lt hlt) hi] at hc
      obtain ⟨old, hold, _, ⟨hacc, rfl⟩, hc⟩ := hc
      exact ⟨k, start, old, rfl, hlt, hold, hacc, (Option.some.inj hc).symm⟩
    · rintro ⟨before, start, old, hk, hlt, hold, hacc, rfl⟩
      obtain rfl := Nat.succ.inj hk
      refine ⟨start, List.mem_range.mpr hlt, ?_⟩
      simp only [candidate?, Option.bind_eq_bind, Option.bind_eq_some_iff,
        placeBlock?_eq_some_iff config layers node (Nat.le_of_lt hlt) hi]
      exact ⟨old, hold, _, ⟨hacc, rfl⟩, rfl⟩

theorem length_alternatives_le (i k : Nat) :
    (alternatives config layers node prev i k).length ≤ i + 1 := by
  have hskip : ∀ k, ((prev.cell? i k).map fun c =>
      (⟨c.tally, .skip⟩ : Cell α)).toList.length ≤ 1 := by
    intro k
    cases prev.cell? i k <;> simp
  cases k with
  | zero => exact Nat.le_trans (hskip 0) (by omega)
  | succ k =>
    rw [alternatives, List.length_append]
    have hfilter := List.length_filterMap_le (candidate? config tolerance
      (Sequence.ofLayers layers) (Host.ofNode config (Sequence.ofLayers layers) node) prev i k)
      (List.range i)
    rw [List.length_range] at hfilter
    have := hskip (k + 1)
    omega

end Step

/-! ## Rows -/

omit [Scalar α] in
theorem Row.cell?_ofFn {n maxK i k : Nat} (f : Nat → Nat → Option (Cell α)) (hi : i ≤ n)
    (hk : k ≤ maxK) : (Row.ofFn n maxK f).cell? i k = f i k := by
  have hi' : i < n + 1 := by omega
  have hk' : k < maxK + 1 := by omega
  simp [Row.cell?, Row.ofFn, hi', hk']

section Rows

variable (config : PlannerConfig α) (strategy : Strategy) (layers : List (LayerCost α))
  (maxK : Nat)

/-- The row for a whole roster. -/
def lastRow (nodes : List (Node α)) : Row α :=
  nodes.foldl (nextRow config tolerance strategy (Sequence.ofLayers layers) maxK)
    (firstRow layers.length maxK)

/-- The cell for `i` layers and `k` stages when a whole roster was considered. -/
def cellOf? (nodes : List (Node α)) (i k : Nat) : Option (Cell α) :=
  (lastRow config strategy layers maxK nodes).cell? i k

theorem rows_eq_cons (nodes : List (Node α)) :
    ∃ rest, rows config strategy (Sequence.ofLayers layers) maxK nodes =
      lastRow config strategy layers maxK nodes :: rest := by
  induction nodes using List.reverseRecOn with
  | nil => exact ⟨[], rfl⟩
  | append_singleton nodes node ih =>
    obtain ⟨rest, hrest⟩ := ih
    simp only [rows, lastRow, List.foldl_append, List.foldl_cons, List.foldl_nil] at hrest ⊢
    rw [hrest]
    exact ⟨_, rfl⟩

theorem rows_concat (nodes : List (Node α)) (node : Node α) :
    rows config strategy (Sequence.ofLayers layers) maxK (nodes ++ [node]) =
      lastRow config strategy layers maxK (nodes ++ [node]) ::
        rows config strategy (Sequence.ofLayers layers) maxK nodes := by
  obtain ⟨rest, hrest⟩ := rows_eq_cons config strategy layers maxK nodes
  simp only [rows, lastRow, List.foldl_append, List.foldl_cons, List.foldl_nil] at hrest ⊢
  rw [hrest]

theorem length_rows (nodes : List (Node α)) :
    (rows config strategy (Sequence.ofLayers layers) maxK nodes).length = nodes.length + 1 := by
  induction nodes using List.reverseRecOn with
  | nil => rfl
  | append_singleton nodes node ih => rw [rows_concat]; simp [ih]

variable {config strategy layers maxK} {nodes : List (Node α)} {node : Node α} {i k : Nat}

theorem cellOf?_nil (hi : i ≤ layers.length) (hk : k ≤ maxK) :
    cellOf? config strategy layers maxK [] i k =
      if i = 0 ∧ k = 0 then some ⟨.zero, .skip⟩ else none := by
  rw [cellOf?, lastRow, List.foldl_nil, firstRow, Row.cell?_ofFn _ hi hk]
  simp

theorem cellOf?_concat (hi : i ≤ layers.length) (hk : k ≤ maxK) :
    cellOf? config strategy layers maxK (nodes ++ [node]) i k =
      preferred? tolerance (fun c => c.tally.key strategy)
        (alternatives config layers node (lastRow config strategy layers maxK nodes) i k) := by
  rw [cellOf?, lastRow, List.foldl_append, List.foldl_cons, List.foldl_nil, nextRow,
    Row.cell?_ofFn _ (by simpa [Sequence.ofLayers]) hk, nextCell?_eq]
  rfl

/-- What a filled cell comes from. -/
theorem cellOf?_concat_cases (hi : i ≤ layers.length) (hk : k ≤ maxK) {c : Cell α}
    (h : cellOf? config strategy layers maxK (nodes ++ [node]) i k = some c) :
    (∃ old, cellOf? config strategy layers maxK nodes i k = some old ∧ c = ⟨old.tally, .skip⟩) ∨
      ∃ before start old, k = before + 1 ∧ start < i ∧
        cellOf? config strategy layers maxK nodes start before = some old ∧
        Accepts config layers node start i ∧
        c = ⟨old.tally.extend (blockMs config layers node start i)
          (blockShare layers node start i), .use start⟩ := by
  rw [cellOf?_concat hi hk] at h
  exact (mem_alternatives config layers node _ hi c).mp (preferred?_mem h)

/-- A cell that can be filled is filled. -/
theorem cellOf?_concat_of_mem (hi : i ≤ layers.length) (hk : k ≤ maxK) {c : Cell α}
    (h : c ∈ alternatives config layers node (lastRow config strategy layers maxK nodes) i k) :
    ∃ d, cellOf? config strategy layers maxK (nodes ++ [node]) i k = some d := by
  rw [cellOf?_concat hi hk, ← Option.ne_none_iff_exists']
  intro hnone
  rw [preferred?_eq_none_iff] at hnone
  simp [hnone] at h

/-- How far the tally of a cell may be from that of a placement after a number of nodes: they start
out together, one more block leaves the distance as it is, and one more choice adds a step. -/
structure Drift (strategy : Strategy) (n : Nat) (within : Nat → Tally α → Tally α → Prop) :
    Prop where
  zero : within 0 .zero .zero
  extend : ∀ {j t u}, within j t u → ∀ latency share,
    within j (t.extend latency share) (u.extend latency share)
  choose : ∀ {j u best c} {cs : List (Cell α)},
    preferred? tolerance (fun c => c.tally.key strategy) cs = some best → c ∈ cs →
      cs.length ≤ n + 1 → within j c.tally u → within (j + 1) best.tally u

/-- Layers that can be placed fill their cell, and every choice that the table made on the way is
counted once. -/
theorem Drift.cellOf? {within : Nat → Tally α → Tally α → Prop}
    (hdrift : Drift strategy layers.length within) {blocks : List Block}
    (h : Placement config layers nodes i blocks) (hi : i ≤ layers.length)
    (hk : blocks.length ≤ maxK) :
    ∃ c, cellOf? config strategy layers maxK nodes i blocks.length = some c ∧
      within nodes.length c.tally (tallyOf config layers nodes blocks) := by
  induction nodes using List.reverseRecOn generalizing i blocks with
  | nil =>
    have hblocks : blocks = [] := by
      cases blocks with
      | nil => rfl
      | cons b rest => simpa using h.node_lt b (by simp)
    subst hblocks
    obtain rfl : 0 = i := h.endToEnd
    exact ⟨⟨.zero, .skip⟩, cellOf?_nil hi hk, hdrift.zero⟩
  | append_singleton nodes node ih =>
    -- whatever the placement does with the last node is one of the alternatives of its cell
    suffices hmem : ∃ c ∈ alternatives config layers node
        (lastRow config strategy layers maxK nodes) i blocks.length,
        within nodes.length c.tally (tallyOf config layers (nodes ++ [node]) blocks) by
      obtain ⟨c, hc, hwithin⟩ := hmem
      obtain ⟨best, hbest⟩ := cellOf?_concat_of_mem hi hk hc
      refine ⟨best, hbest, ?_⟩
      rw [cellOf?_concat hi hk] at hbest
      rw [List.length_append, List.length_singleton]
      have hlength := length_alternatives_le config layers node
        (lastRow config strategy layers maxK nodes) i blocks.length
      exact hdrift.choose hbest hc (by omega) hwithin
    rcases h.concat_cases with hold | ⟨before, start, rfl, hlt, hbefore, hacc⟩
    · obtain ⟨c, hc, hwithin⟩ := ih hold hi hk
      refine ⟨⟨c.tally, .skip⟩, (mem_alternatives config layers node _ hi _).mpr
        (.inl ⟨c, hc, rfl⟩), ?_⟩
      rwa [tallyOf_append hold]
    · rw [List.length_append, List.length_singleton] at hk ⊢
      obtain ⟨c, hc, hwithin⟩ := ih hbefore (by omega) (by omega)
      refine ⟨_, (mem_alternatives config layers node _ hi _).mpr
        (.inr ⟨before.length, start, c, rfl, hlt, hc, hacc, rfl⟩), ?_⟩
      have hnode : (nodes ++ [node])[nodes.length]? = some node := by simp
      rw [tallyOf_concat before hnode, tallyOf_append hbefore]
      exact hdrift.extend hwithin _ _

/-! ## Going back from a cell -/

/-- Without layers there is nothing to place. -/
theorem cellOf?_zero {c : Cell α} (hk : k ≤ maxK)
    (h : cellOf? config strategy layers maxK nodes 0 k = some c) : k = 0 ∧ c.tally = .zero := by
  induction nodes using List.reverseRecOn generalizing c with
  | nil =>
    rw [cellOf?_nil (Nat.zero_le _) hk] at h
    split at h
    · rename_i hzero
      obtain rfl := Option.some.inj h
      exact ⟨hzero.2, rfl⟩
    · cases h
  | append_singleton nodes node ih =>
    rcases cellOf?_concat_cases (Nat.zero_le _) hk h with
      ⟨old, hold, rfl⟩ | ⟨_, start, _, _, hlt, _⟩
    · exact ih (c := old) hold
    · omega

/-- Going back from a filled cell yields a placement of its layers in its number of stages, with
its tally. -/
theorem trace_rows {c : Cell α} (hi : i ≤ layers.length) (hk : k ≤ maxK)
    (h : cellOf? config strategy layers maxK nodes i k = some c) (done : List Block) :
    ∃ blocks, trace (rows config strategy (Sequence.ofLayers layers) maxK nodes) i k done =
        .ok (blocks ++ done) ∧
      Placement config layers nodes i blocks ∧ blocks.length = k ∧
      tallyOf config layers nodes blocks = c.tally := by
  induction nodes using List.reverseRecOn generalizing i k c done with
  | nil =>
    rw [cellOf?_nil hi hk] at h
    split at h
    · rename_i hzero
      obtain ⟨rfl, rfl⟩ := hzero
      obtain rfl := Option.some.inj h
      exact ⟨[], rfl, .nil, rfl, rfl⟩
    · cases h
  | append_singleton nodes node ih =>
    rw [rows_concat]
    obtain ⟨prev, rest, hrest⟩ := List.exists_cons_of_length_eq_add_one
      (length_rows config strategy layers maxK nodes)
    by_cases hzero : i = 0
    · subst hzero
      obtain ⟨rfl, htally⟩ := cellOf?_zero hk h
      exact ⟨[], by rw [hrest]; simp [trace], .nil, rfl, htally.symm⟩
    · have hcell : (lastRow config strategy layers maxK (nodes ++ [node])).cell? i k = some c := h
      have hlength : rest.length = nodes.length := by
        have := length_rows config strategy layers maxK nodes
        simp only [hrest, List.length_cons] at this
        omega
      rcases cellOf?_concat_cases hi hk h with
        ⟨old, hold, rfl⟩ | ⟨before, start, old, rfl, hlt, hold, hacc, rfl⟩
      · obtain ⟨blocks, htrace, hplace, hcount, htally⟩ := ih hi hk hold done
        refine ⟨blocks, ?_, hplace.append [node], hcount, ?_⟩
        · rw [hrest] at htrace ⊢
          simp only [trace, hzero, if_false, hcell]
          exact htrace
        · rw [tallyOf_append hplace, htally]
      · obtain ⟨blocks, htrace, hplace, hcount, htally⟩ := ih (by omega) (by omega) hold
          (⟨nodes.length, start, i⟩ :: done)
        refine ⟨blocks ++ [⟨nodes.length, start, i⟩], ?_, hplace.concat hlt hacc, by simp [hcount],
          ?_⟩
        · rw [hrest] at htrace ⊢
          simp only [trace, hzero, if_false, hcell, hlength]
          simpa using htrace
        · have hnode : (nodes ++ [node])[nodes.length]? = some node := by simp
          rw [tallyOf_concat blocks hnode, tallyOf_append hplace, htally]

end Rows

end LayerPipeline.Planning
