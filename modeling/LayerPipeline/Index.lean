import LayerPipeline.Dictionary

/-!
# Positions by name

An index beside a list of names, which leads from each name to the place where it stands. When a
name is taken out, those behind it move up by one place and are numbered anew.
-/

namespace LayerPipeline

/-- An index leads from a name to a position exactly if the name stands there. -/
def Locates (index : Dictionary Nat) (names : List String) : Prop :=
  ∀ name position, index.get? name = some position ↔ names[position]? = some name

/-- The index after names were numbered in a row, the first of them with `start`. -/
def renumber (index : Dictionary Nat) (start : Nat) : List String → Dictionary Nat
  | [] => index
  | name :: names => renumber (index.insert name start) (start + 1) names

theorem get?_renumber {names : List String} (hnodup : names.Nodup) (index : Dictionary Nat)
    (start : Nat) (k : String) (position : Nat) :
    (renumber index start names).get? k = some position ↔
      (∃ i, names[i]? = some k ∧ position = start + i) ∨
        k ∉ names ∧ index.get? k = some position := by
  induction names generalizing index start with
  | nil => simp [renumber]
  | cons name names ih =>
    obtain ⟨hname, hnodup⟩ := List.nodup_cons.mp hnodup
    rw [renumber, ih hnodup, Dictionary.get?_insert]
    constructor
    · rintro (⟨i, hi, rfl⟩ | ⟨hk, hindex⟩)
      · exact .inl ⟨i + 1, by simpa using hi, by omega⟩
      · split at hindex
        · next heq =>
          subst heq
          exact .inl ⟨0, rfl, (Option.some.inj hindex).symm⟩
        · next hne => exact .inr ⟨by simp [hne, hk], hindex⟩
    · rintro (⟨i, hi, rfl⟩ | ⟨hk, hindex⟩)
      · cases i with
        | zero =>
          cases Option.some.inj hi
          exact .inr ⟨hname, by simp⟩
        | succ i => exact .inl ⟨i, by simpa using hi, by omega⟩
      · simp only [List.mem_cons, not_or] at hk
        obtain ⟨hne, hk⟩ := hk
        exact .inr ⟨hk, by rw [if_neg hne, hindex]⟩

namespace Locates

variable {index : Dictionary Nat} {names : List String}

theorem nil : Locates .empty [] := by
  intro name position
  simp

theorem lt (h : Locates index names) {name : String} {position : Nat}
    (hget : index.get? name = some position) : position < names.length :=
  (List.getElem?_eq_some_iff.mp ((h name position).mp hget)).1

theorem get?_eq_none_iff (h : Locates index names) {name : String} :
    index.get? name = none ↔ name ∉ names := by
  rw [Option.eq_none_iff_forall_ne_some, List.mem_iff_getElem?]
  simp [h name]

theorem eq_of_getElem? (h : Locates index names) {name : String} {i j : Nat}
    (hi : names[i]? = some name) (hj : names[j]? = some name) : i = j :=
  Option.some.inj (((h name i).mpr hi).symm.trans ((h name j).mpr hj))

/-- A name stands in one place only. -/
theorem nodup (h : Locates index names) : names.Nodup := by
  refine List.pairwise_iff_getElem.mpr fun i j hi hj hlt heq => ?_
  have hij := h.eq_of_getElem? (List.getElem?_eq_getElem hi)
    ((List.getElem?_eq_getElem hj).trans (congrArg some heq.symm))
  omega

/-- One more name, behind the others. -/
theorem concat (h : Locates index names) {name : String} (hname : name ∉ names) :
    Locates (index.insert name names.length) (names ++ [name]) := by
  intro k position
  rw [Dictionary.get?_insert]
  by_cases hk : k = name
  · subst hk
    rw [if_pos rfl]
    rcases Nat.lt_trichotomy position names.length with hlt | rfl | hgt
    · rw [List.getElem?_append_left hlt]
      constructor
      · intro heq
        cases heq
        omega
      · exact fun hposition => absurd (List.mem_of_getElem? hposition) hname
    · simp
    · rw [List.getElem?_eq_none (by simp only [List.length_append, List.length_singleton]; omega)]
      simp only [Option.some.injEq, reduceCtorEq, iff_false]
      omega
  · rw [if_neg hk, h k position]
    by_cases hlt : position < names.length
    · rw [List.getElem?_append_left hlt]
    · rw [List.getElem?_eq_none (by omega), List.getElem?_append_right (by omega),
        List.getElem?_singleton]
      split <;> simp [Ne.symm hk]

/-- A name taken out, and those behind it numbered anew. -/
theorem eraseIdx (h : Locates index names) {name : String} {position : Nat}
    (hposition : names[position]? = some name) :
    Locates (renumber (index.erase name) position ((names.eraseIdx position).drop position))
      (names.eraseIdx position) := by
  have hnodup : ((names.eraseIdx position).drop position).Nodup :=
    h.nodup.sublist ((List.drop_sublist _ _).trans (List.eraseIdx_sublist _ _))
  intro k i
  rw [get?_renumber hnodup, Dictionary.get?_erase, List.getElem?_eraseIdx]
  constructor
  · rintro (⟨j, hj, rfl⟩ | ⟨hk, hindex⟩)
    · rw [List.getElem?_drop, List.getElem?_eraseIdx] at hj
      exact hj
    · split at hindex
      · cases hindex
      · next hne =>
        have hi := (h k i).mp hindex
        -- a place behind the gap would be among those that are numbered anew
        have hlt : i < position := by
          rcases Nat.lt_trichotomy i position with hlt | rfl | hgt
          · exact hlt
          · exact absurd (Option.some.inj (hi.symm.trans hposition)) hne
          · refine absurd (List.mem_iff_getElem?.mpr ⟨i - 1 - position, ?_⟩) hk
            rw [List.getElem?_drop, List.getElem?_eraseIdx, if_neg (by omega)]
            rw [show position + (i - 1 - position) + 1 = i by omega]
            exact hi
        rw [if_pos hlt]
        exact hi
  · intro hi
    split at hi
    · next hlt =>
      have hne : k ≠ name := by
        rintro rfl
        have := h.eq_of_getElem? hi hposition
        omega
      refine .inr ⟨fun hmem => ?_, by rw [if_neg hne, (h k i).mpr hi]⟩
      obtain ⟨j, hj⟩ := List.mem_iff_getElem?.mp hmem
      rw [List.getElem?_drop, List.getElem?_eraseIdx, if_neg (by omega)] at hj
      have := h.eq_of_getElem? hi hj
      omega
    · next hle =>
      refine .inl ⟨i - position, ?_, by omega⟩
      rw [List.getElem?_drop, List.getElem?_eraseIdx, show position + (i - position) = i by omega,
        if_neg hle]
      exact hi

end Locates

end LayerPipeline
