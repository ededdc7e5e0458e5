import LayerPipeline.Tensor
import Mathlib.Algebra.BigOperators.Ring.List
import Mathlib.Algebra.Order.Ring.Nat

/-!
# Validation of tensors

The elements of a tensor are counted from the left in 64 bits, and only the last step, from elements
to bytes, is guarded. A tensor whose first dimensions are too large is not judged at all, although
a zero behind them may make it a consistent one. All other tensors are judged right.
-/

namespace LayerPipeline

namespace Tensor

/-- Number of elements of a shape. -/
def elements (dims : List UInt32) : Nat := (dims.map (·.toNat)).prod

/-- A tensor has as many bytes as it announces, and as its shape and element type need. -/
def Consistent (t : Tensor) : Prop :=
  t.numBytes.toNat = t.data.length ∧ t.data.length = elements t.shape * t.dtype.elementBytes

/-- The number of bytes is as announced, and the elements of the first dimensions cannot be counted
in 64 bits. -/
def Overflows (t : Tensor) : Prop :=
  t.numBytes.toNat = t.data.length ∧ ∃ dims, dims <+: t.shape ∧ UInt64.size ≤ elements dims

theorem elements_cons (d : UInt32) (dims : List UInt32) :
    elements (d :: dims) = d.toNat * elements dims := by
  simp [elements]

/-- The count of elements goes through unless a partial product is too large. -/
theorem product?_cases {count : Nat} (hcount : count < UInt64.size) (dims : List UInt32) :
    (product? count dims = none ∧
      ∃ before, before <+: dims ∧ UInt64.size ≤ count * elements before) ∨
    (product? count dims = some (count * elements dims) ∧
      ∀ before, before <+: dims → count * elements before < UInt64.size) := by
  induction dims generalizing count with
  | nil =>
    refine .inr ⟨by simp [product?, elements], fun before hbefore => ?_⟩
    rw [List.prefix_nil.mp hbefore]
    simpa [elements] using hcount
  | cons d dims ih =>
    by_cases hd : count * d.toNat < UInt64.size
    · rw [product?, if_pos hd]
      rcases ih hd with ⟨hnone, before, hbefore, hlarge⟩ | ⟨hsome, hsmall⟩
      · refine .inl ⟨hnone, d :: before, List.cons_prefix_cons.mpr ⟨rfl, hbefore⟩, ?_⟩
        rwa [elements_cons, ← Nat.mul_assoc]
      · refine .inr ⟨by rw [hsome, elements_cons, Nat.mul_assoc], fun before hbefore => ?_⟩
        rcases List.prefix_cons_iff.mp hbefore with rfl | ⟨rest, rfl, hrest⟩
        · simpa [elements] using hcount
        · rw [elements_cons, ← Nat.mul_assoc]
          exact hsmall rest hrest
    · refine .inl ⟨by rw [product?, if_neg hd], [d], ⟨dims, rfl⟩, ?_⟩
      simpa [elements] using Nat.le_of_not_lt hd

theorem numElements?_cases (t : Tensor) :
    (t.numElements? = none ∧ ∃ dims, dims <+: t.shape ∧ UInt64.size ≤ elements dims) ∨
    (t.numElements? = some (elements t.shape) ∧
      ∀ dims, dims <+: t.shape → elements dims < UInt64.size) := by
  simpa only [Nat.one_mul, numElements?] using
    product?_cases (by decide : 1 < UInt64.size) t.shape

variable {t : Tensor}

theorem validate_of_overflows (h : t.Overflows) : t.validate = .error (.aborted .overflow) := by
  obtain ⟨hlength, dims, hdims, hlarge⟩ := h
  rcases t.numElements?_cases with ⟨hnone, -⟩ | ⟨-, hsmall⟩
  · simp [validate, fault?, hlength, hnone, TensorFault.error]
  · exact absurd (hsmall dims hdims) (Nat.not_lt_of_le hlarge)

/-- Where nothing overflows, the bytes that are there are compared with those that are needed. -/
theorem fault?_of_not_overflows (h : ¬ t.Overflows) (hlength : t.numBytes.toNat = t.data.length) :
    t.fault? =
      let needed := elements t.shape * t.dtype.elementBytes
      if UInt64.size ≤ needed then some .byteOverflow
      else if needed ≠ t.numBytes.toNat then
        some (.sizeMismatch t.shape t.dtype needed t.numBytes)
      else none := by
  rcases t.numElements?_cases with ⟨-, hlarge⟩ | ⟨hcount, -⟩
  · exact absurd ⟨hlength, hlarge⟩ h
  · simp only [fault?, hlength, hcount, ne_eq, not_true_eq_false, if_false]

theorem validate_of_consistent (h : ¬ t.Overflows) (hconsistent : t.Consistent) :
    t.validate = .ok () := by
  obtain ⟨hlength, hneeded⟩ := hconsistent
  have hbytes : ¬ UInt64.size ≤ t.numBytes.toNat := Nat.not_le_of_lt t.numBytes.toNat_lt
  have hfault : t.fault? = none := by
    rw [fault?_of_not_overflows h hlength, ← hneeded, ← hlength]
    simp [hbytes]
  simp [validate, hfault]

theorem validate_of_inconsistent (h : ¬ t.Overflows) (hinconsistent : ¬ t.Consistent) :
    ∃ reason, t.validate = .error (.protocolViolation reason) := by
  by_cases hlength : t.numBytes.toNat = t.data.length
  · have hneeded : elements t.shape * t.dtype.elementBytes ≠ t.numBytes.toNat :=
      fun heq => hinconsistent ⟨hlength, (heq.trans hlength).symm⟩
    rw [validate, fault?_of_not_overflows h hlength]
    by_cases hbytes : UInt64.size ≤ elements t.shape * t.dtype.elementBytes
    · simp [hbytes, TensorFault.error]
    · simp [hbytes, hneeded, TensorFault.error]
  · simp [validate, fault?, hlength, TensorFault.error]

/-- The first dimensions of a shape without zeros have no more elements than all of them. -/
theorem elements_initial_le {dims shape : List UInt32} (h : dims <+: shape) (hzero : 0 ∉ shape) :
    elements dims ≤ elements shape := by
  obtain ⟨rest, rfl⟩ := h
  have hrest : (rest.map (·.toNat)).prod ≠ 0 := by
    apply List.prod_ne_zero
    intro hmem
    obtain ⟨d, hd, hvalue⟩ := List.mem_map.mp hmem
    have hd0 : d = 0 := UInt32.toNat_inj.mp hvalue
    exact hzero (List.mem_append_right dims (hd0 ▸ hd))
  rw [elements, elements, List.map_append, List.prod_append]
  exact Nat.le_mul_of_pos_right _ (Nat.pos_of_ne_zero hrest)

theorem zero_mem_of_overflows (h : t.Overflows) (hconsistent : t.Consistent) : 0 ∈ t.shape := by
  obtain ⟨hlength, dims, hdims, hlarge⟩ := h
  by_contra hzero
  have hbytes : elements t.shape ≤ t.data.length := by
    rw [hconsistent.2]
    exact Nat.le_mul_of_pos_right _ (by cases t.dtype <;> decide)
  have hbound : t.data.length < UInt64.size := hlength ▸ t.numBytes.toNat_lt
  exact absurd (hlarge.trans ((elements_initial_le hdims hzero).trans hbytes))
    (Nat.not_le_of_lt hbound)

/-- A tensor is accepted if it is consistent and refused as a violation if not, exactly if its
dimensions do not overflow; if they do, there is no answer. A consistent tensor can only be among
these if one of its dimensions is zero. -/
theorem validate_exact_iff (t : Tensor) :
    (((t.validate = .ok () ↔ t.Consistent) ∧
        (¬ t.Consistent → ∃ reason, t.validate = .error (.protocolViolation reason))) ↔
      ¬ t.Overflows) ∧
    (t.validate = .error (.aborted .overflow) ↔ t.Overflows) ∧
    (t.Consistent → t.Overflows → 0 ∈ t.shape) := by
  by_cases hoverflows : t.Overflows
  · have habort := validate_of_overflows hoverflows
    refine ⟨?_, by simp [habort, hoverflows], fun h _ => zero_mem_of_overflows hoverflows h⟩
    by_cases hconsistent : t.Consistent <;> simp [habort, hoverflows, hconsistent]
  · by_cases hconsistent : t.Consistent
    · have hok := validate_of_consistent hoverflows hconsistent
      simp [hok, hoverflows, hconsistent]
    · obtain ⟨reason, hrefused⟩ := validate_of_inconsistent hoverflows hconsistent
      simp [hrefused, hoverflows, hconsistent]

-- A zero in front keeps the count small; the same zero at the end comes too late.
example : (ofBytes .u8 [0, 0xffffffff, 0xffffffff, 0xffffffff] []).validate = .ok () ∧
    (ofBytes .u8 [0xffffffff, 0xffffffff, 0xffffffff, 0] []).validate =
      .error (.aborted .overflow) := by
  decide

end Tensor

end LayerPipeline
