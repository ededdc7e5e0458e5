import LayerPipeline.Proofs.Tensor.Validation
import LayerPipeline.Proofs.Wire.RoundTrip
import Mathlib.Data.List.Infix

/-!
# Single-precision elements

A tensor of single-precision elements and the list of their bits determine each other. The reader
takes four bytes at a time and would drop a shorter rest, but a valid tensor has none.
-/

namespace LayerPipeline

namespace Tensor

open Wire

/-! ## Words and their bytes -/

/-- The bytes of words, four for each. -/
def wordBytes (values : List UInt32) : List UInt8 :=
  values.flatMap fun v => littleEndian 4 v.toNat

theorem wordBytes_cons (v : UInt32) (values : List UInt32) :
    wordBytes (v :: values) = littleEndian 4 v.toNat ++ wordBytes values :=
  List.flatMap_cons

theorem length_wordBytes (values : List UInt32) :
    (wordBytes values).length = 4 * values.length := by
  induction values with
  | nil => rfl
  | cons v values ih =>
    rw [wordBytes_cons, List.length_append, length_littleEndian, ih, List.length_cons]
    omega

theorem ofNat_ofLittleEndian_littleEndian (v : UInt32) :
    UInt32.ofNat (ofLittleEndian (littleEndian 4 v.toNat)) = v := by
  rw [ofLittleEndian_littleEndian v.toNat_lt, UInt32.ofNat_toNat]

theorem words_littleEndian_append (v : UInt32) (rest : List UInt8) :
    words (littleEndian 4 v.toNat ++ rest) = v :: words rest := by
  have hword := ofNat_ofLittleEndian_littleEndian v
  simp only [littleEndian] at hword
  simp only [littleEndian, List.cons_append, List.nil_append, words, hword]

theorem words_wordBytes (values : List UInt32) : words (wordBytes values) = values := by
  induction values with
  | nil => rfl
  | cons v values ih => rw [wordBytes_cons, words_littleEndian_append, ih]

/-- Nothing is lost from bytes that come in fours. -/
theorem wordBytes_words {bytes : List UInt8} (h : bytes.length % 4 = 0) :
    wordBytes (words bytes) = bytes := by
  fun_induction words bytes with
  | case1 a b c d rest ih =>
    have hbytes := littleEndian_ofLittleEndian [a, b, c, d]
    have hbound : ofLittleEndian [a, b, c, d] < UInt32.size := by
      simpa using ofLittleEndian_lt [a, b, c, d]
    have hrest : rest.length % 4 = 0 := by
      simp only [List.length_cons] at h
      omega
    rw [wordBytes_cons, UInt32.toNat_ofNat_of_lt' hbound, ih hrest]
    exact congrArg (· ++ rest) hbytes
  | case2 bytes hshort =>
    -- What is left is too short for a word, and the length rules out all but nothing.
    match bytes, hshort with
    | [], _ => rfl
    | [_], _ => simp at h
    | [_, _], _ => simp at h
    | [_, _, _], _ => simp at h
    | a :: b :: c :: d :: rest, hshort => exact absurd rfl (hshort a b c d rest)

/-! ## Tensors of words -/

/-- The elements of a shape, and those of any of its first dimensions, can be counted in 64 bits. -/
def Counted (shape : List UInt32) : Prop :=
  ∀ dims, dims <+: shape → elements dims < UInt64.size

instance (shape : List UInt32) : Decidable (Counted shape) :=
  decidable_of_iff (∀ dims ∈ shape.inits, elements dims < UInt64.size) (by simp [Counted])

variable {t : Tensor}

theorem Counted.not_overflows (h : Counted t.shape) : ¬ t.Overflows := by
  rintro ⟨-, dims, hdims, hlarge⟩
  exact Nat.not_lt_of_le hlarge (h dims hdims)

theorem validate_eq_ok_iff : t.validate = .ok () ↔ Counted t.shape ∧ t.Consistent := by
  constructor
  · intro hok
    by_cases hoverflows : t.Overflows
    · simp [validate_of_overflows hoverflows] at hok
    · by_cases hconsistent : t.Consistent
      · refine ⟨fun dims hdims => ?_, hconsistent⟩
        by_contra hlarge
        exact hoverflows ⟨hconsistent.1, dims, hdims, Nat.le_of_not_lt hlarge⟩
      · obtain ⟨reason, hrefused⟩ := validate_of_inconsistent hoverflows hconsistent
        simp [hrefused] at hok
  · rintro ⟨hcounted, hconsistent⟩
    exact validate_of_consistent hcounted.not_overflows hconsistent

theorem toF32_of_ne (h : t.dtype ≠ .f32) :
    t.toF32 = .error (.unsupportedDtype ("expected f32 payload, got " ++ t.dtype.name)) := by
  simp [toF32, h, throw, throwThe, MonadExceptOf.throw, bind, Except.bind]

theorem toF32_of_f32 (h : t.dtype = .f32) :
    t.toF32 = t.validate.map fun _ => words t.data := by
  cases hvalid : t.validate <;> simp [toF32, h, hvalid, bind, Except.bind, pure, Except.pure,
    Except.map]

/-- A valid tensor of single-precision elements is made from the elements that are read from it. -/
theorem ofF32_words (htype : t.dtype = .f32) (hconsistent : t.Consistent) :
    ofF32 t.shape (words t.data) = t := by
  obtain ⟨hlength, hneeded⟩ := hconsistent
  have hfours : t.data.length % 4 = 0 := by
    rw [hneeded, htype]
    exact Nat.mul_mod_left _ _
  have hbytes : wordBytes (words t.data) = t.data := wordBytes_words hfours
  have hnumBytes : UInt64.ofNat t.data.length = t.numBytes := by
    rw [← hlength, UInt64.ofNat_toNat]
  change ofBytes .f32 t.shape (wordBytes (words t.data)) = t
  rw [hbytes, ofBytes, hnumBytes, ← htype]

theorem consistent_ofF32 {shape values : List UInt32} (hlength : values.length = elements shape)
    (hbytes : 4 * values.length < UInt64.size) : (ofF32 shape values).Consistent := by
  have hdata : (ofF32 shape values).data.length = 4 * values.length := length_wordBytes values
  constructor
  · change (UInt64.ofNat (ofF32 shape values).data.length).toNat = _
    rw [hdata, UInt64.toNat_ofNat_of_lt' hbytes]
  · rw [hdata, hlength, Nat.mul_comm]
    rfl

/-- Elements whose number fits a shape are read from the tensor that is made of them, bit by bit. A
valid tensor of single-precision elements is made of the elements that are read from it. From any
other tensor nothing is read, unless its dimensions are too large to be counted. -/
theorem f32_round_trip :
    (∀ shape values, Counted shape → values.length = elements shape →
      4 * values.length < UInt64.size → (ofF32 shape values).toF32 = .ok values) ∧
    (∀ t : Tensor, t.dtype = .f32 → t.validate = .ok () →
      ∃ values, t.toF32 = .ok values ∧ ofF32 t.shape values = t) ∧
    (∀ t : Tensor, Counted t.shape → ¬ (t.dtype = .f32 ∧ t.validate = .ok ()) →
      (t.dtype ≠ .f32 ∧
        t.toF32 = .error (.unsupportedDtype ("expected f32 payload, got " ++ t.dtype.name))) ∨
      (t.dtype = .f32 ∧ ¬ t.Consistent ∧
        ∃ reason, t.toF32 = .error (.protocolViolation reason))) := by
  refine ⟨fun shape values hcounted hlength hbytes => ?_, fun t htype hvalid => ?_,
    fun t hcounted hother => ?_⟩
  · have hvalid : (ofF32 shape values).validate = .ok () :=
      validate_eq_ok_iff.mpr ⟨hcounted, consistent_ofF32 hlength hbytes⟩
    rw [toF32_of_f32 rfl, hvalid]
    exact congrArg Except.ok (words_wordBytes values)
  · refine ⟨words t.data, ?_, ofF32_words htype (validate_eq_ok_iff.mp hvalid).2⟩
    rw [toF32_of_f32 htype, hvalid]
    rfl
  · by_cases htype : t.dtype = .f32
    · have hinconsistent : ¬ t.Consistent := fun h =>
        hother ⟨htype, validate_eq_ok_iff.mpr ⟨hcounted, h⟩⟩
      obtain ⟨reason, hrefused⟩ := validate_of_inconsistent hcounted.not_overflows hinconsistent
      refine .inr ⟨htype, hinconsistent, reason, ?_⟩
      rw [toF32_of_f32 htype, hrefused]
      rfl
    · exact .inl ⟨htype, toF32_of_ne htype⟩

/-- A signalling NaN and a negative zero keep their bits, and a fifth byte is not dropped. -/
theorem f32_round_trip_signalling :
    (ofF32 [1, 2] [0x7f800001, 0x80000000]).toF32 = .ok [0x7f800001, 0x80000000] ∧
    (∃ values, (ofBytes .f32 [] [1, 2, 3, 4]).toF32 = .ok values ∧
      ofF32 [] values = ofBytes .f32 [] [1, 2, 3, 4]) ∧
    ∃ reason, (ofBytes .f32 [] [1, 2, 3, 4, 5]).toF32 = .error (.protocolViolation reason) := by
  obtain ⟨hread, hmade, hrefused⟩ := f32_round_trip
  refine ⟨hread _ _ (by decide) (by decide) (by decide), hmade _ rfl (by decide), ?_⟩
  rcases hrefused (ofBytes .f32 [] [1, 2, 3, 4, 5]) (by decide) (by decide) with ⟨hne, -⟩ | h
  · exact absurd rfl hne
  · exact h.2.2

end Tensor

end LayerPipeline
