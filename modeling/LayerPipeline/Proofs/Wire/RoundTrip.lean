import LayerPipeline.Message.Envelope
import Mathlib.Algebra.Group.Nat.Defs

/-!
# Messages survive their binary form

What is read from the bytes of a value is the value, and the bytes behind it are left over. The law
is stated for one type at a time: numbers first, then texts, sequences and dictionaries, then
records by their tuples of fields, and last the two kinds of message. A length takes at most eight
bytes, so the law is about values whose bytes can be counted with them.
-/

namespace LayerPipeline

namespace Wire

/-! ## Numbers -/

theorem length_littleEndian (n v : Nat) : (littleEndian n v).length = n := by
  induction n generalizing v with
  | zero => rfl
  | succ n ih => simp [littleEndian, ih]

theorem ofLittleEndian_littleEndian {n v : Nat} (h : v < 256 ^ n) :
    ofLittleEndian (littleEndian n v) = v := by
  induction n generalizing v with
  | zero => simp_all [littleEndian, ofLittleEndian]
  | succ n ih =>
    have hrest : v / 256 < 256 ^ n := by
      rw [Nat.div_lt_iff_lt_mul (by decide), ← Nat.pow_succ]
      exact h
    rw [littleEndian, ofLittleEndian, ih hrest, UInt8.toNat_ofNat', Nat.mod_mod,
      Nat.mod_add_div v 256]

theorem ofLittleEndian_lt (bs : List UInt8) : ofLittleEndian bs < 256 ^ bs.length := by
  induction bs with
  | nil => simp [ofLittleEndian]
  | cons b bs ih =>
    have hb : b.toNat < 256 := b.toNat_lt
    rw [ofLittleEndian, List.length_cons, Nat.pow_succ]
    omega

theorem littleEndian_ofLittleEndian (bs : List UInt8) :
    littleEndian bs.length (ofLittleEndian bs) = bs := by
  induction bs with
  | nil => rfl
  | cons b bs ih =>
    have hb : b.toNat < 256 := b.toNat_lt
    have hlow : (b.toNat + 256 * ofLittleEndian bs) % 256 = b.toNat := by omega
    have hhigh : (b.toNat + 256 * ofLittleEndian bs) / 256 = ofLittleEndian bs := by omega
    rw [List.length_cons, ofLittleEndian, littleEndian, hlow, hhigh, ih, UInt8.ofNat_toNat]

theorem takeBytes_append (bs rest : List UInt8) :
    takeBytes bs.length (bs ++ rest) = some (bs, rest) := by
  simp [takeBytes]

theorem getFixed_littleEndian {n v : Nat} (h : v < 256 ^ n) (rest : List UInt8) :
    getFixed n (littleEndian n v ++ rest) = some (v, rest) := by
  have htake := takeBytes_append (littleEndian n v) rest
  rw [length_littleEndian] at htake
  simp [getFixed, htake, ofLittleEndian_littleEndian h]

theorem length_putVarint_pos (v : Nat) : 0 < (putVarint v).length := by
  unfold putVarint
  split
  · simp
  · split
    · simp
    · split <;> simp

/-- A number is read back by a reader that is wide enough for it. -/
theorem getVarint_putVarint {width v : Nat} (hwidth : width = 4 ∨ width = 8)
    (h : v < 256 ^ width) (rest : List UInt8) :
    getVarint width (putVarint v ++ rest) = some (v, rest) := by
  unfold putVarint
  split
  · next hsmall =>
    have hlt : UInt8.ofNat v < 251 := by
      rw [UInt8.lt_iff_toNat_lt, UInt8.toNat_ofNat', Nat.mod_eq_of_lt (by omega)]
      exact hsmall
    rw [List.singleton_append, getVarint, if_pos hlt, UInt8.toNat_ofNat',
      Nat.mod_eq_of_lt (by omega)]
  · split
    · next hmedium =>
      have hfixed := getFixed_littleEndian (n := 2) hmedium rest
      simpa [getVarint] using hfixed
    · split
      · next hlarge =>
        have hfixed := getFixed_littleEndian (n := 4) hlarge rest
        simpa [getVarint] using hfixed
      · next hhuge =>
        -- Only the wide reader meets a number of this size.
        have hwide : width = 8 := by
          rcases hwidth with rfl | rfl
          · exact absurd h hhuge
          · rfl
        subst hwide
        have hfixed := getFixed_littleEndian (n := 8) h rest
        simpa [getVarint] using hfixed

theorem getVarint_index {v : Nat} (h : v < UInt32.size) (rest : List UInt8) :
    getVarint 4 (putVarint v ++ rest) = some (v, rest) :=
  getVarint_putVarint (.inl rfl) h rest

theorem getVarint_length {v : Nat} (h : v < UInt64.size) (rest : List UInt8) :
    getVarint 8 (putVarint v ++ rest) = some (v, rest) :=
  getVarint_putVarint (.inr rfl) h rest

/-! ## The law -/

/-- Values are read back as they were written, whatever stands behind them. -/
class Lawful (α : Type) [Wire α] : Prop where
  get_put (a : α) (rest : List UInt8) :
    (put a).length < UInt64.size → get (put a ++ rest) = some (a, rest)

/-- Every value takes at least one byte, so a sequence has at most as many values as bytes. -/
class Solid (α : Type) [Wire α] : Prop where
  length_put_pos (a : α) : 0 < (put a).length

instance : Lawful UInt8 := ⟨fun _ _ _ => rfl⟩

instance : Solid UInt8 := ⟨fun _ => Nat.one_pos⟩

instance : Lawful UInt32 where
  get_put a rest _ := by
    have hread := getVarint_index a.toNat_lt rest
    simp [put, get, hread]

instance : Solid UInt32 := ⟨fun a => length_putVarint_pos a.toNat⟩

instance : Lawful UInt64 where
  get_put a rest _ := by
    have hread := getVarint_length a.toNat_lt rest
    simp [put, get, hread]

instance : Solid UInt64 := ⟨fun a => length_putVarint_pos a.toNat⟩

instance : Lawful Binary64 where
  get_put a rest _ := by
    have hread := getFixed_littleEndian (n := 8) a.bits.toNat_lt rest
    simp [put, get, hread]

instance : Solid Binary64 := ⟨fun a => by simp [put, length_littleEndian]⟩

instance : Lawful Bool where
  get_put a rest _ := by cases a <;> rfl

instance : Solid Bool := ⟨fun _ => Nat.one_pos⟩

instance : Lawful Unit := ⟨fun _ _ _ => rfl⟩

theorem textOfBytes?_bytesOfText (s : String) : textOfBytes? (bytesOfText s) = some s := by
  rw [textOfBytes?, bytesOfText, Array.toArray_toList]
  exact dif_pos s.isValidUTF8

instance : Lawful String where
  get_put s rest h := by
    simp only [put, List.length_append] at h
    have hsize : (bytesOfText s).length < UInt64.size := by omega
    simp [put, get, getVarint_length hsize, takeBytes_append, textOfBytes?_bytesOfText]

instance : Solid String where
  length_put_pos s := by
    have hpos := length_putVarint_pos (bytesOfText s).length
    simp only [put, List.length_append]
    omega

/-! ## Composites -/

section Composite

variable {α β : Type} [Wire α] [Wire β]

instance [Lawful α] [Lawful β] : Lawful (α × β) where
  get_put p rest h := by
    simp only [put, List.length_append] at h
    have hfirst := Lawful.get_put p.1 (put p.2 ++ rest) (by omega)
    have hsecond := Lawful.get_put p.2 rest (by omega)
    simp only [put, get, List.append_assoc, hfirst]
    simp [hsecond]

instance [Solid α] : Solid (α × β) where
  length_put_pos p := by
    have hpos := Solid.length_put_pos p.1
    simp only [put, List.length_append]
    omega

instance [Lawful α] : Lawful (Option α) where
  get_put a rest h := by
    cases a with
    | none => rfl
    | some a =>
      simp only [put, List.length_cons] at h
      simp [put, get, Lawful.get_put a rest (by omega)]

theorem getMany_flatMap_put [Lawful α] (xs done : List α) (rest : List UInt8)
    (h : (xs.flatMap put).length < UInt64.size) :
    getMany xs.length (xs.flatMap put ++ rest) done = some (done.reverse ++ xs, rest) := by
  induction xs generalizing done with
  | nil => simp [getMany]
  | cons x xs ih =>
    rw [List.flatMap_cons, List.length_append] at h
    have hfirst := Lawful.get_put x (xs.flatMap put ++ rest) (by omega)
    rw [List.flatMap_cons, List.append_assoc, List.length_cons, getMany, hfirst]
    simp [ih (x :: done) (by omega)]

theorem length_le_length_flatMap_put [Solid α] (xs : List α) :
    xs.length ≤ (xs.flatMap put).length := by
  induction xs with
  | nil => simp
  | cons x xs ih =>
    have hpos := Solid.length_put_pos x
    rw [List.flatMap_cons, List.length_append, List.length_cons]
    omega

instance [Lawful α] [Solid α] : Lawful (List α) where
  get_put xs rest h := by
    simp only [put, List.length_append] at h
    have hle := length_le_length_flatMap_put xs
    have hsize : xs.length < UInt64.size := by omega
    have hmany := getMany_flatMap_put xs [] rest (by omega)
    simp [put, get, getVarint_length hsize, hmany]

end Composite

end Wire

/-! ## Dictionaries -/

theorem insertByName_last {β : Type} {name : String} {value : β} {entries : List (String × β)}
    (h : ∀ e ∈ entries, e.1 < name) :
    insertByName name value entries = entries ++ [(name, value)] := by
  induction entries with
  | nil => rfl
  | cons e rest ih =>
    have hlt : e.1 < name := h e List.mem_cons_self
    have hnlt : ¬ name < e.1 := String.lt_asymm hlt
    have hne : name ≠ e.1 := fun heq => String.lt_irrefl _ (heq ▸ hlt)
    rw [insertByName, if_neg hnlt, if_neg hne, ih fun x hx => h x (List.mem_cons_of_mem _ hx)]
    rfl

theorem Dictionary.entries_foldl_insert {β : Type} (d : Dictionary β) (es : List (String × β))
    (h : (d.entries ++ es).Pairwise fun a b => a.1 < b.1) :
    (es.foldl (fun d e => d.insert e.1 e.2) d).entries = d.entries ++ es := by
  induction es generalizing d with
  | nil => simp
  | cons e es ih =>
    have hbefore : ∀ x ∈ d.entries, x.1 < e.1 := by
      intro x hx
      exact (List.pairwise_append.mp h).2.2 x hx e List.mem_cons_self
    have hinsert : (d.insert e.1 e.2).entries = d.entries ++ [e] := insertByName_last hbefore
    rw [List.foldl_cons, ih, hinsert, List.append_assoc, List.singleton_append]
    rwa [hinsert, List.append_assoc, List.singleton_append]

/-- The entries of a dictionary, entered one after the other, give the dictionary. -/
theorem Dictionary.ofList_entries {β : Type} (d : Dictionary β) : ofList d.entries = d := by
  have hentries : (ofList d.entries).entries = d.entries :=
    entries_foldl_insert empty d.entries (by simpa [empty] using d.sorted)
  obtain ⟨entries, sorted⟩ := d
  cases hof : ofList entries with
  | mk read readSorted =>
    rw [hof] at hentries
    cases hentries
    rfl

namespace Wire

instance {β : Type} [Wire β] [Lawful β] : Lawful (Dictionary β) where
  get_put d rest h := by
    have hentries := Lawful.get_put d.entries rest h
    change (get (put d.entries ++ rest)).map _ = _
    simp [hentries, Dictionary.ofList_entries]

/-! ## Records and enumerations -/

section Record

variable {α β : Type} [Wire β]

/-- A record is read back if the tuple of its fields is. -/
instance lawful_record [Lawful β] (layout : Layout α β) : @Lawful α (record layout) :=
  letI := record layout
  { get_put := fun a rest h => by
      have hfields := Lawful.get_put (layout.split a) rest h
      change (get (put (layout.split a) ++ rest)).map _ = _
      simp [hfields, layout.join_split] }

instance solid_record [Solid β] (layout : Layout α β) : @Solid α (record layout) :=
  letI := record layout
  ⟨fun a => Solid.length_put_pos (layout.split a)⟩

end Record

/-- A value of an enumeration is read back if the enumeration lists it. -/
theorem lawful_enumeration {α : Type} [DecidableEq α] {values : List α}
    (hall : ∀ a, a ∈ values) (hsize : values.length < UInt32.size) :
    @Lawful α (enumeration values) :=
  letI := enumeration values
  { get_put := fun a rest _ => by
      have hposition := List.idxOf_lt_length_iff.mpr (hall a)
      have hread := getVarint_index (Nat.lt_trans hposition hsize) rest
      have hvalue : values[values.idxOf a]? = some a := by
        rw [List.getElem?_eq_getElem hposition, List.getElem_idxOf]
      simp [put, get, hread, hvalue] }

theorem solid_enumeration {α : Type} [DecidableEq α] (values : List α) :
    @Solid α (enumeration values) :=
  letI := enumeration values
  ⟨fun a => length_putVarint_pos (values.idxOf a)⟩

instance : Lawful Dtype := lawful_enumeration (by intro a; cases a <;> decide) (by decide)

instance : Solid Dtype := solid_enumeration Dtype.all

instance : Lawful DeviceKind := lawful_enumeration (by intro a; cases a <;> decide) (by decide)

instance : Lawful Strategy := lawful_enumeration (by intro a; cases a <;> decide) (by decide)

instance : Lawful BottleneckReason :=
  lawful_enumeration (by intro a; cases a <;> decide) (by decide)

instance : Lawful NodeRole := lawful_enumeration (by intro a; cases a <;> decide) (by decide)

/-! ## Messages -/

section Message

variable {α μ : Type}

/-- A message is read back if its kind selects the reader of its body. -/
theorem get_message [Wire α] [Lawful α] {kind : Nat} {wrap : α → μ}
    {body : Nat → List UInt8 → Option (μ × List UInt8)} (hkind : kind < 251)
    (hbody : ∀ bs, body kind bs = (get bs).map fun (b, rest) => (wrap b, rest)) {b : α}
    (rest : List UInt8) (h : (putVarint kind ++ put b).length < UInt64.size) :
    (do
      let (kind, rest) ← getVarint 4 (putVarint kind ++ put b ++ rest)
      body kind rest) = some (wrap b, rest) := by
  rw [List.length_append] at h
  have hread := getVarint_index (Nat.lt_trans hkind (by decide)) (put b ++ rest)
  have hget := Lawful.get_put b rest (by omega)
  rw [List.append_assoc, hread]
  simp [hbody, hget]

variable [Wire α] [Lawful α]

instance : Lawful (Request α) where
  get_put m rest h := by
    cases m with
    | health => rfl
    | _ => exact get_message (by decide) (fun _ => rfl) rest h

instance : Lawful (Response α) where
  get_put m rest h := by
    cases m with
    | _ => exact get_message (by decide) (fun _ => rfl) rest h

theorem decode?_encode_append [Wire μ] [Lawful μ] (m : μ) (rest : List UInt8)
    (h : (encode m).length < UInt64.size) : decode? (encode m ++ rest) = some m := by
  simp only [decode?, encode, Lawful.get_put m rest h, Option.map_some]

end Message

/-- Every request and every response is read back from its payload, bit for bit, whatever bytes
stand behind it. The number of its bytes has to be one that a machine word holds. -/
theorem message_decode_encode :
    (∀ (m : Request Binary64) (rest : List UInt8), (encode m).length < UInt64.size →
      decode? (encode m ++ rest) = some m) ∧
    ∀ (m : Response Binary64) (rest : List UInt8), (encode m).length < UInt64.size →
      decode? (encode m ++ rest) = some m :=
  ⟨decode?_encode_append, decode?_encode_append⟩

private def strangeLoad : Request Binary64 :=
  .heartbeat ⟨"w\n", 4294967295, ⟨0xfff0000000000001⟩⟩

private def crowdedReport : Response Binary64 :=
  .metrics ⟨65536, 251, .ofList [("b", 250), ("a", 18446744073709551615)], ⟨0x8000000000000000⟩,
    []⟩

theorem message_decode_encode_at_bounds :
    (encode strangeLoad).length = 17 ∧
      decode? (encode strangeLoad ++ [255]) = some strangeLoad ∧
    (encode crowdedReport).length = 33 ∧
      decode? (encode crowdedReport ++ [0, 1]) = some crowdedReport := by
  have hload : (encode strangeLoad).length = 17 := by decide +kernel
  have hreport : (encode crowdedReport).length = 33 := by decide +kernel
  refine ⟨hload, message_decode_encode.1 _ _ ?_, hreport, message_decode_encode.2 _ _ ?_⟩
  · rw [hload]
    decide
  · rw [hreport]
    decide

end Wire

end LayerPipeline
