import LayerPipeline.Json.Reader
import LayerPipeline.Json.Writer
import Mathlib.Data.List.Forall2
import Mathlib.Data.List.TakeWhile

/-!
# Reading written documents

What the writer puts down for a string, a number or a composite is read as the value it stands for,
and the text behind it is left over. Only a number has no end of its own: what follows it must not
be able to continue it. Whether a floating-point number is read as the value it was written for is
not decided here; that its numeral is read the same way wherever it stands is.
-/

namespace LayerPipeline

namespace Json

/-! ## Texts that denote documents -/

/-- What follows a value cannot be taken for a part of a number. -/
def Delimited : List Char → Prop
  | [] => True
  | c :: _ => c.isDigit = false ∧ c ≠ '.' ∧ c ≠ 'e' ∧ c ≠ 'E'

/-- A text is read as a document, with what follows it left over. The text itself is long enough to
bound the steps. -/
def Denotes (text : String) (j : Json) : Prop :=
  ∀ fuel rest, text.length ≤ fuel → Delimited rest →
    readValue fuel (text.toList ++ rest) = some (j, rest)

theorem parse?_of_denotes {text : String} {j : Json} (h : Denotes text j) :
    parse? text = some j := by
  have hread := h (2 * text.toList.length + 2) [] (by rw [String.length_toList]; omega) trivial
  rw [List.append_nil] at hread
  simp [parse?, hread, skipBlanks]

/-! ## Blanks -/

/-- All characters are blanks. -/
def Blank (cs : List Char) : Prop := ∀ c ∈ cs, isBlank c = true

theorem skipBlanks_append {bs : List Char} (h : Blank bs) (cs : List Char) :
    skipBlanks (bs ++ cs) = skipBlanks cs := by
  simpa [skipBlanks] using List.dropWhile_append_of_pos h

theorem skipBlanks_cons {c : Char} (h : isBlank c = false) (cs : List Char) :
    skipBlanks (c :: cs) = c :: cs := by
  simp [skipBlanks, h]

theorem skipBlanks_skipBlanks (cs : List Char) : skipBlanks (skipBlanks cs) = skipBlanks cs := by
  induction cs with
  | nil => rfl
  | cons c cs ih =>
    by_cases h : isBlank c = true
    · simpa [skipBlanks, h] using ih
    · simp [skipBlanks, h]

theorem readValue_append {bs : List Char} (h : Blank bs) (fuel : Nat) (cs : List Char) :
    readValue fuel (bs ++ cs) = readValue fuel cs := by
  cases fuel with
  | zero => rfl
  | succ fuel => rw [readValue, readValue, skipBlanks_append h]

theorem readValue_skipBlanks (fuel : Nat) (cs : List Char) :
    readValue fuel (skipBlanks cs) = readValue fuel cs := by
  cases fuel with
  | zero => rfl
  | succ fuel => rw [readValue, readValue, skipBlanks_skipBlanks]

theorem delimited_append {bs cs : List Char} (h : Blank bs) (hcs : Delimited cs) :
    Delimited (bs ++ cs) := by
  cases bs with
  | nil => exact hcs
  | cons b bs =>
    have hb := h b List.mem_cons_self
    simp only [isBlank, Bool.or_eq_true, decide_eq_true_eq] at hb
    rcases hb with ((rfl | rfl) | rfl) | rfl <;> simp [Delimited]

/-! ## Words -/

theorem denotes_null : Denotes "null" .null := by
  intro fuel rest hfuel _
  cases fuel with
  | zero => simp at hfuel
  | succ fuel => simp [readValue, skipBlanks, isBlank, expect, show "ull".length = 3 from rfl]

theorem denotes_bool (b : Bool) : Denotes (if b then "true" else "false") (.bool b) := by
  intro fuel rest hfuel _
  cases fuel with
  | zero => cases b <;> simp at hfuel
  | succ fuel =>
    cases b with
    | false => simp [readValue, skipBlanks, isBlank, expect, show "alse".length = 4 from rfl]
    | true => simp [readValue, skipBlanks, isBlank, expect, show "rue".length = 3 from rfl]

/-! ## Strings -/

theorem hex4?_control :
    ∀ n < 0x20, hex4? '0' '0' (hexChar (n / 16)) (hexChar (n % 16)) = some n := by
  decide

theorem scanString_escape (c : Char) (units : List Nat) (rest : List Char) :
    scanString units (escape c ++ rest) = scanString (c.toNat :: units) rest := by
  unfold escape
  split
  case h_8 =>
    split
    · next hcontrol => simp [scanString, hex4?_control _ hcontrol]
    · next hplain =>
      rw [List.singleton_append, scanString.eq_def]
      split <;> simp_all [Nat.not_lt_of_le]
  all_goals rfl

theorem scanString_flatMap_escape (cs : List Char) (units : List Nat) (rest : List Char) :
    scanString units (cs.flatMap escape ++ '"' :: rest) =
      some (units.reverse ++ cs.map Char.toNat, rest) := by
  induction cs generalizing units with
  | nil => simp [scanString]
  | cons c cs ih => simp [List.append_assoc, scanString_escape, ih]

theorem not_surrogate (c : Char) :
    isHighSurrogate c.toNat = false ∧ isLowSurrogate c.toNat = false := by
  have hvalid : c.toNat < 0xD800 ∨ 0xDFFF < c.toNat ∧ c.toNat < 0x110000 := c.valid
  simp only [isHighSurrogate, isLowSurrogate, Bool.and_eq_false_iff, decide_eq_false_iff_not]
  omega

theorem assemble_map_toNat (cs done : List Char) :
    assemble done (cs.map Char.toNat) = some (String.ofList (done.reverse ++ cs)) := by
  induction cs generalizing done with
  | nil => simp [assemble]
  | cons c cs ih =>
    obtain ⟨hhigh, hlow⟩ := not_surrogate c
    cases cs with
    | nil => simp [assemble, hhigh, hlow]
    | cons d cs => simpa [assemble, hhigh, hlow] using ih (c :: done)

theorem readString_escape (text : String) (rest : List Char) :
    readString (text.toList.flatMap escape ++ '"' :: rest) = some (some text, rest) := by
  simp [readString, scanString_flatMap_escape, assemble_map_toNat]

theorem denotes_quoted (s : String) : Denotes (quoted s) (.str s) := by
  intro fuel rest hfuel _
  cases fuel with
  | zero => simp [quoted] at hfuel
  | succ fuel =>
    simp [quoted, readValue, skipBlanks_cons (c := '"') rfl, readString_escape, str]

/-! ## Numerals -/

/-- A reader takes something off the front of a text, and takes the same when more text follows. -/
def Local {β : Type} (read : List Char → Option (β × List Char)) : Prop :=
  ∀ cs b r, read cs = some (b, r) →
    r <:+ cs ∧ ∀ rest, Delimited rest → read (cs ++ rest) = some (b, r ++ rest)

theorem Delimited.span {rest : List Char} (h : Delimited rest) (cs : List Char) :
    (cs ++ rest).takeWhile Char.isDigit = cs.takeWhile Char.isDigit ∧
      (cs ++ rest).dropWhile Char.isDigit = cs.dropWhile Char.isDigit ++ rest := by
  induction cs with
  | nil =>
    cases rest with
    | nil => simp
    | cons c rest => simp [h.1]
  | cons c cs ih => by_cases hc : c.isDigit = true <;> simp [hc, ih]

theorem local_readDigits : Local readDigits := by
  intro cs ds r h
  simp only [readDigits] at h
  split at h
  · cases h
  · next hsome =>
    cases h
    refine ⟨List.dropWhile_suffix _, fun rest hrest => ?_⟩
    obtain ⟨htake, hdrop⟩ := hrest.span cs
    simp only [readDigits, htake, hdrop]
    rw [if_neg hsome]

theorem local_readWhole : Local readWhole := by
  intro cs ds r h
  unfold readWhole at h
  split at h
  · cases h
    exact ⟨List.suffix_cons _ _, fun rest _ => rfl⟩
  · next hnonzero =>
    obtain ⟨hsuffix, happend⟩ := local_readDigits cs ds r h
    refine ⟨hsuffix, fun rest hrest => ?_⟩
    cases cs with
    | nil => simp [readDigits] at h
    | cons c cs =>
      rw [← happend rest hrest, List.cons_append, readWhole]
      simpa using hnonzero

theorem local_readFraction : Local readFraction := by
  intro cs ds r h
  unfold readFraction at h
  split at h
  · next cs =>
    obtain ⟨hsuffix, happend⟩ := local_readDigits cs ds r h
    exact ⟨hsuffix.trans (List.suffix_cons _ _), fun rest hrest => happend rest hrest⟩
  · next hpoint =>
    cases h
    refine ⟨List.suffix_rfl, fun rest hrest => ?_⟩
    rw [readFraction]
    intro cs' heq
    cases cs with
    | nil =>
      rw [List.nil_append] at heq
      subst heq
      exact hrest.2.1 rfl
    | cons c cs => exact hpoint _ (by rw [List.cons_append] at heq; rw [(List.cons.inj heq).1])

theorem Local.map {β γ : Type} {read : List Char → Option (β × List Char)} (h : Local read)
    (f : β → γ) : Local fun cs => (read cs).map fun x => (f x.1, x.2) := by
  intro cs c r hread
  obtain ⟨⟨b, r⟩, hb, heq⟩ := Option.map_eq_some_iff.mp hread
  cases heq
  obtain ⟨hsuffix, happend⟩ := h _ _ _ hb
  refine ⟨hsuffix, fun rest hrest => ?_⟩
  simp only [happend rest hrest, Option.map_some]

/-- The exponent that a sign and digits stand for. -/
private def signedExponent (negative : Bool) (ds : List Char) : Option Int :=
  some (if negative then -(natOfDigits ds : Int) else natOfDigits ds)

/-- What stands behind the mark of an exponent: a sign, if there is one, and digits. -/
private def readSigned (cs : List Char) : Option (Option Int × List Char) :=
  match cs with
  | '-' :: rest => (readDigits rest).map fun x => (signedExponent true x.1, x.2)
  | '+' :: rest => (readDigits rest).map fun x => (signedExponent false x.1, x.2)
  | _ => (readDigits cs).map fun x => (signedExponent false x.1, x.2)

private theorem readExponent_cons (c : Char) (cs : List Char) :
    readExponent (c :: cs) =
      if c = 'e' || c = 'E' then readSigned cs else some (none, c :: cs) := rfl

private theorem local_readSigned : Local readSigned := by
  intro cs e r h
  unfold readSigned at h
  split at h
  · next cs =>
    obtain ⟨hsuffix, happend⟩ := local_readDigits.map (signedExponent true) cs e r h
    exact ⟨hsuffix.trans (List.suffix_cons _ _), fun rest hrest => happend rest hrest⟩
  · next cs =>
    obtain ⟨hsuffix, happend⟩ := local_readDigits.map (signedExponent false) cs e r h
    exact ⟨hsuffix.trans (List.suffix_cons _ _), fun rest hrest => happend rest hrest⟩
  · next hminus hplus =>
    obtain ⟨hsuffix, happend⟩ := local_readDigits.map (signedExponent false) cs e r h
    refine ⟨hsuffix, fun rest hrest => ?_⟩
    cases cs with
    | nil => simp [readDigits] at h
    | cons c cs =>
      -- with a character in front, what follows cannot put a sign there
      rw [← happend rest hrest, List.cons_append, readSigned]
      · simpa using hminus
      · simpa using hplus

theorem local_readExponent : Local readExponent := by
  intro cs e r h
  cases cs with
  | nil =>
    cases h
    refine ⟨List.suffix_rfl, fun rest hrest => ?_⟩
    cases rest with
    | nil => rfl
    | cons c rest => simp [readExponent, hrest.2.2]
  | cons c cs =>
    rw [readExponent_cons] at h
    split at h
    · next hmark =>
      obtain ⟨hsuffix, happend⟩ := local_readSigned cs e r h
      refine ⟨hsuffix.trans (List.suffix_cons _ _), fun rest hrest => ?_⟩
      rw [List.cons_append, readExponent_cons, if_pos hmark, happend rest hrest]
    · next hmark =>
      cases h
      refine ⟨List.suffix_rfl, fun rest _ => ?_⟩
      rw [List.cons_append, readExponent_cons, if_neg hmark]

theorem local_readMagnitude (negative : Bool) : Local (readMagnitude negative) := by
  intro cs j r h
  unfold readMagnitude at h
  simp only [Option.bind_eq_bind, Option.bind_eq_some_iff] at h
  obtain ⟨⟨whole, cs₁⟩, hwhole, ⟨fraction, cs₂⟩, hfraction, ⟨exponent, cs₃⟩, hexponent, h⟩ := h
  obtain ⟨hsuffix₁, happend₁⟩ := local_readWhole _ _ _ hwhole
  obtain ⟨hsuffix₂, happend₂⟩ := local_readFraction _ _ _ hfraction
  obtain ⟨hsuffix₃, happend₃⟩ := local_readExponent _ _ _ hexponent
  cases h
  refine ⟨hsuffix₃.trans (hsuffix₂.trans hsuffix₁), fun rest hrest => ?_⟩
  simp [readMagnitude, happend₁ rest hrest, happend₂ rest hrest, happend₃ rest hrest]

/-- The characters that numerals are written with. -/
def isNumeric (c : Char) : Bool := c.isDigit || c = '.' || c = 'e' || c = '+' || c = '-'

/-- All characters are such that numerals are written with. -/
def Numeric (text : String) : Prop := ∀ c ∈ text.toList, isNumeric c = true

instance (text : String) : Decidable (Numeric text) :=
  List.decidableBAll _ text.toList

theorem not_isBlank_of_isNumeric {c : Char} (h : isNumeric c = true) : isBlank c = false := by
  cases hblank : isBlank c with
  | false => rfl
  | true =>
    simp only [isBlank, Bool.or_eq_true, decide_eq_true_eq] at hblank
    rcases hblank with ((rfl | rfl) | rfl) | rfl <;> simp [isNumeric] at h

theorem readValue_numeric {c : Char} (h : isNumeric c = true) (fuel : Nat) (cs : List Char) :
    readValue (fuel + 1) (c :: cs) =
      if c = '-' then readMagnitude true cs else readMagnitude false (c :: cs) := by
  have hskip : skipBlanks (c :: cs) = c :: cs := by
    simp [skipBlanks, not_isBlank_of_isNumeric h]
  rw [readValue, hskip]
  split <;> simp_all [isNumeric]

theorem eq_nil_of_skipBlanks {cs : List Char} (hnumeric : ∀ c ∈ cs, isNumeric c = true)
    (h : skipBlanks cs = []) : cs = [] := by
  cases cs with
  | nil => rfl
  | cons c cs =>
    have hc := not_isBlank_of_isNumeric (hnumeric c List.mem_cons_self)
    simp [skipBlanks, hc] at h

/-- A text of the characters of numerals that is read to its end is read the same way when more
text follows. -/
theorem readValue_append_of_numeric {cs r : List Char} {j : Json} {k : Nat}
    (hnumeric : ∀ c ∈ cs, isNumeric c = true) (hread : readValue (k + 1) cs = some (j, r))
    (hblank : skipBlanks r = []) (fuel : Nat) {rest : List Char} (hrest : Delimited rest) :
    readValue (fuel + 1) (cs ++ rest) = some (j, rest) := by
  cases cs with
  | nil => simp [readValue, skipBlanks] at hread
  | cons c cs =>
    have hc := hnumeric c List.mem_cons_self
    rw [readValue_numeric hc] at hread
    rw [List.cons_append, readValue_numeric hc]
    -- nothing is left of a numeral but blanks, and it has none
    have hend : ∀ {cs' : List Char}, cs' <:+ c :: cs → r <:+ cs' → r = [] := fun hcs' hr =>
      eq_nil_of_skipBlanks (fun d hd => hnumeric d ((hr.trans hcs').subset hd)) hblank
    split at hread
    · next hminus =>
      obtain ⟨hsuffix, happend⟩ := local_readMagnitude true _ _ _ hread
      rw [if_pos hminus, happend rest hrest, hend (List.suffix_cons _ _) hsuffix, List.nil_append]
    · next hminus =>
      obtain ⟨hsuffix, happend⟩ := local_readMagnitude false _ _ _ hread
      rw [if_neg hminus, ← List.cons_append, happend rest hrest, hend List.suffix_rfl hsuffix,
        List.nil_append]

/-- A numeral is read the same way wherever it stands. -/
theorem denotes_of_parse? {text : String} {j : Json} (hnumeric : Numeric text)
    (h : parse? text = some j) : Denotes text j := by
  intro fuel rest hfuel hrest
  unfold parse? at h
  cases hread : readValue (2 * text.toList.length + 2) text.toList with
  | none => simp [hread] at h
  | some read =>
    obtain ⟨j', r⟩ := read
    simp only [hread, Option.ite_none_right_eq_some, List.isEmpty_iff, Option.some.injEq] at h
    obtain ⟨hblank, rfl⟩ := h
    cases fuel with
    | zero =>
      -- only the empty text asks for no steps, and it is not read at all
      have hempty : text.toList = [] := List.length_eq_zero_iff.mp (by simpa using hfuel)
      simp [hempty, readValue, skipBlanks] at hread
    | succ fuel => exact readValue_append_of_numeric hnumeric hread hblank fuel hrest

theorem head_toDigits_ne_zero {n : Nat} (h : n ≠ 0) (cs : List Char) :
    Nat.toDigits 10 n ≠ '0' :: cs := by
  induction n using Nat.strongRecOn generalizing cs with
  | ind n ih =>
    rw [Nat.toDigits_eq_if (by decide)]
    split
    · simp [h]
    · next hlarge =>
      cases hdigits : Nat.toDigits 10 (n / 10) with
      | nil => exact absurd hdigits Nat.toDigits_ne_nil
      | cons d ds =>
        intro heq
        rw [List.cons_append] at heq
        refine ih (n / 10) (by omega) (by omega) ds ?_
        rw [hdigits, (List.cons.inj heq).1]

theorem le_ofDigitChars (cs : List Char) (n : Nat) : n ≤ Nat.ofDigitChars 10 cs n := by
  rw [Nat.ofDigitChars_eq_ofDigitChars_zero]
  have hpos : 0 < 10 ^ cs.length := Nat.pow_pos (by decide)
  have hle : 1 * n ≤ 10 ^ cs.length * n := Nat.mul_le_mul_right n hpos
  omega

theorem appendDigits_eq {cs : List Char} {n : Nat} (h : Nat.ofDigitChars 10 cs n < UInt64.size) :
    appendDigits n cs = (Nat.ofDigitChars 10 cs n, cs.length) := by
  induction cs generalizing n with
  | nil => rfl
  | cons c cs ih =>
    rw [Nat.ofDigitChars_cons, Nat.mul_comm] at h ⊢
    have hnext := Nat.lt_of_le_of_lt (le_ofDigitChars cs _) h
    simp only [appendDigits, ih h, if_pos hnext, List.length_cons]

theorem readMagnitude_toDigits {n : Nat} (h : n < UInt64.size) :
    readMagnitude false (Nat.toDigits 10 n) = some (.nat n, []) := by
  have hdigit : ∀ c ∈ Nat.toDigits 10 n, c.isDigit = true :=
    fun c hc => Nat.isDigit_of_mem_toDigits (by decide) (by decide) hc
  have hdigits : readDigits (Nat.toDigits 10 n) = some (Nat.toDigits 10 n, []) := by
    rw [readDigits, List.takeWhile_eq_self_iff.mpr hdigit, List.dropWhile_eq_nil_iff.mpr hdigit]
    simp [Nat.toDigits_ne_nil]
  have hwhole : readWhole (Nat.toDigits 10 n) = some (Nat.toDigits 10 n, []) := by
    by_cases hzero : n = 0
    · rw [hzero]
      rfl
    · rw [readWhole, hdigits]
      exact fun cs => head_toDigits_ne_zero hzero cs
  have hvalue : appendDigits 0 (Nat.toDigits 10 n) = (n, (Nat.toDigits 10 n).length) := by
    have hfits : Nat.ofDigitChars 10 (Nat.toDigits 10 n) 0 < UInt64.size := by
      rwa [Nat.ofDigitChars_ten_toDigits]
    rw [appendDigits_eq hfits, Nat.ofDigitChars_ten_toDigits]
  simp [readMagnitude, hwhole, hvalue, readFraction, readExponent, appendDigits, nat]

theorem isNumeric_of_mem_toDigits {n : Nat} {c : Char} (h : c ∈ Nat.toDigits 10 n) :
    isNumeric c = true := by
  simp [isNumeric, Nat.isDigit_of_mem_toDigits (by decide) (by decide) h]

/-- The text of a natural number. -/
theorem toList_numeralText (n : Nat) :
    (numeralText true ⟨false, n, 0⟩).toList = Nat.toDigits 10 n := by
  by_cases h : n = 0
  · rw [h]
    rfl
  · simp [numeralText, Decimal.signText, Decimal.positional, h]

theorem denotes_nat {n : Nat} (h : n < UInt64.size) :
    Denotes (numeralText true ⟨false, n, 0⟩) (.nat n) := by
  refine denotes_of_parse? ?_ ?_
  · rw [Numeric, toList_numeralText]
    exact fun c hc => isNumeric_of_mem_toDigits hc
  · have hread := readMagnitude_toDigits h
    rw [parse?, toList_numeralText]
    cases hdigits : Nat.toDigits 10 n with
    | nil => exact absurd hdigits Nat.toDigits_ne_nil
    | cons c cs =>
      have hmem : c ∈ Nat.toDigits 10 n := hdigits ▸ List.mem_cons_self
      have hplus : c ≠ '-' := by
        rintro rfl
        exact absurd (Nat.isDigit_of_mem_toDigits (by decide) (by decide) hmem) (by decide)
      rw [hdigits] at hread
      simp [readValue_numeric (isNumeric_of_mem_toDigits hmem), hplus, hread, skipBlanks]

theorem Numeric.append {a b : String} (ha : Numeric a) (hb : Numeric b) : Numeric (a ++ b) := by
  intro c hc
  rw [String.toList_append, List.mem_append] at hc
  exact hc.elim (ha c) (hb c)

theorem Numeric.ite {p : Prop} [Decidable p] {a b : String} (ha : Numeric a) (hb : Numeric b) :
    Numeric (if p then a else b) := by
  split
  · exact ha
  · exact hb

theorem numeric_ofList {cs : List Char} (h : ∀ c ∈ cs, isNumeric c = true) :
    Numeric (String.ofList cs) := by
  rwa [Numeric, String.toList_ofList]

theorem isNumeric_zeros {n : Nat} {c : Char} (h : c ∈ List.replicate n '0') :
    isNumeric c = true := by
  rw [List.eq_of_mem_replicate h]
  decide

theorem numeric_positional (digits : Nat) (exponent : Int) {places : String}
    (hplaces : Numeric places) : Numeric (Decimal.positional digits exponent places) := by
  unfold Decimal.positional
  dsimp only
  split
  · split
    · exact .append (by decide) hplaces
    · refine .append (numeric_ofList fun c hc => ?_) hplaces
      exact (List.mem_append.mp hc).elim isNumeric_of_mem_toDigits isNumeric_zeros
  · have hpadded : ∀ {n c}, c ∈ List.replicate n '0' ++ Nat.toDigits 10 digits →
        isNumeric c = true :=
      fun hc => (List.mem_append.mp hc).elim isNumeric_zeros isNumeric_of_mem_toDigits
    refine .append (.append ?_ (by decide)) ?_
    · exact numeric_ofList fun c hc => hpadded (List.mem_of_mem_take hc)
    · exact numeric_ofList fun c hc => hpadded (List.mem_of_mem_drop hc)

theorem numeric_scientific (d : Decimal) : Numeric (Decimal.scientific numberStyle d) := by
  refine .append (.append (.append (.append ?_ ?_) (by decide)) ?_) ?_
  · exact numeric_ofList fun c hc => isNumeric_of_mem_toDigits (List.mem_of_mem_take hc)
  · refine .ite (by decide) (.append (by decide) (numeric_ofList fun c hc => ?_))
    exact isNumeric_of_mem_toDigits (List.mem_of_mem_drop hc)
  · exact .ite (by decide) (by decide)
  · rw [Nat.toString_eq_ofList_toDigits]
    exact numeric_ofList fun c hc => isNumeric_of_mem_toDigits hc

theorem numeric_signText (negative : Bool) : Numeric (Decimal.signText negative) :=
  .ite (by decide) (by decide)

/-- A finite number is written with the characters of numerals. -/
theorem numeric_write {x : Binary64} (h : x.isFinite = true) :
    Numeric (Decimal.write numberStyle x) := by
  have hnumber : x.isNaN = false := by
    simp only [Binary64.isFinite, Binary64.isNaN, decide_eq_true_eq, decide_eq_false_iff_not] at h ⊢
    omega
  unfold Decimal.write
  simp only [hnumber, h, Bool.false_eq_true, if_false, Bool.not_true]
  refine .append ?_ ?_
  · exact numeric_signText _
  · exact .ite (numeric_positional _ _ (by decide)) (numeric_scientific _)

/-! ## Composites -/

/-- Nothing but blanks stands between the tokens, apart from the colons and commas. -/
structure Spacing.Loose (s : Spacing) : Prop where
  lineBreak : ∀ depth, Blank (s.lineBreak depth).toList
  colon : ∃ bs, Blank bs ∧ s.colon.toList = ':' :: bs

theorem loose_compact : Spacing.compact.Loose where
  lineBreak _ := by simp [Spacing.compact, Blank]
  colon := ⟨[], by simp [Blank], rfl⟩

theorem blank_pushn {text : String} (h : Blank text.toList) (n : Nat) :
    Blank (text.pushn ' ' n).toList := by
  induction n with
  | zero => exact h
  | succ n ih =>
    have hpush : text.pushn ' ' (n + 1) = (text.pushn ' ' n).push ' ' := by
      simp [String.pushn_eq_repeat_push, Nat.repeat]
    intro c hc
    rw [hpush, String.toList_push, List.mem_append, List.mem_singleton] at hc
    rcases hc with hc | rfl
    · exact ih c hc
    · rfl

theorem loose_indented : Spacing.indented.Loose where
  lineBreak depth := blank_pushn (by simp [Blank, isBlank]) (2 * depth)
  colon := ⟨[' '], by simp [Blank, isBlank], rfl⟩

section Composite

variable {s : Spacing} {depth : Nat} {bs rest : List Char}

theorem delimited_items (hbs : Blank bs) (xs : List Json) :
    Delimited ((renderItems s depth xs).toList ++ (bs ++ ']' :: rest)) := by
  cases xs with
  | nil =>
    have hclose : Delimited (']' :: rest) := by simp [Delimited]
    simpa [renderItems] using delimited_append hbs hclose
  | cons x xs => simp [renderItems, Delimited]

theorem readItems_append {bs : List Char} (h : Blank bs) (fuel : Nat) (cs : List Char)
    (done : List Json) : readItems fuel (bs ++ cs) done = readItems fuel cs done := by
  cases fuel with
  | zero => rfl
  | succ fuel => rw [readItems, readItems, readValue_append h]

/-- The items of an array are read one after the other, up to its bracket. -/
theorem readItems_render (hs : s.Loose) {x y : Json} {xs ys : List Json}
    (hx : Denotes (render s depth x) y)
    (hxs : List.Forall₂ (fun x y => Denotes (render s depth x) y) xs ys) (hbs : Blank bs)
    (rest : List Char) (fuel : Nat) (done : List Json)
    (hfuel : (render s depth x).length + (renderItems s depth xs).length < fuel) :
    readItems fuel ((render s depth x).toList ++ ((renderItems s depth xs).toList ++
      (bs ++ ']' :: rest))) done = some (done.reverse ++ y :: ys, rest) := by
  have hcomma : ",".length = 1 := rfl
  induction hxs generalizing x y fuel done with
  | nil =>
    cases fuel with
    | zero => omega
    | succ fuel =>
      rw [readItems, hx fuel _ (by omega) (delimited_items hbs [])]
      simp [renderItems, skipBlanks_append hbs, skipBlanks_cons (c := ']') rfl]
  | @cons x' y' xs ys hx' _ ih =>
    cases fuel with
    | zero => omega
    | succ fuel =>
      rw [readItems, hx fuel _ (by omega) (delimited_items hbs (x' :: xs))]
      simp only [renderItems, String.length_append] at hfuel
      have hnext := ih hx' fuel (y :: done) (by omega)
      rw [← readItems_append (hs.lineBreak depth)] at hnext
      simpa [renderItems, skipBlanks_cons (c := ',') rfl] using hnext

theorem readValue_bracket (fuel : Nat) (cs : List Char) : readValue fuel (']' :: cs) = none := by
  cases fuel with
  | zero => rfl
  | succ fuel =>
    simp [readValue, skipBlanks_cons (c := ']') rfl, readMagnitude, readWhole, readDigits]

theorem readItems_skipBlanks (fuel : Nat) (cs : List Char) (done : List Json) :
    readItems fuel (skipBlanks cs) done = readItems fuel cs done := by
  cases fuel with
  | zero => rfl
  | succ fuel => rw [readItems, readItems, readValue_skipBlanks]

theorem readItems_bracket (fuel : Nat) (cs : List Char) (done : List Json) :
    readItems fuel (']' :: cs) done = none := by
  cases fuel with
  | zero => rfl
  | succ fuel => rw [readItems, readValue_bracket]

theorem denotes_array (hs : s.Loose) {xs ys : List Json}
    (h : List.Forall₂ (fun x y => Denotes (render s (depth + 1) x) y) xs ys) :
    Denotes (render s depth (.array xs)) (.array ys) := by
  intro fuel rest hfuel _
  cases h with
  | nil =>
    cases fuel with
    | zero => simp [render] at hfuel
    | succ fuel =>
      simp [render, readValue, skipBlanks_cons (c := '[') rfl, skipBlanks_cons (c := ']') rfl]
  | @cons x y xs ys hx hxs =>
    simp only [render, String.length_append, show "[".length = 1 from rfl,
      show "]".length = 1 from rfl] at hfuel
    cases fuel with
    | zero => omega
    | succ fuel =>
      have hitems := readItems_render hs hx hxs (hs.lineBreak depth) rest fuel [] (by omega)
      rw [← readItems_append (hs.lineBreak (depth + 1)), ← readItems_skipBlanks] at hitems
      simp only [render, String.toList_append, List.append_assoc, show "[".toList = ['['] from rfl,
        show "]".toList = [']'] from rfl, List.cons_append, List.nil_append, readValue,
        skipBlanks_cons (c := '[') rfl]
      split
      · next heq =>
        rw [heq, readItems_bracket] at hitems
        cases hitems
      · rw [hitems]
        rfl

theorem delimited_members (hbs : Blank bs) (ms : List (Option String × Json)) :
    Delimited ((renderMembers s depth ms).toList ++ (bs ++ '}' :: rest)) := by
  cases ms with
  | nil =>
    have hclose : Delimited ('}' :: rest) := by simp [Delimited]
    simpa [renderMembers] using delimited_append hbs hclose
  | cons m ms => simp [renderMembers, Delimited]

theorem readMembers_append (hbs : Blank bs) (fuel : Nat) (cs : List Char)
    (done : List (Option String × Json)) :
    readMembers fuel (bs ++ cs) done = readMembers fuel cs done := by
  cases fuel with
  | zero => rfl
  | succ fuel => rw [readMembers, readMembers, skipBlanks_append hbs]

theorem readMembers_skipBlanks (fuel : Nat) (cs : List Char) (done : List (Option String × Json)) :
    readMembers fuel (skipBlanks cs) done = readMembers fuel cs done := by
  cases fuel with
  | zero => rfl
  | succ fuel => rw [readMembers, readMembers, skipBlanks_skipBlanks]

theorem readMembers_brace (fuel : Nat) (cs : List Char) (done : List (Option String × Json)) :
    readMembers fuel ('}' :: cs) done = none := by
  cases fuel with
  | zero => rfl
  | succ fuel => simp [readMembers, skipBlanks_cons (c := '}') rfl]

/-- A member reads as another if it has its name and its value reads as the other's. -/
def DenotesMember (s : Spacing) (depth : Nat) (w r : String × Json) : Prop :=
  r.1 = w.1 ∧ Denotes (render s depth w.2) r.2

/-- The members of an object, with names that are all texts. -/
def named (ms : List (String × Json)) : List (Option String × Json) :=
  ms.map fun m => (some m.1, m.2)

theorem named_cons (m : String × Json) (ms : List (String × Json)) :
    named (m :: ms) = (some m.1, m.2) :: named ms :=
  rfl

theorem obj_eq (ms : List (String × Json)) : obj ms = .object (named ms) := rfl

/-- What follows a member of an object: another one behind a comma, or the end. -/
def afterMember (fuel : Nat) (done : List (Option String × Json)) :
    List Char → Option (List (Option String × Json) × List Char)
  | ',' :: rest => readMembers fuel rest done
  | '}' :: rest => some (done.reverse, rest)
  | _ => none

/-- The first member of an object is read, and then what follows it. -/
theorem readMembers_first (hs : s.Loose) {w r : String × Json} (hw : DenotesMember s depth w r)
    {fuel : Nat} {cs : List Char} (hcs : Delimited cs) (hfuel : (render s depth w.2).length ≤ fuel)
    (done : List (Option String × Json)) :
    readMembers (fuel + 1) ((quoted w.1).toList ++ (s.colon.toList ++
      ((render s depth w.2).toList ++ cs))) done =
      afterMember fuel ((some r.1, r.2) :: done) (skipBlanks cs) := by
  obtain ⟨hname, hvalue⟩ := hw
  obtain ⟨bs, hbs, hcolon⟩ := hs.colon
  have hread := hvalue fuel cs hfuel hcs
  rw [← readValue_append hbs] at hread
  rw [quoted, readMembers]
  simp only [String.toList_append, String.toList_ofList, show "\"".toList = ['"'] from rfl,
    List.append_assoc, List.cons_append, List.nil_append, skipBlanks_cons (c := '"') rfl,
    readString_escape, hcolon, skipBlanks_cons (c := ':') rfl, hread, hname]
  rfl

/-- The members of an object are read one after the other, up to its brace. -/
theorem readMembers_render (hs : s.Loose) {w r : String × Json} {ws rs : List (String × Json)}
    (hw : DenotesMember s depth w r) (hws : List.Forall₂ (DenotesMember s depth) ws rs)
    (hbs : Blank bs) (rest : List Char) (fuel : Nat) (done : List (Option String × Json))
    (hfuel : (render s depth w.2).length + (renderMembers s depth (named ws)).length < fuel) :
    readMembers fuel ((quoted w.1).toList ++ (s.colon.toList ++ ((render s depth w.2).toList ++
      ((renderMembers s depth (named ws)).toList ++ (bs ++ '}' :: rest))))) done =
      some (done.reverse ++ named (r :: rs), rest) := by
  have hcomma : ",".length = 1 := rfl
  induction hws generalizing w r fuel done with
  | nil =>
    cases fuel with
    | zero => omega
    | succ fuel =>
      rw [readMembers_first hs hw (delimited_members hbs _) (by omega)]
      simp [afterMember, named, renderMembers, skipBlanks_append hbs,
        skipBlanks_cons (c := '}') rfl]
  | @cons w' r' ws rs hw' _ ih =>
    cases fuel with
    | zero => omega
    | succ fuel =>
      rw [readMembers_first hs hw (delimited_members hbs _) (by omega)]
      simp only [named_cons, renderMembers, String.length_append, hcomma] at hfuel
      have hnext := ih hw' fuel ((some r.1, r.2) :: done) (by omega)
      rw [← readMembers_append (hs.lineBreak depth)] at hnext
      simpa [afterMember, named_cons, renderMembers, skipBlanks_cons (c := ',') rfl] using hnext

theorem denotes_obj (hs : s.Loose) {ws rs : List (String × Json)}
    (h : List.Forall₂ (DenotesMember s (depth + 1)) ws rs) :
    Denotes (render s depth (.obj ws)) (.obj rs) := by
  intro fuel rest hfuel _
  cases h with
  | nil =>
    cases fuel with
    | zero => simp [obj, render] at hfuel
    | succ fuel =>
      simp [obj, render, readValue, skipBlanks_cons (c := '{') rfl, skipBlanks_cons (c := '}') rfl]
  | @cons w r ws rs hw hws =>
    simp only [obj_eq, named_cons, render, String.length_append, show "\x7b".length = 1 from rfl,
      show "\x7d".length = 1 from rfl] at hfuel
    cases fuel with
    | zero => omega
    | succ fuel =>
      have hmembers := readMembers_render hs hw hws (hs.lineBreak depth) rest fuel [] (by omega)
      rw [← readMembers_append (hs.lineBreak (depth + 1)), ← readMembers_skipBlanks] at hmembers
      simp only [obj_eq, named_cons, render, String.toList_append, List.append_assoc,
        show "\x7b".toList = ['{'] from rfl, show "\x7d".toList = ['}'] from rfl, List.cons_append,
        List.nil_append, readValue, skipBlanks_cons (c := '{') rfl, Option.getD_some]
      split
      · next heq =>
        rw [heq, readMembers_brace] at hmembers
        cases hmembers
      · rw [hmembers]
        rfl

end Composite

end Json

end LayerPipeline
