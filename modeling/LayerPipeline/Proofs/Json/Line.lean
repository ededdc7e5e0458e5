import LayerPipeline.Proofs.Json.Reading
import LayerPipeline.Text.Blank
import LayerPipeline.Wire.Codec

/-!
# Compact documents are lines

In a document on one line there are no control characters at all: those in strings are escaped, and
nothing else brings any in. So its bytes hold neither a line feed nor a carriage return, and lines
of such documents are taken apart as they were put together.
-/

namespace LayerPipeline

namespace Json

/-! ## Texts without control characters -/

/-- There are no control characters in a text. -/
def Inline (text : String) : Prop := ∀ c ∈ text.toList, 0x20 ≤ c.toNat

instance (text : String) : Decidable (Inline text) :=
  List.decidableBAll _ text.toList

theorem Inline.append {a b : String} (ha : Inline a) (hb : Inline b) : Inline (a ++ b) := by
  intro c hc
  rw [String.toList_append, List.mem_append] at hc
  exact hc.elim (ha c) (hb c)

theorem Numeric.inline {text : String} (h : Numeric text) : Inline text := by
  intro c hc
  have hnumeric := h c hc
  simp only [isNumeric, Char.isDigit, Bool.or_eq_true, Bool.and_eq_true, decide_eq_true_eq]
    at hnumeric
  rcases hnumeric with (((⟨hlow, -⟩ | rfl) | rfl) | rfl) | rfl
  · exact Nat.le_trans (by decide) (UInt32.le_iff_toNat_le.mp hlow)
  all_goals decide

theorem hexChar_control :
    ∀ n < 0x20, 0x20 ≤ (hexChar (n / 16)).toNat ∧ 0x20 ≤ (hexChar (n % 16)).toNat := by
  decide

theorem escape_control (c : Char) : (escape c).all (fun d => 0x20 ≤ d.toNat) = true := by
  unfold escape
  split
  case h_8 =>
    split
    · next hcontrol => simp [hexChar_control _ hcontrol]
    · next hplain => simpa using hplain
  all_goals rfl

theorem inline_quoted (text : String) : Inline (quoted text) := by
  refine .append (.append (by decide) ?_) (by decide)
  intro c hc
  rw [String.toList_ofList, List.mem_flatMap] at hc
  obtain ⟨d, -, hd⟩ := hc
  simpa using List.all_eq_true.mp (escape_control d) c hd

theorem inline_write (x : Binary64) : Inline (Decimal.write numberStyle x) := by
  by_cases hfinite : x.isFinite = true
  · exact (numeric_write hfinite).inline
  · unfold Decimal.write
    split
    · decide
    · rw [if_pos (by simpa using hfinite)]
      exact show Inline ("" ++ "null") by decide

theorem inline_numeralText (integral : Bool) (d : Decimal) : Inline (numeralText integral d) := by
  unfold numeralText
  split
  · exact ((numeric_signText _).append (numeric_positional _ _ (by decide))).inline
  · exact inline_write _

theorem inline_lineBreak (depth : Nat) : Inline (Spacing.compact.lineBreak depth) := by
  change Inline ""
  decide

mutual

theorem inline_render (depth : Nat) : (j : Json) → Inline (render .compact depth j)
  | .null => by
    rw [render]
    decide
  | .bool b => by
    rw [render]
    cases b <;> decide
  | .number integral d => by
    rw [render]
    exact inline_numeralText integral d
  | .float x => by
    rw [render]
    exact inline_write x
  | .string t => by
    rw [render]
    exact inline_quoted _
  | .array [] => by
    rw [render]
    decide
  | .array (x :: xs) => by
    rw [render]
    exact ((((Inline.append (by decide) (inline_lineBreak _)).append (inline_render _ x)).append
      (inline_renderItems _ xs)).append (inline_lineBreak _)).append (by decide)
  | .object [] => by
    rw [render]
    decide
  | .object ((name, x) :: ms) => by
    rw [render]
    exact ((((((Inline.append (by decide) (inline_lineBreak _)).append (inline_quoted _)).append
      (by decide)).append (inline_render _ x)).append (inline_renderMembers _ ms)).append
      (inline_lineBreak _)).append (by decide)

theorem inline_renderItems (depth : Nat) : (xs : List Json) → Inline (renderItems .compact depth xs)
  | [] => by
    rw [renderItems]
    decide
  | x :: xs => by
    rw [renderItems]
    exact ((Inline.append (by decide) (inline_lineBreak _)).append (inline_render _ x)).append
      (inline_renderItems _ xs)

theorem inline_renderMembers (depth : Nat) :
    (ms : List (Option String × Json)) → Inline (renderMembers .compact depth ms)
  | [] => by
    rw [renderMembers]
    decide
  | (name, x) :: ms => by
    rw [renderMembers]
    exact ((((Inline.append (by decide) (inline_lineBreak _)).append (inline_quoted _)).append
      (by decide)).append (inline_render _ x)).append (inline_renderMembers _ ms)

end

/-- A document on one line has no control characters. -/
theorem inline_compact (j : Json) : Inline j.compact := inline_render 0 j

/-- The line of an object is not blank. -/
theorem not_blank_compact_obj (ms : List (String × Json)) :
    (obj ms).compact.toList.all Text.isBlank = false := by
  have hbrace : Text.isBlank '\x7b' = false := by decide
  cases ms with
  | nil => simp [compact, obj, render, hbrace]
  | cons m ms => simp [compact, obj, render, hbrace]

end Json

/-! ## Bytes -/

namespace Wire

theorem bytesOfText_eq_flatMap (s : String) :
    bytesOfText s = s.toList.flatMap String.utf8EncodeChar := by
  rw [bytesOfText, String.toUTF8_eq_toByteArray, ← String.utf8Encode_toList, List.utf8Encode]
  simp

theorem bytesOfText_append (s t : String) :
    bytesOfText (s ++ t) = bytesOfText s ++ bytesOfText t := by
  simp [bytesOfText_eq_flatMap]

theorem bytesOfText_join (texts : List String) :
    bytesOfText (String.join texts) = texts.flatMap bytesOfText := by
  induction texts with
  | nil => rfl
  | cons text texts ih => rw [String.join_cons, bytesOfText_append, ih, List.flatMap_cons]

theorem le_of_mem_utf8EncodeChar {c : Char} (h : 0x20 ≤ c.toNat) {b : UInt8}
    (hb : b ∈ String.utf8EncodeChar c) : 0x20 ≤ b.toNat := by
  have hcode : 0x20 ≤ c.val.toNat := h
  unfold String.utf8EncodeChar at hb
  dsimp only at hb
  generalize c.val.toNat = code at *
  -- One byte is the code itself; of several bytes each has its top bit set.
  split_ifs at hb <;> simp only [List.mem_cons, List.not_mem_nil, or_false] at hb
  · rw [hb, UInt8.toNat_ofNat']
    omega
  · rcases hb with rfl | rfl <;> rw [UInt8.toNat_ofNat'] <;> omega
  · rcases hb with rfl | rfl | rfl <;> rw [UInt8.toNat_ofNat'] <;> omega
  · rcases hb with rfl | rfl | rfl | rfl <;> rw [UInt8.toNat_ofNat'] <;> omega

theorem not_mem_bytesOfText {text : String} (h : Json.Inline text) {b : UInt8}
    (hb : b.toNat < 0x20) : b ∉ bytesOfText text := by
  intro hmem
  rw [bytesOfText_eq_flatMap, List.mem_flatMap] at hmem
  obtain ⟨c, hc, hmem⟩ := hmem
  exact Nat.not_lt_of_le (le_of_mem_utf8EncodeChar (h c hc) hmem) hb

end Wire

/-! ## Lines -/

namespace Text

variable {β : Type} [DecidableEq β] {feed ret : β}

theorem splitLines_cons {c : β} (h : c ≠ feed) (before rest : List β) :
    splitLines feed ret before (c :: rest) = splitLines feed ret (c :: before) rest := by
  cases before <;> rw [splitLines, if_neg h]

theorem splitLines_feed {before : List β} (h : ret ∉ before) (rest : List β) :
    splitLines feed ret before (feed :: rest) =
      before.reverse :: splitLines feed ret [] rest := by
  cases before with
  | nil => simp [splitLines]
  | cons c before =>
    have hc : c ≠ ret := fun heq => h (heq ▸ List.mem_cons_self)
    simp [splitLines, hc]

theorem splitLines_append {line : List β} (hfeed : feed ∉ line) (before rest : List β) :
    splitLines feed ret before (line ++ rest) =
      splitLines feed ret (line.reverse ++ before) rest := by
  induction line generalizing before with
  | nil => rfl
  | cons c line ih =>
    have hc : c ≠ feed := fun h => hfeed (h ▸ List.mem_cons_self)
    rw [List.cons_append, splitLines_cons hc, ih fun h => hfeed (List.mem_cons_of_mem _ h)]
    simp

/-- Lines that each end with a line feed are taken apart as they were put together. -/
theorem splitLines_flatMap {lines : List (List β)}
    (h : ∀ line ∈ lines, feed ∉ line ∧ ret ∉ line) :
    splitLines feed ret [] (lines.flatMap (· ++ [feed])) = lines := by
  induction lines with
  | nil => rfl
  | cons line lines ih =>
    obtain ⟨hfeed, hret⟩ := h line List.mem_cons_self
    have hrest := ih fun l hl => h l (List.mem_cons_of_mem _ hl)
    rw [List.flatMap_cons, List.append_assoc, List.singleton_append, splitLines_append hfeed,
      splitLines_feed (by simpa using hret), hrest]
    simp

end Text

end LayerPipeline
