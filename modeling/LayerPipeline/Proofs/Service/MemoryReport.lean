import LayerPipeline.Proofs.Number.Machine
import LayerPipeline.Service.Probe

/-!
# Memory reports

A memory report is read line by line until both of its figures are there. So the lines up to the one
that completes them decide everything: the report is refused exactly if there is no such line, or
one of these lines has a key without a number, and otherwise the last number of each key counts.
-/

namespace LayerPipeline

namespace HostMemory

open Text

/-! ## What lines say -/

/-- Whether a word is a number below `2 ^ 64`: decimal digits, a plus sign in front allowed. -/
def IsCount (word : String) (n : ℕ) : Prop :=
  ∃ digits : List Char, (word.toList = digits ∨ word.toList = '+' :: digits) ∧ digits ≠ [] ∧
    (∀ c ∈ digits, c.isDigit) ∧ n = Nat.ofDigitChars 10 digits 0 ∧ n < 2 ^ 64

/-- Whether a line begins with a key and a number. -/
def HasFigure (key line : String) (n : ℕ) : Prop :=
  ∃ value rest, words line = key :: value :: rest ∧ IsCount value n

/-- Whether a line begins with one of the two keys and a word that is no number. -/
def Garbled (line : String) : Prop :=
  ∃ key value rest, words line = key :: value :: rest ∧
    (key = "MemTotal:" ∨ key = "MemAvailable:") ∧ ∀ n, ¬ IsCount value n

/-- The last number that some lines have for a key. -/
def LastFigure (key : String) (lines : List String) (n : ℕ) : Prop :=
  ∃ before line after, lines = before ++ line :: after ∧ HasFigure key line n ∧
    ∀ other ∈ after, ∀ k, ¬ HasFigure key other k

/-- Whether some lines have a number for each key. -/
def Complete (lines : List String) : Prop :=
  (∃ line ∈ lines, ∃ n, HasFigure "MemTotal:" line n) ∧
    ∃ line ∈ lines, ∃ n, HasFigure "MemAvailable:" line n

/-- The shortest part in front of some lines that is complete. -/
structure Decides (front lines : List String) : Prop where
  isPrefix : front <+: lines
  complete : Complete front
  shortest : ∀ shorter, shorter <+: lines → Complete shorter → front.length ≤ shorter.length

/-! ## Figures by computation -/

/-- A word without its plus sign, if it has one. -/
def unsigned : List Char → List Char
  | '+' :: rest => rest
  | cs => cs

theorem unsigned_of_isDigit {cs : List Char} (h : ∀ c ∈ cs, c.isDigit) : unsigned cs = cs := by
  unfold unsigned
  split
  · next rest => exact absurd (h '+' List.mem_cons_self) (by decide)
  · rfl

theorem eq_unsigned_or (cs : List Char) : cs = unsigned cs ∨ cs = '+' :: unsigned cs := by
  unfold unsigned
  split
  · exact .inr rfl
  · exact .inl rfl

theorem isCount_iff {word : String} {n : ℕ} :
    IsCount word n ↔ unsigned word.toList ≠ [] ∧ (∀ c ∈ unsigned word.toList, c.isDigit) ∧
      n = Nat.ofDigitChars 10 (unsigned word.toList) 0 ∧ n < 2 ^ 64 := by
  constructor
  · rintro ⟨digits, hword, hne, hall, hvalue⟩
    have hdigits : unsigned word.toList = digits := by
      rcases hword with hword | hword
      · rw [hword, unsigned_of_isDigit hall]
      · rw [hword, unsigned]
    exact hdigits ▸ ⟨hne, hall, hvalue⟩
  · exact fun h => ⟨unsigned word.toList, eq_unsigned_or _, h⟩

theorem parseCount?_eq_some_iff {word : String} {n : ℕ} :
    parseCount? word = some n ↔ IsCount word n := by
  have hvalue : ∀ cs : List Char, cs.foldl (fun n c => n * 10 + (c.toNat - '0'.toNat)) 0 =
      Nat.ofDigitChars 10 cs 0 := by
    intro cs
    simp only [Nat.ofDigitChars_eq_foldl, Nat.mul_comm]
  have hread : parseCount? word =
      if (unsigned word.toList).isEmpty || !(unsigned word.toList).all Char.isDigit then none
      else if Nat.ofDigitChars 10 (unsigned word.toList) 0 < 2 ^ 64 then
        some (Nat.ofDigitChars 10 (unsigned word.toList) 0)
      else none := by
    rw [← hvalue]
    rfl
  rw [hread, isCount_iff]
  split_ifs with hbad hlt <;>
    simp only [Bool.or_eq_true, List.isEmpty_iff, Bool.not_eq_true', ← Bool.not_eq_true,
      List.all_eq_true, Option.some.injEq] at hbad ⊢ <;> grind

theorem parseCount?_eq_none_iff {word : String} :
    parseCount? word = none ↔ ∀ n, ¬ IsCount word n := by
  rw [Option.eq_none_iff_forall_ne_some]
  simp only [ne_eq, parseCount?_eq_some_iff]

/-- The number that a line has for a key. -/
def figure? (key line : String) : Option ℕ :=
  match words line with
  | first :: value :: _ => if first = key then parseCount? value else none
  | _ => none

/-- The last number that some lines have for a key. -/
def lastFigure? (key : String) (lines : List String) : Option ℕ :=
  lines.reverse.findSome? (figure? key)

/-- The last numbers of some lines. -/
def figuresOf (lines : List String) : MemoryFigures :=
  ⟨lastFigure? "MemTotal:" lines, lastFigure? "MemAvailable:" lines⟩

section Figures

variable {key line : String} {lines : List String} {n : ℕ}

theorem figure?_eq_some_iff : figure? key line = some n ↔ HasFigure key line n := by
  unfold figure? HasFigure
  split
  · next first value rest hwords =>
    rw [hwords]
    by_cases hkey : first = key
    · simp [hkey, parseCount?_eq_some_iff]
    · simp [hkey]
  · next hshort =>
    constructor
    · intro h
      cases h
    · rintro ⟨value, rest, hwords, -⟩
      exact absurd hwords (hshort _ _ _)

theorem isSome_figure? : (figure? key line).isSome ↔ ∃ n, HasFigure key line n := by
  rw [Option.isSome_iff_exists]
  simp only [figure?_eq_some_iff]

theorem figure?_eq_none_iff : figure? key line = none ↔ ∀ n, ¬ HasFigure key line n := by
  rw [← Option.not_isSome_iff_eq_none, isSome_figure?, not_exists]

theorem lastFigure?_concat (key : String) (lines : List String) (line : String) :
    lastFigure? key (lines ++ [line]) = (figure? key line).or (lastFigure? key lines) := by
  rw [lastFigure?, List.reverse_concat, List.findSome?_cons]
  cases figure? key line <;> rfl

theorem lastFigure?_eq_some_iff : lastFigure? key lines = some n ↔ LastFigure key lines n := by
  rw [lastFigure?, List.findSome?_eq_some_iff]
  simp only [figure?_eq_some_iff, figure?_eq_none_iff]
  constructor
  · rintro ⟨after, line, before, hlines, hfigure, hlast⟩
    refine ⟨before.reverse, line, after.reverse, ?_, hfigure, ?_⟩
    · rw [← List.reverse_reverse lines, hlines]
      simp
    · simpa using hlast
  · rintro ⟨before, line, after, rfl, hfigure, hlast⟩
    exact ⟨after.reverse, line, before.reverse, by simp, hfigure, by simpa using hlast⟩

theorem isSome_lastFigure? :
    (lastFigure? key lines).isSome ↔ ∃ line ∈ lines, ∃ n, HasFigure key line n := by
  rw [lastFigure?, List.isSome_findSome?]
  simp [isSome_figure?]

theorem exists_lastFigure (h : ∃ line ∈ lines, ∃ n, HasFigure key line n) :
    ∃ n, LastFigure key lines n := by
  obtain ⟨n, hn⟩ := Option.isSome_iff_exists.mp (isSome_lastFigure?.mpr h)
  exact ⟨n, lastFigure?_eq_some_iff.mp hn⟩

theorem LastFigure.lt (h : LastFigure key lines n) : n < 2 ^ 64 := by
  obtain ⟨-, -, -, -, ⟨-, -, -, -, -, -, -, -, hlt⟩, -⟩ := h
  exact hlt

theorem complete_iff :
    Complete lines ↔ ((figuresOf lines).totalKb.isSome && (figuresOf lines).availableKb.isSome) := by
  rw [Bool.and_eq_true, figuresOf, isSome_lastFigure?, isSome_lastFigure?, Complete]

end Figures

theorem Complete.mono {lines more : List String} (h : Complete lines) (hsub : lines ⊆ more) :
    Complete more := by
  obtain ⟨⟨line, hline, hfigure⟩, line', hline', hfigure'⟩ := h
  exact ⟨⟨line, hsub hline, hfigure⟩, line', hsub hline', hfigure'⟩

/-! ## Reading -/

/-- A line is refused if it is garbled, and adds its number to the last ones otherwise. -/
theorem readLine_figuresOf (before : List String) (line : String) :
    (Garbled line ∧ ∃ err, readLine (figuresOf before) line = .error err) ∨
      (¬ Garbled line ∧ readLine (figuresOf before) line = .ok (figuresOf (before ++ [line]))) := by
  unfold readLine figuresOf
  rw [lastFigure?_concat, lastFigure?_concat]
  unfold Garbled figure?
  cases hwords : words line with
  | nil => right; simp
  | cons key rest =>
    cases rest with
    | nil => right; simp
    | cons value rest =>
      by_cases htotal : key = "MemTotal:"
      · subst htotal
        cases hvalue : parseCount? value with
        | none => left; simpa [hvalue] using parseCount?_eq_none_iff.mp hvalue
        | some n => right; simpa [hvalue] using ⟨n, parseCount?_eq_some_iff.mp hvalue⟩
      · by_cases havailable : key = "MemAvailable:"
        · subst havailable
          cases hvalue : parseCount? value with
          | none => left; simpa [hvalue] using parseCount?_eq_none_iff.mp hvalue
          | some n => right; simpa [hvalue] using ⟨n, parseCount?_eq_some_iff.mp hvalue⟩
        · right
          simp [htotal, havailable]

/-- As long as they are not complete, lines are read one after the other. -/
theorem readLines_incomplete {before : List String} (front rest : List String)
    (hincomplete : ¬ Complete (before ++ front)) (hclear : ∀ line ∈ front, ¬ Garbled line) :
    readLines (figuresOf before) (front ++ rest) = readLines (figuresOf (before ++ front)) rest := by
  induction front generalizing before with
  | nil => simp
  | cons line front ih =>
    rw [List.append_cons] at hincomplete
    have hnext : ¬ Complete (before ++ [line]) := fun h =>
      hincomplete (h.mono (List.subset_append_left _ _))
    rw [List.forall_mem_cons] at hclear
    rcases readLine_figuresOf before line with ⟨hgarbled, -⟩ | ⟨-, hread⟩
    · exact absurd hgarbled hclear.1
    · rw [List.cons_append, readLines, hread]
      simp only
      rw [if_neg (complete_iff.not.mp hnext), ih hincomplete hclear.2, ← List.append_cons]

/-- The first garbled line ends the reading. -/
theorem readLines_garbled {before : List String} (front : List String)
    (hincomplete : ¬ Complete (before ++ front)) (hgarbled : ∃ line ∈ front, Garbled line) :
    ∃ err, ∀ rest, readLines (figuresOf before) (front ++ rest) = .error err := by
  induction front generalizing before with
  | nil => simp at hgarbled
  | cons line front ih =>
    rcases readLine_figuresOf before line with ⟨-, err, hread⟩ | ⟨hclear, hread⟩
    · refine ⟨err, fun rest => ?_⟩
      rw [List.cons_append, readLines, hread]
    · rw [List.append_cons] at hincomplete
      have hnext : ¬ Complete (before ++ [line]) := fun h =>
        hincomplete (h.mono (List.subset_append_left _ _))
      obtain ⟨err, herr⟩ := ih hincomplete (by simpa [hclear] using hgarbled)
      refine ⟨err, fun rest => ?_⟩
      rw [List.cons_append, readLines, hread]
      simp only
      rw [if_neg (complete_iff.not.mp hnext), herr]

/-- The lines that decide a report are not complete without the last of them. -/
theorem Decides.eq_concat {front lines : List String} (h : Decides front lines) :
    ∃ init last, front = init ++ [last] ∧ ¬ Complete init := by
  obtain ⟨⟨line, hline, -⟩, -⟩ := h.complete
  refine ⟨front.dropLast, front.getLast (List.ne_nil_of_mem hline),
    (List.dropLast_concat_getLast _).symm, fun hcomplete => ?_⟩
  have hshorter := h.shortest _ ((List.dropLast_prefix front).trans h.isPrefix) hcomplete
  have hpos := List.length_pos_of_mem hline
  rw [List.length_dropLast] at hshorter
  omega

/-- What follows the lines that decide a report is not read. -/
theorem Decides.readLines {front lines : List String} (h : Decides front lines) :
    ((∃ line ∈ front, Garbled line) ∧
        ∃ err, ∀ rest, readLines ⟨none, none⟩ (front ++ rest) = .error err) ∨
      ((∀ line ∈ front, ¬ Garbled line) ∧
        ∀ rest, readLines ⟨none, none⟩ (front ++ rest) = .ok (figuresOf front)) := by
  obtain ⟨init, last, rfl, hincomplete⟩ := h.eq_concat
  have hcomplete := complete_iff.mp h.complete
  have hnone : (⟨none, none⟩ : MemoryFigures) = figuresOf [] := rfl
  rw [hnone]
  by_cases hinit : ∃ line ∈ init, Garbled line
  · obtain ⟨err, herr⟩ := @readLines_garbled [] init hincomplete hinit
    left
    obtain ⟨line, hline, hgarbled⟩ := hinit
    refine ⟨⟨line, List.mem_append_left _ hline, hgarbled⟩, err, fun rest => ?_⟩
    rw [List.append_assoc]
    exact herr _
  · simp only [not_exists, not_and] at hinit
    have hread : ∀ rest, HostMemory.readLines (figuresOf []) (init ++ [last] ++ rest) =
        HostMemory.readLines (figuresOf init) (last :: rest) := by
      intro rest
      rw [List.append_assoc]
      exact @readLines_incomplete [] init _ hincomplete hinit
    rcases readLine_figuresOf init last with ⟨hgarbled, err, hlast⟩ | ⟨hclear, hlast⟩
    · refine .inl ⟨⟨last, by simp, hgarbled⟩, err, fun rest => ?_⟩
      rw [hread, HostMemory.readLines, hlast]
    · refine .inr ⟨by simpa [or_imp, forall_and] using ⟨hinit, hclear⟩, fun rest => ?_⟩
      rw [hread, HostMemory.readLines, hlast]
      simp only
      rw [if_pos hcomplete]

/-- Complete lines have a shortest part in front that is complete. -/
theorem exists_decides {lines : List String} (h : Complete lines) : ∃ front, Decides front lines := by
  classical
  have hexists : ∃ k, Complete (lines.take k) := ⟨lines.length, by rwa [List.take_length]⟩
  refine ⟨lines.take (Nat.find hexists), List.take_prefix _ _, Nat.find_spec hexists, ?_⟩
  intro shorter hprefix hcomplete
  rw [List.prefix_iff_eq_take.mp hprefix] at hcomplete
  exact (List.length_take_le _ _).trans (Nat.find_min' hexists hcomplete)

/-- Incomplete lines leave a figure out, unless one of them is garbled. -/
theorem readLines_of_incomplete {lines : List String} (h : ¬ Complete lines) :
    (∃ err, readLines ⟨none, none⟩ lines = .error err) ∨
      readLines ⟨none, none⟩ lines = .ok (figuresOf lines) := by
  have hnone : (⟨none, none⟩ : MemoryFigures) = figuresOf [] := rfl
  rw [hnone, ← List.append_nil lines]
  by_cases hgarbled : ∃ line ∈ lines, Garbled line
  · obtain ⟨err, herr⟩ := @readLines_garbled [] lines h hgarbled
    exact .inl ⟨err, herr []⟩
  · simp only [not_exists, not_and] at hgarbled
    right
    rw [@readLines_incomplete [] lines [] h hgarbled, List.append_nil]
    rfl

/-! ## Reports -/

section Parse

variable {text : String}

theorem parse_of_error {err : ServiceError} (h : readLines ⟨none, none⟩ (lines text) = .error err) :
    parse (α := Binary64) text = .error err := by
  rw [parse, h]

theorem parse_of_figures {ls : List String} {total available : ℕ}
    (h : readLines ⟨none, none⟩ (lines text) = .ok (figuresOf ls))
    (htotal : LastFigure "MemTotal:" ls total)
    (havailable : LastFigure "MemAvailable:" ls available) :
    parse (α := Binary64) text = .ok ⟨Scalar.ofNat total / (1024.0 * 1024.0),
      Scalar.ofNat (min available total) / (1024.0 * 1024.0)⟩ := by
  rw [parse, h]
  simp only [figuresOf, lastFigure?_eq_some_iff.mpr htotal, lastFigure?_eq_some_iff.mpr havailable]

theorem parse_of_incomplete {ls : List String}
    (h : readLines ⟨none, none⟩ (lines text) = .ok (figuresOf ls)) (hincomplete : ¬ Complete ls) :
    ∃ err, parse (α := Binary64) text = .error err := by
  rw [complete_iff] at hincomplete
  rw [parse, h]
  cases htotal : (figuresOf ls).totalKb with
  | none =>
    refine ⟨.probe "MemTotal not found", ?_⟩
    simp only [htotal]
  | some total =>
    cases havailable : (figuresOf ls).availableKb with
    | none =>
      refine ⟨.probe "MemAvailable not found", ?_⟩
      simp only [htotal, havailable]
    | some available => simp [htotal, havailable] at hincomplete

end Parse

/-- Memory sizes are converted in their order. -/
theorem gigabytes_le {available total : ℕ} (h : available ≤ total) (htotal : total < 2 ^ 64) :
    (Scalar.ofNat available / (1024.0 * 1024.0) : Binary64) ≤
      Scalar.ofNat total / (1024.0 * 1024.0) := by
  have hunit : (1024.0 * 1024.0 : Binary64) = ⟨0x4130000000000000⟩ := by decide +kernel
  rw [hunit]
  exact Binary64.ofNat_div_le_ofNat_div h htotal (by decide) (by decide) (by decide)

/-- Every report that begins with the lines that decide one comes to the same. -/
theorem Decides.parse {front ls : List String} (h : Decides front ls) :
    ((∃ line ∈ front, Garbled line) ∧ ∃ err, ∀ text, front <+: lines text →
        HostMemory.parse (α := Binary64) text = .error err) ∨
      ((∀ line ∈ front, ¬ Garbled line) ∧ ∃ total available,
        LastFigure "MemTotal:" front total ∧ LastFigure "MemAvailable:" front available ∧
        ∀ text, front <+: lines text → HostMemory.parse (α := Binary64) text =
          .ok ⟨Scalar.ofNat total / (1024.0 * 1024.0),
            Scalar.ofNat (min available total) / (1024.0 * 1024.0)⟩) := by
  rcases h.readLines with ⟨hgarbled, err, hread⟩ | ⟨hclear, hread⟩
  · refine .inl ⟨hgarbled, err, ?_⟩
    rintro text ⟨rest, hrest⟩
    exact parse_of_error (hrest ▸ hread rest)
  · obtain ⟨total, htotal⟩ := exists_lastFigure h.complete.1
    obtain ⟨available, havailable⟩ := exists_lastFigure h.complete.2
    refine .inr ⟨hclear, total, available, htotal, havailable, ?_⟩
    rintro text ⟨rest, hrest⟩
    exact parse_of_figures (hrest ▸ hread rest) htotal havailable

/-- A report that is understood is complete. -/
theorem complete_of_parse {text : String} {m : HostMemory Binary64} (h : parse text = .ok m) :
    Complete (lines text) := by
  by_contra hincomplete
  rcases readLines_of_incomplete hincomplete with ⟨err, hread⟩ | hread
  · cases h.symm.trans (parse_of_error hread)
  · obtain ⟨err, hparse⟩ := parse_of_incomplete hread hincomplete
    cases h.symm.trans hparse

/-! ## Every text -/

/-- A report is understood exactly if its lines have a number for each key, and up to the line that
completes the two no key has a word behind it that is no number. Then the last numbers up to that
line count, and no more is available than there is. What follows that line does not matter, whether
the report is understood or not. -/
theorem parse_decided (text : String) :
    ((∃ m : HostMemory Binary64, parse text = .ok m) ↔
      ∃ front, Decides front (lines text) ∧ ∀ line ∈ front, ¬ Garbled line) ∧
    ∀ front, Decides front (lines text) →
      (∀ m : HostMemory Binary64, parse text = .ok m → m.availableGb ≤ m.totalGb ∧
        ∃ total available, LastFigure "MemTotal:" front total ∧
          LastFigure "MemAvailable:" front available ∧
          m = ⟨Scalar.ofNat total / (1024.0 * 1024.0),
            Scalar.ofNat (min available total) / (1024.0 * 1024.0)⟩) ∧
      ∀ text', front <+: lines text' → parse (α := Binary64) text' = parse text := by
  refine ⟨⟨?_, ?_⟩, fun front h => ?_⟩
  · rintro ⟨m, hm⟩
    obtain ⟨front, h⟩ := exists_decides (complete_of_parse hm)
    rcases h.parse with ⟨-, err, hparse⟩ | ⟨hclear, -⟩
    · cases hm.symm.trans (hparse text h.isPrefix)
    · exact ⟨front, h, hclear⟩
  · rintro ⟨front, h, hclear⟩
    rcases h.parse with ⟨⟨line, hline, hgarbled⟩, -⟩ | ⟨-, _, _, -, -, hparse⟩
    · exact absurd hgarbled (hclear line hline)
    · exact ⟨_, hparse text h.isPrefix⟩
  · rcases h.parse with ⟨-, err, hparse⟩ | ⟨-, total, available, htotal, havailable, hparse⟩
    · refine ⟨fun m hm => ?_, fun text' htext' => ?_⟩
      · cases hm.symm.trans (hparse text h.isPrefix)
      · rw [hparse text h.isPrefix, hparse text' htext']
    · refine ⟨fun m hm => ?_, fun text' htext' => ?_⟩
      · cases hm.symm.trans (hparse text h.isPrefix)
        exact ⟨gigabytes_le (min_le_right _ _) htotal.lt, total, available, htotal, havailable, rfl⟩
      · rw [hparse text h.isPrefix, hparse text' htext']

private def repeatedReport : String :=
  "MemTotal: 8 kB\nMemTotal: 4 kB\nMemFree: much\nMemAvailable: 6 kB\nMemTotal: x kB\n"

/-- A total that is given twice, and a third time without a number when both figures are there. -/
theorem parse_decided_repeated :
    ∃ front, Decides front (lines repeatedReport) ∧ (∀ line ∈ front, ¬ Garbled line) ∧
      ∀ text, front <+: lines text → parse text = .ok
        ⟨(Scalar.ofNat 4 / (1024.0 * 1024.0) : Binary64), Scalar.ofNat 4 / (1024.0 * 1024.0)⟩ := by
  have hparse : parse repeatedReport = .ok
      ⟨(Scalar.ofNat 4 / (1024.0 * 1024.0) : Binary64), Scalar.ofNat 4 / (1024.0 * 1024.0)⟩ := by
    rfl
  obtain ⟨front, hdecides, hclear⟩ := (parse_decided repeatedReport).1.mp ⟨_, hparse⟩
  refine ⟨front, hdecides, hclear, fun text htext => ?_⟩
  rw [((parse_decided repeatedReport).2 front hdecides).2 text htext, hparse]

end HostMemory

end LayerPipeline
