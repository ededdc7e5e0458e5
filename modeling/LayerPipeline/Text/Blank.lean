/-!
# Blanks, words and lines
-/

namespace LayerPipeline

namespace Text

/-- Ranges of the characters that count as white space. -/
def blankRanges : List (Nat × Nat) :=
  [(0x9, 0xd), (0x20, 0x20), (0x85, 0x85), (0xa0, 0xa0), (0x1680, 0x1680), (0x2000, 0x200a),
    (0x2028, 0x2029), (0x202f, 0x202f), (0x205f, 0x205f), (0x3000, 0x3000)]

/-- Whether a character is white space. -/
def isBlank (c : Char) : Bool :=
  blankRanges.any fun r => r.1 ≤ c.toNat && c.toNat ≤ r.2

/-- The words of a text, which are separated by blanks; `word` holds the letters of the current
word, last first. -/
def splitWords (word : List Char) : List Char → List String
  | [] => if word.isEmpty then [] else [String.ofList word.reverse]
  | c :: rest =>
    if isBlank c then
      if word.isEmpty then splitWords [] rest
      else String.ofList word.reverse :: splitWords [] rest
    else splitWords (c :: word) rest

/-- The words of a text. -/
def words (s : String) : List String :=
  splitWords [] s.toList

/-- The lines of a sequence. A line ends with a line feed, together with a carriage return in front
of it; what follows the last line feed is a line unless it is empty. `line` holds the current line,
last symbol first. -/
def splitLines {β : Type} [DecidableEq β] (feed ret : β) (line : List β) : List β → List (List β)
  | [] => if line.isEmpty then [] else [line.reverse]
  | c :: rest =>
    if c = feed then
      let ended := match line with
        | r :: before => if r = ret then before else line
        | [] => []
      ended.reverse :: splitLines feed ret [] rest
    else splitLines feed ret (c :: line) rest

/-- The lines of a text. -/
def lines (s : String) : List String :=
  (splitLines '\n' '\r' [] s.toList).map String.ofList

/-- A natural number below `2 ^ 64` in decimal digits, a plus sign in front allowed. -/
def parseCount? (s : String) : Option Nat :=
  let digits := match s.toList with
    | '+' :: rest => rest
    | cs => cs
  if digits.isEmpty || !digits.all Char.isDigit then none
  else
    let n := digits.foldl (fun n c => n * 10 + (c.toNat - '0'.toNat)) 0
    if n < UInt64.size then some n else none

end Text

end LayerPipeline
