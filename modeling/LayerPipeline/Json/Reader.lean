import LayerPipeline.Json.Value

/-!
# Reading JSON text

A strict reader: no comments, no trailing commas, no leading zeros, no raw control characters.
Each function takes the characters that are left and returns what it read with the characters
after it.
-/

namespace LayerPipeline

namespace Json

/-- Blanks that may stand between tokens. -/
def isBlank (c : Char) : Bool :=
  c = ' ' || c = '\n' || c = '\r' || c = '\t'

/-- The text after leading blanks. -/
def skipBlanks (cs : List Char) : List Char :=
  cs.dropWhile isBlank

/-- The value of a hexadecimal digit. -/
def hexDigit? (c : Char) : Option Nat :=
  if '0' ≤ c && c ≤ '9' then some (c.toNat - '0'.toNat)
  else if 'a' ≤ c && c ≤ 'f' then some (c.toNat - 'a'.toNat + 10)
  else if 'A' ≤ c && c ≤ 'F' then some (c.toNat - 'A'.toNat + 10)
  else none

/-- The number written by four hexadecimal digits. -/
def hex4? (a b c d : Char) : Option Nat := do
  return (((← hexDigit? a) * 16 + (← hexDigit? b)) * 16 + (← hexDigit? c)) * 16 + (← hexDigit? d)

/-- The character that a one-letter escape stands for. -/
def shortEscape? (c : Char) : Option Char :=
  match c with
  | '"' => some '"'
  | '\\' => some '\\'
  | '/' => some '/'
  | 'b' => some '\x08'
  | 'f' => some '\x0c'
  | 'n' => some '\n'
  | 'r' => some '\r'
  | 't' => some '\t'
  | _ => none

/-- The code units of a string literal up to its closing quote. An escaped surrogate is a unit of
its own; every other unit is a code point. -/
def scanString (units : List Nat) : List Char → Option (List Nat × List Char)
  | [] => none
  | '"' :: rest => some (units.reverse, rest)
  | '\\' :: 'u' :: a :: b :: c :: d :: rest =>
    match hex4? a b c d with
    | some u => scanString (u :: units) rest
    | none => none
  | '\\' :: e :: rest =>
    match shortEscape? e with
    | some c => scanString (c.toNat :: units) rest
    | none => none
  | c :: rest => if c.toNat < 0x20 then none else scanString (c.toNat :: units) rest

/-- The first half of a surrogate pair. -/
def isHighSurrogate (u : Nat) : Bool := 0xD800 ≤ u && u < 0xDC00

/-- The second half of a surrogate pair. -/
def isLowSurrogate (u : Nat) : Bool := 0xDC00 ≤ u && u < 0xE000

/-- The text of a list of code units, if every surrogate in it belongs to a pair. -/
def assemble (done : List Char) : List Nat → Option String
  | [] => some (String.ofList done.reverse)
  | h :: l :: rest =>
    if isHighSurrogate h then
      if isLowSurrogate l then
        assemble (Char.ofNat (0x10000 + (h - 0xD800) * 0x400 + (l - 0xDC00)) :: done) rest
      else none
    else if isLowSurrogate h then none
    else assemble (Char.ofNat h :: done) (l :: rest)
  | [u] =>
    if isHighSurrogate u || isLowSurrogate u then none
    else some (String.ofList (Char.ofNat u :: done).reverse)

/-- A string literal after its opening quote. -/
def readString (cs : List Char) : Option (Option String × List Char) :=
  (scanString [] cs).map fun (units, rest) => (assemble [] units, rest)

/-- The natural number written by a list of digits. -/
def natOfDigits (cs : List Char) : Nat :=
  cs.foldl (fun n c => n * 10 + (c.toNat - '0'.toNat)) 0

/-- Digits at the front of the text, at least one. -/
def readDigits (cs : List Char) : Option (List Char × List Char) :=
  let ds := cs.takeWhile Char.isDigit
  if ds.isEmpty then none else some (ds, cs.dropWhile Char.isDigit)

/-- The digits before the point: a single zero, or no zero in front. -/
def readWhole (cs : List Char) : Option (List Char × List Char) :=
  match cs with
  | '0' :: rest => some (['0'], rest)
  | _ => readDigits cs

/-- The digits after a point, if a point follows. -/
def readFraction (cs : List Char) : Option (List Char × List Char) :=
  match cs with
  | '.' :: rest => readDigits rest
  | _ => some ([], cs)

/-- The exponent, if one follows. -/
def readExponent (cs : List Char) : Option (Option Int × List Char) :=
  let signed (negative : Bool) (rest : List Char) :=
    (readDigits rest).map fun (ds, rest) =>
      (some (if negative then -(natOfDigits ds : Int) else natOfDigits ds), rest)
  match cs with
  | e :: rest =>
    if e = 'e' || e = 'E' then
      match rest with
      | '-' :: rest => signed true rest
      | '+' :: rest => signed false rest
      | _ => signed false rest
    else some (none, cs)
  | [] => some (none, [])

/-- Digits appended to a number until the next one would take it beyond 64 bits, and how many were
appended. -/
def appendDigits (n : Nat) : List Char → Nat × Nat
  | [] => (n, 0)
  | c :: cs =>
    let next := n * 10 + (c.toNat - '0'.toNat)
    if next < UInt64.size then
      let (m, count) := appendDigits next cs
      (m, count + 1)
    else (n, 0)

/-- A number without its sign. A digit in front of the point that does not fit counts in the
exponent, together with those up to the point; one behind the point is dropped with all after it. -/
def readMagnitude (negative : Bool) (cs : List Char) : Option (Json × List Char) := do
  let (whole, cs) ← readWhole cs
  let (fraction, cs') ← readFraction cs
  let (exponent, cs'') ← readExponent cs'
  let (front, kept) := appendDigits 0 whole
  let (digits, places) := appendDigits front fraction
  let beyond := whole.length - kept
  let integral := fraction.isEmpty && exponent.isNone && beyond = 0
  return (.number integral ⟨negative, digits, exponent.getD 0 + beyond - places⟩, cs'')

/-- Removes a word from the front of the text. -/
def expect (word : String) (cs : List Char) : Option (List Char) :=
  if word.toList.isPrefixOf cs then some (cs.drop word.length) else none

mutual

/-- One value, leading blanks included. `fuel` bounds the nesting and the number of items. -/
def readValue : Nat → List Char → Option (Json × List Char)
  | 0, _ => none
  | fuel + 1, cs =>
    match skipBlanks cs with
    | [] => none
    | '"' :: rest => (readString rest).map fun (s, rest) => (.string s, rest)
    | '[' :: rest =>
      match skipBlanks rest with
      | ']' :: rest => some (.array [], rest)
      | rest => (readItems fuel rest []).map fun (xs, rest) => (.array xs, rest)
    | '{' :: rest =>
      match skipBlanks rest with
      | '}' :: rest => some (.object [], rest)
      | rest => (readMembers fuel rest []).map fun (ms, rest) => (.object ms, rest)
    | '-' :: rest => readMagnitude true rest
    | 'n' :: rest => (expect "ull" rest).map fun rest => (.null, rest)
    | 't' :: rest => (expect "rue" rest).map fun rest => (.bool true, rest)
    | 'f' :: rest => (expect "alse" rest).map fun rest => (.bool false, rest)
    | c :: rest => readMagnitude false (c :: rest)

/-- The items of an array up to its closing bracket; `done` holds those read, last first. -/
def readItems : Nat → List Char → List Json → Option (List Json × List Char)
  | 0, _, _ => none
  | fuel + 1, cs, done =>
    match readValue fuel cs with
    | none => none
    | some (x, rest) =>
      match skipBlanks rest with
      | ',' :: rest => readItems fuel rest (x :: done)
      | ']' :: rest => some ((x :: done).reverse, rest)
      | _ => none

/-- The members of an object up to its closing brace; `done` holds those read, last first. -/
def readMembers : Nat → List Char → List (Option String × Json) →
    Option (List (Option String × Json) × List Char)
  | 0, _, _ => none
  | fuel + 1, cs, done =>
    match skipBlanks cs with
    | '"' :: rest =>
      match readString rest with
      | none => none
      | some (name, rest) =>
        match skipBlanks rest with
        | ':' :: rest =>
          match readValue fuel rest with
          | none => none
          | some (x, rest) =>
            match skipBlanks rest with
            | ',' :: rest => readMembers fuel rest ((name, x) :: done)
            | '}' :: rest => some (((name, x) :: done).reverse, rest)
            | _ => none
        | _ => none
    | _ => none

end

/-- The document written by a text, with nothing but blanks around it. -/
def parse? (text : String) : Option Json :=
  let cs := text.toList
  match readValue (2 * cs.length + 2) cs with
  | some (j, rest) => if (skipBlanks rest).isEmpty then some j else none
  | none => none

end Json

end LayerPipeline
