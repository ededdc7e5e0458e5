import LayerPipeline.Json.Value

/-!
# Writing JSON text

The compact form on one line and the indented form, which differ only in what stands between the
tokens.
-/

namespace LayerPipeline

namespace Json

/-- Numbers in documents: a point always, and a signed exponent from `10 ^ 16` on and below
`10 ^ -5`. What is not finite is written as null. -/
def numberStyle : Decimal.Style := ⟨some (-5, 15), ".0", "+", "null", false, "null", .even⟩

/-- A hexadecimal digit in lower case. -/
def hexChar (n : Nat) : Char :=
  if n < 10 then Char.ofNat ('0'.toNat + n) else Char.ofNat ('a'.toNat + (n - 10))

/-- How a character is written inside a string: quotes, backslashes and controls are escaped. -/
def escape (c : Char) : List Char :=
  match c with
  | '"' => ['\\', '"']
  | '\\' => ['\\', '\\']
  | '\x08' => ['\\', 'b']
  | '\x0c' => ['\\', 'f']
  | '\n' => ['\\', 'n']
  | '\r' => ['\\', 'r']
  | '\t' => ['\\', 't']
  | c =>
    if c.toNat < 0x20 then ['\\', 'u', '0', '0', hexChar (c.toNat / 16), hexChar (c.toNat % 16)]
    else [c]

/-- A string literal. -/
def quoted (s : String) : String :=
  "\"" ++ String.ofList (s.toList.flatMap escape) ++ "\""

/-- The text of a numeral. -/
def numeralText (integral : Bool) (d : Decimal) : String :=
  if integral then Decimal.signText d.negative ++ Decimal.positional d.digits d.exponent ""
  else Decimal.write numberStyle (d.scaled?.getD .infinity)

/-- What stands between the tokens of a composite. -/
structure Spacing where
  /-- Line break and indentation in front of an item at a given depth. -/
  lineBreak : Nat → String
  /-- Between a member's name and its value. -/
  colon : String

/-- Everything on one line. -/
def Spacing.compact : Spacing := ⟨fun _ => "", ":"⟩

/-- One item per line, indented by two spaces per level. -/
def Spacing.indented : Spacing := ⟨fun depth => "\n".pushn ' ' (2 * depth), ": "⟩

mutual

/-- The text of a document at a given depth. -/
def render (s : Spacing) (depth : Nat) : Json → String
  | .null => "null"
  | .bool b => if b then "true" else "false"
  | .number integral d => numeralText integral d
  | .float x => Decimal.write numberStyle x
  | .string t => quoted (t.getD "")
  | .array [] => "[]"
  | .array (x :: xs) =>
    "[" ++ s.lineBreak (depth + 1) ++ render s (depth + 1) x ++ renderItems s (depth + 1) xs ++
      s.lineBreak depth ++ "]"
  | .object [] => "\x7b\x7d"
  | .object ((name, x) :: ms) =>
    "\x7b" ++ s.lineBreak (depth + 1) ++ quoted (name.getD "") ++ s.colon ++
      render s (depth + 1) x ++ renderMembers s (depth + 1) ms ++ s.lineBreak depth ++ "\x7d"

/-- The items after the first, each behind a comma. -/
def renderItems (s : Spacing) (depth : Nat) : List Json → String
  | [] => ""
  | x :: xs => "," ++ s.lineBreak depth ++ render s depth x ++ renderItems s depth xs

/-- The members after the first, each behind a comma. -/
def renderMembers (s : Spacing) (depth : Nat) : List (Option String × Json) → String
  | [] => ""
  | (name, x) :: ms =>
    "," ++ s.lineBreak depth ++ quoted (name.getD "") ++ s.colon ++ render s depth x ++
      renderMembers s depth ms

end

/-- The document on one line. -/
def compact (j : Json) : String := render .compact 0 j

/-- The document with one item per line. -/
def indented (j : Json) : String := render .indented 0 j

end Json

end LayerPipeline
