import LayerPipeline.Number.Decimal

/-!
# JSON documents
-/

namespace LayerPipeline

/-- A JSON document.

A number that was read keeps its numeral, as far as the digits fit into 64 bits; it is `integral`
when it has neither point nor exponent and no digit was dropped. A number to be written may be given
as a floating-point value. A string literal is `none` when its escapes form an unpaired surrogate:
such a literal is legal and denotes no text. -/
inductive Json where
  | null
  | bool (b : Bool)
  | number (integral : Bool) (numeral : Decimal)
  | float (x : Binary64)
  | string (s : Option String)
  | array (items : List Json)
  | object (members : List (Option String × Json))
deriving Inhabited

namespace Json

/-- A string. -/
def str (s : String) : Json := .string (some s)

/-- A natural number. -/
def nat (n : Nat) : Json := .number true ⟨false, n, 0⟩

/-- An object with named members. -/
def obj (members : List (String × Json)) : Json :=
  .object (members.map fun m => (some m.1, m.2))

/-- The member of an object with a given name, the first if there are several. -/
def get? (j : Json) (name : String) : Option Json :=
  match j with
  | .object ms => (ms.find? fun m => m.1 = some name).map (·.2)
  | _ => none

end Json

end LayerPipeline
