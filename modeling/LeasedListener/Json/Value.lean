import LeasedListener.Text.Decimal

/-!
# JSON values

Values of the JSON data format.  Members of an object keep their order and
may share a name; a number keeps its spelling.  A string is absent where it
holds an unpaired surrogate, for which there is no text.
-/

namespace LeasedListener

inductive Json
  | null
  | bool (b : Bool)
  | number (spelling : List Char)
  | string (text : Option String)
  | array (items : List Json)
  | object (members : List (Option String × Json))

namespace Json

/-- The value of a number that is spelled by digits alone. -/
def natural? : Json → Option Nat
  | .number spelling => digitsValue? 0 spelling
  | _ => none

def string? : Json → Option String
  | .string text => text
  | _ => none

def ofString (text : String) : Json := .string (some text)

def ofNat (n : Nat) : Json := .number (Nat.toDigits 10 n)

end Json

end LeasedListener
