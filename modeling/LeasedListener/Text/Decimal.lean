/-!
# Unsigned decimals

Reading of decimal numbers that may start with one plus sign and must stay
below a bound.
-/

namespace LeasedListener

def digitValue? (c : Char) : Option Nat :=
  if '0' ≤ c ∧ c ≤ '9' then some (c.toNat - '0'.toNat) else none

/-- The value of a run of decimal digits after digits of value `total`, if
nothing else occurs in it. -/
def digitsValue? (total : Nat) : List Char → Option Nat
  | [] => some total
  | c :: rest => (digitValue? c).bind fun d => digitsValue? (10 * total + d) rest

/-- The number that a text of decimal digits denotes, after at most one plus
sign, where it is below `bound`. -/
def readUnsigned? (bound : Nat) (text : List Char) : Option Nat :=
  let digits := match text with
    | '+' :: rest => rest
    | _ => text
  if digits.isEmpty then none
  else (digitsValue? 0 digits).filter (· < bound)

end LeasedListener
