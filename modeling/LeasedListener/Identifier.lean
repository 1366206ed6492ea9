/-!
# Identifiers

An identifier is 128 bits, kept as thirty-two hexadecimal digits.  It is
written in lower case with hyphens between groups of 8, 4, 4, 4 and 12 digits.
That form is read back in any letter case, also between braces or behind
`urn:uuid:`; the plain digits are read too.
-/

namespace LeasedListener

structure Identifier where
  digits : List (Fin 16)
  length_digits : digits.length = 32
deriving DecidableEq

namespace Identifier

def hexDigits : List Char :=
  ['0', '1', '2', '3', '4', '5', '6', '7', '8', '9', 'a', 'b', 'c', 'd', 'e', 'f']

def hexChar (d : Fin 16) : Char := hexDigits[d]

/-- The value of a hexadecimal digit of either letter case. -/
def hexValue? (c : Char) : Option (Fin 16) :=
  (List.finRange 16).find? fun d => hexChar d == c.toLower

/-- The lengths of the groups of digits. -/
def groups : List Nat := [8, 4, 4, 4, 12]

/-- The digits with a hyphen after each group but the last. -/
def hyphenate : List Nat → List Char → List Char
  | [], text => text
  | [_], text => text
  | n :: more, text => text.take n ++ '-' :: hyphenate more (text.drop n)

/-- Remove the hyphens, where they stand exactly between the groups. -/
def unhyphenate? : List Nat → List Char → Option (List Char)
  | [], text => if text.isEmpty then some [] else none
  | [n], text => if text.length = n then some text else none
  | n :: more, text =>
      match text.drop n with
      | '-' :: rest => (unhyphenate? more rest).map (text.take n ++ ·)
      | _ => none

def text (id : Identifier) : String :=
  String.ofList (hyphenate groups (id.digits.map hexChar))

/-- Thirty-two hexadecimal digits and nothing else. -/
def ofDigits? (text : List Char) : Option Identifier :=
  match text.mapM hexValue? with
  | some digits => if h : digits.length = 32 then some ⟨digits, h⟩ else none
  | none => none

def ofHyphenated? (text : List Char) : Option Identifier :=
  (unhyphenate? groups text).bind ofDigits?

/-- The marker that may stand before the hyphenated form. -/
def marker : List Char := "urn:uuid:".toList

def parseChars? (text : List Char) : Option Identifier :=
  match text with
  | '{' :: inner => if inner.getLast? = some '}' then ofHyphenated? inner.dropLast else none
  | _ =>
      if (text.take marker.length).map Char.toLower = marker
      then ofHyphenated? (text.drop marker.length)
      else if text.contains '-' then ofHyphenated? text
      else ofDigits? text

def parse? (text : String) : Option Identifier := parseChars? text.toList

/-- The `count` lowest hexadecimal digits of `n`, highest first. -/
def lowDigits : Nat → Nat → List (Fin 16)
  | 0, _ => []
  | count + 1, n => Fin.ofNat 16 (n / Nat.pow 16 count) :: lowDigits count n

theorem length_lowDigits (count n : Nat) : (lowDigits count n).length = count := by
  induction count with
  | zero => rfl
  | succ count ih => simp [lowDigits, ih]

/-- The `serial`-th identifier of the time-ordered kind: its version digit is
seven, and the serial number is its time and its last digits. -/
def timeOrdered (serial : Nat) : Identifier :=
  ⟨lowDigits 12 serial ++ 7 :: lowDigits 3 0 ++ 8 :: lowDigits 15 serial, by
    simp [length_lowDigits]⟩

def version (id : Identifier) : Nat :=
  match id.digits[12]? with
  | some d => d.val
  | none => 0

end Identifier

/-- What an identifier stands for. -/
inductive IdentifierKind
  | lease
  | message
  | receipt
deriving DecidableEq

def IdentifierKind.name : IdentifierKind → String
  | .lease => "LeaseId"
  | .message => "MessageId"
  | .receipt => "PopReceipt"

/-- A text was not the identifier that was asked for.  What is wrong with the
text is not kept. -/
structure InvalidIdentifier where
  kind : IdentifierKind
deriving DecidableEq

def InvalidIdentifier.message (e : InvalidIdentifier) : String := "invalid " ++ e.kind.name

/-- Read an identifier of a kind.  All kinds are written alike. -/
def IdentifierKind.read (kind : IdentifierKind) (text : String) :
    Except InvalidIdentifier Identifier :=
  match Identifier.parse? text with
  | some id => .ok id
  | none => .error ⟨kind⟩

end LeasedListener
