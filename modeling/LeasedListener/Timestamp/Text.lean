import LeasedListener.Timestamp
import LeasedListener.Text.Blank
import LeasedListener.Text.Decimal

/-!
# Timestamps as text

Timestamps are written in the internet date and time format, in universal
time, with as many groups of three fraction digits as they need.  Reading also
accepts other offsets, blanks between the parts, a blank in place of the `T`,
and shorter numbers.
-/

namespace LeasedListener

/-- A number in decimal with at least `width` digits. -/
def padded (width n : Nat) : String :=
  let digits := Nat.toDigits 10 n
  String.ofList (List.replicate (width - digits.length) '0' ++ digits)

def yearText (year : Int) : String :=
  if year < 0 then "-" ++ padded 4 year.natAbs
  else if year ≤ 9999 then padded 4 year.natAbs
  else "+" ++ padded 4 year.natAbs

def fractionText (nano : Nat) : String :=
  if nano = 0 then ""
  else if nano % 1000000 = 0 then "." ++ padded 3 (nano / 1000000)
  else if nano % 1000 = 0 then "." ++ padded 6 (nano / 1000)
  else "." ++ padded 9 nano

namespace Timestamp

def text (t : Timestamp) : String :=
  let seconds := t.second % 60 + t.nano / nanosPerSecond
  yearText t.date.year ++ "-" ++ padded 2 t.date.month ++ "-" ++ padded 2 t.date.day ++ "T" ++
    padded 2 (t.second / 3600) ++ ":" ++ padded 2 (t.second / 60 % 60) ++ ":" ++
    padded 2 seconds ++ fractionText (t.nano % nanosPerSecond) ++ "Z"

def readDigits? (most : Nat) (text : List Char) : Option (Nat × List Char) :=
  let digits := (text.take most).takeWhile Char.isDigit
  if digits.isEmpty then none
  else (digitsValue? 0 digits).map fun n => (n, text.drop digits.length)

def readPair? (text : List Char) : Option (Nat × List Char) := readDigits? 2 (trimStart text)

/-- A year has at most four digits, unless a sign stands before it. -/
def readYear? (text : List Char) : Option (Int × List Char) :=
  match trimStart text with
  | '-' :: rest => (readDigits? rest.length rest).map fun (n, rest) => (-(n : Int), rest)
  | '+' :: rest => (readDigits? rest.length rest).map fun (n, rest) => ((n : Int), rest)
  | rest => (readDigits? 4 rest).map fun (n, rest) => ((n : Int), rest)

def readMark? (mark : Char) (text : List Char) : Option (List Char) :=
  match trimStart text with
  | c :: rest => if c = mark then some rest else none
  | [] => none

/-- The nanoseconds of a fraction, of which nine digits count. -/
def readFraction? : List Char → Option (Nat × List Char)
  | '.' :: rest => do
      let digits := (rest.take 9).takeWhile Char.isDigit
      let (n, _) ← readDigits? 9 rest
      return (n * Nat.pow 10 (9 - digits.length), rest.dropWhile Char.isDigit)
  | text => some (0, text)

/-- Read an offset from universal time, in seconds. -/
def readOffset? (text : List Char) : Option (Int × List Char) := do
  let (sign, rest) ← match text with
    | '+' :: rest => some ((1 : Int), rest)
    | '-' :: rest | '\u2212' :: rest => some (-1, rest)
    | _ => none
  let (hours, rest) ← readTwo? rest
  let (minutes, rest) ← readTwo? (rest.dropWhile fun c => c == ':' || isBlank c)
  let seconds := hours * 3600 + minutes * 60
  if minutes ≤ 59 ∧ seconds < secondsPerDay then some (sign * seconds, rest) else none
where
  readTwo? : List Char → Option (Nat × List Char)
    | a :: b :: rest => do return (10 * (← digitValue? a) + (← digitValue? b), rest)
    | _ => none

/-- Read the zone: universal time by its letter or its name, or an offset. -/
def readZone? (text : List Char) : Option (Int × List Char) :=
  if (text.take 3).map Char.toUpper = ['U', 'T', 'C'] then some (0, text.drop 3)
  else match text with
    | 'Z' :: rest | 'z' :: rest => some (0, rest)
    | _ => readOffset? text

def parseChars? (text : List Char) : Option Timestamp := do
  let (year, rest) ← readYear? text
  let rest ← readMark? '-' rest
  let (month, rest) ← readPair? rest
  let rest ← readMark? '-' rest
  let (day, rest) ← readPair? rest
  let rest ← match rest with
    | 'T' :: rest | 't' :: rest | ' ' :: rest => some rest
    | _ => none
  let (hour, rest) ← readPair? rest
  let rest ← readMark? ':' rest
  let (minute, rest) ← readPair? rest
  let rest ← readMark? ':' rest
  let (second, rest) ← readPair? rest
  let (nano, rest) ← readFraction? rest
  let (offset, rest) ← readZone? (trimStart rest)
  let date ← Date.ofParts? year month day
  if hour ≤ 23 ∧ minute ≤ 59 ∧ second ≤ 60 ∧ (trimStart rest).isEmpty then
    let extra := if second = 60 then nanosPerSecond else 0
    let t ← ofParts? date (hour * 3600 + minute * 60 + min second 59) (nano + extra)
    t.shift? (-offset)
  else none

def parse? (text : String) : Option Timestamp := parseChars? text.toList

end Timestamp

end LeasedListener
