import LeasedListener.Duration

/-!
# Durations as text

A duration is written in the largest unit of which it holds at least one, as
a decimal without trailing zeros: `15s`, `1.5ms`, `1.0005µs`, `100ns`.
-/

namespace LeasedListener

/-- `count` units and `part` of `scale` parts of a unit, in decimal without
trailing zeros. -/
def decimalText (count part scale : Nat) : String :=
  let places := (Nat.toDigits 10 (scale + part)).drop 1
  let kept := (places.reverse.dropWhile (· == '0')).reverse
  if kept.isEmpty then toString count else s!"{count}." ++ String.ofList kept

/-- A unit in which a duration can be written. -/
structure DurationUnit where
  nanos : Nat
  name : String

def durationUnits : List DurationUnit :=
  [⟨nanosPerSecond, "s"⟩, ⟨nanosPerMilli, "ms"⟩, ⟨1000, "µs"⟩]

def Duration.text (d : Duration) : String :=
  match durationUnits.find? fun unit => unit.nanos ≤ d.nanos with
  | some unit => decimalText (d.nanos / unit.nanos) (d.nanos % unit.nanos) unit.nanos ++ unit.name
  | none => s!"{d.nanos}ns"

end LeasedListener
