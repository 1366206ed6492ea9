/-!
# Durations

A duration is a whole number of nanoseconds below 2^64 seconds.  The bound is
part of the type, so the one operation that can leave the range, doubling,
says so in its result.
-/

namespace LeasedListener

def nanosPerSecond : Nat := 1000000000

def nanosPerMilli : Nat := 1000000

/-- The first number of nanoseconds that is too large for a duration. -/
def durationBound : Nat := UInt64.size * nanosPerSecond

structure Duration where
  nanos : Nat
  nanos_lt : nanos < durationBound
deriving DecidableEq

namespace Duration

/-- The duration of `n` nanoseconds, or the longest one where `n` does not
fit. -/
def ofNanos (n : Nat) : Duration :=
  ⟨min n (durationBound - 1), by
    have : 0 < durationBound := by decide
    omega⟩

def ofSeconds (n : Nat) : Duration := ofNanos (n * nanosPerSecond)

def ofMillis (n : Nat) : Duration := ofNanos (n * nanosPerMilli)

def zero : Duration := ofNanos 0

def longest : Duration := ofNanos (durationBound - 1)

instance : Inhabited Duration := ⟨zero⟩

instance : LE Duration := ⟨fun a b => a.nanos ≤ b.nanos⟩

instance : LT Duration := ⟨fun a b => a.nanos < b.nanos⟩

instance (a b : Duration) : Decidable (a ≤ b) := inferInstanceAs (Decidable (a.nanos ≤ b.nanos))

instance (a b : Duration) : Decidable (a < b) := inferInstanceAs (Decidable (a.nanos < b.nanos))

instance : Min Duration := ⟨fun a b => if a ≤ b then a else b⟩

instance : Max Duration := ⟨fun a b => if a ≤ b then b else a⟩

def isZero (d : Duration) : Bool := d.nanos == 0

def seconds (d : Duration) : Nat := d.nanos / nanosPerSecond

def subsecNanos (d : Duration) : Nat := d.nanos % nanosPerSecond

def wholeMillis (d : Duration) : Nat := d.nanos / nanosPerMilli

/-- Twice the duration, where it still fits. -/
def twice? (d : Duration) : Option Duration :=
  if h : 2 * d.nanos < durationBound then some ⟨2 * d.nanos, h⟩ else none

/-- The `n`-th part of a duration, rounded down. -/
def dividedBy (d : Duration) (n : Nat) : Duration :=
  ⟨d.nanos / n, Nat.lt_of_le_of_lt (Nat.div_le_self ..) d.nanos_lt⟩

theorem le_iff {a b : Duration} : a ≤ b ↔ a.nanos ≤ b.nanos := Iff.rfl

theorem lt_iff {a b : Duration} : a < b ↔ a.nanos < b.nanos := Iff.rfl

theorem ext_nanos {a b : Duration} (h : a.nanos = b.nanos) : a = b := by
  cases a
  cases b
  cases h
  rfl

@[simp] theorem nanos_dividedBy (d : Duration) (n : Nat) :
    (d.dividedBy n).nanos = d.nanos / n := rfl

theorem nanos_ofNanos {n : Nat} (h : n < durationBound) : (ofNanos n).nanos = n := by
  simp only [ofNanos]
  omega

theorem nanos_ofSeconds {n : Nat} (h : n < UInt64.size) :
    (ofSeconds n).nanos = n * nanosPerSecond :=
  nanos_ofNanos (Nat.mul_lt_mul_of_pos_right h (by decide))

@[simp] theorem nanos_min (a b : Duration) : (min a b).nanos = min a.nanos b.nanos := by
  change (if a ≤ b then a else b).nanos = _
  simp only [le_iff]
  split <;> omega

@[simp] theorem nanos_max (a b : Duration) : (max a b).nanos = max a.nanos b.nanos := by
  change (if a ≤ b then b else a).nanos = _
  simp only [le_iff]
  split <;> omega

end Duration

end LeasedListener
