import LeasedListener.Duration

/-!
# Instants

An instant is a natural number, the nanoseconds since a common start.  A
storage window ends exactly when its length has passed, at most thirty years
ahead.  A wait ends at the first whole millisecond at which its length has
passed.

One limit of the model: a wait of more than thirty years never ends.  A real
clock would end it after all, so what is proved of such a wait (a timeout, a
pause between two attempts, the length of a run) holds for the first thirty
years only.
-/

namespace LeasedListener

/-- The longest stretch of time that is told apart from for ever. -/
def thirtyYears : Duration := .ofSeconds 946080000

namespace Instant

/-- The end of a storage window of length `d` that starts at `now`. -/
def windowEnd (now : Nat) (d : Duration) : Nat :=
  now + min d.nanos thirtyYears.nanos

/-- The first whole millisecond that is not before `t`. -/
def ceilMilli (t : Nat) : Nat :=
  (t + (nanosPerMilli - 1)) / nanosPerMilli * nanosPerMilli

/-- The end of a wait of length `d` that starts at `now`, if it ends: a wait of
more than thirty years counts as one that never does. -/
def waitEnd (now : Nat) (d : Duration) : Option Nat :=
  if thirtyYears < d then none else some (ceilMilli (now + d.nanos))

def reached (now : Nat) : Option Nat → Bool
  | none => false
  | some t => t ≤ now

theorem le_ceilMilli (t : Nat) : t ≤ ceilMilli t := by
  simp only [ceilMilli, nanosPerMilli]
  omega

end Instant

end LeasedListener
