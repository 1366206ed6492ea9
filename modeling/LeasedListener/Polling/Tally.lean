/-!
# Tallies

Running totals of what pollers did with messages.  They have no upper bound,
which differs from counters of 64 bits after 2^64 events only.
-/

namespace LeasedListener

inductive Mark
  | dequeued
  | succeeded
  | failed
  | released
  | poisoned
  /-- A disposal was refused because the claim had moved on. -/
  | disposalConflict
deriving DecidableEq

structure Tally where
  dequeued : Nat := 0
  succeeded : Nat := 0
  failed : Nat := 0
  released : Nat := 0
  poisoned : Nat := 0
  disposalConflicts : Nat := 0
deriving DecidableEq

namespace Tally

instance : Inhabited Tally := ⟨{}⟩

def add (t : Tally) : Mark → Tally
  | .dequeued => { t with dequeued := t.dequeued + 1 }
  | .succeeded => { t with succeeded := t.succeeded + 1 }
  | .failed => { t with failed := t.failed + 1 }
  | .released => { t with released := t.released + 1 }
  | .poisoned => { t with poisoned := t.poisoned + 1 }
  | .disposalConflict => { t with disposalConflicts := t.disposalConflicts + 1 }

end Tally

end LeasedListener
