import LeasedListener.Identifier

/-!
# Leadership status

Whether a contender holds the lease, as it tells its observers.  The version
moves on exactly when the lease is won or lost, so an observer that remembers
the version it saw knows whether something has changed since.
-/

namespace LeasedListener

structure Status where
  /-- The identity under which the lease is held, while it is held. -/
  held : Option Identifier := none
  version : Nat := 0
deriving DecidableEq

namespace Status

def isHeld (s : Status) : Bool := s.held.isSome

/-- The status, and whether this is news to observers. -/
def publish (s : Status) (held : Option Identifier) : Status × Bool :=
  if s.held.isSome = held.isSome then ({ s with held }, false)
  else (⟨held, s.version + 1⟩, true)

@[simp] theorem held_publish (s : Status) (held : Option Identifier) :
    (s.publish held).1.held = held := by
  simp only [publish]
  split <;> rfl

theorem publish_snd_iff {s : Status} {held : Option Identifier} :
    (s.publish held).2 = true ↔ s.held.isSome ≠ held.isSome := by
  simp only [publish]
  split <;> simp [*]

theorem version_publish (s : Status) (held : Option Identifier) :
    (s.publish held).1.version = s.version + if (s.publish held).2 then 1 else 0 := by
  simp only [publish]
  split <;> simp

end Status

end LeasedListener
