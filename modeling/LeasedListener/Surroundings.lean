import LeasedListener.Log.Event

/-!
# Surroundings

What every task sees of the world around it: the time, and the log to which
it reports.
-/

namespace LeasedListener

class Surroundings (Env : Type) where
  now : Env → Nat
  /-- The civil time that goes with `now`. -/
  wallClock : Env → Timestamp
  report : Env → Event → Env

namespace Surroundings

variable {Env : Type} [Surroundings Env]

def reportAll (env : Env) (events : List Event) : Env := events.foldl report env

/-- What a task keeps beside its surroundings does not change them. -/
instance {α : Type} : Surroundings (Env × α) where
  now env := now env.1
  wallClock env := wallClock env.1
  report env event := (report env.1 event, env.2)

end Surroundings

end LeasedListener
