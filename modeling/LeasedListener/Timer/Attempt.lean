import LeasedListener.Interval.Policy
import LeasedListener.Timer.Basic

/-!
# Attempts

A step that may succeed or not, and the command that leaves the wait after
each attempt to an interval policy.
-/

namespace LeasedListener

structure Attempt (Env Phase : Type) where
  enter : Env → Progress Env Phase (Except StorageError Bool)
  /-- Go on, told whether the attempt was cancelled; nothing while it waits. -/
  advance : Env → Bool → Phase → Option (Progress Env Phase (Except StorageError Bool))

namespace Attempt

variable {Env Phase α : Type} [IntervalPolicy α]

/-- A transition of an attempt, seen as one of the command: once the attempt
has ended, the policy learns the result. -/
def pacedProgress (pace : Pace α) :
    Progress Env Phase (Except StorageError Bool) →
      Progress (Env × Pace α) Phase (Except StorageError Unit)
  | .continues env phase => .continues (env, pace) phase
  | .ended env result => .ended (env, pace.afterResult result) (result.map fun _ => ())
  | .died env reason => .died (env, pace) reason

/-- The command that repeats the attempt at the pace of a policy. -/
def paced (a : Attempt Env Phase) : Drive Env (Pace α) Phase where
  interval _ pace := pace.next
  enter env pace := pacedProgress pace (a.enter env)
  advance env pace cancelled phase := (a.advance env cancelled phase).map (pacedProgress pace)

end Attempt

end LeasedListener
