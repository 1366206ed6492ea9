import LeasedListener.Config.Error
import LeasedListener.Timer.Error

/-!
# Host errors

Why a host could not be started, or could not be shut down in order.  A host
makes no storage call of its own, and its supervisor does not break down, so
neither of these is among the reasons.
-/

namespace LeasedListener

inductive HostError
  | config (cause : ConfigError)
  | timer (cause : TimerError)

def HostError.message : HostError → String
  | .config cause => s!"invalid configuration: {cause.message}"
  | .timer cause => cause.message

end LeasedListener
