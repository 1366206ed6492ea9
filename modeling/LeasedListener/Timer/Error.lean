import LeasedListener.Duration.Text

/-!
# Timer errors

Why a timer could not be started or stopped.
-/

namespace LeasedListener

inductive TimerError
  | alreadyRunning (timer : String)
  /-- An earlier stop ended without getting the command back. -/
  | commandUnavailable (timer : String)
  | stopTimedOut (timer : String) (timeout : Duration)
  /-- The loop died in the middle of a step. -/
  | taskFailed (timer reason : String)
deriving DecidableEq

def TimerError.message : TimerError → String
  | .alreadyRunning timer => s!"timer '{timer}' is already running"
  | .commandUnavailable timer =>
      s!"timer '{timer}' has no command (a previous stop had to abort it)"
  | .stopTimedOut timer timeout =>
      s!"timer '{timer}' did not stop within {timeout.text}; task aborted"
  | .taskFailed timer reason => s!"timer '{timer}' task failed: {reason}"

end LeasedListener
