import LeasedListener.Log.Event
import LeasedListener.Polling.Tally
import LeasedListener.Queue.Store

/-!
# Executions

One run of the user function on a message, as a poller waits for it, and
everything that a poller needs from its environment.
-/

namespace LeasedListener

structure Execution where
  /-- Which run of its executor this is. -/
  serial : Nat
  /-- When the run ends of its own accord, if it does. -/
  ends : Option Nat
  /-- How the run ends then: it succeeds or not, or it breaks down. -/
  outcome : Except String Bool
  /-- How a run ends that is cancelled before its end, unless it ignores
  that. -/
  onCancel : Option (Except String Bool)

/-- The result of a run, once it has ended. -/
def Execution.result? (e : Execution) (now : Nat) (cancelled : Bool) :
    Option (Except String Bool) :=
  if Instant.reached now e.ends then some e.outcome
  else if cancelled then e.onCancel
  else none

structure PollerAccess (Env : Type) where
  queue : QueueAccess Env
  /-- The poison queue, for pollers that have one. -/
  poison : QueueAccess Env
  mark : Env → Mark → Env
  /-- Start the user function on a message. -/
  execute : Env → Delivery → Env × Execution
  /-- Take note of the result of a run. -/
  finish : Env → Execution → Except String Bool → Env

/-- The report of the user function that only reports its messages. -/
def Event.ofTrigger (m : Delivery) : Event :=
  match bodyText? m.body with
  | some body => .triggerReceived m.id m.dequeueCount body
  | none => .binaryTriggerReceived m.id m.dequeueCount m.body.length

end LeasedListener
