/-!
# Dispositions

What becomes of a message once the user function has ended.
-/

namespace LeasedListener

def poisonSuffix : String := "-poison"

/-- The name of the queue for messages of `queue` that keep failing. -/
def poisonQueueName (queue : String) : String := queue ++ poisonSuffix

inductive Disposition
  /-- Processed: remove it. -/
  | delete
  /-- Failed too often: copy the body to the poison queue, then remove it. -/
  | quarantine
  /-- Failed: make it visible for another attempt. -/
  | release
  /-- Failed, with no poison queue: let the claim lapse. -/
  | leave
deriving DecidableEq

def disposition (maxDequeueCount : UInt32) (succeeded : Bool) (dequeueCount : UInt32)
    (hasPoisonQueue : Bool) : Disposition :=
  if succeeded then .delete
  else if !hasPoisonQueue then .leave
  else if maxDequeueCount ≤ dequeueCount then .quarantine
  else .release

end LeasedListener
