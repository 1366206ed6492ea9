import LeasedListener.Scenario.Wait

/-!
# Answers

What the steps of a scenario answer, and how queues and lease objects look
from outside.
-/

namespace LeasedListener

/-- A queue as an onlooker sees it. -/
structure QueueView where
  length : Nat
  visible : Nat
  /-- The messages that steps have added and that are still there, with their
  dequeue counts. -/
  known : List (MessageId × UInt32)
  bodies : List (List UInt8)

structure LeaseView where
  present : Bool
  holder : Option Identifier

inductive Answer
  | done
  /-- What the step named is not there. -/
  | absent
  | stalled
  | brokeDown (reason : String)
  /-- The step named a slot without a message. -/
  | noMessage
  | flag (b : Bool)
  | name (text : String)
  | queue (view : QueueView)
  | lease (view : LeaseView)
  | messageId (id : MessageId)
  | receipt (receipt : Receipt)
  | holder (id : Option Identifier)
  | message (m : Option Delivery)
  | found (count : Option UInt32)
  | claim (c : Claim)
  | storageError (error : StorageError)
  | configError (error : ConfigError)
  | timerError (error : TimerError)
  | hostError (error : HostError)
  | calls (records : List CallRecord)
  | runs (records : List RunRecord)
  | starts (instants : List Nat)
  | timer (running : Bool) (next : Option Duration)
  | coordinator (hasLease : Bool)
  | observed (changed : Bool) (value : Option Identifier)
  | closed (value : Option Identifier)
  | poller (queue : String) (maxDequeueCount : UInt32)
  | command (next : Duration) (queue : String)
  | executed (result : Except StorageError Unit) (next : Duration)
  | host (listening hasLease : Bool)
  | tally (t : Tally)

namespace Answer

/-- An answer for a call, given how a success is answered. -/
def ofResult {α : Type} (success : α → Answer) : Except StorageError α → Answer
  | .ok a => success a
  | .error error => .storageError error

def ofStop : Except TimerError Unit → Answer
  | .ok _ => .done
  | .error error => .timerError error

def ofWait : WaitResult → Answer
  | .elapsed => .done
  | .stopped result => ofStop result
  | .ticked result | .renewed result => ofResult .flag result
  | .executed result next => .executed result next
  | .brokeDown reason => .brokeDown reason
  | .absent => .absent
  | .stalled => .stalled

def ofShutdown : WaitResult → Answer
  | .stopped (.error error) => .hostError (.timer error)
  | other => ofWait other

end Answer

end LeasedListener
