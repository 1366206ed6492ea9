import LeasedListener.Host.Settings
import LeasedListener.Scenario.Wait

/-!
# Steps of a scenario

What can be done in a scenario.
-/

namespace LeasedListener

structure PollerPlan where
  queue : String
  poison : Option String
  behaviour : Behaviour
  config : PollingConfig
  script : List ScriptEntry
  poisonScript : List ScriptEntry
  /-- The poller or host whose tally it shares, if any. -/
  sharedTally : Option String

structure HostPlan where
  lease : String
  queue : String
  poison : Option String
  settings : List (String × String)
  leaseConfig : Option LeaseConfig
  pollingConfig : Option PollingConfig
  behaviour : Behaviour
  script : List ScriptEntry
  queueScript : List ScriptEntry
  poisonScript : List ScriptEntry

/-- When a tick to be run is cancelled. -/
inductive CancelPlan
  | never
  | fromStart
  | after (d : Duration)

def CancelPlan.begin (now : Nat) : CancelPlan → Cancellation
  | .never => .never
  | .fromStart => .fromStart
  | .after d => .after (Instant.waitEnd now d)

inductive Step
  | sleep (d : Duration)
  /-- Move the clock while no task is running. -/
  | advance (d : Duration)
  | newQueue (q : String) (missing : Bool)
  | queueState (q : String)
  | queueExists (q : String)
  | createQueue (q : String)
  | dropQueue (q : String)
  | enqueue (q : String) (body : List UInt8)
  | push (q : String) (body : List UInt8) (count : UInt32)
  | injectFault (q : String) (operation : QueueOperation) (error : StorageError)
  | dequeue (q : String) (window : Duration) (slot : String)
  | update (q : String) (slot : String) (window : Duration) (keep : Bool)
  | delete (q : String) (slot : String)
  | find (q : String) (slot : String)
  | copyMessage (source target : String) (receiptOf : Option String) (newId newReceipt : Bool)
  | claim (slot : String) (c : String)
  | claimState (c : String) (slot : Option String)
  | newRenewal (n : String) (renewal : RenewalActor) (script : List ScriptEntry)
  | renew (n : String)
  | ensureLease (b : String)
  | acquireLease (b : String) (d : Duration) (holder : Identifier)
  | renewLease (b : String) (holder : Identifier)
  | releaseLease (b : String) (holder : Identifier)
  | deleteLease (b : String)
  | leaseState (b : String)
  | addScript (gateway : String) (script : List ScriptEntry)
  | calls (gateway : String)
  | runs (n : String)
  | newTimer (n : String) (command : ScriptedCommand)
  | startTimer (n : String) (stepFirst : Bool)
  | stopTimer (n : String) (timeout : Duration)
  | dropTimer (n : String)
  | timerState (n : String)
  | newCoordinator (n b : String) (config : LeaseConfig) (script : List ScriptEntry)
  | startCoordinator (n : String)
  | coordinatorState (n : String)
  | subscribe (n subscription : String)
  | observe (subscription : String)
  | shutDownCoordinator (n : String)
  | dropCoordinator (n : String)
  | newPoller (n : String) (plan : PollerPlan)
  | tick (n : String) (cancel : CancelPlan)
  | makeCommand (n : String)
  | execute (n : String) (cancel : CancelPlan)
  | makeTimer (n : String)
  | startPoller (n : String) (stepFirst : Bool)
  | stopPoller (n : String) (timeout : Duration)
  | pollerState (n : String)
  | dropPoller (n : String)
  | tally (n : String)
  | startHost (n : String) (plan : HostPlan)
  | hostState (n : String)
  | shutDownHost (n : String)
  | dropHost (n : String)

end LeasedListener
