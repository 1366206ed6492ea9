import LeasedListener.Queue.Message
import LeasedListener.Storage.Error
import LeasedListener.Timer.Error

/-!
# Log events

Everything that the library reports while it runs.  An event is a cause with
its data; `Event.level`, `Event.message` and `Event.fields` say how it is
written.
-/

namespace LeasedListener

inductive Level
  | trace
  | debug
  | info
  | warn
  | error
deriving DecidableEq

inductive LossReason
  | takenOver
  | expired
  | notRecreated
deriving DecidableEq

def LossReason.text : LossReason → String
  | .takenOver => "another instance holds the lease"
  | .expired => "lease expired before it could be renewed"
  | .notRecreated => "lease object could not be recreated"

/-- The last call made for a message. -/
inductive DisposalAction
  | delete
  | release
deriving DecidableEq

def DisposalAction.text : DisposalAction → String
  | .delete => "delete"
  | .release => "release"

inductive Event
  | timerStarted (timer : String)
  | timerStopped (timer : String)
  | timerOverran (timer : String) (timeout : Duration)
  | timerStepFailed (timer : String) (error : StorageError)
  | coordinatorStarted (lease : String) (holder : Identifier)
  | leaseAcquired (lease : String) (holder : Identifier)
  | leaseLost (lease : String) (holder : Identifier) (reason : LossReason)
  | leaseRenewed (lease : String) (holder : Identifier)
  | leaseReleased (lease : String) (holder : Identifier)
  | leaseHeldElsewhere (lease : String)
  | leaseObjectMissing (lease : String)
  | leaseObjectDeleted (lease : String) (holder : Identifier)
  | leaseObjectRecreated (lease : String) (holder : Identifier)
  | leaseObjectNotCreated (lease : String) (error : StorageError)
  | acquisitionFailed (lease : String) (error : StorageError)
  | renewalFailed (lease : String) (error : StorageError) (retryIn : Duration)
  | releaseIgnored (lease : String) (error : StorageError)
  | queueMissing (queue : String)
  | queueUnknown (queue : String) (error : StorageError)
  | dequeueFailed (queue : String) (error : StorageError)
  | messageDequeued (queue : String) (message : MessageId) (count : UInt32)
  | claimRenewed (queue : String) (message : MessageId)
  | claimLost (queue : String) (message : MessageId) (error : StorageError)
  | claimRenewalFailed (queue : String) (message : MessageId) (error : StorageError)
  | renewalNotStopped (queue : String) (message : MessageId) (error : TimerError)
  | claimLostDuringExecution (queue : String) (message : MessageId)
  | messageLeft (queue : String) (message : MessageId)
  | messageQuarantined (queue poison : String) (message copy : MessageId) (count : UInt32)
  | messageNotCopied (queue poison : String) (message : MessageId) (error : StorageError)
  | claimGone (queue : String) (message : MessageId) (action : DisposalAction)
      (error : StorageError)
  | disposalFailed (queue : String) (message : MessageId) (action : DisposalAction)
      (error : StorageError)
  | triggerReceived (message : MessageId) (count : UInt32) (body : String)
  | binaryTriggerReceived (message : MessageId) (count : UInt32) (bytes : Nat)
  | listenerStarted (queue : String)
  | listenerStopped (queue : String)
  | leaseChangeNotFollowed (queue : String) (error : TimerError) (held : Bool)
  | hostStarted (queue lease : String) (singleton : Bool)
  | hostStopped
  | settingIgnored (key value : String)
deriving DecidableEq

namespace Event

def level : Event → Level
  | .leaseRenewed .. => .trace
  | .timerStarted _ | .timerStopped _ | .leaseHeldElsewhere _ | .releaseIgnored .. | .queueMissing _
  | .messageDequeued .. | .claimRenewed .. | .claimLostDuringExecution .. | .messageLeft ..
  | .claimGone .. => .debug
  | .timerOverran .. | .leaseObjectNotCreated .. | .acquisitionFailed .. | .renewalFailed ..
  | .queueUnknown .. | .dequeueFailed .. | .claimRenewalFailed .. | .renewalNotStopped ..
  | .messageNotCopied .. | .disposalFailed .. | .settingIgnored .. => .warn
  | .timerStepFailed .. | .leaseChangeNotFollowed .. => .error
  | _ => .info

def message : Event → String
  | .timerStarted _ => "timer started"
  | .timerStopped _ => "timer stopped"
  | .timerOverran .. => "timer did not stop in time; aborting"
  | .timerStepFailed .. => "timer step failed"
  | .coordinatorStarted .. => "lease coordinator started"
  | .leaseAcquired .. => "lease acquired"
  | .leaseLost .. => "lease lost"
  | .leaseRenewed .. => "lease renewed"
  | .leaseReleased .. => "lease released"
  | .leaseHeldElsewhere _ => "lease is held by another instance"
  | .leaseObjectMissing _ => "lease object missing; creating it"
  | .leaseObjectDeleted .. => "lease object was deleted; recreating it"
  | .leaseObjectRecreated .. => "lease object recreated; lease retained"
  | .leaseObjectNotCreated .. => "could not create lease object"
  | .acquisitionFailed .. => "lease acquisition failed; will retry"
  | .renewalFailed .. => "lease renewal failed; retrying sooner"
  | .releaseIgnored .. => "ignoring lease release failure"
  | .queueMissing _ => "queue does not exist"
  | .queueUnknown .. => "queue existence check failed"
  | .dequeueFailed .. => "dequeue failed"
  | .messageDequeued .. => "message dequeued"
  | .claimRenewed .. => "message visibility renewed"
  | .claimLost .. => "message claim lost; renewal stopped"
  | .claimRenewalFailed .. => "message visibility renewal failed; retrying sooner"
  | .renewalNotStopped .. => "visibility renewal did not stop cleanly"
  | .claimLostDuringExecution .. => "claim was lost during execution"
  | .messageLeft .. => "message failed; leaving it for its claim to lapse"
  | .messageQuarantined .. => "message moved to poison queue"
  | .messageNotCopied .. => "could not copy message to poison queue; leaving it in place"
  | .claimGone .. => "message claim already gone"
  | .disposalFailed .. => "message disposal failed"
  | .triggerReceived .. => "trigger received"
  | .binaryTriggerReceived .. => "trigger received (binary body)"
  | .listenerStarted _ => "queue listener started"
  | .listenerStopped _ => "queue listener stopped"
  | .leaseChangeNotFollowed .. => "could not follow lease change"
  | .hostStarted .. => "host started"
  | .hostStopped => "host stopped"
  | .settingIgnored .. => "ignoring malformed configuration value; using default"

/-- The data of an event, by name. -/
def fields : Event → List (String × String)
  | .timerStarted timer | .timerStopped timer => [("timer", timer)]
  | .timerOverran timer timeout => [("timer", timer), ("timeout", timeout.text)]
  | .timerStepFailed timer error => [("timer", timer), ("error", error.message)]
  | .coordinatorStarted lease holder | .leaseAcquired lease holder | .leaseRenewed lease holder
  | .leaseReleased lease holder | .leaseObjectDeleted lease holder
  | .leaseObjectRecreated lease holder => [("lease", lease), ("holder_id", holder.text)]
  | .leaseLost lease holder reason =>
      [("lease", lease), ("holder_id", holder.text), ("reason", reason.text)]
  | .leaseHeldElsewhere lease | .leaseObjectMissing lease => [("lease", lease)]
  | .leaseObjectNotCreated lease error | .acquisitionFailed lease error
  | .releaseIgnored lease error => [("lease", lease), ("error", error.message)]
  | .renewalFailed lease error retryIn =>
      [("lease", lease), ("error", error.message), ("retry_in", retryIn.text)]
  | .queueMissing queue | .listenerStarted queue | .listenerStopped queue => [("queue", queue)]
  | .queueUnknown queue error | .dequeueFailed queue error =>
      [("queue", queue), ("error", error.message)]
  | .messageDequeued queue message count =>
      [("queue", queue), ("message_id", message.text), ("dequeue_count", toString count.toNat)]
  | .claimRenewed queue message | .claimLostDuringExecution queue message
  | .messageLeft queue message => [("queue", queue), ("message_id", message.text)]
  | .claimLost queue message error | .claimRenewalFailed queue message error =>
      [("queue", queue), ("message_id", message.text), ("error", error.message)]
  | .renewalNotStopped queue message error =>
      [("queue", queue), ("message_id", message.text), ("error", error.message)]
  | .messageQuarantined queue poison message copy count =>
      [("queue", queue), ("poison_queue", poison), ("message_id", message.text),
        ("poison_message_id", copy.text), ("dequeue_count", toString count.toNat)]
  | .messageNotCopied queue poison message error =>
      [("queue", queue), ("poison_queue", poison), ("message_id", message.text),
        ("error", error.message)]
  | .claimGone queue message action error | .disposalFailed queue message action error =>
      [("queue", queue), ("message_id", message.text), ("action", action.text),
        ("error", error.message)]
  | .triggerReceived message count body =>
      [("message_id", message.text), ("dequeue_count", toString count.toNat), ("body", body)]
  | .binaryTriggerReceived message count bytes =>
      [("message_id", message.text), ("dequeue_count", toString count.toNat),
        ("bytes", toString bytes)]
  | .leaseChangeNotFollowed queue error held =>
      [("queue", queue), ("error", error.message), ("held", toString held)]
  | .hostStarted queue lease singleton =>
      [("queue", queue), ("lease", lease), ("singleton", toString singleton)]
  | .hostStopped => []
  | .settingIgnored key value => [("key", key), ("value", value)]

end Event

structure LogEntry where
  time : Nat
  event : Event

end LeasedListener
