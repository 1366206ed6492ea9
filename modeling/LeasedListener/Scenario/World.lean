import LeasedListener.Host.Basic
import LeasedListener.Table

/-!
# Worlds

Everything in a scenario that tasks share: the clock and the log, queues and
lease objects, the gateways that lead to them, the executors of user
functions, and tallies.  Each has a name; a task of name `n` uses the gateways
`n.queue`, `n.poison` and `n.lease`.
-/

namespace LeasedListener

/-- How one run of a scripted user function goes. -/
structure RunEntry where
  succeeds : Bool := true
  length : Duration := .zero
  onCancel : Option Bool := none
  /-- Whether the run breaks down instead of ending of its own accord. -/
  breaksDown : Bool := false

structure RunRecord where
  start : Nat
  /-- When the run ended and how, if it did and has not broken down. -/
  outcome : Option (Nat × Bool)
  message : MessageId
  dequeueCount : UInt32
  body : List UInt8

/-- The record of a run that has ended.  One that has broken down leaves no
outcome. -/
def RunRecord.finished (r : RunRecord) (now : Nat) : Except String Bool → RunRecord
  | .ok result => { r with outcome := some (now, result) }
  | .error _ => r

inductive Behaviour
  /-- Report each message and succeed. -/
  | announcing
  /-- Go by the entries of a script, and after its end by the standard one. -/
  | scripted (script : List RunEntry) (standard : RunEntry)

structure Executor where
  behaviour : Behaviour
  records : List RunRecord

instance : Inhabited Executor := ⟨⟨.announcing, []⟩⟩

structure World where
  now : Nat
  /-- The civil time at instant zero. -/
  epoch : Timestamp
  /-- The reports so far, the latest first. -/
  log : List LogEntry
  serials : Serials
  queues : Table Queue
  container : LeaseContainer
  gateways : Table Gateway
  executors : Table Executor
  tallies : Table Tally
  /-- When the steps of each timer started, the latest first. -/
  stepStarts : Table (List Nat)

instance : Surroundings World where
  now w := w.now
  wallClock w := w.epoch.plus (.ofNanos w.now)
  report w event := { w with log := ⟨w.now, event⟩ :: w.log }

/-- The time at which the scenarios play. -/
def scenarioEpoch : Timestamp where
  date := ⟨2026, 1, 1, by decide, by decide, by decide⟩
  second := 0
  nano := 0
  second_lt := by decide
  nano_lt := by decide

namespace World

def initial : World where
  now := 0
  epoch := scenarioEpoch
  log := []
  serials := {}
  queues := {}
  container := {}
  gateways := {}
  executors := {}
  tallies := {}
  stepStarts := {}

def queue (w : World) (name : String) : Queue := (w.queues.get? name).getD (.missing name)

def gateway (w : World) (name : String) : Gateway := (w.gateways.get? name).getD {}

def openGateway (w : World) (name : String) (script : List ScriptEntry) : World :=
  { w with gateways := w.gateways.set name { script } }

def issue (w : World) (gateway : String) (call : CallKind) : World × Transit :=
  let (g, transit) := (w.gateway gateway).issue w.now call
  ({ w with gateways := w.gateways.set gateway g }, transit)

/-- Note at a gateway that a call has come back. -/
def record (w : World) (gateway : String) (call : CallKind) (arguments : List CallArgument)
    (failure : Option ErrorClass) : World :=
  { w with
    gateways :=
      w.gateways.set gateway ((w.gateway gateway).record ⟨w.now, call, arguments, failure⟩) }

/-- Make a call on a queue directly. -/
def callQueue (w : World) (name : String) (call : QueueCall) (transit : Transit) :
    World × Except StorageError call.Reply :=
  let run := call.run w.now (Surroundings.wallClock w)
  let ((serials, queue), reply) := transit.carry run (w.serials, w.queue name)
  ({ w with serials, queues := w.queues.set name queue }, reply)

/-- Make a call on a lease object directly. -/
def callLease (w : World) (name : String) (call : LeaseCall) (transit : Transit) :
    World × Except StorageError call.Reply :=
  let (container, reply) := transit.carry (fun c => c.run name w.now call) w.container
  ({ w with container }, reply)

def queueAccess (gateway name : String) : QueueAccess World where
  issue w call := w.issue gateway call.kind
  perform w call transit :=
    let (w, reply) := w.callQueue name call transit
    (w.record gateway call.kind call.arguments (failureOf reply), reply)

def leaseAccess (gateway name : String) : LeaseAccess World where
  issue w call := w.issue gateway call.kind
  perform w call transit :=
    let (w, reply) := w.callLease name call transit
    (w.record gateway call.kind call.arguments (failureOf reply), reply)

def mark (w : World) (tally : String) (m : Mark) : World :=
  { w with tallies := w.tallies.set tally (((w.tallies.get? tally).getD {}).add m) }

def executor (w : World) (name : String) : Executor := (w.executors.get? name).getD default

/-- Start the user function of an executor on a message.  Only scripted runs
are recorded. -/
def execute (w : World) (executor : String) (m : Delivery) : World × Execution :=
  let e := w.executor executor
  let serial := e.records.length
  match e.behaviour with
  | .announcing =>
      (Surroundings.report w (.ofTrigger m), ⟨serial, some w.now, .ok true, none⟩)
  | .scripted script standard =>
      let entry := script.head?.getD standard
      let behaviour := .scripted script.tail standard
      let records := e.records ++ [⟨w.now, none, m.id, m.dequeueCount, m.body⟩]
      let ends := if entry.length.isZero then some w.now else Instant.waitEnd w.now entry.length
      let outcome : Except String Bool :=
        if entry.breaksDown then .error "task panicked with message \"scripted panic\""
        else .ok entry.succeeds
      let w := { w with executors := w.executors.set executor ⟨behaviour, records⟩ }
      (w, ⟨serial, ends, outcome, entry.onCancel.map .ok⟩)

/-- Note the result of a run. -/
def finish (w : World) (executor : String) (e : Execution) (result : Except String Bool) : World :=
  let known := w.executor executor
  let records := known.records.modify e.serial (·.finished w.now result)
  { w with executors := w.executors.set executor { known with records } }

def pollerAccess (n queue : String) (poison : Option String) (tally : String) :
    PollerAccess World where
  queue := queueAccess (n ++ ".queue") queue
  poison := queueAccess (n ++ ".poison") (poison.getD "")
  mark w m := w.mark tally m
  execute w m := w.execute n m
  finish w e result := w.finish n e result

def hostAccess (n lease queue : String) (poison : Option String) : HostAccess World where
  lease := leaseAccess (n ++ ".lease") lease
  poller := pollerAccess n queue poison n

def stepStarted (w : World) (timer : String) : World :=
  { w with stepStarts := w.stepStarts.set timer (w.now :: (w.stepStarts.get? timer).getD []) }

end World

end LeasedListener
