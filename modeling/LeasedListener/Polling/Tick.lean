import LeasedListener.Polling.Config
import LeasedListener.Polling.Disposition
import LeasedListener.Polling.Execution
import LeasedListener.Queue.Claim

/-!
# Ticks of a poller

A tick drains a queue one message at a time.  While the user function runs on
a message, a timer of its own keeps the message claimed; afterwards the
message is deleted, released, left alone, or copied to the poison queue and
then deleted.  The tick ends when no message is visible, when it is cancelled
between two messages, and at the first fatal error of a call of its own.

`Poller.advance` makes the transitions of the tick itself and
`Poller.advanceRenewal` those of the renewal timer of the message under way.
-/

namespace LeasedListener

open Surroundings

structure Poller where
  queue : String
  /-- The name of the poison queue, if there is one. -/
  poison : Option String
  config : PollingConfig

inductive TickPhase
  | probing (transit : Transit)
  /-- Looking for a message, told whether one was found before. -/
  | dequeuing (found : Bool) (transit : Transit)
  | executing (claim : Claim) (renewal : RenewalTimer) (execution : Execution)
  /-- Waiting for the renewal timer to stop. -/
  | settling (claim : Claim) (renewal : RenewalTimer) (succeeded : Bool) (wait : StopWait)
  | deleting (m : Delivery) (transit : Transit)
  | releasing (m : Delivery) (transit : Transit)
  /-- Making sure that the poison queue exists. -/
  | preparing (m : Delivery) (transit : Transit)
  | copying (m : Delivery) (transit : Transit)

/-- A transition of a tick.  A tick ends with whether it found a message. -/
abbrev TickProgress (Env : Type) := Progress Env TickPhase (Except StorageError Bool)

namespace Poller

def create (queue : String) (poison : Option String) (config : PollingConfig) :
    Except ConfigError Poller :=
  match config.validate with
  | .error error => .error error
  | .ok _ => .ok ⟨queue, poison, config⟩

def renewalPolicy (p : Poller) : Speedup :=
  .start p.config.renewalInterval p.config.minRenewalInterval

def renewalTimer (p : Poller) (m : Delivery) : RenewalTimer :=
  .started s!"visibility:{p.queue}:{m.id.text}" (.start p.renewalPolicy) false

variable {Env : Type} [Surroundings Env]

/-- Look for the next message, unless the tick is cancelled. -/
def seek (p : Poller) (a : PollerAccess Env) (env : Env) (cancelled found : Bool) :
    TickProgress Env :=
  if cancelled then .ended env (.ok found)
  else
    let (env, transit) := a.queue.issue env (.dequeue p.config.visibilityTimeout)
    .continues env (.dequeuing found transit)

def probe (a : PollerAccess Env) (env : Env) : TickProgress Env :=
  let (env, transit) := a.queue.issue env .probe
  .continues env (.probing transit)

def probed (p : Poller) (a : PollerAccess Env) (env : Env) (cancelled : Bool) :
    Except StorageError Bool → TickProgress Env
  | .ok true => p.seek a env cancelled false
  | .ok false => .ended (report env (.queueMissing p.queue)) (.ok false)
  | .error error =>
      if error.isFatal then .ended env (.error error)
      else .ended (report env (.queueUnknown p.queue error)) (.ok false)

/-- Start the user function on a message, and the renewal of the claim. -/
def process (p : Poller) (a : PollerAccess Env) (env : Env) (m : Delivery) : TickProgress Env :=
  let renewal := p.renewalTimer m
  let env := reportAll (a.mark env .dequeued)
    [.messageDequeued p.queue m.id m.dequeueCount, .timerStarted renewal.name]
  let (env, execution) := a.execute env m
  .continues env (.executing (.create m) renewal execution)

def dequeued (p : Poller) (a : PollerAccess Env) (env : Env) (found : Bool) :
    Except StorageError (Option Delivery) → TickProgress Env
  | .ok (some m) => p.process a env m
  | .ok none => .ended env (.ok found)
  | .error error =>
      if error.isFatal then .ended env (.error error)
      else .ended (report env (.dequeueFailed p.queue error)) (.ok false)

/-- Take note of the result of an execution and stop the renewal.  A tick breaks
down with the execution that it waits for. -/
def executed (p : Poller) (a : PollerAccess Env) (env : Env) (claim : Claim)
    (renewal : RenewalTimer) (execution : Execution) (result : Except String Bool) :
    TickProgress Env :=
  let finished := a.finish env execution result
  match result with
  | .ok succeeded =>
      .continues finished
        (.settling claim renewal.cancel succeeded (.start (now env) p.config.stopTimeout))
  | .error reason => .died finished reason

/-- Make the call that an ended execution calls for. -/
def dispose (p : Poller) (a : PollerAccess Env) (env : Env) (cancelled : Bool) (m : Delivery)
    (succeeded : Bool) : TickProgress Env :=
  match disposition p.config.maxDequeueCount succeeded m.dequeueCount p.poison.isSome with
  | .delete =>
      let (env, transit) := a.queue.issue env (.delete m)
      .continues env (.deleting m transit)
  | .release =>
      let (env, transit) := a.queue.issue env (.update m .zero)
      .continues env (.releasing m transit)
  | .quarantine =>
      let (env, transit) := a.poison.issue env .create
      .continues env (.preparing m transit)
  | .leave => p.seek a (report env (.messageLeft p.queue m.id)) cancelled true

def settled (p : Poller) (a : PollerAccess Env) (env : Env) (cancelled : Bool) (claim : Claim)
    (succeeded : Bool) (stopped : Except TimerError Unit) : TickProgress Env :=
  let env := match stopped with
    | .ok _ => env
    | .error error => report env (.renewalNotStopped p.queue claim.message.id error)
  let env := a.mark env (if succeeded then .succeeded else .failed)
  let env :=
    if claim.lost then report env (.claimLostDuringExecution p.queue claim.message.id) else env
  p.dispose a env cancelled claim.message succeeded

/-- The conclusion from the last call for a message.  A claim that has moved
on and a service in trouble are no reason to stop. -/
def disposed (p : Poller) (a : PollerAccess Env) (env : Env) (cancelled : Bool) (m : Delivery)
    (action : DisposalAction) : Except StorageError Unit → TickProgress Env
  | .ok _ => p.seek a env cancelled true
  | .error error =>
      match error.errorClass with
      | .conflict | .notFound =>
          p.seek a (report (a.mark env .disposalConflict) (.claimGone p.queue m.id action error))
            cancelled true
      | .transient =>
          p.seek a (report env (.disposalFailed p.queue m.id action error)) cancelled true
      | .fatal => .ended env (.error error)

def released (p : Poller) (a : PollerAccess Env) (env : Env) (cancelled : Bool) (m : Delivery) :
    Except StorageError Receipt → TickProgress Env
  | .ok _ => p.disposed a (a.mark env .released) cancelled m .release (.ok ())
  | .error error => p.disposed a env cancelled m .release (.error error)

/-- Leave a message in place that could not be copied. -/
def notCopied (p : Poller) (a : PollerAccess Env) (env : Env) (cancelled : Bool) (m : Delivery)
    (error : StorageError) : TickProgress Env :=
  if error.isFatal then .ended env (.error error)
  else
    p.seek a (report env (.messageNotCopied p.queue (p.poison.getD "") m.id error)) cancelled true

def prepared (p : Poller) (a : PollerAccess Env) (env : Env) (cancelled : Bool) (m : Delivery) :
    Except StorageError Unit → TickProgress Env
  | .ok _ =>
      let (env, transit) := a.poison.issue env (.enqueue m.body)
      .continues env (.copying m transit)
  | .error error => p.notCopied a env cancelled m error

def copied (p : Poller) (a : PollerAccess Env) (env : Env) (cancelled : Bool) (m : Delivery) :
    Except StorageError MessageId → TickProgress Env
  | .ok copy =>
      let event := Event.messageQuarantined p.queue (p.poison.getD "") m.id copy m.dequeueCount
      let (env, transit) := a.queue.issue (a.mark (report env event) .poisoned) (.delete m)
      .continues env (.deleting m transit)
  | .error error => p.notCopied a env cancelled m error

/-- One transition of the tick itself; nothing while it waits. -/
def advance (p : Poller) (a : PollerAccess Env) (env : Env) (cancelled : Bool) :
    TickPhase → Option (TickProgress Env)
  | .probing transit =>
      if transit.arrived (now env) then
        let (env, reply) := a.queue.perform env .probe transit
        some (p.probed a env cancelled reply)
      else none
  | .dequeuing found transit =>
      if transit.arrived (now env) then
        let (env, reply) := a.queue.perform env (.dequeue p.config.visibilityTimeout) transit
        some (p.dequeued a env found reply)
      else none
  | .executing claim renewal execution =>
      (execution.result? (now env) cancelled).map (p.executed a env claim renewal execution)
  | .settling claim renewal succeeded wait =>
      (renewal.stopResult? wait (now env)).map fun (_, stopped, events) =>
        p.settled a (reportAll env events) cancelled claim succeeded stopped
  | .deleting m transit =>
      if transit.arrived (now env) then
        let (env, reply) := a.queue.perform env (.delete m) transit
        some (p.disposed a env cancelled m .delete reply)
      else none
  | .releasing m transit =>
      if transit.arrived (now env) then
        let (env, reply) := a.queue.perform env (.update m .zero) transit
        some (p.released a env cancelled m reply)
      else none
  | .preparing m transit =>
      if transit.arrived (now env) then
        let (env, reply) := a.poison.perform env .create transit
        some (p.prepared a env cancelled m reply)
      else none
  | .copying m transit =>
      if transit.arrived (now env) then
        let (env, reply) := a.poison.perform env (.enqueue m.body) transit
        some (p.copied a env cancelled m reply)
      else none

/-- How renewal timers work on an environment and the claim. -/
def renewalDrive (p : Poller) (a : PollerAccess Env) :
    Drive (Env × Claim) (Pace Speedup) RenewalCall :=
  (Renewal.attempt a.queue p.queue p.config.visibilityTimeout).paced

/-- One transition of the renewal timer of the message under way. -/
def advanceRenewal (p : Poller) (a : PollerAccess Env) (env : Env) :
    TickPhase → Option (Env × TickPhase)
  | .executing claim renewal execution =>
      (renewal.poll (p.renewalDrive a) (env, claim)).map fun (renewal, env, claim) =>
        (env, .executing claim renewal execution)
  | .settling claim renewal succeeded wait =>
      (renewal.poll (p.renewalDrive a) (env, claim)).map fun (renewal, env, claim) =>
        (env, .settling claim renewal succeeded wait)
  | _ => none

/-- One transition of the tick or else of its renewal timer. -/
def advanceAny (p : Poller) (a : PollerAccess Env) (env : Env) (cancelled : Bool)
    (phase : TickPhase) : Option (TickProgress Env) :=
  match p.advance a env cancelled phase with
  | some progress => some progress
  | none => (p.advanceRenewal a env phase).map fun (env, phase) => .continues env phase

theorem of_advanceAny {p : Poller} {a : PollerAccess Env} {env : Env} {cancelled : Bool}
    {phase : TickPhase} {progress : TickProgress Env}
    (h : p.advanceAny a env cancelled phase = some progress) :
    p.advance a env cancelled phase = some progress ∨
      ∃ env' phase', p.advanceRenewal a env phase = some (env', phase') ∧
        progress = .continues env' phase' := by
  unfold advanceAny at h
  split at h
  · next own hown => exact .inl (hown.trans h)
  · simp only [Option.map_eq_some_iff, Prod.exists] at h
    obtain ⟨env', phase', hrenewal, rfl⟩ := h
    exact .inr ⟨env', phase', hrenewal, rfl⟩

/-- A tick as an attempt to find work. -/
def attempt (p : Poller) (a : PollerAccess Env) : Attempt Env TickPhase where
  enter env := probe a env
  advance env cancelled phase := p.advanceAny a env cancelled phase

end Poller

def TickPhase.wakes : TickPhase → List Nat
  | .probing transit | .dequeuing _ transit | .deleting _ transit | .releasing _ transit
  | .preparing _ transit | .copying _ transit => transit.due.toList
  | .executing _ renewal execution =>
      execution.ends.toList ++ renewal.wakes fun waiting => waiting.transit.due.toList
  | .settling _ renewal _ wait =>
      wait.ends.toList ++ renewal.wakes fun waiting => waiting.transit.due.toList

abbrev PollerTimer := Timer (Pace Backoff) TickPhase

namespace Poller

variable {Env : Type} [Surroundings Env]

/-- A fresh poller begins at its shortest wait. -/
def pace (p : Poller) : Pace Backoff :=
  .start (.start p.config.minPollingInterval p.config.maxPollingInterval)

def timerName (p : Poller) : String := s!"queue:{p.queue}"

def drive (p : Poller) (a : PollerAccess Env) : Drive Env (Pace Backoff) TickPhase :=
  (p.attempt a).paced

end Poller

end LeasedListener
