import LeasedListener.Leadership.Contender
import LeasedListener.Timer.Basic

/-!
# Coordinators

A coordinator lets a timer drive a contender and shows observers its status.
It is closed by stopping the timer and then releasing the lease, if the
contender holds it once its loop has ended.

An observer keeps a coordinator's status alive no longer than the coordinator
and its loop: `isClosed` says that nobody is left to change it.
-/

namespace LeasedListener

open Surroundings

/-- A contender in a step: the call that it waits for, on its way. -/
structure ContenderCall where
  phase : ContenderPhase
  transit : Transit

structure Coordinator where
  config : LeaseConfig
  timer : Timer Contender ContenderCall
  status : Status
  lease : String
  /-- Whether the coordinator is still in use. -/
  owned : Bool
  /-- Whether an aborted loop is still to be discarded. -/
  orphan : Bool

inductive Closing
  | stopping (wait : StopWait)
  | releasing (lease : Identifier) (transit : Transit) (stopped : Except TimerError Unit)

def Closing.wakes : Closing → List Nat
  | .stopping wait => wait.ends.toList
  | .releasing _ transit _ => transit.due.toList

namespace Coordinator

def create (lease : String) (config : LeaseConfig) : Except ConfigError Coordinator :=
  match config.validate with
  | .error error => .error error
  | .ok _ =>
      .ok {
        config := config
        timer := .create s!"lease:{lease}" (.create lease config)
        status := {}
        lease := lease
        owned := true
        orphan := false }

def hasLease (c : Coordinator) : Bool := c.status.isHeld

def isClosed (c : Coordinator) : Bool := !c.owned && !c.orphan

/-- Start the timer with a step.  The start is announced whether or not it
succeeds. -/
def start (c : Coordinator) : Coordinator × Except TimerError Unit × List Event :=
  let announced := Event.coordinatorStarted c.lease c.config.holder
  match c.timer.start true with
  | .ok timer => ({ c with timer }, .ok (), [announced, .timerStarted timer.name])
  | .error error => (c, .error error, [announced])

/-- Drop the coordinator without a release. -/
def discard (c : Coordinator) : Coordinator :=
  { c with
    owned := false
    orphan := c.orphan || c.timer.isRunning
    timer := { c.timer with command := none, loop := none } }

variable {Env : Type} [Surroundings Env]

/-- Send the call of a phase on its way. -/
def place (access : LeaseAccess Env) (env : Env) (status : Status) (c : Contender)
    (phase : ContenderPhase) :
    Progress ((Env × Status) × Contender) ContenderCall (Except StorageError Unit) :=
  let (env, transit) := access.issue env (c.call phase)
  .continues ((env, status), c) ⟨phase, transit⟩

/-- How a contender works on an environment and its own status. -/
def drive (access : LeaseAccess Env) : Drive (Env × Status) Contender ContenderCall where
  interval env c := c.interval env.2
  enter env c := place access env.1 env.2 c (Contender.firstPhase env.2)
  advance env c _ waiting :=
    if waiting.transit.arrived (now env) then
      let (outside, reply) := access.perform env.1 (c.call waiting.phase) waiting.transit
      let turn := c.answer env.2 (now env) waiting.phase reply
      let outside := reportAll outside turn.events
      match turn.move with
      | .call phase => some (place access outside turn.status turn.contender phase)
      | .finish result => some (.ended ((outside, turn.status), turn.contender) result)
    else none

def poll (access : LeaseAccess Env) (c : Coordinator) (env : Env) : Option (Coordinator × Env) :=
  (c.timer.poll (drive access) (env, c.status)).map fun (timer, env, status) =>
    ({ c with timer, status }, env)

/-- Discard an aborted loop. -/
def settle (c : Coordinator) : Option Coordinator :=
  if c.orphan then some { c with orphan := false } else none

def wakes (c : Coordinator) : List Nat :=
  c.timer.wakes fun waiting => waiting.transit.due.toList

def close (c : Coordinator) (env : Env) : Coordinator × Closing :=
  ({ c with timer := c.timer.cancel }, .stopping (.start (now env) c.config.stopTimeout))

/-- One transition of a shutdown; nothing while it waits. -/
def closeStep (access : LeaseAccess Env) (c : Coordinator) (env : Env) :
    Closing → Option (Progress (Env × Coordinator) Closing (Except TimerError Unit))
  | .stopping wait =>
      (c.timer.stopResult? wait (now env)).map fun (timer, stopped, events) =>
        let env := reportAll env events
        let c := { c with timer, orphan := c.orphan || c.timer.isRunning }
        match c.status.held with
        | some lease =>
            let (env, transit) := access.issue env (.release lease)
            .continues (env, c) (.releasing lease transit stopped)
        | none => .ended (env, { c with owned := false }) stopped
  | .releasing lease transit stopped =>
      if transit.arrived (now env) then
        let (env, reply) := access.perform env (.release lease) transit
        let env := match reply with
          | .ok _ => report env (.leaseReleased c.lease lease)
          | .error error => report env (.releaseIgnored c.lease error)
        some (.ended (env, { c with status := (c.status.publish none).1, owned := false }) stopped)
      else none

end Coordinator

end LeasedListener
