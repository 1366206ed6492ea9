import LeasedListener.Host.Listener
import LeasedListener.Leadership.Coordinator

/-!
# Supervisors

A supervisor makes a listener follow the lease.  It reads the status of the
coordinator, starts or stops the listener accordingly, and goes to sleep
until it is cancelled, the version of the status is another than the one it
read, or nobody is left to change the status.  At the end it stops the
listener.
-/

namespace LeasedListener

open Surroundings

inductive SupervisorState
  /-- Yet to read the status for the first time. -/
  | spawned
  /-- Stopping the listener, because the lease is lost or for good. -/
  | stopping (final : Bool)
  | parked
  | finished (result : Except TimerError Unit)

structure Supervisor where
  listener : Listener
  state : SupervisorState
  seen : Nat
  cancelled : Bool

namespace Supervisor

def create (poller : Poller) : Supervisor where
  listener := .create poller
  state := .spawned
  seen := 0
  cancelled := false

def cancel (s : Supervisor) : Supervisor := { s with cancelled := true }

def result? (s : Supervisor) : Option (Except TimerError Unit) :=
  match s.state with
  | .finished result => some result
  | _ => none

variable {Env : Type} [Surroundings Env]

def mustEnd (s : Supervisor) (status : Status) (closed : Bool) : Bool :=
  s.cancelled || (status.version == s.seen && closed)

/-- Read the status and make the listener follow it. -/
def follow (s : Supervisor) (status : Status) (env : Env) : Supervisor × Env :=
  let s := { s with seen := status.version }
  if status.isHeld then
    let (listener, env) := s.listener.start env
    ({ s with listener, state := .parked }, env)
  else ({ s with listener := s.listener.stop env, state := .stopping false }, env)

/-- One transition of the supervisor's own; nothing while it waits. -/
def advance (s : Supervisor) (status : Status) (closed : Bool) (env : Env) :
    Option (Supervisor × Env) :=
  match s.state with
  | .spawned => some (s.follow status env)
  | .stopping final =>
      (s.listener.stopped? env).map fun (listener, env, result) =>
        let s := { s with listener }
        if final then ({ s with state := .finished result }, env)
        else
          let env := match result with
            | .ok _ => env
            | .error error => report env (.leaseChangeNotFollowed listener.poller.queue error false)
          ({ s with state := .parked }, env)
  | .parked =>
      if s.mustEnd status closed then
        some ({ s with listener := s.listener.stop env, state := .stopping true }, env)
      else if status.version = s.seen then none
      else some (s.follow status env)
  | .finished _ => none

def pollListener (a : PollerAccess Env) (s : Supervisor) (env : Env) : Option (Supervisor × Env) :=
  (s.listener.poll a env).map fun (listener, env) => ({ s with listener }, env)

end Supervisor

end LeasedListener
