import LeasedListener.Polling.Tick

/-!
# Listeners

A listener runs a poller, afresh each time it is started.  It counts as
listening from its start until it is asked to stop, whatever becomes of the
timer in between.
-/

namespace LeasedListener

open Surroundings

inductive ListenerState
  | idle
  | listening (timer : PollerTimer)
  | stopping (timer : PollerTimer) (wait : StopWait)

structure Listener where
  poller : Poller
  state : ListenerState

namespace Listener

def create (poller : Poller) : Listener := ⟨poller, .idle⟩

def isListening (l : Listener) : Bool :=
  match l.state with
  | .listening _ => true
  | _ => false

def timer? (l : Listener) : Option PollerTimer :=
  match l.state with
  | .idle => none
  | .listening timer | .stopping timer _ => some timer

variable {Env : Type} [Surroundings Env]

/-- Run a fresh poller, unless one is running. -/
def start (l : Listener) (env : Env) : Listener × Env :=
  match l.state with
  | .idle =>
      let timer : PollerTimer := .started l.poller.timerName l.poller.pace true
      ({ l with state := .listening timer },
        reportAll env [.timerStarted timer.name, .listenerStarted l.poller.queue])
  | _ => (l, env)

def stop (l : Listener) (env : Env) : Listener :=
  match l.state with
  | .listening timer =>
      { l with state := .stopping timer.cancel (.start (now env) l.poller.config.stopTimeout) }
  | _ => l

/-- The end of a stop, once it is over. -/
def stopped? (l : Listener) (env : Env) : Option (Listener × Env × Except TimerError Unit) :=
  match l.state with
  | .stopping timer wait =>
      (timer.stopResult? wait (now env)).map fun (_, result, events) =>
        ({ l with state := .idle },
          reportAll env (events ++ [.listenerStopped l.poller.queue]), result)
  | _ => some (l, env, .ok ())

def poll (a : PollerAccess Env) (l : Listener) (env : Env) : Option (Listener × Env) :=
  match l.state with
  | .idle => none
  | .listening timer =>
      (timer.poll (l.poller.drive a) env).map fun (timer, env) =>
        ({ l with state := .listening timer }, env)
  | .stopping timer wait =>
      (timer.poll (l.poller.drive a) env).map fun (timer, env) =>
        ({ l with state := .stopping timer wait }, env)

def wakes (l : Listener) : List Nat :=
  match l.state with
  | .idle => []
  | .listening timer => timer.wakes TickPhase.wakes
  | .stopping timer wait => wait.ends.toList ++ timer.wakes TickPhase.wakes

end Listener

end LeasedListener
