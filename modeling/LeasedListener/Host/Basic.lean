import LeasedListener.Host.Config
import LeasedListener.Host.Error
import LeasedListener.Host.Supervisor

/-!
# Hosts

A host runs a listener: in singleton mode only while its coordinator holds
the lease, otherwise from start to shutdown.  A shutdown stops the listener
before it releases the lease.

The parts of a host make their transitions independently of each other:
`pollLease` those of the coordinator's loop, `supervise` those of the
supervisor, `pollListener` those of the poller's loop.
-/

namespace LeasedListener

open Surroundings

inductive HostMode
  | singleton (coordinator : Coordinator) (supervisor : Supervisor)
  | always (listener : Listener)

structure Host where
  mode : HostMode

structure HostAccess (Env : Type) where
  lease : LeaseAccess Env
  poller : PollerAccess Env

inductive HostClosing
  | joining
  /-- Closing the coordinator, with the result of the supervisor. -/
  | leaving (supervised : Except TimerError Unit) (closing : Closing)
  /-- Stopping a listener that no one supervises. -/
  | stopping

namespace Host

def firstError : Except TimerError Unit → Except TimerError Unit → Except TimerError Unit
  | .error error, _ => .error error
  | .ok _, later => later

def listener (h : Host) : Listener :=
  match h.mode with
  | .singleton _ supervisor => supervisor.listener
  | .always listener => listener

def isListening (h : Host) : Bool := h.listener.isListening

def lease? (h : Host) : Option String :=
  match h.mode with
  | .singleton coordinator _ => some coordinator.lease
  | .always _ => none

/-- Whether the host holds the lease, which it never does without singleton
mode. -/
def hasLease (h : Host) : Bool :=
  match h.mode with
  | .singleton coordinator _ => coordinator.hasLease
  | .always _ => false

variable {Env : Type} [Surroundings Env]

/-- Start the coordinator of a host that listens while it holds the lease. -/
def startSingleton (config : HostConfig) (lease : String) (poller : Poller) (env : Env) :
    Except HostError Host × Env :=
  match Coordinator.create lease config.lease with
  | .error error => (.error (.config error), env)
  | .ok coordinator =>
      match coordinator.start with
      | (_, .error error, events) => (.error (.timer error), reportAll env events)
      | (coordinator, .ok _, events) =>
          (.ok ⟨.singleton coordinator (.create poller)⟩, reportAll env events)

def startAlways (poller : Poller) (env : Env) : Except HostError Host × Env :=
  let (listener, env) := (Listener.create poller).start env
  (.ok ⟨.always listener⟩, env)

def start (config : HostConfig) (lease queue : String) (poison : Option String) (env : Env) :
    Except HostError Host × Env :=
  match config.validate with
  | .error error => (.error (.config error), env)
  | .ok _ =>
      let poller : Poller := ⟨queue, poison, config.poller⟩
      match
        if config.singleton then startSingleton config lease poller env
        else startAlways poller env
      with
      | (.ok host, env) =>
          (.ok host, report env (.hostStarted config.queueName config.leaseName config.singleton))
      | failed => failed

def pollLease (a : HostAccess Env) (h : Host) (env : Env) : Option (Host × Env) :=
  match h.mode with
  | .singleton coordinator supervisor =>
      (coordinator.poll a.lease env).map fun (coordinator, env) =>
        (⟨.singleton coordinator supervisor⟩, env)
  | .always _ => none

/-- Discard an aborted loop of the coordinator. -/
def settle (h : Host) : Option Host :=
  match h.mode with
  | .singleton coordinator supervisor =>
      coordinator.settle.map fun coordinator => ⟨.singleton coordinator supervisor⟩
  | .always _ => none

def supervise (h : Host) (env : Env) : Option (Host × Env) :=
  match h.mode with
  | .singleton coordinator supervisor =>
      (supervisor.advance coordinator.status coordinator.isClosed env).map fun (supervisor, env) =>
        (⟨.singleton coordinator supervisor⟩, env)
  | .always _ => none

def pollListener (a : HostAccess Env) (h : Host) (env : Env) : Option (Host × Env) :=
  match h.mode with
  | .singleton coordinator supervisor =>
      (supervisor.pollListener a.poller env).map fun (supervisor, env) =>
        (⟨.singleton coordinator supervisor⟩, env)
  | .always listener =>
      (listener.poll a.poller env).map fun (listener, env) => (⟨.always listener⟩, env)

def advance (a : HostAccess Env) (h : Host) (env : Env) : Option (Host × Env) :=
  (h.settle.map fun h => (h, env)) <|> h.pollLease a env <|> h.supervise env <|>
    h.pollListener a env

def wakes (h : Host) : List Nat :=
  match h.mode with
  | .singleton coordinator supervisor => coordinator.wakes ++ supervisor.listener.wakes
  | .always listener => listener.wakes

/-- Drop a host without a shutdown.  The supervisor stays behind, to stop the
listener once it notices. -/
def discard (h : Host) : Host :=
  match h.mode with
  | .singleton coordinator supervisor => ⟨.singleton coordinator.discard supervisor⟩
  | .always listener => ⟨.always { listener with state := .idle }⟩

def close (h : Host) (env : Env) : Host × HostClosing :=
  match h.mode with
  | .singleton coordinator supervisor =>
      (⟨.singleton coordinator supervisor.cancel⟩, .joining)
  | .always listener => (⟨.always (listener.stop env)⟩, .stopping)

/-- One transition of a shutdown; nothing while it waits. -/
def closeStep (a : HostAccess Env) (h : Host) (env : Env) (closing : HostClosing) :
    Option (Progress (Env × Host) HostClosing (Except TimerError Unit)) :=
  match h.mode, closing with
  | .singleton coordinator supervisor, .leaving supervised closing =>
      (coordinator.closeStep a.lease env closing).map fun
        | .continues (env, coordinator) closing =>
            .continues (env, ⟨.singleton coordinator supervisor⟩) (.leaving supervised closing)
        | .ended (env, coordinator) released =>
            .ended (report env .hostStopped, ⟨.singleton coordinator supervisor⟩)
              (firstError supervised released)
        | .died (env, coordinator) reason =>
            .died (env, ⟨.singleton coordinator supervisor⟩) reason
  | .singleton coordinator supervisor, _ =>
      supervisor.result?.map fun supervised =>
        let (coordinator, closing) := coordinator.close env
        .continues (env, ⟨.singleton coordinator supervisor⟩) (.leaving supervised closing)
  | .always listener, _ =>
      (listener.stopped? env).map fun (listener, env, result) =>
        .ended (report env .hostStopped, ⟨.always listener⟩) result

end Host

def HostClosing.wakes : HostClosing → List Nat
  | .leaving _ closing => closing.wakes
  | .joining | .stopping => []

end LeasedListener
