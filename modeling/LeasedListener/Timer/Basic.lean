import LeasedListener.Instant
import LeasedListener.Surroundings

/-!
# Timers

A timer drives a command: a step, a wait of the length that the command asks
for, the next step.  While its loop runs it owns the command; a stop cancels
the wait and the step under way, and gets the command back once the current
step has ended.  A stop that takes too long abandons the loop and the command
with it.

A loop is advanced one transition at a time by `Timer.poll`, which has no
transition exactly while the loop waits for something.  A transition is
indivisible: it takes the loop from one wait to the next, and nothing else
happens in between.  This goes for the end of an abandoned loop too.  Where a
runtime has several threads, the stretch of the step that is running then may
still go on for a while, up to its next wait.
-/

namespace LeasedListener

open Surroundings

/-- What one transition of a task has led to. -/
inductive Progress (Env Phase Result : Type)
  | continues (env : Env) (phase : Phase)
  | ended (env : Env) (result : Result)
  /-- The task broke down. -/
  | died (env : Env) (reason : String)

/-- How commands of one kind work on an environment. -/
structure Drive (Env Command Phase : Type) where
  /-- The wait that the command asks for. -/
  interval : Env → Command → Duration
  /-- Start a step. -/
  enter : Env → Command → Progress (Env × Command) Phase (Except StorageError Unit)
  /-- Go on with a step, told whether it was cancelled; nothing while it
  waits. -/
  advance : Env → Command → Bool → Phase →
    Option (Progress (Env × Command) Phase (Except StorageError Unit))

inductive LoopState (Phase : Type)
  | spawned (stepFirst : Bool)
  | waiting (wake : Option Nat)
  | stepping (phase : Phase)

inductive TimerLoop (Command Phase : Type)
  | live (command : Command) (cancelled : Bool) (state : LoopState Phase)
  | returned (command : Command)
  | died (reason : String)

structure Timer (Command Phase : Type) where
  name : String
  /-- The command, while the timer is stopped. -/
  command : Option Command
  loop : Option (TimerLoop Command Phase)

namespace TimerLoop

variable {Env Command Phase : Type}

def cancel : TimerLoop Command Phase → TimerLoop Command Phase
  | .live command _ state => .live command true state
  | other => other

variable [Surroundings Env]

/-- The end of the wait that the command asks for. -/
def wakeAfter (d : Drive Env Command Phase) (env : Env) (command : Command) : Option Nat :=
  Instant.waitEnd (now env) (d.interval env command)

/-- Continue the loop after a transition inside a step. -/
def afterStep (d : Drive Env Command Phase) (timer : String) (cancelled : Bool) :
    Progress (Env × Command) Phase (Except StorageError Unit) → TimerLoop Command Phase × Env
  | .continues (env, command) phase => (.live command cancelled (.stepping phase), env)
  | .ended (env, command) (.ok _) =>
      (.live command cancelled (.waiting (wakeAfter d env command)), env)
  | .ended (env, command) (.error error) =>
      let env := report env (.timerStepFailed timer error)
      (.live command cancelled (.waiting (wakeAfter d env command)), env)
  | .died (env, _) reason => (.died reason, env)

/-- One transition of the loop.  Cancellation is looked at before the wait and
before each step. -/
def poll (d : Drive Env Command Phase) (timer : String) (env : Env) :
    TimerLoop Command Phase → Option (TimerLoop Command Phase × Env)
  | .returned _ | .died _ => none
  | .live command cancelled (.stepping phase) =>
      (d.advance env command cancelled phase).map (afterStep d timer cancelled)
  | .live command true _ => some (.returned command, env)
  | .live command false (.spawned false) =>
      some (.live command false (.waiting (wakeAfter d env command)), env)
  | .live command false (.spawned true) => some (afterStep d timer false (d.enter env command))
  | .live command false (.waiting wake) =>
      if Instant.reached (now env) wake then some (afterStep d timer false (d.enter env command))
      else none

def wakes (phaseWakes : Phase → List Nat) : TimerLoop Command Phase → List Nat
  | .live _ _ (.waiting wake) => wake.toList
  | .live _ _ (.stepping phase) => phaseWakes phase
  | _ => []

end TimerLoop

/-- A stop under way: how long it may take, and when that time is over. -/
structure StopWait where
  timeout : Duration
  ends : Option Nat

def StopWait.start (now : Nat) (timeout : Duration) : StopWait :=
  ⟨timeout, Instant.waitEnd now timeout⟩

namespace Timer

variable {Env Command Phase : Type}

def create (name : String) (command : Command) : Timer Command Phase :=
  ⟨name, some command, none⟩

def isRunning (t : Timer Command Phase) : Bool :=
  match t.loop with
  | some (.live ..) => true
  | _ => false

/-- Start the loop: with a step, or with a wait. -/
def start (t : Timer Command Phase) (stepFirst : Bool) : Except TimerError (Timer Command Phase) :=
  match t.loop, t.command with
  | some _, _ => .error (.alreadyRunning t.name)
  | none, none => .error (.commandUnavailable t.name)
  | none, some command =>
      .ok { t with command := none, loop := some (.live command false (.spawned stepFirst)) }

def started (name : String) (command : Command) (stepFirst : Bool) : Timer Command Phase :=
  ⟨name, none, some (.live command false (.spawned stepFirst))⟩

theorem start_create (name : String) (command : Command) (stepFirst : Bool) :
    (create name command : Timer Command Phase).start stepFirst =
      .ok (started name command stepFirst) := rfl

/-- Cancel the loop, as the first half of a stop. -/
def cancel (t : Timer Command Phase) : Timer Command Phase :=
  { t with loop := t.loop.map TimerLoop.cancel }

/-- The second half of a stop: the timer, the result and what is reported,
once the loop has ended or the time is over.  A loop that has taken too long is
gone at that instant. -/
def stopResult? (t : Timer Command Phase) (wait : StopWait) (now : Nat) :
    Option (Timer Command Phase × Except TimerError Unit × List Event) :=
  match t.loop with
  | none => some (t, .ok (), [])
  | some (.returned command) =>
      some ({ t with command := some command, loop := none }, .ok (), [.timerStopped t.name])
  | some (.died reason) => some ({ t with loop := none }, .error (.taskFailed t.name reason), [])
  | some (.live ..) =>
      if Instant.reached now wait.ends then
        some ({ t with loop := none }, .error (.stopTimedOut t.name wait.timeout),
          [.timerOverran t.name wait.timeout])
      else none

def poll [Surroundings Env] (d : Drive Env Command Phase) (t : Timer Command Phase) (env : Env) :
    Option (Timer Command Phase × Env) :=
  match t.loop with
  | none => none
  | some loop =>
      (loop.poll d t.name env).map fun (loop, env) => ({ t with loop := some loop }, env)

def wakes (phaseWakes : Phase → List Nat) (t : Timer Command Phase) : List Nat :=
  match t.loop with
  | some loop => loop.wakes phaseWakes
  | none => []

end Timer

end LeasedListener
