import LeasedListener.Timer.Basic
import Mathlib.Logic.Relation

/-!
# Histories of a timer

A timer is started and stopped in any order, one call at a time, while its
command does as it pleases.  The history of a run tells of every call, every
step of the command and every wait, the latest first.  It is lawful when steps
begin only in a timer that is started, one at a time, each with the command
that the step before it has left behind, and each at the end of the wait that
this command has asked for.
-/

namespace LeasedListener

open Surroundings

inductive TimerDeed (Command : Type)
  | started (stepFirst : Bool)
  | refused (error : TimerError)
  | stopped (result : Except TimerError Unit)
  | began (time : Nat) (command : Command)
  | ended (command : Command) (result : Except StorageError Unit)
  | broke (reason : String)
  /-- A wait, with its beginning and the interval that the command reported. -/
  | waited (since : Nat) (interval : Duration)

inductive TimerCue
  | opens (stepFirst : Bool)
  | waits (since : Nat) (interval : Duration)

abbrev TimerHistory (Command : Type) := List (TimerDeed Command)

namespace TimerDeed

variable {Command : Type}

def IsCall : TimerDeed Command → Prop
  | .started _ | .refused _ | .stopped _ => True
  | _ => False

def forfeits : TimerDeed Command → Bool
  | .stopped (.error (.stopTimedOut _ _)) | .stopped (.error (.taskFailed _ _)) => true
  | _ => false

end TimerDeed

namespace TimerHistory

variable {Env Command Phase : Type}

/-- A start has succeeded, and no stop has returned since. -/
def isStarted : TimerHistory Command → Bool
  | [] => false
  | .started _ :: _ => true
  | .stopped _ :: _ => false
  | _ :: earlier => isStarted earlier

def isForfeit (history : TimerHistory Command) : Bool := history.any TimerDeed.forfeits

def isStepping : TimerHistory Command → Bool
  | [] => false
  | .began _ _ :: _ => true
  | .ended _ _ :: _ | .broke _ :: _ | .stopped _ :: _ => false
  | _ :: earlier => isStepping earlier

/-- A step has broken down since the last call that succeeded. -/
def isBroken : TimerHistory Command → Bool
  | [] => false
  | .broke _ :: _ => true
  | .started _ :: _ | .stopped _ :: _ => false
  | _ :: earlier => isBroken earlier

/-- The command as the last finished step has left it behind. -/
def leftBy (initial : Command) : TimerHistory Command → Command
  | [] => initial
  | .ended command _ :: _ => command
  | _ :: earlier => leftBy initial earlier

def cue? : TimerHistory Command → Option TimerCue
  | .started stepFirst :: _ => some (.opens stepFirst)
  | .waited since interval :: _ => some (.waits since interval)
  | .refused _ :: earlier => cue? earlier
  | _ => none

/-- A step may begin: at once after a start, or at the end of the wait.  If
waits end on time, this is the only instant. -/
inductive IsCued (onTime : Prop) (history : TimerHistory Command) (time : Nat) : Prop
  | first (opens : history.cue? = some (.opens true))
  | later {since due : Nat} {interval : Duration}
      (waits : history.cue? = some (.waits since interval))
      (ends : Instant.waitEnd since interval = some due) (reached : due ≤ time)
      (punctual : onTime → time = due)

inductive Lawful [Surroundings Env] (d : Drive Env Command Phase) (initial : Command)
    (onTime : Prop) : TimerHistory Command → Prop
  | nil : Lawful d initial onTime []
  | call {deed : TimerDeed Command} {earlier : TimerHistory Command} (call : deed.IsCall)
      (lawful : Lawful d initial onTime earlier) : Lawful d initial onTime (deed :: earlier)
  | begins {time : Nat} {command : Command} {earlier : TimerHistory Command}
      (going : earlier.isStarted = true) (alone : earlier.isStepping = false)
      (same : command = earlier.leftBy initial) (cued : IsCued onTime earlier time)
      (lawful : Lawful d initial onTime earlier) :
      Lawful d initial onTime (.began time command :: earlier)
  | ends {command : Command} {result : Except StorageError Unit}
      {earlier : TimerHistory Command} (stepping : earlier.isStepping = true)
      (lawful : Lawful d initial onTime earlier) :
      Lawful d initial onTime (.ended command result :: earlier)
  | breaks {reason : String} {earlier : TimerHistory Command}
      (stepping : earlier.isStepping = true) (lawful : Lawful d initial onTime earlier) :
      Lawful d initial onTime (.broke reason :: earlier)
  | waits {env : Env} {earlier : TimerHistory Command}
      (after : (∃ command result before, earlier = .ended command result :: before) ∨
        earlier.cue? = some (.opens false))
      (lawful : Lawful d initial onTime earlier) :
      Lawful d initial onTime
        (.waited (now env) (d.interval env (earlier.leftBy initial)) :: earlier)

end TimerHistory

variable {Env Command Phase : Type}

def Progress.logged (history : TimerHistory Command) :
    Progress (Env × Command) Phase (Except StorageError Unit) →
      Progress ((Env × TimerHistory Command) × Command) Phase (Except StorageError Unit)
  | .continues (env, command) phase => .continues ((env, history), command) phase
  | .ended (env, command) result =>
      .ended ((env, .ended command result :: history), command) result
  | .died (env, command) reason => .died ((env, .broke reason :: history), command) reason

variable [Surroundings Env]

def Drive.logged (d : Drive Env Command Phase) :
    Drive (Env × TimerHistory Command) Command Phase where
  interval env command := d.interval env.1 command
  enter env command :=
    (d.enter env.1 command).logged (.began (now env.1) command :: env.2)
  advance env command cancelled phase :=
    (d.advance env.1 command cancelled phase).map (Progress.logged env.2)

def TimerLoop.pause (d : Drive Env Command Phase) (env : Env) :
    TimerLoop Command Phase → TimerHistory Command
  | .live command _ (.waiting _) => [.waited (now env) (d.interval env command)]
  | _ => []

structure TimerRun (Env Command Phase : Type) where
  env : Env
  timer : Timer Command Phase
  /-- The stop that has been called and has not returned. -/
  stop : Option StopWait
  history : TimerHistory Command

namespace TimerRun

/-- If waits end `onTime`, then time does not pass the end of a wait that is
under way. -/
inductive Step (d : Drive Env Command Phase) (onTime : Prop) :
    TimerRun Env Command Phase → TimerRun Env Command Phase → Prop
  | elsewhere {s : TimerRun Env Command Phase} {env : Env} (later : now s.env ≤ now env)
      (punctual : onTime → ∀ wake ∈ s.timer.wakes fun _ => [], now env ≤ wake) :
      Step d onTime s { s with env }
  | start {s : TimerRun Env Command Phase} {t : Timer Command Phase} {stepFirst : Bool}
      (free : s.stop = none) (started : s.timer.start stepFirst = .ok t) :
      Step d onTime s
        { s with
          env := report s.env (.timerStarted s.timer.name)
          timer := t
          history := .started stepFirst :: s.history }
  | refuse {s : TimerRun Env Command Phase} {stepFirst : Bool} {error : TimerError}
      (free : s.stop = none) (refused : s.timer.start stepFirst = .error error) :
      Step d onTime s { s with history := .refused error :: s.history }
  | cancel {s : TimerRun Env Command Phase} {timeout : Duration} (free : s.stop = none) :
      Step d onTime s
        { s with timer := s.timer.cancel, stop := some (.start (now s.env) timeout) }
  | stop {s : TimerRun Env Command Phase} {wait : StopWait} {t : Timer Command Phase}
      {result : Except TimerError Unit} {events : List Event} (called : s.stop = some wait)
      (returns : s.timer.stopResult? wait (now s.env) = some (t, result, events)) :
      Step d onTime s ⟨reportAll s.env events, t, none, .stopped result :: s.history⟩
  | poll {s : TimerRun Env Command Phase} {t : Timer Command Phase}
      {loop : TimerLoop Command Phase} {env : Env} {history : TimerHistory Command}
      (polled : s.timer.poll d.logged (s.env, s.history) = some (t, env, history))
      (goes : t.loop = some loop) :
      Step d onTime s { s with env, timer := t, history := loop.pause d env ++ history }

inductive Reachable (d : Drive Env Command Phase) (onTime : Prop) (name : String)
    (initial : Command) : TimerRun Env Command Phase → Prop
  | create {env : Env} :
      Reachable d onTime name initial ⟨env, .create name initial, none, []⟩
  | step {s t : TimerRun Env Command Phase} : Reachable d onTime name initial s →
      Step d onTime s t → Reachable d onTime name initial t

end TimerRun

end LeasedListener
