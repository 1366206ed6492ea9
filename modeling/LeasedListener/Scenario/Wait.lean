import LeasedListener.Scenario.State

/-!
# Waiting steps

What a step of a scenario waits for while everything else moves, and the run
to its end.  The clock stands still as long as anything can move, and then
jumps to the next instant at which something may.
-/

namespace LeasedListener

inductive WaitResult
  | elapsed
  | stopped (result : Except TimerError Unit)
  /-- A tick on its own. -/
  | ticked (result : Except StorageError Bool)
  /-- A tick as a command, and the wait that the command asks for. -/
  | executed (result : Except StorageError Unit) (next : Duration)
  | renewed (result : Except StorageError Bool)
  /-- The step broke down. -/
  | brokeDown (reason : String)
  | absent
  /-- The step would wait for ever. -/
  | stalled

/-- When the step under way is cancelled. -/
inductive Cancellation
  | never
  | fromStart
  | after (due : Option Nat)

namespace Cancellation

def holds (c : Cancellation) (now : Nat) : Bool :=
  match c with
  | .never => false
  | .fromStart => true
  | .after due => Instant.reached now due

def wakes : Cancellation → List Nat
  | .after due => due.toList
  | _ => []

end Cancellation

inductive Wait
  | sleep (wake : Option Nat)
  | stopTimer (n : String) (wait : StopWait)
  | stopPoller (n : String) (wait : StopWait)
  | closeCoordinator (n : String) (closing : Closing)
  | closeHost (n : String) (closing : HostClosing)
  | tick (n : String) (cancellation : Cancellation) (phase : TickPhase)
  | execute (n : String) (cancellation : Cancellation) (pace : Pace Backoff) (phase : TickPhase)
  | renew (n : String) (phase : RenewalCall)

inductive WaitMove
  | waits (wait : Wait)
  | ends (result : WaitResult)

namespace ScenarioState

def logAll (s : ScenarioState) (events : List Event) : ScenarioState :=
  { s with world := Surroundings.reportAll s.world events }

/-- The state after a transition of a tick, and how the step goes on. -/
def afterTick (s : ScenarioState) (n : String) (cancellation : Cancellation) :
    TickProgress World → ScenarioState × WaitMove
  | .continues world phase => ({ s with world }, .waits (.tick n cancellation phase))
  | .ended world result => ({ s with world }, .ends (.ticked result))
  | .died world reason => ({ s with world }, .ends (.brokeDown reason))

/-- The state after a transition of a tick that is run as a command. -/
def afterExecution (s : ScenarioState) (n : String) (cancellation : Cancellation) :
    Progress (World × Pace Backoff) TickPhase (Except StorageError Unit) →
      ScenarioState × WaitMove
  | .continues (world, pace) phase =>
      ({ s with world }, .waits (.execute n cancellation pace phase))
  | .ended (world, pace) result =>
      ({ s with
        world
        pollers := s.pollers.modify n fun p => { p with form := .command pace } },
        .ends (.executed result pace.next))
  | .died (world, _) reason => ({ s with world }, .ends (.brokeDown reason))

/-- The state after a transition of a renewal. -/
def afterRenewal (s : ScenarioState) (n : String) (r : RenewalActor) :
    Progress (World × Claim) RenewalCall (Except StorageError Bool) → ScenarioState × WaitMove
  | .continues (world, claim) phase =>
      ({ s with world, claims := s.claims.set r.claim claim }, .waits (.renew n phase))
  | .ended (world, claim) result =>
      ({ s with world, claims := s.claims.set r.claim claim }, .ends (.renewed result))
  | .died (world, claim) reason =>
      ({ s with world, claims := s.claims.set r.claim claim }, .ends (.brokeDown reason))

def renewalAttempt (n : String) (r : RenewalActor) : Attempt (World × Claim) RenewalCall :=
  Renewal.attempt (World.queueAccess (n ++ ".queue") r.queue) r.queue r.window

/-- One transition of a waiting step; nothing while it waits. -/
def pollWait (s : ScenarioState) : Wait → Option (ScenarioState × WaitMove)
  | .sleep wake =>
      if Instant.reached s.world.now wake then some (s, .ends .elapsed) else none
  | .stopTimer n wait =>
      match s.timers.get? n with
      | none => some (s, .ends .absent)
      | some t =>
          (t.stopResult? wait s.world.now).map fun (t, result, events) =>
            ({ s.logAll events with timers := s.timers.set n t }, .ends (.stopped result))
  | .stopPoller n wait =>
      match s.pollers.get? n with
      | some p =>
          match p.form with
          | .timer t =>
              (t.stopResult? wait s.world.now).map fun (t, result, events) =>
                ({ s.logAll events with pollers := s.pollers.set n { p with form := .timer t } },
                  .ends (.stopped result))
          | _ => some (s, .ends .absent)
      | none => some (s, .ends .absent)
  | .closeCoordinator n closing =>
      match s.coordinators.get? n with
      | none => some (s, .ends .absent)
      | some c =>
          (c.closeStep (leaseAccess n c) s.world closing).map fun
            | .continues (world, c) closing =>
                ({ s with world, coordinators := s.coordinators.set n c },
                  .waits (.closeCoordinator n closing))
            | .ended (world, c) result =>
                ({ s with world, coordinators := s.coordinators.set n c }, .ends (.stopped result))
            | .died (world, c) reason =>
                ({ s with world, coordinators := s.coordinators.set n c },
                  .ends (.brokeDown reason))
  | .closeHost n closing =>
      match s.hosts.get? n with
      | none => some (s, .ends .absent)
      | some h =>
          (h.closeStep (hostAccess n h) s.world closing).map fun
            | .continues (world, h) closing =>
                ({ s with world, hosts := s.hosts.set n h }, .waits (.closeHost n closing))
            | .ended (world, _) result =>
                ({ s with world, hosts := s.hosts.erase n }, .ends (.stopped result))
            | .died (world, _) reason =>
                ({ s with world, hosts := s.hosts.erase n }, .ends (.brokeDown reason))
  | .tick n cancellation phase =>
      match s.pollers.get? n with
      | none => some (s, .ends .absent)
      | some p =>
          (p.poller.advanceAny (pollerAccess n p) s.world (cancellation.holds s.world.now)
            phase).map (s.afterTick n cancellation)
  | .execute n cancellation pace phase =>
      match s.pollers.get? n with
      | none => some (s, .ends .absent)
      | some p =>
          ((p.poller.drive (pollerAccess n p)).advance s.world pace
            (cancellation.holds s.world.now) phase).map (s.afterExecution n cancellation)
  | .renew n phase =>
      match s.renewals.get? n with
      | none => some (s, .ends .absent)
      | some r =>
          match s.claims.get? r.claim with
          | none => some (s, .ends .absent)
          | some claim =>
              ((renewalAttempt n r).advance (s.world, claim) false phase).map (s.afterRenewal n r)

end ScenarioState

def Wait.wakes : Wait → List Nat
  | .sleep wake => wake.toList
  | .stopTimer _ wait | .stopPoller _ wait => wait.ends.toList
  | .closeCoordinator _ closing => closing.wakes
  | .closeHost _ closing => closing.wakes
  | .tick _ cancellation phase | .execute _ cancellation _ phase =>
      cancellation.wakes ++ phase.wakes
  | .renew _ phase => phase.transit.due.toList

namespace ScenarioState

/-- The next instant at which anything may move. -/
def nextWake? (s : ScenarioState) (wait : Wait) : Option Nat :=
  ((wait.wakes ++ s.wakes).filter (s.world.now < ·)).min?

/-- The most transitions that a step of a scenario may take. -/
def stepFuel : Nat := 1000000000

/-- One round of a waiting step: a transition of its own, or else of
everything else, or else a jump of the clock. -/
def round (s : ScenarioState) (wait : Wait) : ScenarioState × WaitMove :=
  match s.pollWait wait with
  | some next => next
  | none =>
      let s := s.settle stepFuel
      match s.pollWait wait with
      | some next => next
      | none =>
          match s.nextWake? wait with
          | some instant =>
              ({ s with world := { s.world with now := instant } }, .waits wait)
          | none => (s, .ends .stalled)

def await : Nat → ScenarioState → Wait → ScenarioState × WaitResult
  | 0, s, _ => (s, .stalled)
  | fuel + 1, s, wait =>
      match s.round wait with
      | (s, .waits wait) => await fuel s wait
      | (s, .ends result) => (s, result)

/-- Go on from the first transition of a waiting step. -/
def awaitFrom (move : ScenarioState × WaitMove) : ScenarioState × WaitResult :=
  match move with
  | (s, .waits wait) => s.await stepFuel wait
  | (s, .ends result) => (s, result)

end ScenarioState

end LeasedListener
