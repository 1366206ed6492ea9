import LeasedListener.Scenario.ScriptedTimer

/-!
# Scenario states

A world together with the named things that act in it, and what they do of
their own accord.  `State.stir` makes one transition of whatever can move
without the clock; nothing moves exactly when everything waits.
-/

namespace LeasedListener

/-- What has been made of a poller. -/
inductive PollerForm
  | bare
  | command (pace : Pace Backoff)
  | timer (timer : PollerTimer)

structure PollerActor where
  poller : Poller
  /-- The name of the tally that it reports to. -/
  tally : String
  form : PollerForm

/-- An observer of a coordinator, with the version of the status that it saw
last. -/
structure Subscription where
  coordinator : String
  seen : Nat

/-- The renewal of a claim, to be run by hand. -/
structure RenewalActor where
  queue : String
  claim : String
  window : Duration

structure ScenarioState where
  world : World
  slots : Table Delivery
  /-- The messages that steps have added to each queue. -/
  known : Table (List MessageId)
  claims : Table Claim
  renewals : Table RenewalActor
  timers : Table ScriptedTimer
  coordinators : Table Coordinator
  subscriptions : Table Subscription
  pollers : Table PollerActor
  /-- The tally to which each poller and host reports. -/
  tallyNames : Table String
  hosts : Table Host
  /-- Hosts that were dropped, of which the supervisor may still be there. -/
  departed : Table Host

namespace ScenarioState

def initial : ScenarioState where
  world := .initial
  slots := {}
  known := {}
  claims := {}
  renewals := {}
  timers := {}
  coordinators := {}
  subscriptions := {}
  pollers := {}
  tallyNames := {}
  hosts := {}
  departed := {}

def pollerAccess (n : String) (p : PollerActor) : PollerAccess World :=
  World.pollerAccess n p.poller.queue p.poller.poison p.tally

def leaseAccess (n : String) (c : Coordinator) : LeaseAccess World :=
  World.leaseAccess (n ++ ".lease") c.lease

def hostAccess (n : String) (h : Host) : HostAccess World :=
  World.hostAccess n (h.lease?.getD "") h.listener.poller.queue h.listener.poller.poison

def stirTimer (s : ScenarioState) (n : String) (t : ScriptedTimer) : Option ScenarioState :=
  (t.poll (ScriptedCommand.drive n) s.world).map fun (t, world) =>
    { s with world, timers := s.timers.set n t }

def stirCoordinator (s : ScenarioState) (n : String) (c : Coordinator) : Option ScenarioState :=
  match c.settle with
  | some c => some { s with coordinators := s.coordinators.set n c }
  | none =>
      (c.poll (leaseAccess n c) s.world).map fun (c, world) =>
        { s with world, coordinators := s.coordinators.set n c }

def stirPoller (s : ScenarioState) (n : String) (p : PollerActor) : Option ScenarioState :=
  match p.form with
  | .timer timer =>
      (timer.poll (p.poller.drive (pollerAccess n p)) s.world).map fun (timer, world) =>
        { s with world, pollers := s.pollers.set n { p with form := .timer timer } }
  | _ => none

def stirHost (s : ScenarioState) (n : String) (h : Host) : Option ScenarioState :=
  (h.advance (hostAccess n h) s.world).map fun (h, world) =>
    { s with world, hosts := s.hosts.set n h }

def stirDeparted (s : ScenarioState) (n : String) (h : Host) : Option ScenarioState :=
  (h.advance (hostAccess n h) s.world).map fun (h, world) =>
    { s with world, departed := s.departed.set n h }

/-- One transition of something that can move now. -/
def stir (s : ScenarioState) : Option ScenarioState :=
  s.timers.entries.findSome? (fun (n, t) => s.stirTimer n t) <|>
    s.coordinators.entries.findSome? (fun (n, c) => s.stirCoordinator n c) <|>
    s.pollers.entries.findSome? (fun (n, p) => s.stirPoller n p) <|>
    s.hosts.entries.findSome? (fun (n, h) => s.stirHost n h) <|>
    s.departed.entries.findSome? (fun (n, h) => s.stirDeparted n h)

/-- Let everything move until it waits, for at most `fuel` transitions. -/
def settle : Nat → ScenarioState → ScenarioState
  | 0, s => s
  | fuel + 1, s =>
      match s.stir with
      | some s => settle fuel s
      | none => s

/-- The instants at which something may move again. -/
def wakes (s : ScenarioState) : List Nat :=
  s.timers.entries.flatMap (fun (_, t) => t.wakes fun step => step.ends.toList) ++
    s.coordinators.entries.flatMap (fun (_, c) => c.wakes) ++
    s.pollers.entries.flatMap (fun (_, p) =>
      match p.form with
      | .timer timer => timer.wakes TickPhase.wakes
      | _ => []) ++
    s.hosts.entries.flatMap (fun (_, h) => h.wakes) ++
    s.departed.entries.flatMap (fun (_, h) => h.wakes)

end ScenarioState

end LeasedListener
