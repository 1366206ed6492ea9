import LeasedListener.Scenario.Step
import LeasedListener.Scenario.Storage

/-!
# Steps on tasks

The steps that create, start, run, stop and drop timers, coordinators, pollers
and hosts.
-/

namespace LeasedListener

namespace ScenarioState

def startTimer (s : ScenarioState) (n : String) (stepFirst : Bool) : ScenarioState × Answer :=
  match s.timers.get? n with
  | none => (s, .absent)
  | some t =>
      match t.start stepFirst with
      | .ok t => ({ s.logAll [.timerStarted t.name] with timers := s.timers.set n t }, .done)
      | .error error => (s, .timerError error)

def stopTimer (s : ScenarioState) (n : String) (timeout : Duration) : ScenarioState × Answer :=
  let s := { s with timers := s.timers.modify n Timer.cancel }
  let (s, result) := s.await stepFuel (.stopTimer n (.start s.now timeout))
  (s, .ofWait result)

def timerState (s : ScenarioState) (n : String) : Answer :=
  match s.timers.get? n with
  | none => .absent
  | some t => .timer t.isRunning (t.command.map fun c => c.cadence.interval)

def newCoordinator (s : ScenarioState) (n b : String) (config : LeaseConfig)
    (script : List ScriptEntry) : ScenarioState × Answer :=
  let s := s.openGateway (n ++ ".lease") script
  match Coordinator.create b config with
  | .error error => (s, .configError error)
  | .ok c =>
      ({ s with coordinators := s.coordinators.set n c }, .holder (some config.holder))

/-- The coordinator of that name, as long as it is in use. -/
def coordinator? (s : ScenarioState) (n : String) : Option Coordinator :=
  (s.coordinators.get? n).filter (·.owned)

def startCoordinator (s : ScenarioState) (n : String) : ScenarioState × Answer :=
  match s.coordinator? n with
  | none => (s, .absent)
  | some c =>
      let (c, result, events) := c.start
      ({ s.logAll events with coordinators := s.coordinators.set n c }, .ofStop result)

def subscribe (s : ScenarioState) (n subscription : String) : ScenarioState × Answer :=
  match s.coordinator? n with
  | none => (s, .absent)
  | some c =>
      ({ s with subscriptions := s.subscriptions.set subscription ⟨n, c.status.version⟩ },
        .holder c.status.held)

def observe (s : ScenarioState) (subscription : String) : ScenarioState × Answer :=
  match s.subscriptions.get? subscription with
  | none => (s, .absent)
  | some watch =>
      match s.coordinators.get? watch.coordinator with
      | none => (s, .absent)
      | some c =>
          if c.isClosed then (s, .closed c.status.held)
          else
            let seen := { watch with seen := c.status.version }
            ({ s with subscriptions := s.subscriptions.set subscription seen },
              .observed (c.status.version ≠ watch.seen) c.status.held)

def shutDownCoordinator (s : ScenarioState) (n : String) : ScenarioState × Answer :=
  match s.coordinator? n with
  | none => (s, .absent)
  | some c =>
      let (c, closing) := c.close s.world
      let s := { s with coordinators := s.coordinators.set n c }
      let (s, result) := s.await stepFuel (.closeCoordinator n closing)
      (s, .ofWait result)

def dropCoordinator (s : ScenarioState) (n : String) : ScenarioState × Answer :=
  match s.coordinator? n with
  | none => (s, .flag false)
  | some c => ({ s with coordinators := s.coordinators.set n c.discard }, .flag true)

def newPoller (s : ScenarioState) (n : String) (plan : PollerPlan) : ScenarioState × Answer :=
  let s := s.openGateway (n ++ ".queue") plan.script
  let s := s.openGateway (n ++ ".poison") plan.poisonScript
  let executors := s.world.executors.set n ⟨plan.behaviour, []⟩
  let s := { s with world := { s.world with executors } }
  match Poller.create plan.queue plan.poison plan.config with
  | .error error => (s, .configError error)
  | .ok poller =>
      let tally := (plan.sharedTally.bind s.tallyNames.get?).getD n
      ({ s with
        pollers := s.pollers.set n ⟨poller, tally, .bare⟩
        tallyNames := s.tallyNames.set n tally },
        .poller plan.queue plan.config.maxDequeueCount)

def tick (s : ScenarioState) (n : String) (cancel : CancelPlan) : ScenarioState × Answer :=
  match s.pollers.get? n with
  | none => (s, .absent)
  | some p =>
      let cancellation := cancel.begin s.now
      let (s, result) :=
        awaitFrom (s.afterTick n cancellation (Poller.probe (pollerAccess n p) s.world))
      (s, .ofWait result)

def makeCommand (s : ScenarioState) (n : String) : ScenarioState × Answer :=
  match s.pollers.get? n with
  | none => (s, .absent)
  | some p =>
      ({ s with pollers := s.pollers.set n { p with form := .command p.poller.pace } },
        .command p.poller.pace.next p.poller.queue)

def execute (s : ScenarioState) (n : String) (cancel : CancelPlan) : ScenarioState × Answer :=
  match s.pollers.get? n with
  | none => (s, .absent)
  | some p =>
      match p.form with
      | .command pace =>
          let cancellation := cancel.begin s.now
          let drive := p.poller.drive (pollerAccess n p)
          let (s, result) :=
            awaitFrom (s.afterExecution n cancellation (drive.enter s.world pace))
          (s, .ofWait result)
      | _ => (s, .absent)

def makeTimer (s : ScenarioState) (n : String) : ScenarioState × Answer :=
  match s.pollers.get? n with
  | none => (s, .absent)
  | some p =>
      let timer := Timer.create p.poller.timerName p.poller.pace
      ({ s with pollers := s.pollers.set n { p with form := .timer timer } }, .name timer.name)

def pollerTimer? (s : ScenarioState) (n : String) : Option (PollerActor × PollerTimer) :=
  match s.pollers.get? n with
  | some p =>
      match p.form with
      | .timer timer => some (p, timer)
      | _ => none
  | none => none

def startPoller (s : ScenarioState) (n : String) (stepFirst : Bool) : ScenarioState × Answer :=
  match s.pollerTimer? n with
  | none => (s, .absent)
  | some (p, timer) =>
      match timer.start stepFirst with
      | .ok timer =>
          ({ s.logAll [.timerStarted timer.name] with
            pollers := s.pollers.set n { p with form := .timer timer } }, .done)
      | .error error => (s, .timerError error)

def stopPoller (s : ScenarioState) (n : String) (timeout : Duration) : ScenarioState × Answer :=
  match s.pollerTimer? n with
  | none => (s, .absent)
  | some (p, timer) =>
      let s := { s with pollers := s.pollers.set n { p with form := .timer timer.cancel } }
      let (s, result) := s.await stepFuel (.stopPoller n (.start s.now timeout))
      (s, .ofWait result)

def pollerState (s : ScenarioState) (n : String) : Answer :=
  match s.pollerTimer? n with
  | none => .absent
  | some (_, timer) => .timer timer.isRunning (timer.command.map fun pace => pace.next)

/-- The settings of a list of pairs, of which the last one for a name
counts. -/
def settingsOf (pairs : List (String × String)) : Settings := fun name => pairs.reverse.lookup name

def startHost (s : ScenarioState) (n : String) (plan : HostPlan) : ScenarioState × Answer :=
  let s := s.openGateway (n ++ ".lease") plan.script
  let s := s.openGateway (n ++ ".queue") plan.queueScript
  let s := s.openGateway (n ++ ".poison") plan.poisonScript
  let executors := s.world.executors.set n ⟨plan.behaviour, []⟩
  let s := { s with world := { s.world with executors } }
  let settings := settingsOf plan.settings
  let s := s.logAll settings.complaints
  let config := settings.config (.timeOrdered 0)
  let config := { config with
    lease := plan.leaseConfig.getD config.lease
    poller := plan.pollingConfig.getD config.poller }
  match Host.start config plan.lease plan.queue plan.poison s.world with
  | (.error error, world) => ({ s with world }, .hostError error)
  | (.ok host, world) =>
      ({ s with
        world
        hosts := s.hosts.set n host
        tallyNames := s.tallyNames.set n n }, .done)

def shutDownHost (s : ScenarioState) (n : String) : ScenarioState × Answer :=
  match s.hosts.get? n with
  | none => (s, .absent)
  | some h =>
      let (h, closing) := h.close s.world
      let (s, result) := { s with hosts := s.hosts.set n h }.await stepFuel (.closeHost n closing)
      (s, .ofShutdown result)

def dropHost (s : ScenarioState) (n : String) : ScenarioState × Answer :=
  match s.hosts.get? n with
  | none => (s, .flag false)
  | some h =>
      ({ s with hosts := s.hosts.erase n, departed := s.departed.set n h.discard }, .flag true)

def runs (s : ScenarioState) (n : String) : Answer :=
  match s.world.executors.get? n with
  | some e => .runs e.records
  | none => .starts ((s.world.stepStarts.get? n).getD []).reverse

end ScenarioState

end LeasedListener
