import LeasedListener.Scenario.Tasks

/-!
# Runs of scenarios

The steps of a scenario in order, and the report on each.
-/

namespace LeasedListener

namespace ScenarioState

def perform (s : ScenarioState) : Step → ScenarioState × Answer
  | .sleep d =>
      let (s, result) := s.await stepFuel (.sleep (Instant.waitEnd s.now d))
      (s, .ofWait result)
  | .advance d => ({ s with world := { s.world with now := s.now + d.nanos } }, .done)
  | .newQueue q missing =>
      let s := s.setQueue q (if missing then .missing q else .create q)
      (s, .queue (s.queueView q))
  | .queueState q => (s, .queue (s.queueView q))
  | .queueExists q =>
      let (s, reply) := s.callQueue q .probe
      (s, .ofResult .flag reply)
  | .createQueue q =>
      let (s, reply) := s.callQueue q .create
      (s, .ofResult (fun _ => .done) reply)
  | .dropQueue q => (s.setQueue q (s.world.queue q).drop, .done)
  | .enqueue q body => s.enqueue q body
  | .push q body count => s.push q body count
  | .injectFault q operation error =>
      (s.setQueue q ((s.world.queue q).injectFault operation error), .done)
  | .dequeue q window slot => s.dequeue q window slot
  | .update q slot window keep => s.update q slot window keep
  | .delete q slot => s.delete q slot
  | .find q slot => s.find q slot
  | .copyMessage source target receiptOf newId newReceipt =>
      s.copyMessage source target receiptOf newId newReceipt
  | .claim slot c => s.claim slot c
  | .claimState c slot => s.claimState c slot
  | .newRenewal n renewal script =>
      let s := s.openGateway (n ++ ".queue") script
      ({ s with renewals := s.renewals.set n renewal }, .done)
  | .renew n => s.renew n
  | .ensureLease b =>
      let (s, reply) := s.callLease b .ensure
      (s, .ofResult (fun _ => .done) reply)
  | .acquireLease b d holder =>
      let (s, reply) := s.callLease b (.acquire d holder)
      (s, .ofResult (fun id => .holder (some id)) reply)
  | .renewLease b holder =>
      let (s, reply) := s.callLease b (.renew holder)
      (s, .ofResult (fun _ => .done) reply)
  | .releaseLease b holder =>
      let (s, reply) := s.callLease b (.release holder)
      (s, .ofResult (fun _ => .done) reply)
  | .deleteLease b =>
      let present := (s.world.container.get b).isPresent
      ({ s with world := { s.world with container := s.world.container.delete b } }, .flag present)
  | .leaseState b => (s, .lease (s.leaseView b))
  | .addScript gateway script => (s.addScript gateway script, .done)
  | .calls gateway => s.takeCalls gateway
  | .runs n => (s, s.runs n)
  | .newTimer n command =>
      ({ s with timers := s.timers.set n (.create n command) }, .name n)
  | .startTimer n stepFirst => s.startTimer n stepFirst
  | .stopTimer n timeout => s.stopTimer n timeout
  | .dropTimer n => ({ s with timers := s.timers.erase n }, .flag (s.timers.contains n))
  | .timerState n => (s, s.timerState n)
  | .newCoordinator n b config script => s.newCoordinator n b config script
  | .startCoordinator n => s.startCoordinator n
  | .coordinatorState n =>
      (s, match s.coordinator? n with
        | some c => .coordinator c.hasLease
        | none => .absent)
  | .subscribe n subscription => s.subscribe n subscription
  | .observe subscription => s.observe subscription
  | .shutDownCoordinator n => s.shutDownCoordinator n
  | .dropCoordinator n => s.dropCoordinator n
  | .newPoller n plan => s.newPoller n plan
  | .tick n cancel => s.tick n cancel
  | .makeCommand n => s.makeCommand n
  | .execute n cancel => s.execute n cancel
  | .makeTimer n => s.makeTimer n
  | .startPoller n stepFirst => s.startPoller n stepFirst
  | .stopPoller n timeout => s.stopPoller n timeout
  | .pollerState n => (s, s.pollerState n)
  | .dropPoller n => ({ s with pollers := s.pollers.erase n }, .flag (s.pollers.contains n))
  | .tally n =>
      (s, .tally (((s.tallyNames.get? n).bind s.world.tallies.get?).getD {}))
  | .startHost n plan => s.startHost n plan
  | .hostState n =>
      (s, match s.hosts.get? n with
        | some h => .host h.isListening h.hasLease
        | none => .absent)
  | .shutDownHost n => s.shutDownHost n
  | .dropHost n => s.dropHost n

end ScenarioState

/-- The state that a step leaves behind, where it is about a queue or a lease
object. -/
inductive StepView
  | queue (view : QueueView)
  | lease (view : LeaseView)

def ScenarioState.viewAfter (s : ScenarioState) : Step → Option StepView
  | .queueExists q | .createQueue q | .dropQueue q | .enqueue q _ | .push q _ _
  | .injectFault q _ _ | .dequeue q _ _ | .update q _ _ _ | .delete q _ =>
      some (.queue (s.queueView q))
  | .ensureLease b | .acquireLease b _ _ | .renewLease b _ | .releaseLease b _ | .deleteLease b =>
      some (.lease (s.leaseView b))
  | _ => none

/-- What is told about a step that was done. -/
structure StepReport where
  time : Nat
  answer : Answer
  view : Option StepView
  /-- The events since the step before. -/
  log : List LogEntry

namespace ScenarioState

def step (s : ScenarioState) (step : Step) : ScenarioState × StepReport :=
  let (s, answer) := s.perform step
  ({ s with world := { s.world with log := [] } },
    ⟨s.now, answer, s.viewAfter step, s.world.log.reverse⟩)

end ScenarioState

def runScenario (steps : List Step) : List StepReport :=
  go .initial steps
where
  go (s : ScenarioState) : List Step → List StepReport
    | [] => []
    | step :: rest =>
        let (s, report) := s.step step
        report :: go s rest

end LeasedListener
