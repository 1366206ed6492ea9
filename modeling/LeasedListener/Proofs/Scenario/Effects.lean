import LeasedListener.Proofs.Lease.Calls
import LeasedListener.Proofs.Queue.Evolution
import LeasedListener.Scenario.World

/-!
# Effects on a world

A report adds to the log of a world and leaves everything else as it is.  A
call on a lease object runs on that object or has no effect at all, and takes
no time.
-/

namespace LeasedListener

open Surroundings

theorem report_pair {Env α : Type} [Surroundings Env] (env : Env) (kept : α) (event : Event) :
    report (env, kept) event = (report env event, kept) := rfl

theorem reportAll_cons {Env : Type} [Surroundings Env] (env : Env) (event : Event)
    (events : List Event) :
    reportAll env (event :: events) = reportAll (report env event) events := rfl

theorem reportAll_pair {Env α : Type} [Surroundings Env] (env : Env) (kept : α)
    (events : List Event) : reportAll (env, kept) events = (reportAll env events, kept) := by
  induction events generalizing env with
  | nil => rfl
  | cons event events ih =>
      rw [reportAll_cons, reportAll_cons]
      exact ih (report env event)

namespace World

/-- Whether two worlds differ in nothing but their logs. -/
def SameButLog (w other : World) : Prop := { other with log := w.log } = w

theorem sameButLog_reportAll (w : World) (events : List Event) :
    w.SameButLog (reportAll w events) := by
  induction events generalizing w with
  | nil => rfl
  | cons event events ih =>
      have hrest : (report w event).SameButLog (reportAll (report w event) events) :=
        ih (report w event)
      rw [reportAll_cons, SameButLog]
      exact congrArg (fun reported : World => { reported with log := w.log }) hrest

theorem SameButLog.report {w other : World} (h : w.SameButLog other) (event : Event) :
    w.SameButLog (Surroundings.report other event) := h

variable {w other : World}

theorem SameButLog.now (h : w.SameButLog other) : other.now = w.now := by
  have hsame : { other with log := w.log } = w := h
  rw [← hsame]

theorem SameButLog.container (h : w.SameButLog other) : other.container = w.container := by
  have hsame : { other with log := w.log } = w := h
  rw [← hsame]

theorem SameButLog.serials (h : w.SameButLog other) : other.serials = w.serials := by
  have hsame : { other with log := w.log } = w := h
  rw [← hsame]

theorem SameButLog.tallies (h : w.SameButLog other) : other.tallies = w.tallies := by
  have hsame : { other with log := w.log } = w := h
  rw [← hsame]

theorem SameButLog.queues (h : w.SameButLog other) : other.queues = w.queues := by
  have hsame : { other with log := w.log } = w := h
  rw [← hsame]

/-- The start of a run changes nothing but the log and the executors. -/
theorem execute_fst (w : World) (name : String) (m : Delivery) :
    ∃ log executors, (w.execute name m).1 = { w with log, executors } := by
  simp only [execute]
  split
  · exact ⟨_, _, rfl⟩
  · split <;> exact ⟨_, _, rfl⟩

theorem callLease_fst (w : World) (lease : String) (call : LeaseCall) (transit : Transit) :
    (w.callLease lease call transit).1.container.get lease = w.container.get lease ∨
      (w.callLease lease call transit).1.container.get lease =
        (call.run lease w.now (w.container.get lease)).1 := by
  have hcontainer : (w.callLease lease call transit).1.container =
      (transit.carry (fun c : LeaseContainer => c.run lease w.now call) w.container).1 := rfl
  rw [hcontainer]
  rcases transit.carry_fst (fun c : LeaseContainer => c.run lease w.now call) w.container with
    hnone | hwhole
  · exact .inl (by rw [hnone])
  · exact .inr (by rw [hwhole]; exact LeaseContainer.get_set_self ..)

theorem callLease_of_carry {w : World} {lease : String} {call : LeaseCall} {transit : Transit}
    (h : transit.carry (fun c : LeaseContainer => c.run lease w.now call) w.container =
      w.container.run lease w.now call) :
    (w.callLease lease call transit).1.container.get lease =
        (call.run lease w.now (w.container.get lease)).1 ∧
      (w.callLease lease call transit).2 = (call.run lease w.now (w.container.get lease)).2 := by
  unfold callLease
  rw [h]
  exact ⟨LeaseContainer.get_set_self .., rfl⟩

theorem callLease_of_ok {w : World} {lease : String} {call : LeaseCall} {transit : Transit}
    {answer : call.Reply} (h : (w.callLease lease call transit).2 = .ok answer) :
    (w.callLease lease call transit).1.container.get lease =
        (call.run lease w.now (w.container.get lease)).1 ∧
      (call.run lease w.now (w.container.get lease)).2 = .ok answer := by
  obtain ⟨hobject, hreply⟩ := callLease_of_carry (Transit.carry_of_ok h)
  exact ⟨hobject, hreply.symm.trans h⟩

theorem callLease_of_faultless {transit : Transit} (h : transit.fault = none) (w : World)
    (lease : String) (call : LeaseCall) :
    (w.callLease lease call transit).1.container.get lease =
        (call.run lease w.now (w.container.get lease)).1 ∧
      (w.callLease lease call transit).2 = (call.run lease w.now (w.container.get lease)).2 :=
  callLease_of_carry (Transit.carry_of_faultless h)

theorem queue_callQueue_self (w : World) (name : String) (call : QueueCall) (transit : Transit) :
    (w.callQueue name call transit).1.queue name =
      (transit.carry (call.run w.now (Surroundings.wallClock w))
        (w.serials, w.queue name)).1.2 := by
  simp [callQueue, queue]

/-- A call on a queue runs as a whole or not at all. -/
theorem callQueue_fst (w : World) (name : String) (call : QueueCall) (transit : Transit) :
    ((w.callQueue name call transit).1.serials = w.serials ∧
      (w.callQueue name call transit).1.queue name = w.queue name) ∨
    ((w.callQueue name call transit).1.serials =
        (call.run w.now (Surroundings.wallClock w) (w.serials, w.queue name)).1.1 ∧
      (w.callQueue name call transit).1.queue name =
        (call.run w.now (Surroundings.wallClock w) (w.serials, w.queue name)).1.2) := by
  have hserials : (w.callQueue name call transit).1.serials =
      (transit.carry (call.run w.now (Surroundings.wallClock w))
        (w.serials, w.queue name)).1.1 := rfl
  rw [queue_callQueue_self, hserials]
  rcases transit.carry_fst (call.run w.now (Surroundings.wallClock w))
    (w.serials, w.queue name) with hnone | hwhole
  · exact .inl (by simp [hnone])
  · exact .inr (by simp [hwhole])

theorem message_le_callQueue (w : World) (name : String) (call : QueueCall) (transit : Transit) :
    w.serials.message ≤ (w.callQueue name call transit).1.serials.message := by
  rcases w.callQueue_fst name call transit with ⟨hserials, -⟩ | ⟨hserials, -⟩
  · exact Nat.le_of_eq (congrArg Serials.message hserials.symm)
  · rw [hserials]
    exact QueueCall.message_le_run call _ _

theorem callQueue_of_ok {w : World} {name : String} {call : QueueCall} {transit : Transit}
    {answer : call.Reply} (h : (w.callQueue name call transit).2 = .ok answer) :
    (w.callQueue name call transit).1.queue name =
        (call.run w.now (Surroundings.wallClock w) (w.serials, w.queue name)).1.2 ∧
      (call.run w.now (Surroundings.wallClock w) (w.serials, w.queue name)).2 = .ok answer := by
  have hcarry : transit.carry (call.run w.now (Surroundings.wallClock w))
      (w.serials, w.queue name) =
        call.run w.now (Surroundings.wallClock w) (w.serials, w.queue name) :=
    Transit.carry_of_ok h
  constructor
  · rw [queue_callQueue_self, hcarry]
  · rw [← hcarry]
    exact h

theorem callQueue_of_faultless {transit : Transit} (h : transit.fault = none) (w : World)
    (name : String) (call : QueueCall) :
    (w.callQueue name call transit).1.queue name =
        (call.run w.now (Surroundings.wallClock w) (w.serials, w.queue name)).1.2 ∧
      (w.callQueue name call transit).2 =
        (call.run w.now (Surroundings.wallClock w) (w.serials, w.queue name)).2 := by
  have hcarry : transit.carry (call.run w.now (Surroundings.wallClock w))
      (w.serials, w.queue name) =
        call.run w.now (Surroundings.wallClock w) (w.serials, w.queue name) :=
    Transit.carry_of_faultless h
  rw [queue_callQueue_self, hcarry]
  exact ⟨rfl, congrArg Prod.snd hcarry⟩

theorem queue_callQueue_of_ne {name other : String} (h : other ≠ name) (w : World)
    (call : QueueCall) (transit : Transit) :
    (w.callQueue name call transit).1.queue other = w.queue other := by
  simp [callQueue, queue, Table.get?_set_of_ne _ h]

end World

end LeasedListener
