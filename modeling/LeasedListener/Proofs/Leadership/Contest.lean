import LeasedListener.Proofs.Leadership.Witness
import Mathlib.Logic.Function.Basic

/-!
# Contests for a lease

Any number of coordinators contend for one lease object.  They are created
from given configurations, started and shut down at any time, and their loops
make their transitions in any order; a wait may be cut short, so that steps
begin at any time.  Each call is treated by the storage service as it likes,
within what the contest admits.  Meanwhile time passes, others make sure that
the object exists, and the rest of the world does as it pleases.
-/

namespace LeasedListener

inductive ContestStage
  | running
  | closing (closing : Closing)
  | closed

/-- A coordinator with its answered calls, the latest first. -/
structure Contestant where
  coordinator : Coordinator
  stage : ContestStage
  calls : List CallRecord

structure Contest (ι : Type) where
  world : World
  seats : ι → Option Contestant

namespace Contestant

def hasLease (s : Contestant) : Bool := s.coordinator.hasLease

/-- The last acquisition, renewal or new claim is younger than the lease. -/
def IsFresh (s : Contestant) (now : Nat) : Prop :=
  ∃ granted, lastGrant s.calls = some granted ∧
    now < granted + s.coordinator.config.leaseDuration.nanos

instance (s : Contestant) (now : Nat) : Decidable (s.IsFresh now) :=
  decidable_of_iff
    ((lastGrant s.calls).any fun granted =>
      now < granted + s.coordinator.config.leaseDuration.nanos)
    (by simp only [IsFresh, Option.any_eq_true, decide_eq_true_eq])

/-- The last call was answered less than the length of the lease ago. -/
def IsPunctual (s : Contestant) (now : Nat) : Prop :=
  ∃ latest, s.calls.head? = some latest ∧
    now < latest.time + s.coordinator.config.leaseDuration.nanos

end Contestant

namespace Contest

variable {ι : Type} [DecidableEq ι]

def seat (a : Contest ι) (i : ι) (s : Contestant) : Contest ι :=
  { a with seats := Function.update a.seats i (some s) }

@[simp] theorem world_seat (a : Contest ι) (i : ι) (s : Contestant) :
    (a.seat i s).world = a.world := rfl

@[simp] theorem seats_seat_self (a : Contest ι) (i : ι) (s : Contestant) :
    (a.seat i s).seats i = some s :=
  Function.update_self ..

theorem seats_seat_of_ne {i j : ι} (h : j ≠ i) (a : Contest ι) (s : Contestant) :
    (a.seat i s).seats j = a.seats j :=
  Function.update_of_ne h ..

inductive Step (lease : String) (configs : ι → LeaseConfig) (admits : Transit → Prop) :
    Contest ι → Contest ι → Prop
  | elsewhere {a : Contest ι} {w : World} (later : a.world.now ≤ w.now)
      (kept : w.container.get lease = a.world.container.get lease) :
      Step lease configs admits a { a with world := w }
  | ensure {a : Contest ι} {transit : Transit} (admitted : admits transit) :
      Step lease configs admits a
        { a with world := (a.world.callLease lease .ensure transit).1 }
  | join {a : Contest ι} {i : ι} {c : Coordinator} (absent : a.seats i = none)
      (created : Coordinator.create lease (configs i) = .ok c) :
      Step lease configs admits a (a.seat i ⟨c, .running, []⟩)
  | start {a : Contest ι} {i : ι} {s : Contestant} (seated : a.seats i = some s)
      (running : s.stage = .running) :
      Step lease configs admits a (a.seat i { s with coordinator := s.coordinator.start.1 })
  | rouse {a : Contest ι} {i : ι} {s : Contestant} (seated : a.seats i = some s) :
      Step lease configs admits a
        (a.seat i { s with coordinator.timer := s.coordinator.timer.rouse })
  | poll {a : Contest ι} {i : ι} {s : Contestant} {transit : Transit} {c : Coordinator}
      {w : World} {calls : List CallRecord} (seated : a.seats i = some s)
      (admitted : admits transit)
      (polled : s.coordinator.poll (World.witnessed lease transit) (a.world, s.calls) =
        some (c, w, calls)) :
      Step lease configs admits a
        ({ a with world := w }.seat i { s with coordinator := c, calls })
  | settle {a : Contest ι} {i : ι} {s : Contestant} {c : Coordinator}
      (seated : a.seats i = some s) (settled : s.coordinator.settle = some c) :
      Step lease configs admits a (a.seat i { s with coordinator := c })
  | close {a : Contest ι} {i : ι} {s : Contestant} (seated : a.seats i = some s)
      (running : s.stage = .running) :
      Step lease configs admits a
        (a.seat i { s with
          coordinator := (s.coordinator.close a.world).1
          stage := .closing (s.coordinator.close a.world).2 })
  | release {a : Contest ι} {i : ι} {s : Contestant} {closing closing' : Closing}
      {transit : Transit} {c : Coordinator} {w : World} {calls : List CallRecord}
      (seated : a.seats i = some s) (stage : s.stage = .closing closing)
      (admitted : admits transit)
      (stepped : s.coordinator.closeStep (World.witnessed lease transit) (a.world, s.calls)
        closing = some (.continues ((w, calls), c) closing')) :
      Step lease configs admits a
        ({ a with world := w }.seat i ⟨c, .closing closing', calls⟩)
  | leave {a : Contest ι} {i : ι} {s : Contestant} {closing : Closing} {transit : Transit}
      {c : Coordinator} {w : World} {calls : List CallRecord} {result : Except TimerError Unit}
      (seated : a.seats i = some s) (stage : s.stage = .closing closing)
      (admitted : admits transit)
      (stepped : s.coordinator.closeStep (World.witnessed lease transit) (a.world, s.calls)
        closing = some (.ended ((w, calls), c) result)) :
      Step lease configs admits a ({ a with world := w }.seat i ⟨c, .closed, calls⟩)

/-- A contest begins with nobody seated and nothing leased. -/
inductive Reachable (lease : String) (configs : ι → LeaseConfig) (admits : Transit → Prop) :
    Contest ι → Prop
  | start {w : World} (unleased : ∀ active, w.container.get lease ≠ .leased active) :
      Reachable lease configs admits ⟨w, fun _ => none⟩
  | step {a b : Contest ι} : Reachable lease configs admits a →
      Step lease configs admits a b → Reachable lease configs admits b

def advance (lease : String) (transit : Transit) (a : Contest ι) (i : ι) : Contest ι :=
  match a.seats i with
  | none => a
  | some s =>
      match s.coordinator.poll (World.witnessed lease transit) (a.world, s.calls) with
      | none => a
      | some (c, w, calls) => { a with world := w }.seat i { s with coordinator := c, calls }

theorem Reachable.advance {lease : String} {configs : ι → LeaseConfig}
    {admits : Transit → Prop} {a : Contest ι} {transit : Transit}
    (h : Reachable lease configs admits a) (admitted : admits transit) (i : ι) :
    Reachable lease configs admits (a.advance lease transit i) := by
  unfold Contest.advance
  split
  · exact h
  · next s seated =>
      split
      · exact h
      · next c w calls polled => exact h.step (.poll seated admitted polled)

end Contest

end LeasedListener
