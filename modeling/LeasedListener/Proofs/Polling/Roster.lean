import LeasedListener.Proofs.Polling.Custody
import LeasedListener.Scenario.Storage
import Mathlib.Logic.Function.Basic

/-!
# Pollers of one queue

Any number of pollers share a queue that serves them without faults, and make
their transitions in any order.  A renewal comes no later than the interval
between renewals after the claim was last secured, and so does the end of a
disposal: time does not pass any further meanwhile.  Other clients call the
queue as well, and none of them deletes a message or presents a receipt that a
poller holds.
-/

namespace LeasedListener

open Surroundings

/-- The same phase with the wait of the renewal timer over. -/
def TickPhase.rouse : TickPhase → TickPhase
  | .executing claim renewal execution => .executing claim renewal.rouse execution
  | .settling claim renewal succeeded wait => .settling claim renewal.rouse succeeded wait
  | phase => phase

theorem TickPhase.hand?_rouse (phase : TickPhase) : phase.rouse.hand? = phase.hand? := by
  cases phase <;> rfl

theorem TickPhase.IsSound.rouse {p : Poller} {phase : TickPhase} (h : phase.IsSound p) :
    phase.rouse.IsSound p := by
  have hrouse : ∀ {m : Delivery} {renewal : RenewalTimer},
      (∀ loop, renewal.loop = some loop → Renewing p m loop) →
      ∀ loop, renewal.rouse.loop = some loop → Renewing p m loop := by
    intro m renewal hrenewing loop hloop
    simp only [Timer.rouse, Option.map_eq_some_iff] at hloop
    obtain ⟨before, hbefore, rfl⟩ := hloop
    intro pace cancelled state hlive
    have hrenews := hrenewing before hbefore
    cases before with
    | live pace' cancelled' state' =>
        cases state' with
        | waiting wake =>
            obtain ⟨rfl, -, rfl⟩ := TimerLoop.live.inj hlive
            exact ⟨(hrenews _ _ _ rfl).1, by simp⟩
        | spawned _ | stepping _ => exact hrenews _ _ _ hlive
    | returned _ | died _ => simp [TimerLoop.rouse] at hlive
  cases phase with
  | executing claim renewal execution => exact ⟨h.1, hrouse h.2⟩
  | settling claim renewal succeeded wait => exact ⟨h.1, hrouse h.2⟩
  | probing _ | dequeuing _ _ | deleting _ _ | releasing _ _ | preparing _ _ | copying _ _ =>
      exact h

def TimerLoop.mapPhase {Command Phase : Type} (f : Phase → Phase) :
    TimerLoop Command Phase → TimerLoop Command Phase
  | .live command cancelled (.stepping phase) => .live command cancelled (.stepping (f phase))
  | loop => loop

theorem TimerLoop.phase?_mapPhase {Command Phase : Type} (f : Phase → Phase)
    (loop : TimerLoop Command Phase) : (loop.mapPhase f).phase? = loop.phase?.map f := by
  cases loop with
  | live _ _ state => cases state <;> rfl
  | returned _ | died _ => rfl

/-- A poller at work. -/
structure Desk where
  timer : PollerTimer
  /-- When the receipt in hand was issued. -/
  since : Nat

namespace Desk

def phase? (d : Desk) : Option TickPhase := d.timer.phase?

def hand? (d : Desk) : Option Delivery := d.phase?.bind TickPhase.hand?

def turn (d : Desk) (timer : PollerTimer) (now : Nat) : Desk where
  timer := timer
  since :=
    if (timer.phase?.bind TickPhase.hand?).map (·.receipt) = d.hand?.map (·.receipt) then d.since
    else now

def renew (d : Desk) : Desk :=
  { d with timer := { d.timer with loop := d.timer.loop.map (·.mapPhase TickPhase.rouse) } }

theorem phase?_renew (d : Desk) : d.renew.phase? = d.phase?.map TickPhase.rouse := by
  have hphase : ∀ t : PollerTimer, t.phase? = t.loop.bind TimerLoop.phase? := by
    intro t
    unfold Timer.phase?
    cases t.loop with
    | none => rfl
    | some loop => cases loop <;> rfl
  simp only [phase?, renew, hphase]
  cases d.timer.loop with
  | none => rfl
  | some loop => exact loop.phase?_mapPhase TickPhase.rouse

theorem hand?_renew (d : Desk) : d.renew.hand? = d.hand? := by
  rw [hand?, phase?_renew, hand?]
  cases d.phase? with
  | none => rfl
  | some phase => exact phase.hand?_rouse

end Desk

/-- The pollers of a site at work. -/
structure Roster (ι : Type) where
  world : World
  desks : ι → Option Desk

namespace PollingSite

variable {ι : Type} {S : PollingSite ι} {spared : Delivery → Prop}

def IsValid (S : PollingSite ι) : Prop :=
  ∀ i, (S.configs i).validate = .ok () ∧ (S.configs i).visibilityTimeout ≤ thirtyYears

/-- A change that neither the shared queue nor the pollers' tallies are
concerned with. -/
structure Apart (S : PollingSite ι) (w w' : World) : Prop where
  now : w'.now = w.now
  queue : w'.queue S.primary = w.queue S.primary
  serials : w.serials.message ≤ w'.serials.message
  tallies : ∀ i, w'.tallies.get? (S.names i) = w.tallies.get? (S.names i)

theorem keeps_push (w : World) (body : List UInt8) (dequeueCount : UInt32) :
    S.Keeps spared w (w.push S.primary body dequeueCount) := by
  apply keeps_of_faultless (World.keeps_push S.primary w body dequeueCount)
  rw [World.queue_push]
  exact id

/-- A claim that has not waited for longer than the interval between renewals
is alive. -/
theorem IsValid.live (hS : S.IsValid) {i : ι} {since now : Nat}
    (h : now ≤ since + (S.configs i).renewalInterval.nanos) :
    now < Instant.windowEnd since (S.configs i).visibilityTimeout := by
  obtain ⟨hvalid, hbounded⟩ := hS i
  have hinterval := PollingConfig.renewalInterval_lt hvalid
  have hcap : (S.configs i).visibilityTimeout.nanos ≤ thirtyYears.nanos := hbounded
  unfold Instant.windowEnd
  omega

end PollingSite

namespace Desk

variable {ι : Type} {S : PollingSite ι} {i : ι} {d : Desk} {w w' : World} {m : Delivery}

/-- The claim on a message in hand has lately been secured. -/
structure Secured (S : PollingSite ι) (i : ι) (w : World) (d : Desk) (m : Delivery) :
    Prop where
  claim : S.Secures w m (Instant.windowEnd d.since (S.configs i).visibilityTimeout)
  past : d.since ≤ w.now
  recent : w.now ≤ d.since + (S.configs i).renewalInterval.nanos

theorem Secured.live (hS : S.IsValid) (h : d.Secured S i w m) :
    w.now < Instant.windowEnd d.since (S.configs i).visibilityTimeout :=
  hS.live h.recent

theorem Secured.keeps (hS : S.IsValid) {spared : Delivery → Prop} (h : d.Secured S i w m)
    (htidy : S.IsTidy w) (hkeeps : S.Keeps spared w w') (hspared : spared m) :
    d.Secured S i w' m where
  claim := hkeeps.secures m _ hspared htidy (h.live hS) h.claim
  past := hkeeps.now.symm ▸ h.past
  recent := hkeeps.now.symm ▸ h.recent

end Desk

namespace Roster

variable {ι : Type}

/-- No receipt in hand would be older at `now` than the interval between
renewals. -/
def IsTimely (S : PollingSite ι) (a : Roster ι) (now : Nat) : Prop :=
  ∀ i d m, a.desks i = some d → d.hand? = some m →
    now ≤ d.since + (S.configs i).renewalInterval.nanos

variable [DecidableEq ι]

def put (a : Roster ι) (i : ι) (desk : Option Desk) : Roster ι :=
  { a with desks := Function.update a.desks i desk }

theorem desks_put_self (a : Roster ι) (i : ι) (desk : Option Desk) :
    (a.put i desk).desks i = desk :=
  Function.update_self ..

theorem desks_put_of_ne {i j : ι} (h : j ≠ i) (a : Roster ι) (desk : Option Desk) :
    (a.put i desk).desks j = a.desks j :=
  Function.update_of_ne h ..

inductive Step (S : PollingSite ι) : Roster ι → Roster ι → Prop
  | elapse {a : Roster ι} {now : Nat} (later : a.world.now ≤ now) (timely : a.IsTimely S now) :
      Step S a { a with world := { a.world with now } }
  | elsewhere {a : Roster ι} {w : World} (apart : S.Apart a.world w) :
      Step S a { a with world := w }
  | client {a : Roster ι} {call : QueueCall} {transit : Transit} (keeps : ∀ m, call ≠ .delete m)
      (foreign : ∀ m, call.presented? = some m → ∀ i d held, a.desks i = some d →
        d.hand? = some held → m.id = held.id → m.receipt ≠ held.receipt) :
      Step S a { a with world := (a.world.callQueue S.primary call transit).1 }
  | push {a : Roster ι} {body : List UInt8} {dequeueCount : UInt32} :
      Step S a { a with world := a.world.push S.primary body dequeueCount }
  | join {a : Roster ι} {i : ι} (absent : a.desks i = none) :
      Step S a (a.put i
        (some ⟨.create (S.poller i).timerName (S.poller i).pace, a.world.now⟩))
  | start {a : Roster ι} {i : ι} {d : Desk} {t : PollerTimer} {stepFirst : Bool}
      (present : a.desks i = some d) (started : d.timer.start stepFirst = .ok t) :
      Step S a (a.put i (some { d with timer := t }))
  | rouse {a : Roster ι} {i : ι} {d : Desk} (present : a.desks i = some d) :
      Step S a (a.put i (some { d with timer := d.timer.rouse }))
  | renew {a : Roster ι} {i : ι} {d : Desk} (present : a.desks i = some d) :
      Step S a (a.put i (some d.renew))
  | poll {a : Roster ι} {i : ι} {d : Desk} {t : PollerTimer} {transit : Transit} {w : World}
      (present : a.desks i = some d) (admitted : transit.IsFaultless)
      (polled : d.timer.poll ((S.poller i).drive (S.custodian i transit)) a.world = some (t, w)) :
      Step S a ({ a with world := w }.put i (some (d.turn t w.now)))
  | cancel {a : Roster ι} {i : ι} {d : Desk} (present : a.desks i = some d) :
      Step S a (a.put i (some { d with timer := d.timer.cancel }))
  | settle {a : Roster ι} {i : ι} {d : Desk} {t : PollerTimer} {wait : StopWait}
      {result : Except TimerError Unit} {events : List Event} (present : a.desks i = some d)
      (settled : d.timer.stopResult? wait a.world.now = some (t, result, events)) :
      Step S a ({ a with world := reportAll a.world events }.put i (some { d with timer := t }))
  | drop {a : Roster ι} {i : ι} : Step S a (a.put i none)

/-- In the beginning no poller is at work, and no disposal was refused. -/
inductive Reachable (S : PollingSite ι) : Roster ι → Prop
  | start {w : World} (tidy : S.IsTidy w)
      (unopposed : ∀ i, PollingSite.conflicts w (S.names i) = 0) : Reachable S ⟨w, fun _ => none⟩
  | step {a b : Roster ι} : Reachable S a → Step S a b → Reachable S b

end Roster

end LeasedListener
