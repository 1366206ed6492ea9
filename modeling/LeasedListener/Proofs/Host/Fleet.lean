import LeasedListener.Proofs.Leadership.Faultless

/-!
# Fleets of hosts

Any number of hosts in singleton mode share a lease object and a queue.  They
are started and shut down at any time, and their coordinators, supervisors and
pollers make their transitions in any order.  The lease object answers every
call that reaches it, and no leader lets the lease run out while its
coordinator is at work.  Meanwhile time passes, and the rest of the world does
as it pleases.
-/

namespace LeasedListener

variable {Env κ : Type}

def QueueAccess.beside (a : QueueAccess Env) : QueueAccess (Env × κ) where
  issue env call := (((a.issue env.1 call).1, env.2), (a.issue env.1 call).2)
  perform env call transit :=
    (((a.perform env.1 call transit).1, env.2), (a.perform env.1 call transit).2)

def PollerAccess.beside (a : PollerAccess Env) : PollerAccess (Env × κ) where
  queue := QueueAccess.beside a.queue
  poison := QueueAccess.beside a.poison
  mark env m := (a.mark env.1 m, env.2)
  execute env m := (((a.execute env.1 m).1, env.2), (a.execute env.1 m).2)
  finish env e result := (a.finish env.1 e result, env.2)

/-- Hosts in singleton mode that share a lease object and a queue. -/
structure Cluster (ι : Type) where
  lease : String
  queue : String
  names : ι → String
  poisons : ι → Option String
  configs : ι → HostConfig
  singleton : ∀ i, (configs i).singleton = true
  distinct : Function.Injective fun i => (configs i).lease.holder
  bounded : ∀ i, (configs i).lease.leaseDuration ≤ thirtyYears

/-- What a host of a cluster needs.  The answered calls on the lease object are
kept beside the world, the latest first. -/
def Cluster.access {ι : Type} (C : Cluster ι) (i : ι) (transit : Transit) :
    HostAccess (World × List CallRecord) where
  lease := World.witnessed C.lease transit
  poller := (World.pollerAccess (C.names i) C.queue (C.poisons i) (C.names i)).beside

inductive MemberStage
  | running
  | closing (closing : HostClosing)
  | closed

structure Member where
  host : Host
  stage : MemberStage
  calls : List CallRecord

/-- What the coordinator of a host goes through. -/
def MemberStage.contest : MemberStage → ContestStage
  | .running | .closing .joining | .closing .stopping => .running
  | .closing (.leaving _ step) => .closing step
  | .closed => .closed

namespace Member

def contestant? (m : Member) : Option Contestant :=
  match m.host.mode with
  | .singleton coordinator _ => some ⟨coordinator, m.stage.contest, m.calls⟩
  | .always _ => none

/-- A leader whose coordinator is at work has been granted the lease lately. -/
def IsPunctual (m : Member) (now : Nat) : Prop :=
  ∀ s, m.contestant? = some s → s.hasLease → s.coordinator.timer.isEngaged → s.IsFresh now

instance (m : Member) (now : Nat) : Decidable (m.IsPunctual now) :=
  decidable_of_iff
    (m.contestant?.all fun s =>
      s.hasLease → s.coordinator.timer.isEngaged → s.IsFresh now)
    (by simp only [IsPunctual, Option.all_eq_true, decide_eq_true_eq])

/-- The poller task of a host, as long as it can run a step. -/
def dispatcher? (m : Member) : Option PollerTimer := m.host.listener.timer?.filter Timer.isRunning

def IsExecuting (m : Member) : Prop :=
  ∃ timer claim renewal execution, m.host.listener.timer? = some timer ∧
    timer.phase? = some (.executing claim renewal execution)

end Member

structure Fleet (ι : Type) where
  world : World
  members : ι → Option Member

namespace Fleet

variable {ι : Type}

def contest (a : Fleet ι) : Contest ι where
  world := a.world
  seats i := (a.members i).bind Member.contestant?

def IsPunctual (a : Fleet ι) : Prop := ∀ i m, a.members i = some m → m.IsPunctual a.world.now

theorem isPunctual_of_all {a : Fleet ι}
    (h : ∀ i, (a.members i).all fun m => m.IsPunctual a.world.now) : a.IsPunctual := by
  intro i m hpresent
  simpa [hpresent] using h i

variable [DecidableEq ι]

def turn (a : Fleet ι) (i : ι) (m : Member) (w : World) : Fleet ι where
  world := w
  members := Function.update a.members i (some m)

theorem members_turn_self (a : Fleet ι) (i : ι) (m : Member) (w : World) :
    (a.turn i m w).members i = some m :=
  Function.update_self ..

theorem members_turn_of_ne {i j : ι} (h : j ≠ i) (a : Fleet ι) (m : Member) (w : World) :
    (a.turn i m w).members j = a.members j :=
  Function.update_of_ne h ..

inductive Step (C : Cluster ι) : Fleet ι → Fleet ι → Prop
  | elsewhere {a : Fleet ι} {w : World} (later : a.world.now ≤ w.now)
      (kept : w.container.get C.lease = a.world.container.get C.lease) :
      Step C a { a with world := w }
  | ensure {a : Fleet ι} {transit : Transit} (admitted : transit.IsFaultless) :
      Step C a { a with world := (a.world.callLease C.lease .ensure transit).1 }
  | start {a : Fleet ι} {i : ι} {h : Host} {w : World} {calls : List CallRecord}
      (absent : a.members i = none)
      (started : Host.start (C.configs i) C.lease C.queue (C.poisons i) (a.world, []) =
        (.ok h, w, calls)) :
      Step C a (a.turn i ⟨h, .running, calls⟩ w)
  | pollLease {a : Fleet ι} {i : ι} {m : Member} {transit : Transit} {h : Host} {w : World}
      {calls : List CallRecord} (present : a.members i = some m)
      (admitted : transit.IsFaultless)
      (polled : m.host.pollLease (C.access i transit) (a.world, m.calls) = some (h, w, calls)) :
      Step C a (a.turn i ⟨h, m.stage, calls⟩ w)
  | settle {a : Fleet ι} {i : ι} {m : Member} {h : Host} (present : a.members i = some m)
      (settled : m.host.settle = some h) :
      Step C a (a.turn i ⟨h, m.stage, m.calls⟩ a.world)
  | supervise {a : Fleet ι} {i : ι} {m : Member} {h : Host} {w : World}
      {calls : List CallRecord} (present : a.members i = some m)
      (supervised : m.host.supervise (a.world, m.calls) = some (h, w, calls)) :
      Step C a (a.turn i ⟨h, m.stage, calls⟩ w)
  | pollListener {a : Fleet ι} {i : ι} {m : Member} {transit : Transit} {h : Host} {w : World}
      {calls : List CallRecord} (present : a.members i = some m)
      (polled : m.host.pollListener (C.access i transit) (a.world, m.calls) =
        some (h, w, calls)) :
      Step C a (a.turn i ⟨h, m.stage, calls⟩ w)
  | close {a : Fleet ι} {i : ι} {m : Member} (present : a.members i = some m)
      (running : m.stage = .running) :
      Step C a (a.turn i ⟨(m.host.close a.world).1, .closing (m.host.close a.world).2, m.calls⟩
        a.world)
  | proceed {a : Fleet ι} {i : ι} {m : Member} {transit : Transit} {closing closing' : HostClosing}
      {h : Host} {w : World} {calls : List CallRecord} (present : a.members i = some m)
      (stage : m.stage = .closing closing) (admitted : transit.IsFaultless)
      (stepped : m.host.closeStep (C.access i transit) (a.world, m.calls) closing =
        some (.continues ((w, calls), h) closing')) :
      Step C a (a.turn i ⟨h, .closing closing', calls⟩ w)
  | leave {a : Fleet ι} {i : ι} {m : Member} {transit : Transit} {closing : HostClosing}
      {h : Host} {w : World} {calls : List CallRecord} {result : Except TimerError Unit}
      (present : a.members i = some m) (stage : m.stage = .closing closing)
      (admitted : transit.IsFaultless)
      (stepped : m.host.closeStep (C.access i transit) (a.world, m.calls) closing =
        some (.ended ((w, calls), h) result)) :
      Step C a (a.turn i ⟨h, .closed, calls⟩ w)

/-- A fleet begins without hosts and with nothing leased.  In every state that
it passes through, the leaders at work have been granted the lease lately. -/
inductive Reachable (C : Cluster ι) : Fleet ι → Prop
  | start {w : World} (unleased : ∀ active, w.container.get C.lease ≠ .leased active) :
      Reachable C ⟨w, fun _ => none⟩
  | step {a b : Fleet ι} : Reachable C a → Step C a b → b.IsPunctual → Reachable C b

end Fleet

end LeasedListener
