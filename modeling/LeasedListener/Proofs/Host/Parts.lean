import LeasedListener.Proofs.Host.Fleet
import LeasedListener.Proofs.Host.Singleton
import LeasedListener.Proofs.Host.Supervision
import LeasedListener.Proofs.Polling.Hand
import Mathlib.Logic.Relation

/-!
# The parts of a host at work

A host runs against services that do as they please, and everything that its
pollers do goes on record.  A step of it is a transition of one of its parts, or
time that passes.  In singleton mode the parts are a coordinator and a
supervisor with its listener, and what one of them does leaves the other as it
is; else the listener is the only part.
-/

namespace LeasedListener

open Surroundings

variable {Env κ : Type}

def LeaseAccess.beside (a : LeaseAccess Env) : LeaseAccess (Env × κ) where
  issue env call := (((a.issue env.1 call).1, env.2), (a.issue env.1 call).2)
  perform env call transit :=
    (((a.perform env.1 call transit).1, env.2), (a.perform env.1 call transit).2)

/-- Calls that go on record, the latest first. -/
def QueueAccess.logged (role : QueueRole) (a : QueueAccess Env) :
    QueueAccess (Env × List Doing) where
  issue env call :=
    (((a.issue env.1 call).1, .begun role call (a.issue env.1 call).2 :: env.2),
      (a.issue env.1 call).2)
  perform env call transit :=
    (((a.perform env.1 call transit).1,
      .answered role call transit (a.perform env.1 call transit).2 :: env.2),
      (a.perform env.1 call transit).2)

def PollerAccess.logged (a : PollerAccess Env) : PollerAccess (Env × List Doing) where
  queue := QueueAccess.logged .primary a.queue
  poison := QueueAccess.logged .poison a.poison
  mark env m := (a.mark env.1 m, .marked m :: env.2)
  execute env m :=
    (((a.execute env.1 m).1, .started m (a.execute env.1 m).2 :: env.2), (a.execute env.1 m).2)
  finish env execution result :=
    (a.finish env.1 execution result, .finished execution result :: env.2)

def HostAccess.logged (a : HostAccess Env) : HostAccess (Env × List Doing) where
  lease := LeaseAccess.beside a.lease
  poller := a.poller.logged

/-- A host among services that do as they please. -/
structure HostRun (Env : Type) where
  env : Env
  /-- What the pollers of the host have done so far, the latest first. -/
  doings : List Doing
  host : Host
  stage : MemberStage

namespace HostRun

variable [Surroundings Env]

/-- A shutdown begins. -/
def close (s : HostRun Env) : HostRun Env where
  env := s.env
  doings := s.doings
  host := (s.host.close (s.env, s.doings)).1
  stage := .closing (s.host.close (s.env, s.doings)).2

/-- The part of a host that makes a transition is as arbitrary as the answers
of the services, which `a` gives as is `permitted`. -/
inductive Acts (permitted : HostAccess Env → Prop) : HostRun Env → HostRun Env → Prop
  | pollLease {s : HostRun Env} {a : HostAccess Env} {host : Host} {env : Env}
      {doings : List Doing} (permits : permitted a)
      (polled : s.host.pollLease a.logged (s.env, s.doings) = some (host, env, doings)) :
      Acts permitted s { s with env, doings, host }
  | settle {s : HostRun Env} {host : Host} (settled : s.host.settle = some host) :
      Acts permitted s { s with host }
  | supervise {s : HostRun Env} {host : Host} {env : Env} {doings : List Doing}
      (supervised : s.host.supervise (s.env, s.doings) = some (host, env, doings)) :
      Acts permitted s { s with env, doings, host }
  | pollListener {s : HostRun Env} {a : HostAccess Env} {host : Host} {env : Env}
      {doings : List Doing} (permits : permitted a)
      (polled : s.host.pollListener a.logged (s.env, s.doings) = some (host, env, doings)) :
      Acts permitted s { s with env, doings, host }
  | close {s : HostRun Env} (running : s.stage = .running) : Acts permitted s s.close
  | proceed {s : HostRun Env} {a : HostAccess Env} {closing closing' : HostClosing} {host : Host}
      {env : Env} {doings : List Doing} (permits : permitted a) (stage : s.stage = .closing closing)
      (stepped : s.host.closeStep a.logged (s.env, s.doings) closing =
        some (.continues ((env, doings), host) closing')) :
      Acts permitted s ⟨env, doings, host, .closing closing'⟩
  | leave {s : HostRun Env} {a : HostAccess Env} {closing : HostClosing} {host : Host}
      {env : Env} {doings : List Doing} {result : Except TimerError Unit}
      (permits : permitted a) (stage : s.stage = .closing closing)
      (stepped : s.host.closeStep a.logged (s.env, s.doings) closing =
        some (.ended ((env, doings), host) result)) :
      Acts permitted s ⟨env, doings, host, .closed⟩

inductive Step : HostRun Env → HostRun Env → Prop
  | elsewhere {s : HostRun Env} {env : Env} (later : now s.env ≤ now env) : Step s { s with env }
  | acts {s t : HostRun Env} (acts : Acts (fun _ => True) s t) : Step s t

inductive Reachable (config : HostConfig) (lease queue : String) (poison : Option String) :
    HostRun Env → Prop
  | start {env env' : Env} {host : Host} {doings : List Doing}
      (started : Host.start config lease queue poison (env, []) = (.ok host, env', doings)) :
      Reachable config lease queue poison ⟨env', doings, host, .running⟩
  | step {s t : HostRun Env} : Reachable config lease queue poison s → Step s t →
      Reachable config lease queue poison t

variable {permitted : HostAccess Env → Prop} {s t : HostRun Env}

theorem Acts.step (h : Acts permitted s t) : Step s t := by
  refine .acts ?_
  cases h with
  | pollLease _ polled => exact .pollLease trivial polled
  | settle settled => exact .settle settled
  | supervise supervised => exact .supervise supervised
  | pollListener _ polled => exact .pollListener trivial polled
  | close running => exact .close running
  | proceed _ stage stepped => exact .proceed trivial stage stepped
  | leave _ stage stepped => exact .leave trivial stage stepped

/-- What a step of a host in singleton mode is for its coordinator and its
supervisor.  All that is proved of such a step goes by these cases. -/
inductive Works (permitted : HostAccess Env → Prop) (s t : HostRun Env) (c : Coordinator)
    (v : Supervisor) (c' : Coordinator) (v' : Supervisor) : Prop
  | contends {a : HostAccess Env} (permits : permitted a)
      (polled : c.poll a.logged.lease (s.env, s.doings) = some (c', t.env, t.doings))
      (supervisor : v' = v) (stage : t.stage = s.stage)
  | settles (settled : c.settle = some c') (env : t.env = s.env) (record : t.doings = s.doings)
      (supervisor : v' = v) (stage : t.stage = s.stage)
  | supervises
      (advanced : v.advance c.status c.isClosed (s.env, s.doings) = some (v', t.env, t.doings))
      (coordinator : c' = c) (stage : t.stage = s.stage)
  | listens {a : HostAccess Env} (permits : permitted a)
      (polled : v.pollListener a.logged.poller (s.env, s.doings) = some (v', t.env, t.doings))
      (coordinator : c' = c) (stage : t.stage = s.stage)
  | shuts (running : s.stage = .running) (env : t.env = s.env) (record : t.doings = s.doings)
      (coordinator : c' = c) (supervisor : v' = v.cancel) (stage : t.stage = .closing .joining)
  | joins {closing : HostClosing} {result : Except TimerError Unit}
      (before : s.stage = .closing closing) (ended : v.result? = some result)
      (first : ∀ result step, closing ≠ .leaving result step)
      (env : t.env = s.env) (record : t.doings = s.doings)
      (coordinator : c' = (c.close (s.env, s.doings)).1) (supervisor : v' = v)
      (stage : t.stage = .closing (.leaving result (c.close (s.env, s.doings)).2))
  | closes {a : HostAccess Env} {result : Except TimerError Unit} {step step' : Closing}
      (permits : permitted a) (before : s.stage = .closing (.leaving result step))
      (stepped : c.closeStep a.logged.lease (s.env, s.doings) step =
        some (.continues ((t.env, t.doings), c') step'))
      (supervisor : v' = v) (stage : t.stage = .closing (.leaving result step'))
  | leaves {a : HostAccess Env} {result released : Except TimerError Unit} {step : Closing}
      {after : Env × List Doing} (permits : permitted a)
      (before : s.stage = .closing (.leaving result step))
      (stepped : c.closeStep a.logged.lease (s.env, s.doings) step =
        some (.ended (after, c') released))
      (env : t.env = report after.1 .hostStopped) (record : t.doings = after.2)
      (supervisor : v' = v) (stage : t.stage = .closed)

theorem works_of_acts {c : Coordinator} {v : Supervisor} (hmode : s.host.mode = .singleton c v)
    (h : Acts permitted s t) :
    ∃ c' v', t.host.mode = .singleton c' v' ∧ Works permitted s t c v c' v' := by
  cases h with
  | pollLease permits polled =>
      obtain ⟨c', hpolled, hmode'⟩ := Host.of_pollLease hmode polled
      exact ⟨c', v, hmode', .contends permits hpolled rfl rfl⟩
  | settle settled =>
      obtain ⟨c', hsettled, hmode'⟩ := Host.of_settle hmode settled
      exact ⟨c', v, hmode', .settles hsettled rfl rfl rfl rfl⟩
  | supervise supervised =>
      obtain ⟨v', hadvanced, hmode'⟩ := Host.of_supervise hmode supervised
      exact ⟨c, v', hmode', .supervises hadvanced rfl rfl⟩
  | pollListener permits polled =>
      obtain ⟨v', hpolled, hmode'⟩ := Host.of_pollListener hmode polled
      exact ⟨c, v', hmode', .listens permits hpolled rfl rfl⟩
  | close running =>
      obtain ⟨hmode', hjoining⟩ := Host.close_of_singleton hmode (s.env, s.doings)
      exact ⟨c, v.cancel, hmode',
        .shuts running rfl rfl rfl rfl (congrArg MemberStage.closing hjoining)⟩
  | proceed permits stage stepped =>
      rcases Host.of_closeStep_continues hmode stepped with
        ⟨result, hended, hfirst, hmode', henv, hclosing⟩ |
        ⟨result, step, c', step', hclosing, hstepped, hmode', hclosing'⟩
      · obtain ⟨rfl, rfl⟩ := Prod.mk.inj henv
        exact ⟨_, v, hmode', .joins stage hended hfirst rfl rfl rfl rfl (by rw [hclosing])⟩
      · exact ⟨c', v, hmode',
          .closes permits (hclosing ▸ stage) hstepped rfl (by rw [hclosing'])⟩
  | leave permits stage stepped =>
      obtain ⟨result, step, after, c', released, hclosing, hstepped, hmode', henv⟩ :=
        Host.of_closeStep_ended hmode stepped
      obtain ⟨henv, hrecord⟩ := Prod.mk.inj henv
      exact ⟨c', v, hmode',
        .leaves permits (hclosing ▸ stage) hstepped henv hrecord rfl rfl⟩

theorem Works.orderly {c c' : Coordinator} {v v' : Supervisor}
    (h : Works permitted s t c v c' v') (hv : v.IsOrderly) : v'.IsOrderly := by
  cases h with
  | supervises advanced _ _ => exact (Supervisor.turn_of_advance hv advanced).orderly
  | listens _ polled _ _ => exact (hv.pollListener polled).1
  | shuts _ _ _ _ supervisor _ => exact supervisor ▸ hv.cancel
  | contends _ _ supervisor _ | settles _ _ _ supervisor _ | joins _ _ _ _ _ _ supervisor _
  | closes _ _ _ supervisor _ | leaves _ _ _ _ _ supervisor _ => exact supervisor ▸ hv

/-- What a step of a host in the other mode is for its listener. -/
inductive Serves (s t : HostRun Env) (l l' : Listener) : Prop
  | listens {a : HostAccess Env}
      (polled : l.poll a.logged.poller (s.env, s.doings) = some (l', t.env, t.doings))
      (stage : t.stage = s.stage)
  | shuts (asked : l' = l.stop (s.env, s.doings)) (record : t.doings = s.doings)
  | leaves {after : Env × List Doing} {result : Except TimerError Unit}
      (shut : s.stage ≠ .running)
      (stopped : l.stopped? (s.env, s.doings) = some (l', after, result))
      (record : t.doings = after.2)

theorem serves_of_acts {l : Listener} (hmode : s.host.mode = .always l)
    (h : Acts permitted s t) : ∃ l', t.host.mode = .always l' ∧ Serves s t l l' := by
  cases h with
  | pollListener _ polled =>
      simp only [Host.pollListener, hmode, Option.map_eq_some_iff, Prod.mk.injEq] at polled
      obtain ⟨⟨l', after⟩, hpolled, rfl, rfl⟩ := polled
      exact ⟨l', rfl, .listens hpolled rfl⟩
  | close running =>
      exact ⟨l.stop (s.env, s.doings), by simp [close, Host.close, hmode], .shuts rfl rfl⟩
  | leave _ stage stepped =>
      simp only [Host.closeStep, hmode, Option.map_eq_some_iff, Progress.ended.injEq,
        Prod.mk.injEq] at stepped
      obtain ⟨⟨l', after, result'⟩, hstopped, ⟨⟨-, rfl⟩, rfl⟩, -⟩ := stepped
      exact ⟨l', rfl, .leaves (by simp [stage]) hstopped rfl⟩
  | pollLease _ polled => simp [Host.pollLease, hmode] at polled
  | settle settled => simp [Host.settle, hmode] at settled
  | supervise supervised => simp [Host.supervise, hmode] at supervised
  | @proceed _ closing _ _ _ _ _ stage stepped =>
      cases closing <;> simp [Host.closeStep, hmode] at stepped

/-- A step of a host in singleton mode leaves its parts alone or is the work of
one of them. -/
theorem works_of_step {c : Coordinator} {v : Supervisor} (hmode : s.host.mode = .singleton c v)
    (h : Step s t) :
    (∃ env, now s.env ≤ now env ∧ t = { s with env }) ∨
      ∃ c' v', t.host.mode = .singleton c' v' ∧ Works (fun _ => True) s t c v c' v' := by
  cases h with
  | elsewhere later => exact .inl ⟨_, later, rfl⟩
  | acts acts => exact .inr (works_of_acts hmode acts)

/-- The next transition of the host at this instant, if there is one. -/
def advance (a : HostAccess Env) (s : HostRun Env) : HostRun Env :=
  match s.host.advance a.logged (s.env, s.doings) with
  | some (host, env, doings) => { s with env, doings, host }
  | none => s

def after (a : HostAccess Env) (s : HostRun Env) (steps : Nat) : HostRun Env :=
  steps.repeat (advance a) s

/-- The next transition of the shutdown, if it does not end with that. -/
def proceed (a : HostAccess Env) (s : HostRun Env) : HostRun Env :=
  match s.stage with
  | .closing closing =>
      match s.host.closeStep a.logged (s.env, s.doings) closing with
      | some (.continues ((env, doings), host) closing') => ⟨env, doings, host, .closing closing'⟩
      | _ => s
  | _ => s

theorem acts_advance (permitted : HostAccess Env → Prop) {a : HostAccess Env}
    (permits : permitted a) (s : HostRun Env) :
    Relation.ReflTransGen (Acts permitted) s (s.advance a) := by
  unfold advance
  split
  · next host env doings hadvance =>
      apply Relation.ReflTransGen.single
      rcases Host.advance_eq_some hadvance with
        ⟨hsettled, henv⟩ | hpolled | hsupervised | hpolled
      · obtain ⟨rfl, rfl⟩ := Prod.mk.inj henv
        exact .settle hsettled
      · exact .pollLease permits hpolled
      · exact .supervise hsupervised
      · exact .pollListener permits hpolled
  · exact .refl

theorem acts_after (permitted : HostAccess Env → Prop) {a : HostAccess Env}
    (permits : permitted a) (s : HostRun Env) (steps : Nat) :
    Relation.ReflTransGen (Acts permitted) s (s.after a steps) := by
  induction steps with
  | zero => exact .refl
  | succ steps ih => exact ih.trans (acts_advance permitted permits _)

theorem acts_proceed (permitted : HostAccess Env → Prop) {a : HostAccess Env}
    (permits : permitted a) (s : HostRun Env) :
    Relation.ReflTransGen (Acts permitted) s (s.proceed a) := by
  unfold proceed
  split
  · next hstage =>
      split
      · next hstepped => exact .single (.proceed permits hstage hstepped)
      · exact .refl
  · exact .refl

theorem Reachable.drive {config : HostConfig} {lease queue : String} {poison : Option String}
    (h : Reachable config lease queue poison s)
    (hacts : Relation.ReflTransGen (Acts permitted) s t) :
    Reachable config lease queue poison t := by
  induction hacts with
  | refl => exact h
  | tail _ next ih => exact ih.step next.step

theorem Reachable.after {config : HostConfig} {lease queue : String} {poison : Option String}
    (h : Reachable config lease queue poison s) (a : HostAccess Env) (steps : Nat) :
    Reachable config lease queue poison (s.after a steps) :=
  h.drive (acts_after (fun _ => True) trivial s steps)

def candidate : HostConfig := .standard (.timeOrdered 0)

def founded (env : Env) : HostRun Env where
  env := report (reportAll env
    [.coordinatorStarted "lock" candidate.lease.holder, .timerStarted "lease:lock"])
    (.hostStarted candidate.queueName candidate.leaseName true)
  doings := []
  host := ⟨.singleton
    { config := candidate.lease
      timer := .started "lease:lock" (.create "lock" candidate.lease) true
      status := {}
      lease := "lock"
      owned := true
      orphan := false }
    (.create ⟨"jobs", none, candidate.poller⟩)⟩
  stage := .running

theorem reachable_founded (env : Env) : Reachable candidate "lock" "jobs" none (founded env) := by
  have hstarted : Host.start candidate "lock" "jobs" none (env, ([] : List Doing)) =
      (.ok (founded env).host, (founded env).env, (founded env).doings) := rfl
  exact .start hstarted

/-- A lease that is free, and a queue without messages. -/
def premises : World :=
  { World.initial with
    queues := ⟨[("jobs", .create "jobs")]⟩
    container := ⟨⟨[("lock", .free)]⟩⟩ }

def attendants : HostAccess World := World.hostAccess "host" "lock" "jobs" none

end HostRun

end LeasedListener
