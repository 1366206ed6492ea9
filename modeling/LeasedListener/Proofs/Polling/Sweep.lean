import LeasedListener.Proofs.Polling.Script
import LeasedListener.Proofs.Scenario.Effects

/-!
# Sweeps

A sweep is one tick of a poller while the clock stands still.  The user
function decides at once how it does on a message, and the poller keeps an
account of its doings beside the world.  The transitions of the tick and those
of its renewal timer come in any order.
-/

namespace LeasedListener

open Surroundings

def QueueAccess.traced (role : QueueRole) (a : QueueAccess World) :
    QueueAccess (World × List Doing) where
  issue env call :=
    (((a.issue env.1 call).1, .begun role call (a.issue env.1 call).2 :: env.2),
      (a.issue env.1 call).2)
  perform env call transit :=
    (((a.perform env.1 call transit).1,
      .answered role call transit (a.perform env.1 call transit).2 :: env.2),
      (a.perform env.1 call transit).2)

def Execution.immediate (now : Nat) (outcome : Except String Bool) : Execution :=
  ⟨0, some now, outcome, none⟩

/-- A poller whose poison queue is not the queue that it drains. -/
structure Sweep where
  poller : Poller
  name : String
  tally : String
  /-- How the user function does on a message, given what was done before: it
  succeeds or not, or it breaks down. -/
  judge : List Doing → Delivery → Except String Bool
  valid : poller.config.validate = .ok ()
  apart : poller.poison ≠ some poller.queue

namespace Sweep

def access (s : Sweep) : PollerAccess (World × List Doing) :=
  let base := World.pollerAccess s.name s.poller.queue s.poller.poison s.tally
  { queue := base.queue.traced .primary
    poison := base.poison.traced .poison
    mark := fun env mark => (base.mark env.1 mark, .marked mark :: env.2)
    execute := fun env m =>
      let execution := Execution.immediate (now env) (s.judge env.2 m)
      ((env.1, .started m execution :: env.2), execution)
    finish := fun env execution result => (env.1, .finished execution result :: env.2) }

def gate (s : Sweep) : QueueRole → String
  | .primary => s.name ++ ".queue"
  | .poison => s.name ++ ".poison"

def target (s : Sweep) : QueueRole → String
  | .primary => s.poller.queue
  | .poison => s.poller.poison.getD ""

theorem side_access (s : Sweep) (role : QueueRole) :
    s.access.side role = (World.queueAccess (s.gate role) (s.target role)).traced role := by
  cases role <;> rfl

theorem target_poison_ne {s : Sweep} (h : s.poller.poison.isSome = true) :
    s.target .primary ≠ s.target .poison := by
  obtain ⟨poison, hpoison⟩ := Option.isSome_iff_exists.mp h
  have hapart := s.apart
  rw [hpoison] at hapart
  simp only [target, hpoison, Option.getD_some]
  exact fun hsame => hapart (congrArg some hsame.symm)

/-- What the gateways of the poller have in store is of a kind. -/
def Scripted (s : Sweep) (kind : Duration → Option Fault → Prop) (w : World) : Prop :=
  ∀ role, ∀ entry ∈ (w.gateway (s.gate role)).script, kind entry.delay entry.fault

def tallyOf (s : Sweep) (w : World) : Tally := (w.tallies.get? s.tally).getD {}

end Sweep

def Doing.isAnswer : Doing → Bool
  | .answered .. => true
  | _ => false

def Doing.mark? : Doing → Option Mark
  | .marked mark => some mark
  | _ => none

theorem Gateway.takeEntry_spec {kind : Duration → Option Fault → Prop} (call : CallKind)
    {script : List ScriptEntry} (hkind : ∀ entry ∈ script, kind entry.delay entry.fault) :
    (∀ entry ∈ (takeEntry call script).2, kind entry.delay entry.fault) ∧
      ∀ entry, (takeEntry call script).1 = some entry → kind entry.delay entry.fault := by
  induction script with
  | nil => simp [takeEntry]
  | cons head rest ih =>
      obtain ⟨hhead, hrest⟩ := List.forall_mem_cons.mp hkind
      unfold takeEntry
      split
      · refine ⟨?_, fun entry hentry => Option.some.inj hentry ▸ hhead⟩
        intro entry hentry
        split at hentry
        · exact hrest entry hentry
        · rcases List.mem_cons.mp hentry with rfl | hlater
          · exact hhead
          · exact hrest entry hlater
      · obtain ⟨hscript, htaken⟩ := ih hrest
        exact ⟨List.forall_mem_cons.mpr ⟨hhead, hscript⟩, htaken⟩

namespace World

theorem gateway_set_self (w : World) (name : String) (g : Gateway) :
    ({ w with gateways := w.gateways.set name g } : World).gateway name = g := by
  simp [gateway]

theorem gateway_set_of_ne (w : World) {name other : String} (h : other ≠ name) (g : Gateway) :
    ({ w with gateways := w.gateways.set name g } : World).gateway other = w.gateway other := by
  simp [gateway, Table.get?_set_of_ne _ h]

theorem script_record (w : World) (name other : String) (call : CallKind)
    (arguments : List CallArgument) (failure : Option ErrorClass) :
    ((w.record name call arguments failure).gateway other).script = (w.gateway other).script := by
  by_cases hother : other = name
  · subst hother
    have hgateway : (w.record other call arguments failure).gateway other =
        (w.gateway other).record ⟨w.now, call, arguments, failure⟩ := gateway_set_self w other _
    rw [hgateway]
    rfl
  · exact congrArg Gateway.script (gateway_set_of_ne w hother _)

theorem script_issue {kind : Duration → Option Fault → Prop} (w : World) (name other : String)
    (call : CallKind) (hkind : ∀ entry ∈ (w.gateway other).script, kind entry.delay entry.fault) :
    ∀ entry ∈ ((w.issue name call).1.gateway other).script, kind entry.delay entry.fault := by
  by_cases hother : other = name
  · subst hother
    have hgateway : (w.issue other call).1.gateway other =
        ((w.gateway other).issue w.now call).1 := gateway_set_self w other _
    rw [hgateway, Gateway.issue]
    have hspec := (Gateway.takeEntry_spec call hkind).1
    split
    · exact hkind
    · next entry script htaken =>
        rw [htaken] at hspec
        exact hspec
  · have hgateway : (w.issue name call).1.gateway other = w.gateway other :=
      gateway_set_of_ne w hother _
    rw [hgateway]
    exact hkind

theorem transit_issue {kind : Duration → Option Fault → Prop} (w : World) (name : String)
    (call : CallKind) (hkind : ∀ entry ∈ (w.gateway name).script, kind entry.delay entry.fault) :
    (w.issue name call).2 = .direct w.now ∨
      ∃ delay fault, kind delay fault ∧ (w.issue name call).2 =
        ⟨if delay.isZero then some w.now else Instant.waitEnd w.now delay, fault⟩ := by
  have hspec := (Gateway.takeEntry_spec call hkind).2
  have htransit : (w.issue name call).2 = ((w.gateway name).issue w.now call).2 := rfl
  rw [htransit, Gateway.issue]
  split
  · exact .inl rfl
  · next entry script htaken =>
      rw [htaken] at hspec
      exact .inr ⟨entry.delay, entry.fault, hspec entry rfl, rfl⟩

end World

namespace Sweep

variable {s : Sweep} {env env' : World × List Doing} {doings : List Doing} {role : QueueRole}
  {call : QueueCall} {transit : Transit}

theorem history_of_does (h : Does s.access env doings env') : env'.2 = doings ++ env.2 := by
  induction h with
  | rest => rfl
  | report event _ ih => exact ih
  | mark mark _ ih => exact congrArg (Doing.marked mark :: ·) ih
  | begin role call _ ih =>
      rw [side_access]
      exact congrArg (_ :: ·) ih
  | hear role call transit _ ih =>
      rw [side_access]
      exact congrArg (_ :: ·) ih
  | start m _ ih => exact congrArg (_ :: ·) ih
  | finish execution result _ ih => exact congrArg (_ :: ·) ih

theorem clock_of_does (h : Does s.access env doings env') :
    env'.1.now = env.1.now ∧ wallClock env'.1 = wallClock env.1 := by
  induction h with
  | rest => exact ⟨rfl, rfl⟩
  | report _ _ ih | mark _ _ ih | start _ _ ih | finish _ _ _ ih => exact ih
  | begin role _ _ ih | hear role _ _ _ ih => cases role <;> exact ih

theorem scripted_of_does {kind : Duration → Option Fault → Prop} (hscripted : s.Scripted kind env.1)
    (h : Does s.access env doings env') : s.Scripted kind env'.1 := by
  induction h with
  | rest => exact hscripted
  | report _ _ ih | mark _ _ ih | start _ _ ih | finish _ _ _ ih => exact ih
  | @begin doings mid role call _ ih =>
      intro other
      rw [side_access]
      exact World.script_issue mid.1 (s.gate role) (s.gate other) call.kind (ih other)
  | @hear doings mid role call transit _ ih =>
      intro other
      rw [side_access]
      have hscript := World.script_record (mid.1.callQueue (s.target role) call transit).1
        (s.gate role) (s.gate other) call.kind call.arguments
        (failureOf (mid.1.callQueue (s.target role) call transit).2)
      exact hscript ▸ ih other

theorem sent_of_does {kind : Duration → Option Fault → Prop} (hscripted : s.Scripted kind env.1)
    (h : Does s.access env doings env') (hbegun : .begun role call transit ∈ doings) :
    transit = .direct env.1.now ∨
      ∃ delay fault, kind delay fault ∧ transit =
        ⟨if delay.isZero then some env.1.now else Instant.waitEnd env.1.now delay, fault⟩ := by
  induction h with
  | rest => simp at hbegun
  | report _ _ ih => exact ih hbegun
  | mark _ _ ih | hear _ _ _ _ ih | start _ _ ih | finish _ _ _ ih =>
      simp only [List.mem_cons, reduceCtorEq, false_or] at hbegun
      exact ih hbegun
  | @begin doings mid _ _ hbefore ih =>
      rcases List.mem_cons.mp hbegun with hself | hearlier
      · rw [side_access] at hself
        cases hself
        rw [← (clock_of_does hbefore).1]
        exact World.transit_issue mid.1 (s.gate role) call.kind
          (scripted_of_does hscripted hbefore role)
      · exact ih hearlier

theorem judged_of_does {m : Delivery} {execution : Execution}
    (h : Does s.access env doings env') (hstarted : .started m execution ∈ doings) :
    ∃ history, execution = .immediate env.1.now (s.judge history m) := by
  induction h with
  | rest => simp at hstarted
  | report _ _ ih => exact ih hstarted
  | mark _ _ ih | hear _ _ _ _ ih | begin _ _ _ ih | finish _ _ _ ih =>
      simp only [List.mem_cons, reduceCtorEq, false_or] at hstarted
      exact ih hstarted
  | @start doings mid other hbefore ih =>
      rcases List.mem_cons.mp hstarted with hself | hearlier
      · cases hself
        rw [← (clock_of_does hbefore).1]
        exact ⟨mid.2, rfl⟩
      · exact ih hearlier

/-- A run on which the user function has decided at an instant. -/
def Judged (s : Sweep) (instant : Nat) (execution : Execution) : Prop :=
  ∃ history m, execution = .immediate instant (s.judge history m)

theorem Judged.result {instant later : Nat} {execution : Execution} {cancelled : Bool}
    {result : Except String Bool} (h : s.Judged instant execution)
    (hended : execution.result? later cancelled = some result) :
    execution.outcome = result ∧ ∃ history m, s.judge history m = result := by
  obtain ⟨history, m, rfl⟩ := h
  have houtcome : s.judge history m = result := by
    unfold Execution.result? at hended
    split at hended
    · exact Option.some.inj hended
    · split at hended <;> cases hended
  exact ⟨houtcome, history, m, houtcome⟩

theorem tallyOf_of_does (h : Does s.access env doings env') :
    s.tallyOf env'.1 =
      (doings.filterMap Doing.mark?).foldr (fun mark tally => tally.add mark)
        (s.tallyOf env.1) := by
  induction h with
  | rest => rfl
  | report _ _ ih | start _ _ ih | finish _ _ _ ih => exact ih
  | begin role _ _ ih | hear role _ _ _ ih => cases role <;> exact ih
  | @mark doings mid mark _ ih =>
      have hmark : s.tallyOf (mid.1.mark s.tally mark) = (s.tallyOf mid.1).add mark := by
        simp [tallyOf, World.mark]
      exact hmark.trans (congrArg (Tally.add · mark) ih)

theorem store_of_does (h : Does s.access env doings env')
    (hsilent : ∀ doing ∈ doings, doing.isAnswer = false) :
    env'.1.serials = env.1.serials ∧ env'.1.queues = env.1.queues := by
  induction h with
  | rest => exact ⟨rfl, rfl⟩
  | report _ _ ih => exact ih hsilent
  | mark _ _ ih | start _ _ ih | finish _ _ _ ih =>
      exact ih fun doing hdoing => hsilent doing (List.mem_cons_of_mem _ hdoing)
  | begin role _ _ ih =>
      cases role <;> exact ih fun doing hdoing => hsilent doing (List.mem_cons_of_mem _ hdoing)
  | hear role call transit _ _ =>
      have hanswer := hsilent _ (List.mem_cons_self ..)
      simp [Doing.isAnswer] at hanswer

theorem queue_of_does (h : Does s.access env doings env')
    (hsilent : ∀ doing ∈ doings, doing.isAnswer = false) (name : String) :
    env'.1.queue name = env.1.queue name := by
  unfold World.queue
  rw [(store_of_does h hsilent).2]

/-- What the answer to a call tells, and what the call does to the queues. -/
structure Answers (s : Sweep) (role : QueueRole) (call : QueueCall) (transit : Transit)
    (reply : Except StorageError call.Reply) (w w' : World) : Prop where
  now : w'.now = w.now
  reply : reply = (transit.carry (call.run w.now (wallClock w))
    (w.serials, w.queue (s.target role))).2
  serials : w'.serials = (transit.carry (call.run w.now (wallClock w))
    (w.serials, w.queue (s.target role))).1.1
  queue : w'.queue (s.target role) = (transit.carry (call.run w.now (wallClock w))
    (w.serials, w.queue (s.target role))).1.2
  others : ∀ name, name ≠ s.target role → w'.queue name = w.queue name

/-- A call that is answered as it was meant to has taken place. -/
theorem Answers.run_of_ok {answer : call.Reply} {w w' : World}
    (h : s.Answers role call transit (.ok answer) w w') :
    call.run w.now (wallClock w) (w.serials, w.queue (s.target role)) =
      ((w'.serials, w'.queue (s.target role)), .ok answer) := by
  have hcarry := Transit.carry_of_ok h.reply.symm
  have hreply := h.reply
  have hserials := h.serials
  have hqueue := h.queue
  rw [hcarry] at hreply hserials hqueue
  exact Prod.ext (Prod.ext hserials.symm hqueue.symm) hreply.symm

theorem answers_perform (s : Sweep) (role : QueueRole) (call : QueueCall) (transit : Transit)
    (env : World × List Doing) :
    s.Answers role call transit ((s.access.side role).perform env call transit).2 env.1
      ((s.access.side role).perform env call transit).1.1 := by
  rw [side_access]
  refine ⟨rfl, rfl, rfl, ?_, ?_⟩
  · exact World.queue_callQueue_self env.1 (s.target role) call transit
  · intro name hname
    exact World.queue_callQueue_of_ne hname env.1 call transit

theorem answers_of_does {later : List Doing} {reply : Except StorageError call.Reply}
    (h : Does s.access env (later ++ [.answered role call transit reply]) env')
    (hsilent : ∀ doing ∈ later, doing.isAnswer = false) :
    s.Answers role call transit reply env.1 env'.1 := by
  obtain ⟨mid, hbefore, rfl, hafter⟩ := h.heard
  have hanswers := answers_perform s role call transit mid
  obtain ⟨hnow, hclock⟩ := clock_of_does hbefore
  obtain ⟨hserials, hqueues⟩ := store_of_does hbefore (by simp)
  obtain ⟨hserials', hqueues'⟩ := store_of_does hafter hsilent
  have hqueue : ∀ name, mid.1.queue name = env.1.queue name := queue_of_does hbefore (by simp)
  have hqueue' := queue_of_does hafter hsilent
  constructor
  case now => exact (clock_of_does h).1
  case reply => rw [hanswers.reply, hnow, hclock, hserials, hqueue]
  case serials => rw [hserials', hanswers.serials, hnow, hclock, hserials, hqueue]
  case queue => rw [hqueue', hanswers.queue, hnow, hclock, hserials, hqueue]
  case others =>
    intro name hname
    rw [hqueue', hanswers.others name hname, hqueue]

/-- A transition of the tick itself or of its renewal timer. -/
inductive Step (s : Sweep) (cancelled : Bool) :
    TickProgress (World × List Doing) → TickProgress (World × List Doing) → Prop
  | own {env : World × List Doing} {phase : TickPhase}
      {progress : TickProgress (World × List Doing)}
      (advances : s.poller.advance s.access env cancelled phase = some progress) :
      s.Step cancelled (.continues env phase) progress
  | tend {env env' : World × List Doing} {phase phase' : TickPhase}
      (tends : s.poller.advanceRenewal s.access env phase = some (env', phase')) :
      s.Step cancelled (.continues env phase) (.continues env' phase')

/-- What a number of transitions lead to.  Before each of them the tick may be
told that it is cancelled. -/
inductive Run (s : Sweep) (signal : Nat → Bool) (w : World) :
    Nat → TickProgress (World × List Doing) → Prop
  | probe : Run s signal w 0 (Poller.probe s.access (w, []))
  | step {n : Nat} {progress progress' : TickProgress (World × List Doing)}
      (before : Run s signal w n progress) (step : s.Step (signal n) progress progress') :
      Run s signal w (n + 1) progress'

end Sweep

end LeasedListener
