import LeasedListener.Proofs.Host.Fleet
import LeasedListener.Proofs.Host.Singleton
import LeasedListener.Proofs.Host.Supervision
import LeasedListener.Proofs.Polling.Logic
import Mathlib.Logic.Relation

/-!
# Hosts with their parts in step

A poller runs only on a host whose coordinator is at work and holds the lease,
and a shutdown closes the coordinator only after the supervisor has ended.
While that is so, the coordinators of a fleet contend for the lease as they
would without their hosts: supervisors and pollers do nothing to the lease
object, to the clock and to the answered calls.
-/

namespace LeasedListener

open Surroundings

/-- The clock, the lease objects and the answered calls are as they were. -/
structure Undisturbed (env env' : World × List CallRecord) : Prop where
  now : env'.1.now = env.1.now
  container : env'.1.container = env.1.container
  calls : env'.2 = env.2

namespace Undisturbed

variable {env env' env'' : World × List CallRecord}

theorem refl (env : World × List CallRecord) : Undisturbed env env := ⟨rfl, rfl, rfl⟩

theorem trans (h : Undisturbed env env') (h' : Undisturbed env' env'') : Undisturbed env env'' :=
  ⟨h'.now.trans h.now, h'.container.trans h.container, h'.calls.trans h.calls⟩

theorem reportAll (env : World × List CallRecord) (events : List Event) :
    Undisturbed env (reportAll env events) := by
  induction events generalizing env with
  | nil => exact refl env
  | cons event events ih =>
      have hreported : Undisturbed env (report env event) := ⟨rfl, rfl, rfl⟩
      exact hreported.trans (ih (report env event))

def logic : TickLogic (World × List CallRecord) where
  follows := Undisturbed
  holds _ _ := True

theorem execute (env : World × List CallRecord) (name : String) (m : Delivery) :
    Undisturbed env ((env.1.execute name m).1, env.2) := by
  obtain ⟨log, executors, hexecute⟩ := env.1.execute_fst name m
  rw [hexecute]
  exact ⟨rfl, rfl, rfl⟩

theorem governs (p : Poller) (name queue tally : String) (poison : Option String) :
    logic.Governs p (World.pollerAccess name queue poison tally).beside where
  refl := refl
  trans := trans
  stable _ _ := trivial
  sane _ := trivial
  logs _ _ := ⟨rfl, rfl, rfl⟩
  mark _ _ := ⟨rfl, rfl, rfl⟩
  issue _ _ := ⟨rfl, rfl, rfl⟩
  issuePoison _ _ := ⟨rfl, rfl, rfl⟩
  call _ _ _ _ := ⟨rfl, rfl, rfl⟩
  callPoison _ _ _ := ⟨rfl, rfl, rfl⟩
  dequeue _ _ := trivial
  execute _ := ⟨execute _ name _, trivial⟩
  running _ _ := trivial
  ended _ _ := trivial
  finish _ _ := ⟨⟨rfl, rfl, rfl⟩, fun _ _ => trivial⟩
  success _ := trivial
  failure _ _ _ := trivial
  copy _ _ := trivial
  delete _ _ := ⟨rfl, rfl, rfl⟩

end Undisturbed

/-- The parts of a host in step: the poller runs only while the lease is held,
the coordinator is at work until the shutdown closes it, and by then the
supervisor has ended. -/
structure Member.Attends (m : Member) (c : Coordinator) (s : Supervisor) : Prop where
  mode : m.host.mode = .singleton c s
  orderly : s.IsOrderly
  held : s.listener.timer?.isSome → c.hasLease
  engaged : m.stage.contest = .running → c.timer.isEngaged
  ended : m.stage.contest ≠ .running → s.result?.isSome

namespace Member

variable {m : Member} {c c' : Coordinator} {s s' : Supervisor} {h : Host} {stage : MemberStage}
  {calls : List CallRecord}

theorem contestant?_eq_some (hmode : m.host.mode = .singleton c s) :
    m.contestant? = some ⟨c, m.stage.contest, m.calls⟩ := by
  simp [contestant?, hmode]

theorem Attends.running (hm : m.Attends c s) (hgoing : s.listener.timer?.isSome) :
    m.stage.contest = .running := by
  by_cases hstage : m.stage.contest = .running
  · exact hstage
  · rw [hm.orderly.ended (hm.ended hstage)] at hgoing
    simp at hgoing

/-- Once the supervisor has ended, the coordinator may do as it pleases. -/
theorem attends_of_ended (hmode : h.mode = .singleton c s) (horderly : s.IsOrderly)
    (hended : s.result?.isSome) (hstage : stage.contest ≠ .running) :
    (⟨h, stage, calls⟩ : Member).Attends c s where
  mode := hmode
  orderly := horderly
  held := by simp [horderly.ended hended]
  engaged hrunning := absurd hrunning hstage
  ended _ := hended

theorem attends_of_start {lease : String} {config : LeaseConfig} {poller : Poller}
    (hcreated : Coordinator.create lease config = .ok c)
    (hmode : h.mode = .singleton c.start.1 (.create poller)) :
    (⟨h, .running, calls⟩ : Member).Attends c.start.1 (.create poller) where
  mode := hmode
  orderly := Supervisor.isOrderly_create poller
  held := by simp [Supervisor.create, Listener.create, Listener.timer?]
  engaged _ := (Coordinator.start_of_create hcreated).2
  ended hstage := absurd rfl hstage

theorem Attends.close (hm : m.Attends c s) (hrunning : m.stage.contest = .running) (w : World) :
    (⟨(m.host.close w).1, .closing (m.host.close w).2, m.calls⟩ : Member).Attends c s.cancel := by
  obtain ⟨hmode, hclosing⟩ := Host.close_of_singleton hm.mode w
  have hjoining : (MemberStage.closing (m.host.close w).2).contest = .running := by
    rw [hclosing]
    rfl
  constructor
  case mode => exact hmode
  case orderly => exact hm.orderly.cancel
  case held => exact hm.held
  case engaged => exact fun _ => hm.engaged hrunning
  case ended => exact fun hstage => absurd hjoining hstage

theorem Attends.coordinated (hm : m.Attends c s) (hmode : h.mode = .singleton c' s)
    (hengaged : c'.timer.isEngaged = c.timer.isEngaged)
    (hretains : m.stage.contest = .running → c.hasLease → c'.hasLease) :
    (⟨h, m.stage, calls⟩ : Member).Attends c' s where
  mode := hmode
  orderly := hm.orderly
  held hgoing := hretains (hm.running hgoing) (hm.held hgoing)
  engaged hrunning := hengaged.trans (hm.engaged hrunning)
  ended := hm.ended

theorem Attends.supervised {env env' : World × List CallRecord} (hm : m.Attends c s)
    (hmode : h.mode = .singleton c s') (hturn : Supervisor.Turn c.status env s s' env') :
    (⟨h, m.stage, calls⟩ : Member).Attends c s' where
  mode := hmode
  orderly := hturn.orderly
  held := by
    intro hgoing
    rcases hturn.going hgoing with hbefore | hheld
    · exact hm.held hbefore
    · exact hheld
  engaged := hm.engaged
  ended := by
    intro hstage
    have hended : s.result?.isSome := hm.ended hstage
    simp [hturn.unended] at hended

theorem Attends.listened {a : PollerAccess (World × List CallRecord)}
    {env env' : World × List CallRecord} (hm : m.Attends c s) (hmode : h.mode = .singleton c s')
    (hpoll : s.pollListener a env = some (s', env')) :
    (⟨h, m.stage, calls⟩ : Member).Attends c s' := by
  obtain ⟨horderly, hresult, hgoing, -⟩ := hm.orderly.pollListener hpoll
  constructor
  case mode => exact hmode
  case orderly => exact horderly
  case held => exact fun _ => hm.held hgoing
  case engaged => exact hm.engaged
  case ended =>
      rw [hresult]
      exact hm.ended

end Member

def Cluster.terms {ι : Type} (C : Cluster ι) (i : ι) : LeaseConfig := (C.configs i).lease

def Cluster.Contends {ι : Type} [DecidableEq ι] (C : Cluster ι) : Contest ι → Contest ι → Prop :=
  Relation.ReflTransGen (Contest.Step C.lease C.terms Transit.IsFaultless)

namespace Fleet

variable {ι : Type} {C : Cluster ι} {a b : Fleet ι} {i : ι} {m m' : Member} {s : Contestant}

theorem seats_contest (hpresent : a.members i = some m) (hm : m.contestant? = some s) :
    a.contest.seats i = some s := by
  simp [contest, hpresent, hm]

variable [DecidableEq ι]

theorem contest_turn (hm : m.contestant? = some s) (w : World) :
    (a.turn i m w).contest = ({ a.contest with world := w } : Contest ι).seat i s := by
  simp only [contest, turn, Contest.seat, Contest.mk.injEq, true_and]
  funext j
  by_cases hself : j = i
  · subst hself
    simp [hm]
  · simp [hself]

theorem contest_turn_of_same (hpresent : a.members i = some m)
    (hsame : m'.contestant? = m.contestant?) (w : World) :
    (a.turn i m' w).contest = { a.contest with world := w } := by
  simp only [contest, turn, Contest.mk.injEq, true_and]
  funext j
  by_cases hself : j = i
  · subst hself
    simp [hsame, hpresent]
  · simp [hself]

theorem contends_of_undisturbed {c : Coordinator} {attendant attendant' : Supervisor} {h : Host}
    {w : World} {calls : List CallRecord} (hpresent : a.members i = some m)
    (hmode : m.host.mode = .singleton c attendant) (hmode' : h.mode = .singleton c attendant')
    (hundisturbed : Undisturbed (a.world, m.calls) (w, calls)) :
    C.Contends a.contest (a.turn i ⟨h, m.stage, calls⟩ w).contest := by
  have hcalls : calls = m.calls := hundisturbed.calls
  have hsame : (⟨h, m.stage, calls⟩ : Member).contestant? = m.contestant? := by
    rw [Member.contestant?_eq_some hmode, Member.contestant?_eq_some hmode', hcalls]
  rw [contest_turn_of_same hpresent hsame]
  exact .single (.elsewhere (Nat.le_of_eq hundisturbed.now.symm)
    (congrArg (LeaseContainer.get · C.lease) hundisturbed.container))

def Attentive (a : Fleet ι) : Prop :=
  ∀ i m, a.members i = some m → ∃ c s, m.Attends c s

theorem contends_of_start {h : Host} {w : World} {calls : List CallRecord}
    (habsent : a.members i = none)
    (hstarted : Host.start (C.configs i) C.lease C.queue (C.poisons i) (a.world, []) =
      (.ok h, w, calls)) :
    C.Contends a.contest (a.turn i ⟨h, .running, calls⟩ w).contest := by
  obtain ⟨c, poller, events, hcreated, hmode, hreports⟩ := Host.of_start (C.singleton i) hstarted
  have hundisturbed : Undisturbed (a.world, []) (w, calls) := by
    rw [hreports]
    exact Undisturbed.reportAll _ events
  have hcalls : calls = [] := hundisturbed.calls
  subst hcalls
  have hvacant : a.contest.seats i = none := by simp [contest, habsent]
  have htarget : (a.turn i ⟨h, .running, []⟩ w).contest =
      { (a.contest.seat i ⟨c, .running, []⟩).seat i ⟨c.start.1, .running, []⟩ with
        world := w } := by
    rw [contest_turn (Member.contestant?_eq_some hmode)]
    simp [Contest.seat, MemberStage.contest]
  rw [htarget]
  refine .head (.join hvacant hcreated) (.head (.start (Contest.seats_seat_self ..) rfl) ?_)
  exact .single (.elsewhere (Nat.le_of_eq hundisturbed.now.symm)
    (congrArg (LeaseContainer.get · C.lease) hundisturbed.container))

theorem contends_of_step (ha : a.Attentive) (hstep : Step C a b) :
    C.Contends a.contest b.contest := by
  cases hstep with
  | elsewhere later kept => exact .single (.elsewhere later kept)
  | ensure admitted => exact .single (.ensure admitted)
  | start absent started => exact contends_of_start absent started
  | @pollLease i m transit h w calls present admitted polled =>
      obtain ⟨c, s, hm⟩ := ha i m present
      obtain ⟨c', hpolled, hmode⟩ := Host.of_pollLease hm.mode polled
      rw [contest_turn (Member.contestant?_eq_some hmode)]
      exact .single
        (.poll (seats_contest present (Member.contestant?_eq_some hm.mode)) admitted hpolled)
  | @settle i m h present settled =>
      obtain ⟨c, s, hm⟩ := ha i m present
      obtain ⟨c', hsettled, hmode⟩ := Host.of_settle hm.mode settled
      rw [contest_turn (Member.contestant?_eq_some hmode)]
      exact .single
        (.settle (seats_contest present (Member.contestant?_eq_some hm.mode)) hsettled)
  | @supervise i m h w calls present supervised =>
      obtain ⟨c, s, hm⟩ := ha i m present
      obtain ⟨s', hadvance, hmode⟩ := Host.of_supervise hm.mode supervised
      obtain ⟨-, -, -, events, hreports⟩ := Supervisor.turn_of_advance hm.orderly hadvance
      have hundisturbed : Undisturbed (a.world, m.calls) (w, calls) := by
        rw [hreports]
        exact Undisturbed.reportAll _ events
      exact contends_of_undisturbed present hm.mode hmode hundisturbed
  | @pollListener i m transit h w calls present polled =>
      obtain ⟨c, s, hm⟩ := ha i m present
      obtain ⟨s', hpolled, hmode⟩ := Host.of_pollListener hm.mode polled
      obtain ⟨-, -, -, timer, timer', htransition⟩ := hm.orderly.pollListener hpolled
      have hundisturbed : Undisturbed (a.world, m.calls) (w, calls) :=
        ((Undisturbed.governs _ _ _ _ _).poll trivial (fun _ _ => trivial) htransition).1
      exact contends_of_undisturbed present hm.mode hmode hundisturbed
  | @close i m present running =>
      obtain ⟨c, s, hm⟩ := ha i m present
      obtain ⟨hmode, hclosing⟩ := Host.close_of_singleton hm.mode a.world
      rw [contest_turn_of_same present]
      · exact .refl
      · rw [Member.contestant?_eq_some hm.mode, Member.contestant?_eq_some hmode, hclosing,
          running]
        rfl
  | @proceed i m transit closing closing' h w calls present stage admitted stepped =>
      obtain ⟨c, s, hm⟩ := ha i m present
      have hseated : a.contest.seats i = some ⟨c, m.stage.contest, m.calls⟩ :=
        seats_contest present (Member.contestant?_eq_some hm.mode)
      rcases Host.of_closeStep_continues hm.mode stepped with
        ⟨supervised, -, hjoining, hmode, henv, rfl⟩ |
        ⟨supervised, step, c', step', rfl, hclosed, hmode, rfl⟩
      · obtain ⟨rfl, rfl⟩ := Prod.mk.inj henv
        rw [contest_turn (Member.contestant?_eq_some hmode)]
        have hrunning : m.stage.contest = .running := by
          rw [stage]
          cases closing with
          | leaving result step => exact absurd rfl (hjoining result step)
          | joining | stopping => rfl
        exact .single (.close hseated hrunning)
      · rw [contest_turn (Member.contestant?_eq_some hmode)]
        exact .single (.release hseated (congrArg MemberStage.contest stage) admitted hclosed)
  | @leave i m transit closing h w calls result present stage admitted stepped =>
      obtain ⟨c, s, hm⟩ := ha i m present
      have hseated : a.contest.seats i = some ⟨c, m.stage.contest, m.calls⟩ :=
        seats_contest present (Member.contestant?_eq_some hm.mode)
      obtain ⟨supervised, step, ⟨w', calls'⟩, c', released, rfl, hclosed, hmode, henv⟩ :=
        Host.of_closeStep_ended hm.mode stepped
      obtain ⟨rfl, rfl⟩ := Prod.mk.inj henv
      rw [contest_turn (Member.contestant?_eq_some hmode)]
      refine .head (.leave hseated (congrArg MemberStage.contest stage) admitted hclosed) ?_
      exact .single (.elsewhere (Nat.le_refl _) rfl)

end Fleet

end LeasedListener
