import LeasedListener.Proofs.Host.Parts
import LeasedListener.Proofs.Host.Pause
import LeasedListener.Proofs.Host.Tasks
import LeasedListener.Proofs.Leadership.Backing
import Mathlib.Logic.Relation

/-!
# Giving up the lease

All calls that a host makes for its lease go on record.  A host releases the
lease at most once, in a shutdown, when its supervisor has ended and its
coordinator has stopped.  No poller of the host can run a step any more by
then, and nothing is done for a message ever after.
-/

namespace LeasedListener

open Surroundings

inductive LeaseDeed
  | begun (call : LeaseCall) (transit : Transit)
  | answered (call : LeaseCall) (transit : Transit) (reply : Except StorageError call.Reply)

/-- The identity under which a lease is being released. -/
def LeaseDeed.released? : LeaseDeed → Option Identifier
  | .begun (.release lease) _ => some lease
  | _ => none

def releases (deeds : List LeaseDeed) : List Identifier := deeds.filterMap LeaseDeed.released?

theorem releases_begun {call : LeaseCall} (h : ∀ lease, call ≠ .release lease) (transit : Transit)
    (deeds : List LeaseDeed) : releases (.begun call transit :: deeds) = releases deeds := by
  cases call with
  | release lease => exact absurd rfl (h lease)
  | acquire _ _ | renew _ | ensure => rfl

/-- The shutdown has seen the supervisor end. -/
def MemberStage.hasJoined : MemberStage → Bool
  | .closing (.leaving _ _) | .closed => true
  | _ => false

def MemberStage.mayHaveReleased : MemberStage → Bool
  | .closing (.leaving _ (.releasing _ _ _)) | .closed => true
  | _ => false

theorem MemberStage.mayHaveReleased_of_early {stage : MemberStage}
    (h : stage.hasJoined = false) : stage.mayHaveReleased = false := by
  unfold mayHaveReleased
  split <;> simp_all [hasJoined]

variable {Env : Type}

def LeaseAccess.attested (a : LeaseAccess Env) : LeaseAccess (Env × List LeaseDeed) where
  issue env call :=
    (((a.issue env.1 call).1, .begun call (a.issue env.1 call).2 :: env.2),
      (a.issue env.1 call).2)
  perform env call transit :=
    (((a.perform env.1 call transit).1,
      .answered call transit (a.perform env.1 call transit).2 :: env.2),
      (a.perform env.1 call transit).2)

def HostAccess.attested (a : HostAccess Env) : HostAccess (Env × List LeaseDeed) where
  lease := a.lease.attested
  poller := a.poller.beside

variable [Surroundings Env]

theorem deeds_reportAll (env : (Env × List LeaseDeed) × List Doing) (events : List Event) :
    (reportAll env events).1.2 = env.1.2 := by
  rw [← Prod.eta env, reportAll_pair]
  exact snd_reportAll env.1 events

namespace Coordinator

variable {access : LeaseAccess Env} {c c' : Coordinator}
  {env env' : (Env × List LeaseDeed) × List Doing}

/-- A coordinator at work releases nothing. -/
theorem releases_poll (h : c.poll access.attested.beside env = some (c', env')) :
    releases env'.1.2 = releases env.1.2 := by
  refine kept_of_poll
    (f := fun env : ((Env × List LeaseDeed) × List Doing) × Status => releases env.1.1.2)
    ?_ ?_ ?_ h
  · exact fun env event => rfl
  · exact fun env contender phase => releases_begun (contender.call_ne_release phase) _ _
  · exact fun env contender phase transit => rfl

/-- A release that is sent goes on record. -/
theorem releases_of_sent {events : List Event} {lease : Identifier} {transit : Transit}
    (h : access.attested.beside.issue (reportAll env events) (.release lease) = (env', transit)) :
    releases env'.1.2 = lease :: releases env.1.2 := by
  obtain ⟨rfl, -⟩ := Prod.mk.inj h
  have hsame : (reportAll env events).1.2 = env.1.2 := deeds_reportAll env events
  exact congrArg (lease :: releases ·) hsame

end Coordinator

theorem Does.attested {a : PollerAccess Env} {env env' : (Env × List LeaseDeed) × List Doing}
    {doings : List Doing} (h : Does (PollerAccess.logged a.beside) env doings env') :
    env'.1.2 = env.1.2 := by
  induction h with
  | rest => rfl
  | report _ _ ih | mark _ _ ih | start _ _ ih | finish _ _ _ ih => exact ih
  | begin role _ _ ih => cases role <;> exact ih
  | hear role _ _ _ ih => cases role <;> exact ih

namespace Supervisor

variable {v : Supervisor}

structure HasEnded (v : Supervisor) : Prop where
  orderly : v.IsOrderly
  ended : v.result?.isSome = true

theorem HasEnded.idle (h : HasEnded v) : v.listener.timer? = none := h.orderly.ended h.ended

theorem HasEnded.pollListener {a : PollerAccess Env} {env : Env} (h : HasEnded v) :
    v.pollListener a env = none := by
  cases hpoll : v.pollListener a env with
  | none => rfl
  | some after =>
      obtain ⟨-, -, hgoing, -⟩ := h.orderly.pollListener hpoll
      simp [h.idle] at hgoing

theorem HasEnded.advance {status : Status} {closed : Bool} {env : Env} (h : HasEnded v) :
    v.advance status closed env = none := by
  obtain ⟨result, hresult⟩ := Option.isSome_iff_exists.mp h.ended
  cases hstate : v.state with
  | finished => simp [Supervisor.advance, hstate]
  | spawned | stopping _ | parked => simp [Supervisor.result?, hstate] at hresult

end Supervisor

namespace HostRun

section

variable {permitted : HostAccess Env → Prop} {s t : HostRun Env} {c c' : Coordinator}
  {v v' : Supervisor}

/-- Nothing is done any more once the supervisor has ended. -/
theorem Works.hasEnded (h : Works permitted s t c v c' v') (hv : v.HasEnded) :
    v'.HasEnded ∧ t.doings = s.doings := by
  cases h with
  | contends permits polled supervisor stage =>
      exact ⟨supervisor ▸ hv, Coordinator.snd_poll polled⟩
  | settles settled env record supervisor stage => exact ⟨supervisor ▸ hv, record⟩
  | supervises advanced coordinator stage => simp [hv.advance] at advanced
  | listens permits polled coordinator stage => simp [hv.pollListener] at polled
  | shuts running env record coordinator supervisor stage =>
      exact ⟨supervisor ▸ ⟨hv.orderly.cancel, hv.ended⟩, record⟩
  | joins before ended first env record coordinator supervisor stage =>
      exact ⟨supervisor ▸ hv, record⟩
  | closes permits before stepped supervisor stage =>
      exact ⟨supervisor ▸ hv, Coordinator.snd_closeStep stepped⟩
  | leaves permits before stepped env record supervisor stage =>
      exact ⟨supervisor ▸ hv, record.trans (Coordinator.snd_closeStep stepped)⟩

theorem silent_of_ended (hmode : s.host.mode = .singleton c v) (hv : v.HasEnded)
    (h : Relation.ReflTransGen Step s t) : t.doings = s.doings ∧ t.host.listener.timer? = none := by
  have hstays : t.doings = s.doings ∧ ∃ c' v', t.host.mode = .singleton c' v' ∧ v'.HasEnded := by
    induction h with
    | refl => exact ⟨rfl, c, v, hmode, hv⟩
    | tail _ next ih =>
        obtain ⟨hrecord, c', v', hmode', hv'⟩ := ih
        rcases works_of_step hmode' next with ⟨env, -, rfl⟩ | ⟨c'', v'', hmode'', hworks⟩
        · exact ⟨hrecord, c', v', hmode', hv'⟩
        · obtain ⟨hv'', hrecord'⟩ := hworks.hasEnded hv'
          exact ⟨hrecord'.trans hrecord, c'', v'', hmode'', hv''⟩
  obtain ⟨hrecord, c', v', hmode', hv'⟩ := hstays
  have hidle : t.host.listener = v'.listener := by simp [Host.listener, hmode']
  exact ⟨hrecord, hidle ▸ hv'.idle⟩

end

def IsAttested (a : HostAccess (Env × List LeaseDeed)) : Prop :=
  ∃ b : HostAccess Env, a = b.attested

variable {s t : HostRun (Env × List LeaseDeed)} {c c' : Coordinator} {v v' : Supervisor}
  {config : HostConfig} {lease queue : String} {poison : Option String}

inductive Attests : HostRun (Env × List LeaseDeed) → HostRun (Env × List LeaseDeed) → Prop
  | elsewhere {s : HostRun (Env × List LeaseDeed)} {env : Env} (later : now s.env.1 ≤ now env) :
      Attests s { s with env := (env, s.env.2) }
  | acts {s t : HostRun (Env × List LeaseDeed)} (acts : Acts IsAttested s t) : Attests s t

inductive Attested (config : HostConfig) (lease queue : String) (poison : Option String) :
    HostRun (Env × List LeaseDeed) → Prop
  | start {env : Env} {env' : Env × List LeaseDeed} {host : Host} {doings : List Doing}
      (started : Host.start config lease queue poison ((env, []), []) =
        (.ok host, env', doings)) :
      Attested config lease queue poison ⟨env', doings, host, .running⟩
  | step {s t : HostRun (Env × List LeaseDeed)} : Attested config lease queue poison s →
      Attests s t → Attested config lease queue poison t

def released (s : HostRun (Env × List LeaseDeed)) : List Identifier := releases s.env.2

omit [Surroundings Env] in
theorem released_of_env (h : t.env.2 = s.env.2) : t.released = s.released := congrArg releases h

theorem Attests.step (h : Attests s t) : Step s t := by
  cases h with
  | elsewhere later => exact .elsewhere later
  | acts acts => exact acts.step

theorem Attested.reachable (h : Attested config lease queue poison s) :
    Reachable config lease queue poison s := by
  induction h with
  | start started => exact .start started
  | step _ next ih => exact ih.step next.step

structure Discreet (s : HostRun (Env × List LeaseDeed)) (v : Supervisor) : Prop where
  orderly : v.IsOrderly
  joined : s.stage.hasJoined = true → v.HasEnded
  fresh : s.stage.mayHaveReleased = false → s.released = []
  once : s.released.length ≤ 1

/-- What a step is for the shutdown of a host and for the releases on record. -/
inductive Withdraws (s t : HostRun (Env × List LeaseDeed)) (v : Supervisor) (c' : Coordinator)
    (v' : Supervisor) : Prop
  | carriesOn (stage : t.stage = s.stage) (none : t.released = s.released)
      (ended : v.HasEnded → v'.HasEnded)
  | shuts (running : s.stage = .running) (stage : t.stage = .closing .joining)
      (none : t.released = s.released)
  | joins {result : Except TimerError Unit} {wait : StopWait} (before : s.stage.hasJoined = false)
      (stage : t.stage = .closing (.leaving result (.stopping wait))) (ended : v'.HasEnded)
      (none : t.released = s.released)
  | releases {result stopped : Except TimerError Unit} {wait : StopWait} {lease : Identifier}
      {transit : Transit} (before : s.stage = .closing (.leaving result (.stopping wait)))
      (stage : t.stage = .closing (.leaving result (.releasing lease transit stopped)))
      (supervisor : v' = v) (gone : c'.timer.loop = none) (held : c'.status.held = some lease)
      (one : t.released = lease :: s.released)
  | leaves (before : s.stage.hasJoined = true) (stage : t.stage = .closed) (supervisor : v' = v)
      (none : t.released = s.released)

theorem Works.withdraws (h : Works IsAttested s t c v c' v') (hv : v.IsOrderly) :
    Withdraws s t v c' v' := by
  have horderly : v'.IsOrderly := h.orderly hv
  cases h with
  | contends permits polled supervisor stage =>
      obtain ⟨a, rfl⟩ := permits
      subst supervisor
      exact .carriesOn stage (Coordinator.releases_poll polled) id
  | settles settled env record supervisor stage =>
      subst supervisor
      exact .carriesOn stage (released_of_env (congrArg Prod.snd env)) id
  | supervises advanced coordinator stage =>
      obtain ⟨events, hreports⟩ := (Supervisor.turn_of_advance hv advanced).reports
      have hsame : t.env.2 = s.env.2 := by
        rw [← deeds_reportAll (s.env, s.doings) events, ← hreports]
      refine .carriesOn stage (released_of_env hsame) ?_
      intro hended
      simp [hended.advance] at advanced
  | listens permits polled coordinator stage =>
      obtain ⟨a, rfl⟩ := permits
      obtain ⟨-, hresult, -, timer, timer', hpoll⟩ := hv.pollListener polled
      obtain ⟨_, _, _, -, -, hdoes, -⟩ := poll_performs hpoll
      refine .carriesOn stage (released_of_env hdoes.attested) ?_
      exact fun hended => ⟨horderly, hresult ▸ hended.ended⟩
  | shuts running env record coordinator supervisor stage =>
      exact .shuts running stage (released_of_env (congrArg Prod.snd env))
  | @joins closing _ before ended first env record coordinator supervisor stage =>
      subst supervisor
      have hbefore : s.stage.hasJoined = false := by
        rw [before]
        cases closing with
        | leaving result step => exact absurd rfl (first result step)
        | joining | stopping => rfl
      exact .joins hbefore stage ⟨hv, by simp [ended]⟩ (released_of_env (congrArg Prod.snd env))
  | closes permits before stepped supervisor stage =>
      obtain ⟨a, rfl⟩ := permits
      cases Coordinator.departs_of_closeStep stepped with
      | releases stopped held sent timer _ status =>
          have hgone : c'.timer.loop = none := by
            rw [timer]
            exact (Timer.of_stopResult? stopped).1
          refine .releases before stage supervisor hgone (status ▸ held) ?_
          exact Coordinator.releases_of_sent sent
  | leaves permits before stepped env record supervisor stage =>
      obtain ⟨a, rfl⟩ := permits
      refine .leaves (by simp [before, MemberStage.hasJoined]) stage supervisor ?_
      rw [released, env]
      cases Coordinator.departs_of_closeStep stepped with
      | leaves _ _ reports _ _ _ =>
          subst reports
          exact congrArg releases (deeds_reportAll (s.env, s.doings) _)
      | returns answered _ _ _ =>
          subst answered
          rfl

theorem Works.discreet (h : Works IsAttested s t c v c' v') (hs : s.Discreet v) :
    t.Discreet v' := by
  have horderly : v'.IsOrderly := h.orderly hs.orderly
  cases h.withdraws hs.orderly with
  | carriesOn stage none ended =>
      exact ⟨horderly, fun hjoined => ended (hs.joined (stage ▸ hjoined)),
        fun hfresh => none.trans (hs.fresh (stage ▸ hfresh)), none ▸ hs.once⟩
  | shuts running stage none =>
      have hfresh : s.released = [] :=
        hs.fresh (by simp [running, MemberStage.mayHaveReleased])
      exact ⟨horderly, by simp [stage, MemberStage.hasJoined], fun _ => none.trans hfresh,
        none ▸ hs.once⟩
  | joins before stage ended none =>
      have hfresh : s.released = [] := hs.fresh (MemberStage.mayHaveReleased_of_early before)
      exact ⟨horderly, fun _ => ended, fun _ => none.trans hfresh, none ▸ hs.once⟩
  | releases before stage supervisor gone held one =>
      -- the stage goes on to one in which no release begins, so this one stays the only one
      subst supervisor
      have hfresh : s.released = [] :=
        hs.fresh (by simp [before, MemberStage.mayHaveReleased])
      have hended : v'.HasEnded := hs.joined (by simp [before, MemberStage.hasJoined])
      exact ⟨horderly, fun _ => hended, by simp [stage, MemberStage.mayHaveReleased],
        by simp [one, hfresh]⟩
  | leaves before stage supervisor none =>
      subst supervisor
      exact ⟨horderly, fun _ => hs.joined before, by simp [stage, MemberStage.mayHaveReleased],
        none ▸ hs.once⟩

theorem Attested.discreet (hsingleton : config.singleton = true)
    (h : Attested config lease queue poison s) :
    ∃ c v, s.host.mode = .singleton c v ∧ s.Discreet v := by
  induction h with
  | @start env env' host doings started =>
      obtain ⟨c, poller, events, -, hmode, hreports⟩ := Host.of_start hsingleton started
      have hnone : env'.2 = [] := by
        have hdeeds : (env', doings).1.2 = [] := by
          rw [hreports]
          exact deeds_reportAll _ events
        exact hdeeds
      refine ⟨c.start.1, .create poller, hmode, Supervisor.isOrderly_create poller, ?_, ?_, ?_⟩
      · simp [MemberStage.hasJoined]
      · simp [released, hnone, releases]
      · simp [released, hnone, releases]
  | step _ next ih =>
      obtain ⟨c, v, hmode, hdiscreet⟩ := ih
      cases next with
      | elsewhere later =>
          exact ⟨c, v, hmode, hdiscreet.orderly, hdiscreet.joined, hdiscreet.fresh, hdiscreet.once⟩
      | acts acts =>
          obtain ⟨c', v', hmode', hworks⟩ := works_of_acts hmode acts
          exact ⟨c', v', hmode', hworks.discreet hdiscreet⟩

/-- A release that begins in a step: the pollers of the host are over, and the
coordinator still holds the lease after its own loop is gone. -/
structure Relinquishes (s t : HostRun (Env × List LeaseDeed)) (past : List PollerTask)
    (lease : Identifier) : Prop where
  spent : ∀ task ∈ s.tasks past, task.canRun = false
  still : s.phase? = none
  held : ∃ c v, t.host.mode = .singleton c v ∧ c.timer.loop = none ∧ c.status.held = some lease

structure HandsOver (s : HostRun (Env × List LeaseDeed)) (past : List PollerTask) : Prop where
  once : s.released.length ≤ 1
  begins : ∀ t lease, Attests s t → t.released = lease :: s.released →
    Relinquishes s t past lease
  /-- Once a release has begun, nothing is done for a message. -/
  silent : s.released ≠ [] → ∀ t, Relation.ReflTransGen Step s t →
    t.doings = s.doings ∧ t.phase? = none

omit [Surroundings Env] in
theorem phase?_of_idle (h : s.host.listener.timer? = none) : s.phase? = none := by
  simp [phase?, Listener.phase?, h]

theorem relinquishes_of_step {past : List PollerTask} (hmode : s.host.mode = .singleton c v)
    (hs : s.Discreet v) (hpast : ∀ task ∈ past, task.canRun = false) (h : Attests s t)
    {id : Identifier} (hone : t.released = id :: s.released) :
    Relinquishes s t past id := by
  have hchanged : t.released ≠ s.released := by simp [hone]
  cases h with
  | elsewhere later => exact absurd rfl hchanged
  | acts acts =>
      obtain ⟨c', v', hmode', hworks⟩ := works_of_acts hmode acts
      cases hworks.withdraws hs.orderly with
      | carriesOn _ none _ | shuts _ _ none | joins _ _ _ none | leaves _ _ _ none =>
          exact absurd none hchanged
      | releases before stage supervisor gone held one =>
          have hended : v.HasEnded := hs.joined (by simp [before, MemberStage.hasJoined])
          have hidle : s.host.listener.timer? = none := by
            simpa [Host.listener, hmode] using hended.idle
          obtain ⟨rfl, -⟩ := List.cons.inj (one.symm.trans hone)
          constructor
          case spent => simpa [tasks, hidle] using hpast
          case still => exact phase?_of_idle hidle
          case held => exact ⟨c', v', hmode', gone, held⟩

theorem lease_released_last (hsingleton : config.singleton = true)
    (h : Attested config lease queue poison s) :
    (∃ past, Muster config lease queue poison s past) ∧
      ∀ past, Muster config lease queue poison s past → s.HandsOver past := by
  obtain ⟨c, v, hmode, hs⟩ := h.discreet hsingleton
  refine ⟨h.reachable.muster, fun past hmuster => ?_⟩
  constructor
  case once => exact hs.once
  case begins => exact fun t id hstep hone => relinquishes_of_step hmode hs hmuster.spent hstep hone
  case silent =>
    intro hreleased t hsteps
    have hjoined : s.stage.hasJoined = true := by
      by_contra hearly
      rw [Bool.not_eq_true] at hearly
      exact hreleased (hs.fresh (MemberStage.mayHaveReleased_of_early hearly))
    obtain ⟨hrecord, hidle⟩ := silent_of_ended hmode (hs.joined hjoined) hsteps
    exact ⟨hrecord, phase?_of_idle hidle⟩

theorem Attested.drive (h : Attested config lease queue poison s)
    (hacts : Relation.ReflTransGen (Acts IsAttested) s t) :
    Attested config lease queue poison t := by
  induction hacts with
  | refl => exact h
  | tail _ next ih => exact ih.step (.acts next)

def resigning : HostRun (World × List LeaseDeed) :=
  ((founded (premises, [])).after attendants.attested 3).close.after attendants.attested 3

/-- The supervisor and the coordinator have stopped, and a release has begun. -/
def resigned : HostRun (World × List LeaseDeed) :=
  ((resigning.proceed attendants.attested).after attendants.attested 1).proceed
    attendants.attested

theorem attested_resigned : Attested candidate "lock" "jobs" none resigned := by
  have hstarted : Host.start candidate "lock" "jobs" none
      (((premises, []), []) : (World × List LeaseDeed) × List Doing) =
      (.ok (founded (premises, ([] : List LeaseDeed))).host,
        (founded (premises, [])).env, (founded (premises, ([] : List LeaseDeed))).doings) := rfl
  have hanswers : IsAttested attendants.attested := ⟨attendants, rfl⟩
  have hled := (Attested.start hstarted).drive (acts_after IsAttested hanswers _ 3)
  have hresigning : Attested candidate "lock" "jobs" none resigning :=
    (hled.step (.acts (.close rfl))).drive (acts_after IsAttested hanswers _ 3)
  have hjoined := hresigning.drive (acts_proceed IsAttested hanswers _)
  have hsettled := hjoined.drive (acts_after IsAttested hanswers _ 1)
  exact hsettled.drive (acts_proceed IsAttested hanswers _)

theorem lease_released_last_resigned :
    candidate.singleton = true ∧ resigned.released = [candidate.lease.holder] ∧
      ((∃ past, Muster candidate "lock" "jobs" none resigned past) ∧
        ∀ past, Muster candidate "lock" "jobs" none resigned past → resigned.HandsOver past) :=
  ⟨rfl, by decide, lease_released_last rfl attested_resigned⟩

end HostRun

end LeasedListener
