import LeasedListener.Proofs.Leadership.Turns
import LeasedListener.Proofs.Scenario.Effects

/-!
# Coordinators under observation

A coordinator is observed together with the calls that it has had answered.
Each of its turns leaves the world as it is, or notes the one call that was
answered.
-/

namespace LeasedListener

open Surroundings

/-- A lease object behind a service that treats the next call in the given
way.  The answered calls are kept, the latest first. -/
def World.witnessed (lease : String) (transit : Transit) :
    LeaseAccess (World × List CallRecord) where
  issue env _ := (env, transit)
  perform env call transit :=
    let (w, reply) := env.1.callLease lease call transit
    ((w, ⟨env.1.now, call.kind, call.arguments, failureOf reply⟩ :: env.2), reply)

namespace Coordinator

variable {lease : String} {transit : Transit} {c c' : Coordinator}
  {env env' : World × List CallRecord}

def heard (lease : String) (w : World) (contender : Contender) (status : Status)
    (waiting : ContenderCall) : ContenderTurn :=
  contender.answer status w.now waiting.phase
    (w.callLease lease (contender.call waiting.phase) waiting.transit).2

def afterHeard (lease : String) (env : World × List CallRecord) (contender : Contender)
    (status : Status) (waiting : ContenderCall) : World × List CallRecord :=
  (reportAll (env.1.callLease lease (contender.call waiting.phase) waiting.transit).1
      (heard lease env.1 contender status waiting).events,
    contender.recordOf env.1.now waiting.phase
      (env.1.callLease lease (contender.call waiting.phase) waiting.transit).2 :: env.2)

variable {contender : Contender} {status : Status} {waiting : ContenderCall} {timer : String}
  {following : Option ContenderCall}

theorem told_witnessed (lease : String) (transit : Transit) (env : World × List CallRecord)
    (status : Status) (contender : Contender) (waiting : ContenderCall) :
    told (World.witnessed lease transit) env status contender waiting =
      afterHeard lease env contender status waiting :=
  reportAll_pair _ _ _

/-- What follows an answer is logged at most. -/
theorem Follows.witnessed
    (h : Follows (World.witnessed lease transit) timer
      (afterHeard lease env contender status waiting)
      (heard lease env.1 contender status waiting) following env') :
    following = (heard lease env.1 contender status waiting).move.phase?.map (⟨·, transit⟩) ∧
      env'.2 = (afterHeard lease env contender status waiting).2 ∧
      (env.1.callLease lease (contender.call waiting.phase) waiting.transit).1.SameButLog
        env'.1 := by
  have hreported :
      (env.1.callLease lease (contender.call waiting.phase) waiting.transit).1.SameButLog
        (afterHeard lease env contender status waiting).1 := World.sameButLog_reportAll _ _
  cases h with
  | calls move | finishes move => exact ⟨by rw [move]; rfl, rfl, hreported⟩
  | fails move =>
      rw [report_pair]
      exact ⟨by rw [move]; rfl, rfl, hreported.report _⟩

theorem create_eq_ok {config : LeaseConfig} (h : create lease config = .ok c) :
    config.validate = .ok () ∧ c.config = config ∧ c.status = {} ∧
      ∃ name, c.timer = .create name (.create lease config) := by
  unfold create at h
  split at h
  · simp at h
  · next hvalid =>
      rw [← Except.ok.inj h]
      exact ⟨hvalid, rfl, rfl, _, rfl⟩

inductive Turn (lease : String) (transit : Transit) (c : Coordinator)
    (env : World × List CallRecord) (c' : Coordinator) (env' : World × List CallRecord) : Prop
  | rest (hquiet : c.Quiet c') (henv : env' = env)
  | ask (hcommand : ∀ contender, c'.timer.Has contender → c.timer.Has contender)
      (hphase : c'.timer.phase? = some ⟨Contender.firstPhase c.status, transit⟩)
      (hstatus : c'.status = c.status) (henv : env' = env)
  | hear (contender : Contender) (waiting : ContenderCall)
      (hcontender : c.timer.Has contender) (hwaiting : c.timer.phase? = some waiting)
      (hcommand : ∀ other, c'.timer.Has other → c.timer.Has other ∨
        other = (heard lease env.1 contender c.status waiting).contender)
      (hphase : c'.timer.phase? =
        (heard lease env.1 contender c.status waiting).move.phase?.map (⟨·, transit⟩))
      (hstatus : c'.status = (heard lease env.1 contender c.status waiting).status)
      (hcalls : env'.2 = (afterHeard lease env contender c.status waiting).2)
      (hworld : (env.1.callLease lease (contender.call waiting.phase)
        waiting.transit).1.SameButLog env'.1)

theorem turn_of_poll (h : c.poll (World.witnessed lease transit) env = some (c', env')) :
    Turn lease transit c env c' env' := by
  cases turns_of_poll h with
  | rests quiet => exact .rest quiet rfl
  | asks asks => exact .ask asks.command asks.phase asks.status rfl
  | @hears contender waiting following _ hears follows =>
      rw [told_witnessed] at follows
      obtain ⟨hfollowing, hcalls, hworld⟩ := follows.witnessed
      exact .hear contender waiting hears.has hears.before hears.command
        (hears.phase.trans hfollowing) hears.status hcalls hworld

structure Halted (c : Coordinator) (env : World × List CallRecord) (c' : Coordinator)
    (env' : World × List CallRecord) : Prop where
  quiet : c.Quiet c'
  loop : c'.timer.loop = none
  calls : env'.2 = env.2
  world : env.1.SameButLog env'.1

variable {shutdown : Progress ((World × List CallRecord) × Coordinator) Closing
  (Except TimerError Unit)}

/-- Once its timer has stopped, a coordinator releases the lease that it
holds. -/
theorem closeStep_of_stopping {wait : StopWait}
    (h : c.closeStep (World.witnessed lease transit) env (.stopping wait) = some shutdown) :
    ∃ c' env', Halted c env c' env' ∧
      ((∃ held stopped, c.status.held = some held ∧
        shutdown = .continues (env', c') (.releasing held transit stopped)) ∨
      (∃ stopped, c.status.held = none ∧ shutdown = .ended (env', c') stopped)) := by
  have hhalted : ∀ {c' : Coordinator}
      {stop : Timer Contender ContenderCall × Except TimerError Unit × List Event},
      c.timer.stopResult? wait (now env) = some stop → c'.timer = stop.1 →
      c'.config = c.config → c'.status = c.status →
      Halted c env c' (reportAll env stop.2.2) := by
    intro c' stop hstopped htimer hconfig hstatus
    obtain ⟨hgone, hhas⟩ := Timer.of_stopResult? hstopped
    have hloop : c'.timer.loop = none := by rw [htimer, hgone]
    have hreported : reportAll env stop.2.2 = (reportAll env.1 stop.2.2, env.2) :=
      reportAll_pair env.1 env.2 stop.2.2
    constructor
    case quiet =>
      exact ⟨hconfig, hstatus, htimer ▸ hhas, by simp [Timer.phase?, hloop]⟩
    case loop => exact hloop
    case calls => rw [hreported]
    case world =>
      rw [hreported]
      exact World.sameButLog_reportAll _ _
  cases departs_of_closeStep h with
  | releases stopped held sent timer config status =>
      obtain ⟨rfl, rfl⟩ := Prod.mk.inj sent
      exact ⟨_, _, hhalted stopped timer config status, .inl ⟨_, _, held, rfl⟩⟩
  | leaves stopped unheld reports timer config status =>
      subst reports
      exact ⟨_, _, hhalted stopped timer config status, .inr ⟨_, unheld, rfl⟩⟩

/-- The release ends the shutdown and the leadership, whatever its answer. -/
theorem closeStep_of_releasing {held : Identifier} {sent : Transit}
    {stopped : Except TimerError Unit}
    (h : c.closeStep (World.witnessed lease transit) env (.releasing held sent stopped) =
      some shutdown) :
    ∃ c' env', shutdown = .ended (env', c') stopped ∧
      c'.status.held = none ∧ c'.timer = c.timer ∧ c'.config = c.config ∧
      env'.2 = ⟨env.1.now, .release, [.holder held],
        failureOf (env.1.callLease lease (.release held) sent).2⟩ :: env.2 ∧
      (env.1.callLease lease (.release held) sent).1.SameButLog env'.1 := by
  cases departs_of_closeStep h with
  | returns answered timer config status =>
      subst answered
      refine ⟨_, _, rfl, ?_, timer, config, rfl, rfl⟩
      rw [status]
      exact Status.held_publish _ _

end Coordinator

end LeasedListener
