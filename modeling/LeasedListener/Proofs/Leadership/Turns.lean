import LeasedListener.Leadership.Coordinator
import LeasedListener.Proofs.Leadership.Outcome
import LeasedListener.Proofs.Timer.Transitions

/-!
# Turns of a coordinator

Every transition of the loop of a coordinator does one of three things,
whatever the access to the lease object is: it leaves the contender alone, it
sends the first call of a step on its way, or it draws the conclusion from an
answer and perhaps sends the next call.  A transition of its shutdown sends the
release of what is held once the timer has stopped, or ends the shutdown.
-/

namespace LeasedListener

open Surroundings

namespace Coordinator

variable {Env : Type} [Surroundings Env] {access : LeaseAccess Env} {env env' : Env}
  {c c' : Coordinator} {contender : Contender} {waiting : ContenderCall}
  {following : Option ContenderCall}

/-- A change that neither moves the contender nor sends a call. -/
structure Quiet (c c' : Coordinator) : Prop where
  config : c'.config = c.config
  status : c'.status = c.status
  has : ∀ contender, c'.timer.Has contender → c.timer.Has contender
  phase : ∀ waiting, c'.timer.phase? = some waiting → c.timer.phase? = some waiting

theorem quiet_start (c : Coordinator) : c.Quiet c.start.1 := by
  unfold start
  cases hstart : c.timer.start true with
  | error error => exact ⟨rfl, rfl, fun _ hhas => hhas, fun _ hphase => hphase⟩
  | ok timer =>
      obtain ⟨hphase, hhas⟩ := Timer.of_start hstart
      refine ⟨rfl, rfl, hhas, ?_⟩
      intro waiting hwaiting
      rw [hphase] at hwaiting
      simp at hwaiting

theorem phase?_start (c : Coordinator) : c.start.1.timer.phase? = c.timer.phase? := by
  unfold start
  cases hstart : c.timer.start true with
  | error error => rfl
  | ok timer =>
      have hidle : c.timer.phase? = none := by
        unfold Timer.start at hstart
        split at hstart
        · simp at hstart
        · simp at hstart
        · next hloop _ => exact Timer.phase?_of_gone hloop
      exact (Timer.of_start hstart).1.trans hidle.symm

theorem quiet_rouse (c : Coordinator) : c.Quiet { c with timer := c.timer.rouse } :=
  ⟨rfl, rfl, fun _ => Timer.has_rouse.mp, fun _ => by rw [Timer.phase?_rouse]; exact id⟩

theorem quiet_close {Env : Type} [Surroundings Env] (c : Coordinator) (env : Env) :
    c.Quiet (c.close env).1 :=
  ⟨rfl, rfl, fun _ => Timer.has_cancel.mp, fun _ => by
    rw [close, Timer.phase?_cancel]
    exact id⟩

theorem timer_settle (h : c.settle = some c') : c'.timer = c.timer := by
  unfold settle at h
  split at h
  · rw [← Option.some.inj h]
  · simp at h

theorem quiet_settle (h : c.settle = some c') : c.Quiet c' := by
  unfold settle at h
  split at h
  · rw [← Option.some.inj h]
    exact ⟨rfl, rfl, fun _ hhas => hhas, fun _ hphase => hphase⟩
  · simp at h

/-- The first call of a step has been sent. -/
structure Asks (c c' : Coordinator) (contender : Contender) (transit : Transit) : Prop where
  has : c.timer.Has contender
  command : ∀ other, c'.timer.Has other → c.timer.Has other
  before : c.timer.phase? = none
  phase : c'.timer.phase? = some ⟨Contender.firstPhase c.status, transit⟩
  status : c'.status = c.status

/-- The conclusion from the answer to a call has been drawn, and perhaps another
call has been sent. -/
structure Hears (c c' : Coordinator) (contender : Contender) (waiting : ContenderCall)
    (turn : ContenderTurn) (following : Option ContenderCall) : Prop where
  has : c.timer.Has contender
  command : ∀ other, c'.timer.Has other → c.timer.Has other ∨ other = turn.contender
  before : c.timer.phase? = some waiting
  phase : c'.timer.phase? = following
  status : c'.status = turn.status

/-- The conclusion from the answer to a call. -/
def conclusion (access : LeaseAccess Env) (env : Env) (status : Status) (contender : Contender)
    (waiting : ContenderCall) : ContenderTurn :=
  contender.answer status (now env) waiting.phase
    (access.perform env (contender.call waiting.phase) waiting.transit).2

/-- The environment that has been told the conclusion. -/
def told (access : LeaseAccess Env) (env : Env) (status : Status) (contender : Contender)
    (waiting : ContenderCall) : Env :=
  reportAll (access.perform env (contender.call waiting.phase) waiting.transit).1
    (conclusion access env status contender waiting).events

/-- What comes after a conclusion. -/
inductive Follows (access : LeaseAccess Env) (timer : String) (env : Env) (turn : ContenderTurn) :
    Option ContenderCall → Env → Prop
  | calls {phase : ContenderPhase} (move : turn.move = .call phase) :
      Follows access timer env turn
        (some ⟨phase, (access.issue env (turn.contender.call phase)).2⟩)
        (access.issue env (turn.contender.call phase)).1
  | finishes (move : turn.move = .finish (.ok ())) : Follows access timer env turn none env
  | fails {error : StorageError} (move : turn.move = .finish (.error error)) :
      Follows access timer env turn none (report env (.timerStepFailed timer error))

inductive Turns (access : LeaseAccess Env) (env : Env) (c c' : Coordinator) : Env → Prop
  | rests (quiet : c.Quiet c') (before : c.timer.phase? = none) (after : c'.timer.phase? = none) :
      Turns access env c c' env
  | asks {contender : Contender}
      (asks : Asks c c' contender
        (access.issue env (contender.call (Contender.firstPhase c.status))).2) :
      Turns access env c c' (access.issue env (contender.call (Contender.firstPhase c.status))).1
  | hears {contender : Contender} {waiting : ContenderCall} {following : Option ContenderCall}
      {env' : Env}
      (hears : Hears c c' contender waiting (conclusion access env c.status contender waiting)
        following)
      (follows : Follows access c.timer.name (told access env c.status contender waiting)
        (conclusion access env c.status contender waiting) following env') :
      Turns access env c c' env'

theorem moves_of_poll (h : c.poll access env = some (c', env')) :
    ∃ loop loop', c.timer.loop = some loop ∧
      c' = { c with timer := { c.timer with loop := some loop' }, status := c'.status } ∧
      TimerLoop.Moves (drive access) c.timer.name (env, c.status) loop loop' (env', c'.status) := by
  simp only [poll, Option.map_eq_some_iff, Prod.mk.injEq] at h
  obtain ⟨⟨timer, after, status⟩, hpoll, rfl, rfl⟩ := h
  obtain ⟨loop, loop', hloop, rfl, hmoves⟩ := Timer.moves_of_poll hpoll
  exact ⟨loop, loop', hloop, rfl, hmoves⟩

theorem config_poll (h : c.poll access env = some (c', env')) : c'.config = c.config := by
  obtain ⟨_, _, _, hcoordinator, _⟩ := moves_of_poll h
  rw [hcoordinator]

section

variable {cancelled : Bool} {timer : String} {status status' : Status}
  {loop : TimerLoop Contender ContenderCall}
  {progress : Progress ((Env × Status) × Contender) ContenderCall (Except StorageError Unit)}

theorem drive_advance (harrived : waiting.transit.arrived (now env) = true) :
    (drive access).advance (env, status) contender cancelled waiting =
      match (conclusion access env status contender waiting).move with
      | .call phase =>
          some (place access (told access env status contender waiting)
            (conclusion access env status contender waiting).status
            (conclusion access env status contender waiting).contender phase)
      | .finish result =>
          some (.ended ((told access env status contender waiting,
            (conclusion access env status contender waiting).status),
            (conclusion access env status contender waiting).contender) result) := by
  have harrived : waiting.transit.arrived (now (env, status)) = true := harrived
  simp only [drive, if_pos harrived]
  rfl

theorem drive_advance_of_late (hlate : waiting.transit.arrived (now env) = false) :
    (drive access).advance (env, status) contender cancelled waiting = none := by
  have hlate : ¬ waiting.transit.arrived (now (env, status)) = true := by
    rw [Bool.not_eq_true]
    exact hlate
  simp only [drive, if_neg hlate]

theorem follows_of_advance
    (hadvance : (drive access).advance (env, status) contender cancelled waiting = some progress)
    (hafter : TimerLoop.afterStep (drive access) timer cancelled progress =
      (loop, env', status')) :
    ∃ state, loop =
        .live (conclusion access env status contender waiting).contender cancelled state ∧
      status' = (conclusion access env status contender waiting).status ∧
      Follows access timer (told access env status contender waiting)
        (conclusion access env status contender waiting) state.phase? env' := by
  cases harrived : waiting.transit.arrived (now env) with
  | false =>
      rw [drive_advance_of_late harrived] at hadvance
      simp at hadvance
  | true =>
      rw [drive_advance harrived] at hadvance
      cases hmove : (conclusion access env status contender waiting).move with
      | call phase =>
          rw [hmove] at hadvance
          obtain rfl := Option.some.inj hadvance
          simp only [place, TimerLoop.afterStep, Prod.mk.injEq] at hafter
          obtain ⟨rfl, rfl, rfl⟩ := hafter
          exact ⟨_, rfl, rfl, .calls hmove⟩
      | finish result =>
          rw [hmove] at hadvance
          obtain rfl := Option.some.inj hadvance
          cases result with
          | ok =>
              simp only [TimerLoop.afterStep, Prod.mk.injEq] at hafter
              obtain ⟨rfl, rfl, rfl⟩ := hafter
              exact ⟨_, rfl, rfl, .finishes hmove⟩
          | error error =>
              simp only [TimerLoop.afterStep, Prod.mk.injEq] at hafter
              obtain ⟨rfl, hafter⟩ := hafter
              obtain ⟨rfl, rfl⟩ := Prod.mk.inj hafter
              exact ⟨_, rfl, rfl, .fails hmove⟩

end

theorem turns_of_poll (h : c.poll access env = some (c', env')) : Turns access env c c' env' := by
  obtain ⟨loop, loop', hloop, hcoordinator, hmoves⟩ := moves_of_poll h
  have hloop' : c'.timer.loop = some loop' := by rw [hcoordinator]
  have hconfig : c'.config = c.config := config_poll h
  have hcommand : ∀ contender, c'.timer.Has contender →
      c.timer.Has contender ∨ loop'.command? = some contender := by
    intro contender hhas
    rw [hcoordinator] at hhas
    rcases hhas with hidle | hlive
    · exact .inl (.inl hidle)
    · exact .inr hlive
  have hkept : loop'.command? = loop.command? →
      ∀ contender, c'.timer.Has contender → c.timer.Has contender := by
    intro hsame contender hhas
    rcases hcommand contender hhas with hbefore | hlive
    · exact hbefore
    · exact .inr (by rw [hloop, ← hlive, hsame]; rfl)
  generalize hbefore : (env, c.status) = before at hmoves
  generalize hafter : (env', c'.status) = after at hmoves
  cases hmoves with
  | waits =>
      subst hbefore
      obtain ⟨rfl, hstatus⟩ := Prod.mk.inj hafter
      have hidle : c.timer.phase? = none := by simp [Timer.phase?, hloop, LoopState.phase?]
      have hidle' : c'.timer.phase? = none := by simp [Timer.phase?, hloop', LoopState.phase?]
      exact .rests ⟨hconfig, hstatus, hkept rfl, by simp [hidle']⟩ hidle hidle'
  | returns idle =>
      subst hbefore
      obtain ⟨rfl, hstatus⟩ := Prod.mk.inj hafter
      have hidle : c.timer.phase? = none := by simp [Timer.phase?, hloop, idle]
      have hidle' : c'.timer.phase? = none := by simp [Timer.phase?, hloop']
      exact .rests ⟨hconfig, hstatus, hkept rfl, by simp [hidle']⟩ hidle hidle'
  | @begins contender state _ _ due entered =>
      subst hbefore hafter
      simp only [drive, place, TimerLoop.afterStep, Prod.mk.injEq] at entered
      obtain ⟨rfl, rfl, hstatus⟩ := entered
      have hidle : c.timer.phase? = none := by
        rcases due with rfl | ⟨wake, rfl, -⟩ <;> simp [Timer.phase?, hloop, LoopState.phase?]
      have hhas : c.timer.Has contender := .inr (by rw [hloop]; rfl)
      exact .asks ⟨hhas, hkept rfl, hidle, by simp [Timer.phase?, hloop', LoopState.phase?],
        hstatus.symm⟩
  | @advances contender cancelled waiting _ _ _ advance entered =>
      subst hbefore hafter
      obtain ⟨state, rfl, hstatus, hfollows⟩ := follows_of_advance advance entered
      apply Turns.hears _ hfollows
      constructor
      case has => exact .inr (by rw [hloop]; rfl)
      case command =>
        intro other hother
        rcases hcommand other hother with hbefore | hlive
        · exact .inl hbefore
        · exact .inr (Option.some.inj hlive).symm
      case before => simp [Timer.phase?, hloop, LoopState.phase?]
      case phase => simp [Timer.phase?, hloop']
      case status => exact hstatus

/-- The transitions of a shutdown.  The answer to the release ends it and the
leadership, whatever it is. -/
inductive Departs (access : LeaseAccess Env) (env : Env) (c : Coordinator) :
    Closing → Progress (Env × Coordinator) Closing (Except TimerError Unit) → Prop
  | releases {wait : StopWait} {lease : Identifier} {transit : Transit} {env' : Env}
      {c' : Coordinator}
      {stop : Timer Contender ContenderCall × Except TimerError Unit × List Event}
      (stopped : c.timer.stopResult? wait (now env) = some stop)
      (held : c.status.held = some lease)
      (sent : access.issue (reportAll env stop.2.2) (.release lease) = (env', transit))
      (timer : c'.timer = stop.1) (config : c'.config = c.config) (status : c'.status = c.status) :
      Departs access env c (.stopping wait)
        (.continues (env', c') (.releasing lease transit stop.2.1))
  | leaves {wait : StopWait} {env' : Env} {c' : Coordinator}
      {stop : Timer Contender ContenderCall × Except TimerError Unit × List Event}
      (stopped : c.timer.stopResult? wait (now env) = some stop) (unheld : c.status.held = none)
      (reports : env' = reportAll env stop.2.2) (timer : c'.timer = stop.1)
      (config : c'.config = c.config) (status : c'.status = c.status) :
      Departs access env c (.stopping wait) (.ended (env', c') stop.2.1)
  | returns {lease : Identifier} {transit : Transit} {stopped : Except TimerError Unit}
      {env' : Env} {c' : Coordinator} {event : Event}
      (answered : env' = report (access.perform env (.release lease) transit).1 event)
      (timer : c'.timer = c.timer) (config : c'.config = c.config)
      (status : c'.status = (c.status.publish none).1) :
      Departs access env c (.releasing lease transit stopped) (.ended (env', c') stopped)

theorem departs_of_closeStep {closing : Closing}
    {progress : Progress (Env × Coordinator) Closing (Except TimerError Unit)}
    (h : c.closeStep access env closing = some progress) :
    Departs access env c closing progress := by
  cases closing with
  | stopping wait =>
      simp only [closeStep, Option.map_eq_some_iff] at h
      obtain ⟨stop, hstopped, rfl⟩ := h
      cases hheld : c.status.held with
      | none => exact .leaves hstopped hheld rfl rfl rfl rfl
      | some lease => exact .releases hstopped hheld rfl rfl rfl rfl
  | releasing lease transit stopped =>
      simp only [closeStep] at h
      split at h
      · obtain rfl := Option.some.inj h
        cases hreply : (access.perform env (.release lease) transit).2 with
        | ok reply => exact .returns rfl rfl rfl rfl
        | error error => exact .returns rfl rfl rfl rfl
      · simp at h

end Coordinator

end LeasedListener
