import LeasedListener.Proofs.Timer.Transitions
import LeasedListener.Timer.Attempt

/-!
# Timers of attempts

A timer that repeats an attempt changes its environment by the transitions of
the attempt and by reports, and in no other way.
-/

namespace LeasedListener

open Surroundings

def Progress.env {Env Phase Result : Type} : Progress Env Phase Result → Env
  | .continues env _ | .ended env _ | .died env _ => env

section

variable {Env Command Phase κ : Type} [Surroundings Env] {d : Drive Env Command Phase} {f : Env → κ}

/-- What neither the steps of a timer nor its reports change, the timer does
not change. -/
theorem Timer.kept_of_poll {t t' : Timer Command Phase} {env env' : Env}
    (hreport : ∀ env event, f (report env event) = f env)
    (henter : ∀ env command, f (d.enter env command).env.1 = f env)
    (hadvance : ∀ env command cancelled phase progress,
      d.advance env command cancelled phase = some progress → f progress.env.1 = f env)
    (h : t.poll d env = some (t', env')) : f env' = f env := by
  have hafter : ∀ {timer : String} {cancelled : Bool} {loop : TimerLoop Command Phase}
      {progress : Progress (Env × Command) Phase (Except StorageError Unit)},
      TimerLoop.afterStep d timer cancelled progress = (loop, env') →
        f env' = f progress.env.1 := by
    intro timer cancelled loop progress hafter
    cases progress with
    | continues after phase =>
        obtain ⟨-, rfl⟩ := Prod.mk.inj hafter
        rfl
    | ended after result =>
        cases result with
        | ok _ =>
            obtain ⟨-, rfl⟩ := Prod.mk.inj hafter
            rfl
        | error error =>
            obtain ⟨-, rfl⟩ := Prod.mk.inj hafter
            exact hreport after.1 _
    | died after reason =>
        obtain ⟨-, rfl⟩ := Prod.mk.inj hafter
        rfl
  obtain ⟨loop, loop', -, -, hmoves⟩ := Timer.moves_of_poll h
  cases hmoves with
  | waits => rfl
  | returns => rfl
  | begins _ hresult => exact (hafter hresult).trans (henter _ _)
  | advances hstep hresult => exact (hafter hresult).trans (hadvance _ _ _ _ _ hstep)

end

variable {Env Phase α : Type} [Surroundings Env] [IntervalPolicy α] {R : Env → Env → Prop}

theorem TimerLoop.related_afterStep {attempt : Attempt Env Phase} {timer : String}
    {cancelled : Bool} {pace : Pace α} {env env' : Env}
    {progress : Progress Env Phase (Except StorageError Bool)} {loop : TimerLoop (Pace α) Phase}
    (hreport : ∀ {env env'} event, R env env' → R env (report env' event))
    (hrelated : R env progress.env)
    (hafter : afterStep attempt.paced timer cancelled (Attempt.pacedProgress pace progress) =
      (loop, env')) : R env env' := by
  cases progress with
  | continues env'' phase =>
      obtain ⟨-, rfl⟩ := Prod.mk.inj hafter
      exact hrelated
  | ended env'' result =>
      cases result with
      | ok found =>
          obtain ⟨-, rfl⟩ := Prod.mk.inj hafter
          exact hrelated
      | error error =>
          obtain ⟨-, rfl⟩ := Prod.mk.inj hafter
          exact hreport _ hrelated
  | died env'' reason =>
      obtain ⟨-, rfl⟩ := Prod.mk.inj hafter
      exact hrelated

theorem Timer.related_of_poll {attempt : Attempt Env Phase} {t t' : Timer (Pace α) Phase}
    {env env' : Env} (hrefl : ∀ env, R env env)
    (hreport : ∀ {env env'} event, R env env' → R env (report env' event))
    (henter : ∀ env, R env (attempt.enter env).env)
    (hadvance : ∀ env cancelled phase progress,
      attempt.advance env cancelled phase = some progress → R env progress.env)
    (h : t.poll attempt.paced env = some (t', env')) : R env env' := by
  obtain ⟨loop, loop', -, -, hmoves⟩ := Timer.moves_of_poll h
  cases hmoves with
  | waits => exact hrefl env
  | returns => exact hrefl env
  | begins _ hafter => exact TimerLoop.related_afterStep hreport (henter env) hafter
  | advances hstep hafter =>
      simp only [Attempt.paced, Option.map_eq_some_iff] at hstep
      obtain ⟨progress, hprogress, hpaced⟩ := hstep
      subst hpaced
      exact TimerLoop.related_afterStep hreport (hadvance _ _ _ _ hprogress) hafter

/-- How a loop goes on after a transition of its attempt. -/
inductive TimerLoop.Resumes (timer : String) (pace : Pace α) (cancelled : Bool) :
    Progress Env Phase (Except StorageError Bool) → TimerLoop (Pace α) Phase → Env → Prop
  | continues {env : Env} {phase : Phase} :
      Resumes timer pace cancelled (.continues env phase) (.live pace cancelled (.stepping phase))
        env
  | ended {env : Env} {succeeded : Bool} :
      Resumes timer pace cancelled (.ended env (.ok succeeded))
        (.live (pace.outcome succeeded) cancelled
          (.waiting (Instant.waitEnd (now env) (pace.outcome succeeded).next)))
        env
  | failed {env : Env} {error : StorageError} :
      Resumes timer pace cancelled (.ended env (.error error))
        (.live (pace.outcome false) cancelled
          (.waiting (Instant.waitEnd (now (report env (.timerStepFailed timer error)))
            (pace.outcome false).next)))
        (report env (.timerStepFailed timer error))
  | died {env : Env} {reason : String} :
      Resumes timer pace cancelled (.died env reason) (.died reason) env

theorem TimerLoop.resumes_afterStep (attempt : Attempt Env Phase) (timer : String)
    (cancelled : Bool) (pace : Pace α) (progress : Progress Env Phase (Except StorageError Bool)) :
    Resumes timer pace cancelled progress
      (afterStep attempt.paced timer cancelled (Attempt.pacedProgress pace progress)).1
      (afterStep attempt.paced timer cancelled (Attempt.pacedProgress pace progress)).2 := by
  cases progress with
  | continues env phase => exact .continues
  | ended env result =>
      cases result with
      | ok succeeded => exact .ended
      | error error => exact .failed
  | died env reason => exact .died

/-- The transitions of a loop that repeats an attempt. -/
inductive TimerLoop.AttemptTransition (attempt : Attempt Env Phase) (timer : String) (env : Env) :
    TimerLoop (Pace α) Phase → TimerLoop (Pace α) Phase → Env → Prop
  | wait {pace : Pace α} :
      AttemptTransition attempt timer env (.live pace false (.spawned false))
        (.live pace false (.waiting (Instant.waitEnd (now env) pace.next))) env
  | return {pace : Pace α} {state : LoopState Phase} (idle : state.phase? = none) :
      AttemptTransition attempt timer env (.live pace true state) (.returned pace) env
  | enter {pace : Pace α} {state : LoopState Phase} {loop : TimerLoop (Pace α) Phase} {env' : Env}
      (idle : state.phase? = none)
      (resumes : Resumes timer pace false (attempt.enter env) loop env') :
      AttemptTransition attempt timer env (.live pace false state) loop env'
  | advance {pace : Pace α} {cancelled : Bool} {phase : Phase}
      {progress : Progress Env Phase (Except StorageError Bool)}
      {loop : TimerLoop (Pace α) Phase} {env' : Env}
      (advances : attempt.advance env cancelled phase = some progress)
      (resumes : Resumes timer pace cancelled progress loop env') :
      AttemptTransition attempt timer env (.live pace cancelled (.stepping phase)) loop env'

theorem TimerLoop.attemptTransition_of_poll {attempt : Attempt Env Phase} {timer : String}
    {loop loop' : TimerLoop (Pace α) Phase} {env env' : Env}
    (h : loop.poll attempt.paced timer env = some (loop', env')) :
    AttemptTransition attempt timer env loop loop' env' := by
  cases moves_of_poll h with
  | waits => exact .wait
  | returns idle => exact .return idle
  | @begins pace state _ _ due after =>
      have hidle : state.phase? = none := by
        rcases due with rfl | ⟨wake, rfl, -⟩
        · rfl
        · rfl
      have hresumes := resumes_afterStep attempt timer false pace (attempt.enter env)
      have hresult : afterStep attempt.paced timer false
          (Attempt.pacedProgress pace (attempt.enter env)) = (loop', env') := after
      rw [hresult] at hresumes
      exact .enter hidle hresumes
  | @advances pace cancelled phase _ _ _ advance after =>
      simp only [Attempt.paced, Option.map_eq_some_iff] at advance
      obtain ⟨progress, hadvances, rfl⟩ := advance
      have hresumes := resumes_afterStep attempt timer cancelled pace progress
      have hresult : afterStep attempt.paced timer cancelled
          (Attempt.pacedProgress pace progress) = (loop', env') := after
      rw [hresult] at hresumes
      exact .advance hadvances hresumes

theorem Timer.attemptTransition_of_poll {attempt : Attempt Env Phase} {t t' : Timer (Pace α) Phase}
    {env env' : Env} (h : t.poll attempt.paced env = some (t', env')) :
    ∃ loop loop', t.loop = some loop ∧ t' = { t with loop := some loop' } ∧
      TimerLoop.AttemptTransition attempt t.name env loop loop' env' := by
  obtain ⟨loop, loop', hloop, htimer, hpoll⟩ := loop_of_poll h
  exact ⟨loop, loop', hloop, htimer, TimerLoop.attemptTransition_of_poll hpoll⟩

end LeasedListener
