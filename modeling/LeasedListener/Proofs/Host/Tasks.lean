import LeasedListener.Proofs.Host.Gate

/-!
# The tasks of a host's pollers

A host starts a task whenever its listener gets a poller going, and lets go of
it at the end of a stop.  A task that took too long to stop is aborted; any
other one is left to itself, which makes no difference, for it has ended.
-/

namespace LeasedListener

open Surroundings

inductive PollerTask
  | going (loop : PollerLoop)
  | aborted

namespace PollerTask

/-- Whether the task will ever run a step, or go on with one. -/
def canRun : PollerTask → Bool
  | .going (.live ..) => true
  | _ => false

def after (loop : PollerLoop) : Except TimerError Unit → PollerTask
  | .error (.stopTimedOut _ _) => .aborted
  | _ => .going loop

theorem canRun_after {timer stopped : PollerTimer} {wait : StopWait} {instant : Nat}
    {result : Except TimerError Unit} {events : List Event} {loop : PollerLoop}
    (hgoing : timer.loop = some loop)
    (hstops : timer.stopResult? wait instant = some (stopped, result, events)) :
    (after loop result).canRun = false := by
  unfold Timer.stopResult? at hstops
  rw [hgoing] at hstops
  -- a loop that is still live is aborted, whatever it was about to do
  cases loop with
  | returned pace | died reason =>
      simp only [Option.some.injEq, Prod.mk.injEq] at hstops
      obtain ⟨-, rfl, -⟩ := hstops
      rfl
  | live pace cancelled state =>
      simp only at hstops
      split at hstops
      · simp only [Option.some.injEq, Prod.mk.injEq] at hstops
        obtain ⟨-, rfl, -⟩ := hstops
        rfl
      · simp at hstops

end PollerTask

namespace HostRun

variable {Env : Type} [Surroundings Env] {s t : HostRun Env} {past gone : List PollerTask}

/-- The tasks of a host, with those that it let go of in the `past`. -/
def tasks (s : HostRun Env) (past : List PollerTask) : List PollerTask :=
  ((s.host.listener.timer?.bind Timer.loop).map .going).toList ++ past

/-- The tasks that a host lets go of in a step: none while its listener is idle
or carries on with the task that it has, and that task at the end of a stop. -/
inductive LetsGo (s t : HostRun Env) : List PollerTask → Prop
  | idles (idle : s.host.listener.timer? = none) : LetsGo s t []
  | keeps {timer : PollerTimer} (before : s.host.listener.timer? = some timer)
      (after : t.host.listener.timer? = some timer ∨
        t.host.listener.timer? = some timer.cancel) : LetsGo s t []
  | plays {timer : PollerTimer} {loop loop' : PollerLoop} {new : List Doing}
      (before : s.host.listener.timer? = some timer) (going : timer.loop = some loop)
      (plays : Plays s.host.listener.poller loop new loop')
      (after : t.host.listener.timer? = some { timer with loop := some loop' }) : LetsGo s t []
  | drops {timer stopped : PollerTimer} {wait : StopWait} {result : Except TimerError Unit}
      {events : List Event} (before : s.host.listener.state = .stopping timer wait)
      (stops : timer.stopResult? wait (now s.env) = some (stopped, result, events))
      (idle : t.host.listener.timer? = none) :
      LetsGo s t (timer.loop.map (PollerTask.after · result)).toList

theorem letsGo_of_step (h : Step s t) : ∃ gone, LetsGo s t gone := by
  cases attends_of_step h with
  | played before going plays after _ _ => exact ⟨[], .plays before going plays after⟩
  | turned turn _ =>
      cases htimer : s.host.listener.timer? with
      | none => exact ⟨[], .idles htimer⟩
      | some timer =>
          cases turn with
          | kept same => exact ⟨[], .keeps htimer (.inl (same ▸ htimer))⟩
          | asked stopping =>
              refine ⟨[], .keeps htimer ?_⟩
              rw [stopping, Listener.stop]
              split
              · next going hstate =>
                  have hsame : going = timer := by simpa [Listener.timer?, hstate] using htimer
                  right
                  simp [Listener.timer?, hsame]
              · exact .inl htimer
          | ended current wait state settled idle =>
              obtain ⟨⟨stopped, result, events⟩, hstops⟩ := Option.isSome_iff_exists.mp settled
              exact ⟨_, .drops state hstops (by simp [idle, Listener.timer?])⟩
          | started reason begins =>
              refine ⟨[], .keeps htimer (.inl ?_)⟩
              rw [begins, Listener.start]
              split
              · next hidle => simp [Listener.timer?, hidle] at htimer
              · exact htimer

/-- A run of a host, with the tasks that it has let go of. -/
inductive Muster (config : HostConfig) (lease queue : String) (poison : Option String) :
    HostRun Env → List PollerTask → Prop
  | start {env env' : Env} {host : Host} {doings : List Doing}
      (started : Host.start config lease queue poison (env, []) = (.ok host, env', doings)) :
      Muster config lease queue poison ⟨env', doings, host, .running⟩ []
  | step {s t : HostRun Env} {past gone : List PollerTask}
      (earlier : Muster config lease queue poison s past) (next : Step s t)
      (lets : LetsGo s t gone) : Muster config lease queue poison t (gone ++ past)

variable {config : HostConfig} {lease queue : String} {poison : Option String}

theorem Reachable.muster (h : Reachable config lease queue poison s) :
    ∃ past, Muster config lease queue poison s past := by
  induction h with
  | start started => exact ⟨[], .start started⟩
  | step _ next ih =>
      obtain ⟨past, hpast⟩ := ih
      obtain ⟨gone, hgone⟩ := letsGo_of_step next
      exact ⟨gone ++ past, hpast.step next hgone⟩

theorem LetsGo.spent (h : LetsGo s t gone) : ∀ task ∈ gone, task.canRun = false := by
  cases h with
  | idles _ => simp
  | keeps _ _ => simp
  | plays _ _ _ _ => simp
  | @drops timer _ _ _ _ before stops idle =>
      intro task htask
      simp only [Option.mem_toList, Option.map_eq_some_iff] at htask
      obtain ⟨loop, hgoing, rfl⟩ := htask
      exact PollerTask.canRun_after hgoing stops

theorem Muster.spent (h : Muster config lease queue poison s past) :
    ∀ task ∈ past, task.canRun = false := by
  induction h with
  | start started => simp
  | step _ _ lets ih =>
      intro task htask
      rcases List.mem_append.mp htask with hgone | hpast
      · exact lets.spent task hgone
      · exact ih task hpast

theorem Muster.countP_canRun (h : Muster config lease queue poison s past) :
    (s.tasks past).countP PollerTask.canRun ≤ 1 := by
  have hpast : past.countP PollerTask.canRun = 0 := by
    simpa [List.countP_eq_zero] using h.spent
  rw [tasks, List.countP_append, hpast, Nat.add_zero]
  generalize (s.host.listener.timer?.bind Timer.loop).map PollerTask.going = current
  have hlength : current.toList.length ≤ 1 := by cases current <;> simp
  exact Nat.le_trans List.countP_le_length hlength

end HostRun

end LeasedListener
