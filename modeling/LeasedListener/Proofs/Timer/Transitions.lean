import LeasedListener.Timer.Basic

/-!
# Transitions of a timer loop

A loop makes a transition in four ways: it goes on with the step under way,
it begins a step, it begins to wait, or it returns because it was cancelled.
Only the first two concern the command and its environment.
-/

namespace LeasedListener

open Surroundings

variable {Env Command Phase : Type} [Surroundings Env]

def LoopState.phase? : LoopState Phase → Option Phase
  | .stepping phase => some phase
  | .spawned _ | .waiting _ => none

namespace TimerLoop

def command? : TimerLoop Command Phase → Option Command
  | .live command _ _ | .returned command => some command
  | .died _ => none

def rouse : TimerLoop Command Phase → TimerLoop Command Phase
  | .live command cancelled (.waiting _) => .live command cancelled (.waiting (some 0))
  | other => other

/-- The transitions of a loop, with the reason for which a step begins. -/
inductive Moves (d : Drive Env Command Phase) (timer : String) (env : Env) :
    TimerLoop Command Phase → TimerLoop Command Phase → Env → Prop
  | waits {command : Command} :
      Moves d timer env (.live command false (.spawned false))
        (.live command false (.waiting (wakeAfter d env command))) env
  | returns {command : Command} {state : LoopState Phase} (idle : state.phase? = none) :
      Moves d timer env (.live command true state) (.returned command) env
  | begins {command : Command} {state : LoopState Phase} {loop : TimerLoop Command Phase}
      {env' : Env}
      (due : state = .spawned true ∨
        ∃ wake, state = .waiting wake ∧ Instant.reached (now env) wake = true)
      (after : afterStep d timer false (d.enter env command) = (loop, env')) :
      Moves d timer env (.live command false state) loop env'
  | advances {command : Command} {cancelled : Bool} {phase : Phase}
      {progress : Progress (Env × Command) Phase (Except StorageError Unit)}
      {loop : TimerLoop Command Phase} {env' : Env}
      (advance : d.advance env command cancelled phase = some progress)
      (after : afterStep d timer cancelled progress = (loop, env')) :
      Moves d timer env (.live command cancelled (.stepping phase)) loop env'

theorem moves_of_poll {d : Drive Env Command Phase} {timer : String} {env env' : Env}
    {loop loop' : TimerLoop Command Phase}
    (h : loop.poll d timer env = some (loop', env')) : Moves d timer env loop loop' env' := by
  cases loop with
  | returned command => simp [poll] at h
  | died reason => simp [poll] at h
  | live command cancelled state =>
      cases state with
      | stepping phase =>
          simp only [poll, Option.map_eq_some_iff] at h
          obtain ⟨progress, hadvance, hafter⟩ := h
          exact .advances hadvance hafter
      | spawned stepFirst =>
          cases cancelled with
          | true =>
              simp only [poll, Option.some.injEq, Prod.mk.injEq] at h
              obtain ⟨rfl, rfl⟩ := h
              exact .returns rfl
          | false =>
              cases stepFirst with
              | true => exact .begins (.inl rfl) (Option.some.inj h)
              | false =>
                  simp only [poll, Option.some.injEq, Prod.mk.injEq] at h
                  obtain ⟨rfl, rfl⟩ := h
                  exact .waits
      | waiting wake =>
          cases cancelled with
          | true =>
              simp only [poll, Option.some.injEq, Prod.mk.injEq] at h
              obtain ⟨rfl, rfl⟩ := h
              exact .returns rfl
          | false =>
              simp only [poll] at h
              split at h
              · next hreached => exact .begins (.inr ⟨wake, rfl, hreached⟩) (Option.some.inj h)
              · simp at h

end TimerLoop

namespace Timer

/-- Whether the timer or its loop owns a command. -/
def Has (t : Timer Command Phase) (command : Command) : Prop :=
  t.command = some command ∨ t.loop.bind TimerLoop.command? = some command

def phase? (t : Timer Command Phase) : Option Phase :=
  match t.loop with
  | some (.live _ _ state) => state.phase?
  | _ => none

/-- Whether the loop goes on from step to step. -/
def isEngaged (t : Timer Command Phase) : Bool :=
  match t.loop with
  | some (.live _ cancelled _) => !cancelled
  | _ => false

def rouse (t : Timer Command Phase) : Timer Command Phase :=
  { t with loop := t.loop.map TimerLoop.rouse }

theorem has_cancel {t : Timer Command Phase} {command : Command} :
    t.cancel.Has command ↔ t.Has command := by
  unfold Has cancel
  cases t.loop with
  | none => rfl
  | some loop => cases loop <;> rfl

theorem has_rouse {t : Timer Command Phase} {command : Command} :
    t.rouse.Has command ↔ t.Has command := by
  unfold Has rouse
  cases t.loop with
  | none => rfl
  | some loop =>
      cases loop with
      | live _ _ state => cases state <;> rfl
      | returned _ | died _ => rfl

@[simp] theorem phase?_cancel (t : Timer Command Phase) : t.cancel.phase? = t.phase? := by
  unfold phase? cancel
  cases t.loop with
  | none => rfl
  | some loop => cases loop <;> rfl

@[simp] theorem phase?_rouse (t : Timer Command Phase) : t.rouse.phase? = t.phase? := by
  unfold phase? rouse
  cases t.loop with
  | none => rfl
  | some loop =>
      cases loop with
      | live _ _ state => cases state <;> rfl
      | returned _ | died _ => rfl

/-- A fresh loop owns the command of its timer and is not in a step yet. -/
theorem of_start {t t' : Timer Command Phase} {stepFirst : Bool}
    (h : t.start stepFirst = .ok t') :
    t'.phase? = none ∧ ∀ command, t'.Has command → t.Has command := by
  unfold start at h
  split at h
  · simp at h
  · simp at h
  · next command _ hcommand =>
      obtain rfl := Except.ok.inj h
      refine ⟨rfl, fun other hhas => .inl ?_⟩
      simpa [Has, TimerLoop.command?, hcommand] using hhas

/-- A timer makes the transitions of its loop. -/
theorem loop_of_poll {d : Drive Env Command Phase} {t t' : Timer Command Phase} {env env' : Env}
    (h : t.poll d env = some (t', env')) :
    ∃ loop loop', t.loop = some loop ∧ t' = { t with loop := some loop' } ∧
      loop.poll d t.name env = some (loop', env') := by
  unfold poll at h
  cases hloop : t.loop with
  | none => simp [hloop] at h
  | some loop =>
      simp only [hloop, Option.map_eq_some_iff, Prod.mk.injEq] at h
      obtain ⟨⟨loop', after⟩, hpoll, rfl, rfl⟩ := h
      exact ⟨loop, loop', rfl, rfl, hpoll⟩

theorem moves_of_poll {d : Drive Env Command Phase} {t t' : Timer Command Phase}
    {env env' : Env} (h : t.poll d env = some (t', env')) :
    ∃ loop loop', t.loop = some loop ∧ t' = { t with loop := some loop' } ∧
      TimerLoop.Moves d t.name env loop loop' env' := by
  obtain ⟨loop, loop', hloop, htimer, hpoll⟩ := loop_of_poll h
  exact ⟨loop, loop', hloop, htimer, TimerLoop.moves_of_poll hpoll⟩

/-- A stop that is over has left no loop behind, and no command that was not
there before. -/
theorem of_stopResult? {t t' : Timer Command Phase} {wait : StopWait} {now : Nat}
    {result : Except TimerError Unit} {events : List Event}
    (h : t.stopResult? wait now = some (t', result, events)) :
    t'.loop = none ∧ ∀ command, t'.Has command → t.Has command := by
  unfold stopResult? at h
  split at h
  next hnone =>
    simp only [Option.some.injEq, Prod.mk.injEq] at h
    obtain ⟨rfl, -⟩ := h
    exact ⟨hnone, fun _ hhas => hhas⟩
  next command hreturned =>
    simp only [Option.some.injEq, Prod.mk.injEq] at h
    obtain ⟨rfl, -⟩ := h
    refine ⟨rfl, fun other hhas => .inr ?_⟩
    simpa [Has, hreturned, TimerLoop.command?] using hhas
  next =>
    simp only [Option.some.injEq, Prod.mk.injEq] at h
    obtain ⟨rfl, -⟩ := h
    exact ⟨rfl, fun other hhas => .inl (by simpa [Has] using hhas)⟩
  next =>
    split at h
    · simp only [Option.some.injEq, Prod.mk.injEq] at h
      obtain ⟨rfl, -⟩ := h
      exact ⟨rfl, fun other hhas => .inl (by simpa [Has] using hhas)⟩
    · simp at h

theorem phase?_of_gone {t : Timer Command Phase} (h : t.loop = none) : t.phase? = none := by
  simp [phase?, h]

/-- A stop in time has waited for the step under way. -/
theorem idle_or_overran {t : Timer Command Phase} {wait : StopWait} {now : Nat}
    {stop : Timer Command Phase × Except TimerError Unit × List Event}
    (h : t.stopResult? wait now = some stop) :
    t.phase? = none ∨ ∃ name timeout, stop.2.1 = .error (.stopTimedOut name timeout) := by
  unfold stopResult? at h
  split at h
  next hloop => exact .inl (by simp [phase?, hloop])
  next hloop => exact .inl (by simp [phase?, hloop])
  next hloop => exact .inl (by simp [phase?, hloop])
  next hloop =>
    split at h
    · exact .inr ⟨t.name, wait.timeout, by rw [← Option.some.inj h]⟩
    · simp at h

theorem stopResult?_eq_none_iff {t : Timer Command Phase} {wait : StopWait} {now : Nat} :
    t.stopResult? wait now = none ↔ t.isRunning = true ∧ Instant.reached now wait.ends = false := by
  unfold stopResult? isRunning
  cases t.loop with
  | none => simp
  | some loop => cases loop <;> simp

end Timer

end LeasedListener
