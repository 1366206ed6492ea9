import LeasedListener.Proofs.Timer.History
import LeasedListener.Proofs.Timer.Transitions

/-!
# What a timer loop tells

A loop fits its history when it is about to do what the history has led up to.
Every transition of a loop is told lawfully, and the loop fits what is told.
-/

namespace LeasedListener

open Surroundings

variable {Env Command Phase : Type}

namespace TimerHistory

variable {initial : Command} {history : TimerHistory Command}

structure Rests (history : TimerHistory Command) : Prop where
  still : history.isStepping = false
  whole : history.isBroken = false

/-- What a loop is about to do, as its history has it. -/
inductive Fits (initial : Command) (cancelled : Bool) (history : TimerHistory Command) :
    TimerLoop Command Phase → Prop
  | opening {stepFirst : Bool} (rests : history.Rests)
      (cue : history.cue? = some (.opens stepFirst)) :
      Fits initial cancelled history
        (.live (history.leftBy initial) cancelled (.spawned stepFirst))
  | waiting {since : Nat} {interval : Duration} (rests : history.Rests)
      (cue : history.cue? = some (.waits since interval)) :
      Fits initial cancelled history
        (.live (history.leftBy initial) cancelled (.waiting (Instant.waitEnd since interval)))
  | stepping {command : Command} {phase : Phase} (stepping : history.isStepping = true)
      (whole : history.isBroken = false) (cue : history.cue? = none) :
      Fits initial cancelled history (.live command cancelled (.stepping phase))
  | returned (rests : history.Rests) (stopping : cancelled = true) :
      Fits initial cancelled history (.returned (history.leftBy initial))
  | died {reason : String} (still : history.isStepping = false)
      (broken : history.isBroken = true) (cue : history.cue? = none) :
      Fits initial cancelled history (.died reason)

theorem Rests.refused (h : history.Rests) (error : TimerError) :
    Rests (.refused error :: history) :=
  ⟨h.still, h.whole⟩

theorem Rests.waited (h : history.Rests) (since : Nat) (interval : Duration) :
    Rests (.waited since interval :: history) :=
  ⟨h.still, h.whole⟩

theorem Fits.refused {loop : TimerLoop Command Phase} {cancelled : Bool}
    (h : history.Fits initial cancelled loop) (error : TimerError) :
    Fits initial cancelled (.refused error :: history) loop := by
  cases h with
  | opening rests cue => exact .opening (rests.refused error) cue
  | waiting rests cue => exact .waiting (rests.refused error) cue
  | stepping stepping whole cue => exact .stepping stepping whole cue
  | returned rests stopping => exact .returned (rests.refused error) stopping
  | died still broken cue => exact .died still broken cue

theorem Fits.cancel {loop : TimerLoop Command Phase} (h : history.Fits initial false loop) :
    history.Fits initial true loop.cancel := by
  cases h with
  | opening rests cue => exact .opening rests cue
  | waiting rests cue => exact .waiting rests cue
  | stepping stepping whole cue => exact .stepping stepping whole cue
  | returned rests stopping => simp at stopping
  | died still broken cue => exact .died still broken cue

/-- A loop lives on unless a step has broken down. -/
theorem Fits.isLive_iff {loop : TimerLoop Command Phase} (h : history.Fits initial false loop) :
    (∃ command state, loop = .live command false state) ↔ history.isBroken = false := by
  cases h with
  | opening rests cue => simp [rests.whole]
  | waiting rests cue => simp [rests.whole]
  | stepping stepping whole cue => simp [whole]
  | returned rests stopping => simp at stopping
  | died still broken cue => simp [broken]

/-- The calls that a history tells of are those of an earlier one. -/
structure SameCalls (before after : TimerHistory Command) : Prop where
  started : after.isStarted = before.isStarted
  forfeit : after.isForfeit = before.isForfeit

end TimerHistory

namespace TimerLoop

open TimerHistory

variable [Surroundings Env] {d : Drive Env Command Phase} {timer : String} {env env' : Env}
  {loop loop' : TimerLoop Command Phase}

/-- How a transition is told: with the calls of before, lawfully, and so that
the loop is as the history has it. -/
structure Told (d : Drive Env Command Phase) (initial : Command) (onTime : Prop)
    (cancelled : Bool) (before : TimerHistory Command) (loop : TimerLoop Command Phase) (env : Env)
    (after : TimerHistory Command) : Prop where
  calls : before.SameCalls after
  lawful : after.Lawful d initial onTime
  fits : after.Fits initial cancelled loop
  ahead : ∀ wake ∈ loop.wakes fun _ => [], now env ≤ wake

theorem le_of_mem_waitEnd {since wake : Nat} {interval : Duration}
    (h : wake ∈ (Instant.waitEnd since interval).toList) : since ≤ wake := by
  unfold Instant.waitEnd at h
  split at h
  · simp at h
  · simp only [Option.toList_some, List.mem_singleton] at h
    have hceil := Instant.le_ceilMilli (since + interval.nanos)
    omega

theorem told_afterStep {initial : Command} {onTime : Prop} {cancelled : Bool}
    {before history : TimerHistory Command} (hlawful : before.Lawful d initial onTime)
    (hstepping : before.isStepping = true) (hwhole : before.isBroken = false)
    (hcue : before.cue? = none)
    {progress : Progress (Env × Command) Phase (Except StorageError Unit)}
    (h : afterStep d.logged timer cancelled (progress.logged before) = (loop, env, history)) :
    Told d initial onTime cancelled before loop env (loop.pause d env ++ history) := by
  cases progress with
  | continues after phase =>
      obtain ⟨rfl, henv⟩ := Prod.mk.inj h
      obtain ⟨-, rfl⟩ := Prod.mk.inj henv
      exact ⟨⟨rfl, rfl⟩, hlawful, .stepping hstepping hwhole hcue, by simp [wakes]⟩
  | ended after result =>
      have hended : TimerHistory.Lawful d initial onTime (.ended after.2 result :: before) :=
        .ends hstepping hlawful
      have hrests : Rests (.ended after.2 result :: before) := ⟨rfl, hwhole⟩
      -- the loop waits from the moment at which the step has ended
      have hwaits : ∀ env' : Env, Told d initial onTime cancelled before
          (.live after.2 cancelled
            (.waiting (Instant.waitEnd (now env') (d.interval env' after.2))))
          env' (.waited (now env') (d.interval env' after.2) ::
            .ended after.2 result :: before) := by
        intro env'
        constructor
        case calls => exact ⟨rfl, rfl⟩
        case lawful => exact .waits (.inl ⟨_, _, _, rfl⟩) hended
        case fits => exact .waiting (hrests.waited _ _) rfl
        case ahead => exact fun wake hwake => le_of_mem_waitEnd hwake
      cases result with
      | ok _ =>
          obtain ⟨rfl, henv⟩ := Prod.mk.inj h
          obtain ⟨rfl, rfl⟩ := Prod.mk.inj henv
          exact hwaits after.1
      | error error =>
          obtain ⟨rfl, henv⟩ := Prod.mk.inj h
          obtain ⟨rfl, rfl⟩ := Prod.mk.inj henv
          exact hwaits (report after.1 (.timerStepFailed timer error))
  | died after reason =>
      obtain ⟨rfl, henv⟩ := Prod.mk.inj h
      obtain ⟨-, rfl⟩ := Prod.mk.inj henv
      exact ⟨⟨rfl, rfl⟩, .breaks hstepping hlawful, .died rfl rfl rfl, by simp [wakes]⟩

theorem isCued_of_due {initial : Command} {onTime : Prop} {history : TimerHistory Command}
    {command : Command} {state : LoopState Phase}
    (hfits : history.Fits initial false (.live command false state))
    (hdue : state = .spawned true ∨
      ∃ wake, state = .waiting wake ∧ Instant.reached (now env) wake = true)
    (hahead : onTime → ∀ wake ∈ (TimerLoop.live command false state).wakes fun _ => [],
      now env ≤ wake) :
    history.Rests ∧ command = history.leftBy initial ∧ history.IsCued onTime (now env) := by
  cases hfits with
  | opening rests cue =>
      rcases hdue with hfirst | ⟨wake, hwake, -⟩
      · obtain rfl := LoopState.spawned.inj hfirst
        exact ⟨rests, rfl, .first cue⟩
      · simp at hwake
  | @waiting since interval rests cue =>
      rcases hdue with hfirst | ⟨wake, hwake, hreached⟩
      · simp at hfirst
      · obtain rfl := LoopState.waiting.inj hwake
        cases hends : Instant.waitEnd since interval with
        | none => simp [hends, Instant.reached] at hreached
        | some due =>
            have hpast : due ≤ now env := by simpa [hends, Instant.reached] using hreached
            refine ⟨rests, rfl, .later cue hends hpast ?_⟩
            intro honTime
            have hnow : now env ≤ due := hahead honTime due (by simp [wakes, hends])
            omega
  | stepping stepping whole cue => simp at hdue

theorem told_of_poll {initial : Command} {onTime : Prop} {cancelled : Bool}
    {history history' : TimerHistory Command} (hlawful : history.Lawful d initial onTime)
    (hstarted : history.isStarted = true) (hfits : history.Fits initial cancelled loop)
    (hahead : onTime → ∀ wake ∈ loop.wakes fun _ => [], now env ≤ wake)
    (h : loop.poll d.logged timer (env, history) = some (loop', env', history')) :
    Told d initial onTime cancelled history loop' env' (loop'.pause d env' ++ history') := by
  generalize hbefore : (env, history) = before at h
  generalize hafter : (env', history') = after at h
  cases moves_of_poll h with
  | waits =>
      subst hbefore
      obtain ⟨rfl, rfl⟩ := Prod.mk.inj hafter
      cases hfits with
      | opening rests cue =>
          constructor
          case calls => exact ⟨rfl, rfl⟩
          case lawful => exact .waits (.inr cue) hlawful
          case fits => exact .waiting (rests.waited _ _) rfl
          case ahead => exact fun wake hwake => le_of_mem_waitEnd hwake
  | returns idle =>
      subst hbefore
      obtain ⟨rfl, rfl⟩ := Prod.mk.inj hafter
      refine ⟨⟨rfl, rfl⟩, hlawful, ?_, by simp [wakes]⟩
      cases hfits with
      | opening rests cue => exact .returned rests rfl
      | waiting rests cue => exact .returned rests rfl
      | stepping stepping whole cue => simp [LoopState.phase?] at idle
  | @begins command state _ _ due after =>
      subst hbefore hafter
      have hcancelled : cancelled = false := by cases hfits <;> rfl
      subst hcancelled
      obtain ⟨hrests, hsame, hcued⟩ := isCued_of_due hfits due hahead
      have hbegun : TimerHistory.Lawful d initial onTime (.began (now env) command :: history) :=
        .begins hstarted hrests.still hsame hcued hlawful
      obtain ⟨⟨hcalls, hforfeit⟩, hlawful', hfits', hahead'⟩ :=
        told_afterStep hbegun rfl hrests.whole rfl after
      exact ⟨⟨hcalls, hforfeit⟩, hlawful', hfits', hahead'⟩
  | @advances command _ phase progress _ _ advance after =>
      subst hbefore hafter
      simp only [Drive.logged, Option.map_eq_some_iff] at advance
      obtain ⟨own, -, rfl⟩ := advance
      cases hfits with
      | stepping stepping whole cue => exact told_afterStep hlawful stepping whole cue after

end TimerLoop

end LeasedListener
