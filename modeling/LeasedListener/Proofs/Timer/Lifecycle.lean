import LeasedListener.Proofs.Timer.Account
import LeasedListener.Scenario.ScriptedTimer

/-!
# The life of a timer

Whatever its callers and its command do, a timer is started exactly when it
holds its command, loses the command only to a stop that fails, and runs the
steps of the command one after another, each at the end of its wait.
-/

namespace LeasedListener

open Surroundings

variable {Env Command Phase : Type}

@[simp] theorem Timer.wakes_cancel (t : Timer Command Phase) (phaseWakes : Phase → List Nat) :
    t.cancel.wakes phaseWakes = t.wakes phaseWakes := by
  unfold Timer.cancel Timer.wakes
  cases t.loop with
  | none => rfl
  | some loop =>
      cases loop with
      | live _ _ state => cases state <;> rfl
      | returned _ | died _ => rfl

namespace TimerRun

open TimerHistory

variable [Surroundings Env] {d : Drive Env Command Phase} {onTime : Prop} {name : String}
  {initial : Command} {s t : TimerRun Env Command Phase}

structure Invariant (d : Drive Env Command Phase) (onTime : Prop) (name : String)
    (initial : Command) (s : TimerRun Env Command Phase) : Prop where
  named : s.timer.name = name
  lawful : s.history.Lawful d initial onTime
  started : s.history.isStarted = s.timer.loop.isSome
  owned : ∀ loop, s.timer.loop = some loop →
    s.timer.command = none ∧ s.history.isForfeit = false
  kept : s.timer.loop = none →
    s.timer.command = if s.history.isForfeit then none else some (s.history.leftBy initial)
  still : s.timer.loop = none → s.history.isStepping = false
  fits : ∀ loop, s.timer.loop = some loop → s.history.Fits initial s.stop.isSome loop
  ahead : onTime → ∀ wake ∈ s.timer.wakes fun _ => [], now s.env ≤ wake

theorem Invariant.create (d : Drive Env Command Phase) (onTime : Prop) (name : String)
    (initial : Command) (env : Env) : Invariant d onTime name initial
      (⟨env, .create name initial, none, []⟩ : TimerRun Env Command Phase) where
  named := rfl
  lawful := .nil
  started := rfl
  owned := by simp [Timer.create]
  kept _ := rfl
  still _ := rfl
  fits := by simp [Timer.create]
  ahead := by simp [Timer.create, Timer.wakes]

theorem Invariant.started_step (h : s.Invariant d onTime name initial)
    {timer : Timer Command Phase} {stepFirst : Bool} (hfree : s.stop = none)
    (hstart : s.timer.start stepFirst = .ok timer) :
    Invariant d onTime name initial
      { s with
        env := report s.env (.timerStarted s.timer.name)
        timer
        history := .started stepFirst :: s.history } := by
  unfold Timer.start at hstart
  split at hstart
  case h_1 => simp at hstart
  case h_2 => simp at hstart
  case h_3 command hnone hcommand =>
    obtain rfl := Except.ok.inj hstart
    have hstill : s.history.isStepping = false := h.still hnone
    have hkept := h.kept hnone
    have hwhole : s.history.isForfeit = false := by
      cases hforfeit : s.history.isForfeit with
      | false => rfl
      | true => simp [hforfeit, hcommand] at hkept
    have hsame : command = s.history.leftBy initial := by simpa [hcommand, hwhole] using hkept
    constructor
    case named => exact h.named
    case lawful => exact .call trivial h.lawful
    case started => rfl
    case owned => exact fun _ _ => ⟨rfl, hwhole⟩
    case kept => simp
    case still => simp
    case fits =>
      intro loop hloop
      obtain rfl := Option.some.inj hloop
      rw [hfree, hsame]
      exact .opening ⟨hstill, rfl⟩ rfl
    case ahead => simp [Timer.wakes, TimerLoop.wakes]

theorem Invariant.refused_step (h : s.Invariant d onTime name initial) (error : TimerError) :
    Invariant d onTime name initial { s with history := .refused error :: s.history } where
  named := h.named
  lawful := .call trivial h.lawful
  started := h.started
  owned := h.owned
  kept := h.kept
  still := h.still
  fits loop hloop := (h.fits loop hloop).refused error
  ahead := h.ahead

theorem Invariant.cancelled_step (h : s.Invariant d onTime name initial) (hfree : s.stop = none)
    (wait : StopWait) :
    Invariant d onTime name initial { s with timer := s.timer.cancel, stop := some wait } := by
  constructor
  case named => exact h.named
  case lawful => exact h.lawful
  case started => simpa [Timer.cancel] using h.started
  case owned =>
    intro loop hloop
    obtain ⟨before, hbefore, -⟩ := Option.map_eq_some_iff.mp hloop
    exact h.owned before hbefore
  case kept => simpa [Timer.cancel] using h.kept
  case still => simpa [Timer.cancel] using h.still
  case fits =>
    intro loop hloop
    obtain ⟨before, hbefore, rfl⟩ := Option.map_eq_some_iff.mp hloop
    have hfits := h.fits before hbefore
    simp only [hfree, Option.isSome_none] at hfits
    exact hfits.cancel
  case ahead => simpa using h.ahead

theorem Invariant.forfeited_step (h : s.Invariant d onTime name initial) {env : Env}
    {loop : TimerLoop Command Phase} (hloop : s.timer.loop = some loop) {error : TimerError}
    (hforfeits : TimerDeed.forfeits (.stopped (.error error) : TimerDeed Command) = true) :
    Invariant d onTime name initial
      { s with
        env
        timer := ({ s.timer with loop := none } : Timer Command Phase)
        stop := none
        history := .stopped (.error error) :: s.history } where
  named := h.named
  lawful := .call trivial h.lawful
  started := rfl
  owned := by simp
  kept _ := by
    have hforfeit : isForfeit (.stopped (.error error) :: s.history) = true := by
      simp [isForfeit, hforfeits]
    simpa [hforfeit] using (h.owned loop hloop).1
  still _ := rfl
  fits := by simp
  ahead := by simp [Timer.wakes]

theorem Invariant.stopped_step (h : s.Invariant d onTime name initial) {wait : StopWait}
    {timer : Timer Command Phase} {result : Except TimerError Unit} {events : List Event}
    (hreturns : s.timer.stopResult? wait (now s.env) = some (timer, result, events)) :
    Invariant d onTime name initial
      ⟨reportAll s.env events, timer, none, .stopped result :: s.history⟩ := by
  unfold Timer.stopResult? at hreturns
  split at hreturns
  case h_1 hnone =>
    simp only [Option.some.injEq, Prod.mk.injEq] at hreturns
    obtain ⟨rfl, rfl, rfl⟩ := hreturns
    constructor
    case named => exact h.named
    case lawful => exact .call trivial h.lawful
    case started => simp [hnone, isStarted]
    case owned => simp [hnone]
    case kept => exact h.kept
    case still => exact fun _ => rfl
    case fits => simp [hnone]
    case ahead => simp [Timer.wakes, hnone]
  case h_2 command hreturned =>
    simp only [Option.some.injEq, Prod.mk.injEq] at hreturns
    obtain ⟨rfl, rfl, rfl⟩ := hreturns
    have hwhole : s.history.isForfeit = false := (h.owned _ hreturned).2
    have hsame : command = s.history.leftBy initial := by
      cases h.fits _ hreturned
      rfl
    constructor
    case named => exact h.named
    case lawful => exact .call trivial h.lawful
    case started => rfl
    case owned => simp
    case kept =>
      intro _
      have hforfeit : isForfeit (.stopped (.ok ()) :: s.history) = false := hwhole
      simp [hforfeit, hsame, leftBy]
    case still => exact fun _ => rfl
    case fits => simp
    case ahead => simp [Timer.wakes]
  case h_3 reason hdied =>
    simp only [Option.some.injEq, Prod.mk.injEq] at hreturns
    obtain ⟨rfl, rfl, rfl⟩ := hreturns
    exact h.forfeited_step hdied rfl
  case h_4 hlive =>
    split at hreturns
    case isTrue =>
      simp only [Option.some.injEq, Prod.mk.injEq] at hreturns
      obtain ⟨rfl, rfl, rfl⟩ := hreturns
      exact h.forfeited_step hlive rfl
    case isFalse => simp at hreturns

theorem Invariant.polled_step (h : s.Invariant d onTime name initial)
    {timer : Timer Command Phase} {loop' : TimerLoop Command Phase} {env : Env}
    {history : TimerHistory Command}
    (hpolled : s.timer.poll d.logged (s.env, s.history) = some (timer, env, history))
    (hgoes : timer.loop = some loop') :
    Invariant d onTime name initial
      { s with env, timer, history := loop'.pause d env ++ history } := by
  obtain ⟨loop, after, hloop, rfl, hpoll⟩ := Timer.loop_of_poll hpolled
  obtain rfl := Option.some.inj hgoes
  obtain ⟨hnone, hwhole⟩ := h.owned loop hloop
  have hahead : onTime → ∀ wake ∈ loop.wakes fun _ => [], now s.env ≤ wake := by
    simpa [Timer.wakes, hloop] using h.ahead
  have hstarted : s.history.isStarted = true := by simpa [hloop] using h.started
  have htold : TimerLoop.Told d initial onTime s.stop.isSome s.history after env
      (after.pause d env ++ history) :=
    TimerLoop.told_of_poll h.lawful hstarted (h.fits loop hloop) hahead hpoll
  constructor
  case named => exact h.named
  case lawful => exact htold.lawful
  case started => simpa [hstarted] using htold.calls.started
  case owned => exact fun _ _ => ⟨hnone, htold.calls.forfeit.trans hwhole⟩
  case kept => simp
  case still => simp
  case fits =>
    intro last hlast
    obtain rfl := Option.some.inj hlast
    exact htold.fits
  case ahead => exact fun _ => htold.ahead

theorem Invariant.step (h : s.Invariant d onTime name initial) (hstep : Step d onTime s t) :
    t.Invariant d onTime name initial := by
  cases hstep with
  | elsewhere later punctual =>
      constructor
      case named => exact h.named
      case lawful => exact h.lawful
      case started => exact h.started
      case owned => exact h.owned
      case kept => exact h.kept
      case still => exact h.still
      case fits => exact h.fits
      case ahead => exact punctual
  | start free started => exact h.started_step free started
  | refuse _ _ => exact h.refused_step _
  | cancel free => exact h.cancelled_step free _
  | stop _ returns => exact h.stopped_step returns
  | poll polled goes => exact h.polled_step polled goes

theorem Reachable.invariant (h : Reachable d onTime name initial s) :
    s.Invariant d onTime name initial := by
  induction h with
  | create => exact .create d onTime name initial _
  | step _ hstep ih => exact ih.step hstep

structure Lifecycle (d : Drive Env Command Phase) (onTime : Prop) (name : String)
    (initial : Command) (s : TimerRun Env Command Phase) : Prop where
  starts (stepFirst : Bool) :
    (∃ t, s.timer.start stepFirst = .ok t) ↔ s.timer.command.isSome = true
  running (stepFirst : Bool) :
    s.timer.start stepFirst = .error (.alreadyRunning name) ↔ s.history.isStarted = true
  unavailable (stepFirst : Bool) :
    s.timer.start stepFirst = .error (.commandUnavailable name) ↔ s.history.isForfeit = true
  /-- A command that is lost stays lost. -/
  forever : s.history.isForfeit = true → ∀ later, Relation.ReflTransGen (Step d onTime) s later →
    ∀ stepFirst, later.timer.start stepFirst = .error (.commandUnavailable name)
  /-- To stop a timer that is not started changes nothing. -/
  idle : s.history.isStarted = false → ∀ wait instant,
    s.timer.cancel.stopResult? wait instant = some (s.timer, .ok (), [])
  /-- The next start runs the command as its last step has left it. -/
  restarts (stepFirst : Bool) (t : Timer Command Phase) : s.timer.start stepFirst = .ok t →
    t.loop = some (.live (s.history.leftBy initial) false (.spawned stepFirst))
  /-- Only a step that breaks down ends a loop that nobody stops. -/
  survives : s.stop = none → s.history.isStarted = true →
    (s.timer.isRunning = true ↔ s.history.isBroken = false)
  /-- The next step begins as soon as the wait is over. -/
  resumes (since : Nat) (interval : Duration) : s.stop = none → s.history.isStarted = true →
    s.history.cue? = some (.waits since interval) →
    (s.timer.poll d.logged (s.env, s.history)).isSome =
      Instant.reached (now s.env) (Instant.waitEnd since interval)
  /-- Steps begin only after a start that no stop has followed, one at a time,
  and at the end of the wait that the command has asked for. -/
  lawful : s.history.Lawful d initial onTime

theorem Invariant.start_eq (h : s.Invariant d onTime name initial) (stepFirst : Bool) :
    s.timer.start stepFirst =
      if s.history.isStarted then .error (.alreadyRunning name)
      else if s.history.isForfeit then .error (.commandUnavailable name)
      else .ok ⟨name, none,
        some (.live (s.history.leftBy initial) false (.spawned stepFirst))⟩ := by
  have hstarted := h.started
  unfold Timer.start
  cases hloop : s.timer.loop with
  | some loop => simp [hstarted, hloop, h.named]
  | none =>
      have hkept := h.kept hloop
      cases hforfeit : s.history.isForfeit <;>
        simp [hstarted, hloop, hkept, hforfeit, h.named]

theorem Invariant.not_forfeit_of_started (h : s.Invariant d onTime name initial)
    (hstarted : s.history.isStarted = true) : s.history.isForfeit = false := by
  have hsome : s.timer.loop.isSome = true := h.started ▸ hstarted
  obtain ⟨loop, hloop⟩ := Option.isSome_iff_exists.mp hsome
  exact (h.owned loop hloop).2

theorem Invariant.command_isSome (h : s.Invariant d onTime name initial) :
    s.timer.command.isSome = (!s.history.isStarted && !s.history.isForfeit) := by
  have hstarted := h.started
  cases hloop : s.timer.loop with
  | some loop => simp [hstarted, hloop, (h.owned loop hloop).1]
  | none =>
      have hkept := h.kept hloop
      cases hforfeit : s.history.isForfeit <;> simp [hstarted, hloop, hkept, hforfeit]

theorem Invariant.fits_of_started (h : s.Invariant d onTime name initial) (hfree : s.stop = none)
    (hstarted : s.history.isStarted = true) :
    ∃ loop, s.timer.loop = some loop ∧ s.history.Fits initial false loop := by
  have hsome : s.timer.loop.isSome = true := h.started ▸ hstarted
  obtain ⟨loop, hloop⟩ := Option.isSome_iff_exists.mp hsome
  have hfits := h.fits loop hloop
  simp only [hfree, Option.isSome_none] at hfits
  exact ⟨loop, hloop, hfits⟩

theorem Invariant.lost_of_forfeit (h : s.Invariant d onTime name initial)
    (hforfeit : s.history.isForfeit = true) : s.timer = ⟨name, none, none⟩ := by
  have hnone : s.timer.loop = none := by
    cases hloop : s.timer.loop with
    | none => rfl
    | some loop => simp [(h.owned loop hloop).2] at hforfeit
  have hcommand : s.timer.command = none := by simpa [hforfeit] using h.kept hnone
  have hname : s.timer.name = name := h.named
  cases htimer : s.timer
  simp_all

/-- Nothing brings back a command that is lost. -/
theorem lost_of_step (hlost : s.timer = ⟨name, none, none⟩) (hstep : Step d onTime s t) :
    t.timer = ⟨name, none, none⟩ := by
  cases hstep with
  | elsewhere _ _ => exact hlost
  | start _ started => simp [hlost, Timer.start] at started
  | refuse _ _ => exact hlost
  | cancel _ => simp [hlost, Timer.cancel]
  | stop _ returns =>
      simp only [hlost, Timer.stopResult?, Option.some.injEq, Prod.mk.injEq] at returns
      exact returns.1.symm
  | poll polled _ => simp [hlost, Timer.poll] at polled

theorem unavailable_for_ever (hlost : s.timer = ⟨name, none, none⟩)
    (hsteps : Relation.ReflTransGen (Step d onTime) s t) (stepFirst : Bool) :
    t.timer.start stepFirst = .error (.commandUnavailable name) := by
  have hstill : t.timer = ⟨name, none, none⟩ := by
    induction hsteps with
    | refl => exact hlost
    | tail _ hstep ih => exact lost_of_step ih hstep
  simp [hstill, Timer.start]

theorem Invariant.stop_of_stopped (h : s.Invariant d onTime name initial)
    (hstopped : s.history.isStarted = false) (wait : StopWait) (instant : Nat) :
    s.timer.cancel.stopResult? wait instant = some (s.timer, .ok (), []) := by
  have hnone : s.timer.loop = none := by simpa [h.started] using hstopped
  have hcancel : s.timer.cancel = s.timer := by
    cases htimer : s.timer
    simp_all [Timer.cancel]
  simp [hcancel, Timer.stopResult?, hnone]

theorem Invariant.loop_of_start (h : s.Invariant d onTime name initial) {stepFirst : Bool}
    {timer : Timer Command Phase} (hstart : s.timer.start stepFirst = .ok timer) :
    timer.loop = some (.live (s.history.leftBy initial) false (.spawned stepFirst)) := by
  rw [h.start_eq] at hstart
  split at hstart
  · simp at hstart
  · split at hstart
    · simp at hstart
    · rw [← Except.ok.inj hstart]

theorem Invariant.isRunning_iff (h : s.Invariant d onTime name initial) (hfree : s.stop = none)
    (hstarted : s.history.isStarted = true) :
    s.timer.isRunning = true ↔ s.history.isBroken = false := by
  obtain ⟨loop, hloop, hfits⟩ := h.fits_of_started hfree hstarted
  rw [← hfits.isLive_iff]
  cases hfits <;> simp [Timer.isRunning, hloop]

theorem Invariant.isSome_poll (h : s.Invariant d onTime name initial) (hfree : s.stop = none)
    (hstarted : s.history.isStarted = true) {since : Nat} {interval : Duration}
    (hcue : s.history.cue? = some (.waits since interval)) :
    (s.timer.poll d.logged (s.env, s.history)).isSome =
      Instant.reached (now s.env) (Instant.waitEnd since interval) := by
  obtain ⟨loop, hloop, hfits⟩ := h.fits_of_started hfree hstarted
  cases hfits with
  | opening rests cue => simp [cue] at hcue
  | stepping stepping whole cue => simp [cue] at hcue
  | died still broken cue => simp [cue] at hcue
  | returned rests stopping => simp at stopping
  | waiting rests cue =>
      obtain ⟨rfl, rfl⟩ := TimerCue.waits.inj (Option.some.inj (cue.symm.trans hcue))
      simp only [Timer.poll, hloop, TimerLoop.poll, Option.isSome_map]
      split
      · next hreached => exact hreached.symm
      · next hearly => exact (Bool.not_eq_true _ ▸ hearly).symm

theorem lifecycle (h : Reachable d onTime name initial s) : s.Lifecycle d onTime name initial := by
  have hinv : s.Invariant d onTime name initial := h.invariant
  constructor
  case starts =>
    intro stepFirst
    rw [hinv.start_eq, hinv.command_isSome]
    cases s.history.isStarted <;> cases s.history.isForfeit <;> simp
  case running =>
    intro stepFirst
    rw [hinv.start_eq]
    cases s.history.isStarted <;> cases s.history.isForfeit <;> simp
  case unavailable =>
    intro stepFirst
    rw [hinv.start_eq]
    cases hstarted : s.history.isStarted with
    | true => simp [hinv.not_forfeit_of_started hstarted]
    | false => cases s.history.isForfeit <;> simp
  case forever =>
    intro hforfeit later hsteps stepFirst
    exact unavailable_for_ever (hinv.lost_of_forfeit hforfeit) hsteps stepFirst
  case idle => exact fun hstopped wait instant => hinv.stop_of_stopped hstopped wait instant
  case restarts => exact fun stepFirst timer hstart => hinv.loop_of_start hstart
  case survives => exact fun hfree hstarted => hinv.isRunning_iff hfree hstarted
  case resumes =>
    exact fun since interval hfree hstarted hcue => hinv.isSome_poll hfree hstarted hcue
  case lawful => exact hinv.lawful

def faulty : ScriptedCommand where
  script := [{ error := some (.timeout "no answer") }]
  standard := {}
  cadence := .steady (.ofSeconds 1)

def play (d : Drive Env Command Phase) (s : TimerRun Env Command Phase) :
    TimerRun Env Command Phase :=
  match s.timer.poll d.logged (s.env, s.history) with
  | some (timer, env, history) =>
      match timer.loop with
      | some loop => { s with env, timer, history := loop.pause d env ++ history }
      | none => s
  | none => s

theorem Reachable.play (h : Reachable d onTime name initial s) :
    Reachable d onTime name initial (s.play d) := by
  unfold TimerRun.play
  split
  · next polled =>
      split
      · next goes => exact h.step (.poll polled goes)
      · exact h
  · exact h

def underway : TimerRun World ScriptedCommand ScriptedStep where
  env := report World.initial (.timerStarted "ticker")
  timer := .started "ticker" faulty true
  stop := none
  history := [.started true]

/-- The first step has failed, and the second one is waited for. -/
def faulted : TimerRun World ScriptedCommand ScriptedStep :=
  underway.play (ScriptedCommand.drive "ticker")

theorem reachable_faulted :
    Reachable (ScriptedCommand.drive "ticker") True "ticker" faulty faulted := by
  have hcreated : Reachable (ScriptedCommand.drive "ticker") True "ticker" faulty
      ⟨World.initial, .create "ticker" faulty, none, []⟩ := .create
  have hstarted : Reachable (ScriptedCommand.drive "ticker") True "ticker" faulty underway :=
    hcreated.step (.start rfl (Timer.start_create "ticker" faulty true))
  exact hstarted.play

theorem lifecycle_faulted :
    faulted.history.isStarted = true ∧
      faulted.history.cue? = some (.waits 0 (.ofSeconds 1)) ∧
      faulted.Lifecycle (ScriptedCommand.drive "ticker") True "ticker" faulty :=
  ⟨rfl, rfl, lifecycle reachable_faulted⟩

end TimerRun

end LeasedListener
