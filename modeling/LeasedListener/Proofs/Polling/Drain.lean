import LeasedListener.Proofs.Polling.Workload

/-!
# Sweeps come to an end

No transition of the tick or of its renewal timer adds to what a sweep has
still to do, so the sweep comes to an end whatever fails.
-/

namespace LeasedListener

open Surroundings

namespace Sweep

variable {s : Sweep} {w w' : World} {phase phase' : TickPhase} {doings later : List Doing}
  {course : TickCourse} {cancelled : Bool} {role : QueueRole} {call : QueueCall}
  {transit : Transit} {reply : Except StorageError call.Reply} {env env' : World × List Doing}
  {m : Delivery}

theorem of_advanceRenewal (hfits : s.Fits env.1 phase)
    (h : s.poller.advanceRenewal s.access env phase = some (env', phase')) :
    env' = env ∧ s.Fits env.1 phase' ∧ phase'.rank < phase.rank ∧
      ∃ renewal, phase' = phase.withRenewal renewal := by
  cases phase with
  | executing claim renewal execution =>
      obtain ⟨hjudged, ⟨loop, hloop, hresting⟩, hcounted⟩ := hfits
      simp only [Poller.advanceRenewal, Option.map_eq_some_iff, Prod.mk.injEq] at h
      obtain ⟨⟨renewal', after, claim'⟩, hpoll, rfl, rfl⟩ := h
      obtain ⟨rfl, rfl, loop', hloop', hresting', hless⟩ := Resting.of_poll hresting hloop hpoll
      refine ⟨rfl, ⟨hjudged, ⟨loop', hloop', hresting'⟩, hcounted⟩, ?_, renewal', rfl⟩
      simpa [TickPhase.rank, hloop, hloop'] using hless
  | settling claim renewal succeeded wait =>
      obtain ⟨⟨loop, hloop, hresting⟩, hcounted⟩ := hfits
      simp only [Poller.advanceRenewal, Option.map_eq_some_iff, Prod.mk.injEq] at h
      obtain ⟨⟨renewal', after, claim'⟩, hpoll, rfl, rfl⟩ := h
      obtain ⟨rfl, rfl, loop', hloop', hresting', hless⟩ := Resting.of_poll hresting hloop hpoll
      refine ⟨rfl, ⟨⟨loop', hloop', hresting'⟩, hcounted⟩, ?_, renewal', rfl⟩
      simpa [TickPhase.rank, hloop, hloop'] using hless
  | probing _ | dequeuing _ _ | deleting _ _ | releasing _ _ | preparing _ _ | copying _ _ =>
      simp [Poller.advanceRenewal] at h

theorem Fits.goes_on (hfits : s.Fits env.1 phase) (cancelled : Bool) :
    ∃ progress, s.Step cancelled (.continues env phase) progress := by
  cases phase with
  | probing transit =>
      have harrived : transit.arrived (now env) = true := hfits
      exact ⟨_, .own (if_pos harrived)⟩
  | dequeuing found transit =>
      have harrived : transit.arrived (now env) = true := hfits
      exact ⟨_, .own (if_pos harrived)⟩
  | deleting m transit =>
      have harrived : transit.arrived (now env) = true := hfits
      exact ⟨_, .own (if_pos harrived)⟩
  | releasing m transit | preparing m transit | copying m transit =>
      have harrived : transit.arrived (now env) = true := hfits.1
      exact ⟨_, .own (if_pos harrived)⟩
  | executing claim renewal execution =>
      have hresult : execution.result? (now env) cancelled = some execution.outcome := by
        obtain ⟨history, m, rfl⟩ := hfits.1
        exact if_pos (decide_eq_true (Nat.le_refl env.1.now))
      exact ⟨_, .own (congrArg (Option.map _) hresult)⟩
  | settling claim renewal succeeded wait =>
      obtain ⟨loop, hloop, hresting⟩ := hfits.1
      have hstops : (renewal.stopResult? wait (now env)).isSome = true ∨
          (renewal.poll (s.poller.renewalDrive s.access) (env, claim)).isSome = true :=
        Resting.stops hresting hloop wait
      rcases hstops with hstopped | hpolled
      · obtain ⟨stopped, hstopped⟩ := Option.isSome_iff_exists.mp hstopped
        exact ⟨_, .own (congrArg (Option.map _) hstopped)⟩
      · obtain ⟨polled, hpolled⟩ := Option.isSome_iff_exists.mp hpolled
        exact ⟨_, .tend (congrArg (Option.map _) hpolled)⟩

structure Account (s : Sweep) (w : World) (n : Nat)
    (progress : TickProgress (World × List Doing)) : Prop where
  now : progress.env.1.now = w.now
  prompt : s.IsPrompt progress.env.1
  distinct : (progress.env.1.queue s.poller.queue).IsDistinct
  fits : ∀ phase, progress.phase? = some phase → s.Fits progress.env.1 phase
  deliveries : (taken progress.env.2).length + s.pending progress.env.1 progress.phase? ≤
    s.workload w
  work : n + s.work progress.env.1 progress.phase? ≤ 8 * s.workload w + 2
  broken : ∀ reason, progress.course = .died () reason →
    ∃ history m, s.judge history m = .error reason

variable {signal : Nat → Bool} {n : Nat} {progress progress' : TickProgress (World × List Doing)}

theorem account_probe (hdistinct : (w.queue s.poller.queue).IsDistinct)
    (hprompt : s.IsPrompt w) : s.Account w 0 (Poller.probe s.access (w, [])) := by
  have hdoes : Does s.access (w, []) _ (Poller.probe s.access (w, [])).env :=
    Does.rest.begin .primary .probe
  have hsilent : ∀ doing ∈ [Doing.begun .primary .probe (s.access.queue.issue (w, []) .probe).2],
      doing.isAnswer = false := by
    simp [Doing.isAnswer]
  have hqueue := queue_of_does hdoes hsilent s.poller.queue
  have hload := workload_congr (clock_of_does hdoes).1 hqueue
  have hhistory := history_of_does hdoes
  constructor
  case now => exact (clock_of_does hdoes).1
  case prompt =>
    have hscripted : s.Scripted (fun delay _ => delay.isZero = true) (w, ([] : List Doing)).1 :=
      hprompt
    exact scripted_of_does hscripted hdoes
  case distinct =>
    rw [hqueue]
    exact hdistinct
  case fits =>
    rintro _ ⟨⟩
    exact arrived_of_begun hprompt hdoes (List.mem_cons_self ..)
  case deliveries =>
    rw [hhistory]
    exact Nat.le_of_eq ((Nat.zero_add _).trans hload)
  case work =>
    have hwork : s.work (Poller.probe s.access (w, [])).env.1
      (Poller.probe s.access (w, [])).phase? =
        8 * s.workload (Poller.probe s.access (w, [])).env.1 + 2 := rfl
    exact Nat.le_of_eq ((Nat.zero_add _).trans (hwork.trans (congrArg (8 * · + 2) hload)))
  case broken =>
    intro reason hdied
    cases hdied

theorem broken_of_script {reason : String} (hfits : s.Fits w phase)
    (hscript : Script s.poller cancelled phase doings (.died () reason)) :
    ∃ history m, s.judge history m = .error reason := by
  cases hscript with
  | broken ended => exact (hfits.1.result ended).2
  | present seeks => exact absurd rfl (seeks.turns.lives _)
  | settled _ disposes =>
      cases disposes with
      | leaves _ seeks => exact absurd rfl (seeks.turns.lives _)
  | deleted concludes => exact absurd rfl (concludes.turns.lives _)
  | released concludes => exact absurd rfl (concludes.turns.lives _)
  | unreleased concludes => exact absurd rfl (concludes.turns.lives _)
  | unprepared forgoes => exact absurd rfl (forgoes.turns.lives _)
  | uncopied forgoes => exact absurd rfl (forgoes.turns.lives _)

theorem Account.own {env : World × List Doing} {phase : TickPhase}
    (h : s.Account w n (.continues env phase))
    (hadvances : s.poller.advance s.access env cancelled phase = some progress) :
    s.Account w (n + 1) progress := by
  obtain ⟨doings, hdoes, hscript⟩ := advance_performs hadvances
  have hprompt : s.IsPrompt env.1 := h.prompt
  have hspends := spends_of_script hprompt h.distinct (h.fits phase rfl) hdoes hscript
  have hphase := phase?_course progress
  have hdeliveries : (taken env.2).length + s.pending env.1 (some phase) ≤ s.workload w :=
    h.deliveries
  have hwork : n + s.work env.1 (some phase) ≤ 8 * s.workload w + 2 := h.work
  constructor
  case now => exact (clock_of_does hdoes).1.trans h.now
  case prompt => exact scripted_of_does h.prompt hdoes
  case distinct => exact hspends.distinct
  case fits => exact fun phase' hphase' => hspends.fits phase' (hphase.trans hphase')
  case deliveries =>
    have hspent := hspends.deliveries
    rw [hphase] at hspent
    rw [history_of_does hdoes, taken_append, List.length_append]
    omega
  case work =>
    have hspent := hspends.work
    rw [hphase] at hspent
    omega
  case broken =>
    intro reason hdied
    rw [hdied] at hscript
    exact broken_of_script (h.fits phase rfl) hscript

theorem Account.tend {env env' : World × List Doing} {phase phase' : TickPhase}
    (h : s.Account w n (.continues env phase))
    (htends : s.poller.advanceRenewal s.access env phase = some (env', phase')) :
    s.Account w (n + 1) (.continues env' phase') := by
  obtain ⟨rfl, hfits, hrank, renewal, rfl⟩ := of_advanceRenewal (h.fits phase rfl) htends
  have hpending : s.pending env'.1 (some (phase.withRenewal renewal)) =
      s.pending env'.1 (some phase) :=
    congrArg (s.workload env'.1 + ·) (phase.reserve_withRenewal s.poller renewal)
  have hdeliveries : (taken env'.2).length + s.pending env'.1 (some phase) ≤ s.workload w :=
    h.deliveries
  have hwork : n + (8 * s.pending env'.1 (some phase) + phase.rank) ≤ 8 * s.workload w + 2 :=
    h.work
  constructor
  case now => exact h.now
  case prompt => exact h.prompt
  case distinct => exact h.distinct
  case fits =>
    rintro _ ⟨⟩
    exact hfits
  case deliveries =>
    show (taken env'.2).length + s.pending env'.1 (some (phase.withRenewal renewal)) ≤ s.workload w
    omega
  case work =>
    show n + 1 + (8 * s.pending env'.1 (some (phase.withRenewal renewal)) +
      (phase.withRenewal renewal).rank) ≤ 8 * s.workload w + 2
    omega
  case broken =>
    intro reason hdied
    cases hdied

theorem Run.account (h : s.Run signal w n progress)
    (hdistinct : (w.queue s.poller.queue).IsDistinct) (hprompt : s.IsPrompt w) :
    s.Account w n progress := by
  induction h with
  | probe => exact account_probe hdistinct hprompt
  | step _ step ih =>
      cases step with
      | own advances => exact ih.own advances
      | tend tends => exact ih.tend tends

/-- A sweep that keeps to its bounds, and that goes on until the tick is over
or the user function breaks down. -/
structure Drains (s : Sweep) (signal : Nat → Bool) (w : World) (n : Nat)
    (progress : TickProgress (World × List Doing)) : Prop where
  deliveries : (taken progress.env.2).length ≤ s.workload w
  transitions : n ≤ 8 * s.workload w + 2
  goes_on : (∃ result, progress.course = .ended () result) ∨
    (∃ reason, progress.course = .died () reason ∧
      ∃ history m, s.judge history m = .error reason) ∨
    ∃ next, s.Step (signal n) progress next

theorem Account.drains (h : s.Account w n progress) (signal : Nat → Bool) :
    s.Drains signal w n progress where
  deliveries := Nat.le_trans (Nat.le_add_right _ _) h.deliveries
  transitions := Nat.le_trans (Nat.le_add_right _ _) h.work
  goes_on := by
    cases progress with
    | continues env phase => exact .inr (.inr ((h.fits phase rfl).goes_on (signal n)))
    | ended env result => exact .inl ⟨result, rfl⟩
    | died env reason => exact .inr (.inl ⟨reason, rfl, h.broken reason rfl⟩)

/-- Whatever fails, and in whichever order the tick and its renewal timer make
their transitions, a sweep comes to an end. -/
theorem sweep_drains (hdistinct : (w.queue s.poller.queue).IsDistinct) (hprompt : s.IsPrompt w)
    (hrun : s.Run signal w n progress) : s.Drains signal w n progress :=
  (hrun.account hdistinct hprompt).drains signal

theorem Run.proceed (h : s.Run (fun _ => false) w n progress) (count : Nat) :
    ∃ n', s.Run (fun _ => false) w n' (s.poller.proceed s.access count progress) := by
  refine Poller.kept_of_proceed
    (P := fun progress => ∃ n', s.Run (fun _ => false) w n' progress) ?_ ?_ ⟨n, h⟩ count
  · rintro env phase progress ⟨n', hrun⟩ hadvances
    exact ⟨n' + 1, hrun.step (.own hadvances)⟩
  · rintro env env' phase phase' ⟨n', hrun⟩ htends
    exact ⟨n' + 1, hrun.step (.tend htends)⟩

def clumsy : Sweep where
  poller := ⟨"jobs", some "scrap", { PollingConfig.standard with maxDequeueCount := 2 }⟩
  name := "worker"
  tally := "worker"
  judge _ _ := .ok false
  valid := by
    rw [PollingConfig.validate_eq_ok_iff]
    decide
  apart := by decide

/-- One message that was never dequeued and one that was dequeued too often.
The answer to the first release and the first copy get lost. -/
def troubled : World :=
  { World.initial with
    queues := ⟨[("jobs", { Queue.create "jobs" with messages :=
      [⟨⟨0⟩, [7], 0, scenarioEpoch, 0, none⟩, ⟨⟨1⟩, [8], 9, scenarioEpoch, 0, none⟩] }),
      ("scrap", .create "scrap")]⟩
    gateways := ⟨[
      ("worker.queue", { script := [⟨.update, .zero, some ⟨.timeout "", true⟩, 1⟩] }),
      ("worker.poison", { script := [⟨.enqueue, .zero, some ⟨.timeout "", false⟩, 1⟩] })]⟩ }

theorem isPrompt_troubled : clumsy.IsPrompt troubled := by
  intro role
  cases role <;> decide

/-- The first message is delivered as often as the limit says, the other one
once. -/
theorem sweep_drains_troubled :
    (troubled.queue "jobs").IsDistinct ∧ clumsy.IsPrompt troubled ∧
      clumsy.workload troubled = 3 ∧
      ∃ n progress, clumsy.Run (fun _ => false) troubled n progress ∧
        progress.course = .ended () (.ok true) ∧ (taken progress.env.2).length = 3 ∧
        clumsy.Drains (fun _ => false) troubled n progress := by
  have hdistinct : (troubled.queue "jobs").IsDistinct :=
    (by decide : ([⟨0⟩, ⟨1⟩] : List MessageId).Nodup)
  refine ⟨hdistinct, isPrompt_troubled, by decide, ?_⟩
  obtain ⟨n, hrun⟩ :=
    (Run.probe : clumsy.Run (fun _ => false) troubled 0 _).proceed 60
  exact ⟨n, _, hrun, rfl, rfl, sweep_drains hdistinct isPrompt_troubled hrun⟩

end Sweep

end LeasedListener
