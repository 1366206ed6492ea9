import LeasedListener.Proofs.Polling.Charge

/-!
# Renewals in time

A renewal timer acts no later than it has to, and its calls take no time.  The
first renewal that fails is then followed by another one before the window of
the claim is over, but for one exception: where the window is exactly twice the
smallest wait between renewals, the second one comes as the window ends.
-/

namespace LeasedListener

open Surroundings

namespace PollingConfig

/-- The wait that follows the first failure of a renewal. -/
def retryInterval (c : PollingConfig) : Duration :=
  ((Speedup.start c.renewalInterval c.minRenewalInterval).after false).current

variable {c : PollingConfig}

theorem minRenewalInterval_le (c : PollingConfig) :
    c.minRenewalInterval.nanos ≤ c.renewalInterval.nanos := by
  rw [nanos_renewalInterval]
  exact Nat.le_max_right _ _

theorem nanos_retryInterval (c : PollingConfig) :
    c.retryInterval.nanos = max (c.renewalInterval.nanos / 2) c.minRenewalInterval.nanos := by
  have hcurrent : c.retryInterval.nanos =
      Speedup.waitAfter c.renewalInterval c.minRenewalInterval 1 :=
    Speedup.nanos_current_afterFailures _ _ 1
  rw [hcurrent, Speedup.waitAfter_one, Nat.min_eq_left c.minRenewalInterval_le]

theorem renewal_and_retry_le (h : c.validate = .ok ()) :
    c.renewalInterval.nanos + c.retryInterval.nanos ≤ c.visibilityTimeout.nanos := by
  have htwice := twice_renewalInterval_le h
  have hleast := c.minRenewalInterval_le
  rw [nanos_retryInterval]
  omega

/-- The retry comes as the window ends just if the window is as short as can
be. -/
theorem renewal_and_retry_lt_iff (h : c.validate = .ok ()) :
    c.renewalInterval.nanos + c.retryInterval.nanos < c.visibilityTimeout.nanos ↔
      c.visibilityTimeout.nanos ≠ 2 * c.minRenewalInterval.nanos := by
  obtain ⟨-, -, -, -, hpositive, hrange, hcovers⟩ := c.validate_eq_ok_iff.mp h
  rw [nanos_retryInterval, nanos_renewalInterval]
  omega

end PollingConfig

namespace Poller

/-- The pace of a renewal timer after a number of failures in a row. -/
def paceAfter (p : Poller) (failures : Nat) : Pace Speedup :=
  let policy := { p.renewalPolicy with failures }
  ⟨policy, policy.current⟩

/-- How long after the last success a renewal is made. -/
def patience (p : Poller) (failures : Nat) : Nat :=
  p.config.renewalInterval.nanos + if failures = 0 then 0 else (p.paceAfter failures).next.nanos

theorem outcome_paceAfter (p : Poller) (failures : Nat) (succeeded : Bool) :
    (p.paceAfter failures).outcome succeeded =
      p.paceAfter (if succeeded then 0 else min (failures + 1) mostFailures) := rfl

theorem next_paceAfter_one (p : Poller) : (p.paceAfter 1).next = p.config.retryInterval := rfl

end Poller

namespace Charge

/-- The claim on the message under execution, with the loop that renews it. -/
def renewal? (c : Charge) : Option (Claim × RenewalLoop) :=
  (c.phase?.bind TickPhase.charge?).bind fun charge => charge.2.loop.map (charge.1, ·)

/-- When the renewal timer is to act next. -/
def deadline (c : Charge) : Nat :=
  match c.renewal? with
  | some (_, .live pace _ (.waiting _)) => c.env.1.now + pace.next.nanos
  | _ => c.env.1.now

end Charge

/-- A loop that is to make another call, or waits for an answer. -/
def TimerLoop.isBound {Command Phase : Type} : TimerLoop Command Phase → Bool
  | .live _ cancelled state => !cancelled || state.phase?.isSome
  | _ => false

/-- A message in the charge of a poller, and when its renewal timer is to act. -/
structure Vigil where
  charge : Charge
  due : Nat

namespace Vigil

/-- The renewal timer has not let its time pass. -/
def IsTimely (v : Vigil) (now : Nat) : Prop :=
  ∀ claim loop, v.charge.renewal? = some (claim, loop) → loop.isBound = true → now ≤ v.due

section

variable (p : Poller) (name tally : String)

/-- Each transition of the renewal timer sets the time for the next one. -/
inductive Step : Vigil → Vigil → Prop
  | stir {v : Vigil} {c : Charge} (stirs : Charge.Stir p name tally v.charge c)
      (timely : v.IsTimely c.env.1.now) : Step v { v with charge := c }
  | tend {v : Vigil} {phase phase' : TickPhase} {env : World × Diary} {c : Charge}
      (current : v.charge.phase? = some phase)
      (tends : p.advanceRenewal (Charge.access p name tally) v.charge.env phase =
        some (env, phase')) (next : c = { v.charge with env, phase? := some phase' }) :
      Step v ⟨c, c.deadline⟩

inductive Reachable : Vigil → Prop
  | start {c : Charge} (starts : Charge.Starts p name tally c) : Reachable ⟨c, c.deadline⟩
  | step {v v' : Vigil} : Reachable v → Step p name tally v v' → Reachable v'

/-- The wait that is still to be started. -/
def headway (pace : Pace Speedup) : LoopState RenewalCall → Nat
  | .spawned _ => pace.next.nanos
  | _ => 0

/-- A renewal is made no later than it should be, in terms of the last success
and of the failures since. -/
structure Watches (v : Vigil) (claim : Claim) (pace : Pace Speedup) (cancelled : Bool)
    (state : LoopState RenewalCall) : Prop where
  asking : state.phase?.isSome = true → claim.lost = false
  steady : pace = p.paceAfter pace.policy.failures
  punctual : (!cancelled || state.phase?.isSome) = true → v.charge.env.1.now ≤ v.due
  early : claim.lost = false → pace.policy.failures ≤ 1 → ∃ since receipt,
    v.charge.env.2.lastIssue? = some (since, receipt) ∧
      v.due + headway pace state ≤ since + p.patience pace.policy.failures

def IsKept (v : Vigil) : Prop :=
  ∀ claim pace cancelled state, v.charge.renewal? = some (claim, .live pace cancelled state) →
    v.Watches p claim pace cancelled state

end

section

variable {p : Poller} {name tally : String} {v v' : Vigil} {c c' : Charge} {claim claim' : Claim}

theorem Reachable.charge (h : Reachable p name tally v) :
    Charge.Reachable p name tally v.charge := by
  induction h with
  | start starts => exact .start starts
  | step _ hstep ih =>
      cases hstep with
      | stir stirs _ => exact ih.step (.stir stirs)
      | tend current tends next =>
          subst next
          exact ih.step (.tend current tends)

theorem renewal?_of_charge {phase : TickPhase} {renewal : RenewalTimer} {loop : RenewalLoop}
    (hphase : c.phase? = some phase) (hcharge : phase.charge? = some (claim, renewal))
    (hloop : renewal.loop = some loop) : c.renewal? = some (claim, loop) := by
  simp [Charge.renewal?, hphase, hcharge, hloop]

theorem charge_of_renewal? {loop : RenewalLoop} (h : c.renewal? = some (claim, loop)) :
    ∃ phase renewal, c.phase? = some phase ∧ phase.charge? = some (claim, renewal) ∧
      renewal.loop = some loop := by
  obtain ⟨⟨claim', renewal⟩, hfound, hrenewed⟩ := Option.bind_eq_some_iff.mp h
  obtain ⟨phase, hphase, hcharge⟩ := Option.bind_eq_some_iff.mp hfound
  obtain ⟨loop', hloop, hsame⟩ := Option.map_eq_some_iff.mp hrenewed
  obtain ⟨rfl, rfl⟩ := Prod.mk.inj hsame
  exact ⟨phase, renewal, hphase, hcharge, hloop⟩

/-- What happens beside the renewal timer can wake it and cancel it, and does
not renew the claim. -/
theorem renewal?_of_stir {pace : Pace Speedup} {cancelled : Bool} {state : LoopState RenewalCall}
    (h : Charge.Stir p name tally c c')
    (hrenewal : c'.renewal? = some (claim, .live pace cancelled state)) :
    ∃ before earlier, c.renewal? = some (claim, .live pace before earlier) ∧
      (cancelled = false → before = false) ∧ earlier.phase? = state.phase? ∧
      headway pace earlier = headway pace state ∧ c'.env.2.lastIssue? = c.env.2.lastIssue? := by
  cases h with
  | elapse _ | elsewhere _ | client _ | push | inject | drop =>
      exact ⟨cancelled, state, hrenewal, id, rfl, rfl, rfl⟩
  | rouse =>
      obtain ⟨phase', renewal', hphase', hcharge', hloop'⟩ := charge_of_renewal? hrenewal
      obtain ⟨phase, hphase, rfl⟩ := Option.map_eq_some_iff.mp hphase'
      rw [Charge.charge?_rouse] at hcharge'
      obtain ⟨⟨claim', renewal⟩, hcharge, hsame⟩ := Option.map_eq_some_iff.mp hcharge'
      obtain ⟨rfl, rfl⟩ := Prod.mk.inj hsame
      obtain ⟨loop, hloop, hroused⟩ := Option.map_eq_some_iff.mp hloop'
      have hbefore : c.renewal? = some (claim', loop) :=
        renewal?_of_charge hphase hcharge hloop
      cases loop with
      | returned _ | died _ => cases hroused
      | live _ before earlier =>
          cases earlier with
          | spawned _ | stepping _ | waiting _ =>
              cases hroused
              exact ⟨_, _, hbefore, id, rfl, rfl, rfl⟩
  | @own phase _ progress current held advances =>
      obtain ⟨phase', renewal', hphase', hcharge', hloop'⟩ := charge_of_renewal? hrenewal
      obtain ⟨doings, hdoes, hscript⟩ := advance_performs advances
      obtain ⟨renewal, hcharge, rfl, hunissued⟩ := hscript.charge held hphase' hcharge'
      obtain ⟨-, hdiary⟩ := Charge.entries_of_does hdoes
      obtain ⟨loop, hloop, hcancelled⟩ := Option.map_eq_some_iff.mp hloop'
      have hbefore : c.renewal? = some (claim, loop) := renewal?_of_charge current hcharge hloop
      have hissue : Diary.lastIssue? progress.env.2 = c.env.2.lastIssue? := by
        rw [hdiary]
        exact Diary.lastIssue?_append _ _ hunissued
      cases loop with
      | returned _ | died _ => cases hcancelled
      | live _ before earlier =>
          cases hcancelled
          exact ⟨_, _, hbefore, by simp, rfl, rfl, hissue⟩

theorem IsKept.stir (h : v.IsKept p) (hstirs : Charge.Stir p name tally v.charge c)
    (htimely : v.IsTimely c.env.1.now) : IsKept p { v with charge := c } := by
  intro claim pace cancelled state hrenewal
  obtain ⟨before, earlier, hbefore, hcancelled, hphase, hheadway, hissue⟩ :=
    renewal?_of_stir hstirs hrenewal
  have hwatches : v.Watches p claim pace before earlier := h _ _ _ _ hbefore
  constructor
  case asking =>
    rw [← hphase]
    exact hwatches.asking
  case steady => exact hwatches.steady
  case punctual =>
    intro hbound
    refine htimely _ _ hbefore ?_
    simp only [TimerLoop.isBound, hphase]
    cases cancelled with
    | false => simp [hcancelled rfl]
    | true =>
        have hasking : state.phase?.isSome = true := hbound
        simp [hasking]
  case early =>
    intro hkept hfew
    simp only [hissue, ← hheadway]
    exact hwatches.early hkept hfew

section

variable {pace pace' : Pace Speedup} {cancelled cancelled' : Bool}
  {state state' : LoopState RenewalCall} {loop : RenewalLoop}

theorem deadline_of_waiting {wake : Option Nat}
    (h : c.renewal? = some (claim, .live pace cancelled (.waiting wake))) :
    c.deadline = c.env.1.now + pace.next.nanos := by
  simp [Charge.deadline, h]

theorem deadline_of_stepping {waiting : RenewalCall}
    (h : c.renewal? = some (claim, .live pace cancelled (.stepping waiting))) :
    c.deadline = c.env.1.now := by
  simp [Charge.deadline, h]

/-- The wait after an answer leads to the next renewal in time. -/
theorem Watches.heard {waiting : RenewalCall} {reply : Except StorageError Receipt}
    {result : Except StorageError Bool} {wake : Option Nat} {transit : Transit}
    (h : v.Watches p claim pace cancelled (.stepping waiting))
    (hlearns : Learns claim reply claim' result) (hnow : c.env.1.now = v.charge.env.1.now)
    (hdiary : c.env.2 = ⟨v.charge.env.1.now, .answered .primary
      (.update waiting.presented p.config.visibilityTimeout) transit reply⟩ :: v.charge.env.2)
    (hrenewal : c.renewal? =
      some (claim', .live (pace.afterResult result) cancelled (.waiting wake))) :
    Watches p ⟨c, c.deadline⟩ claim' (pace.afterResult result) cancelled (.waiting wake) := by
  have hpunctual : v.charge.env.1.now ≤ v.due := h.punctual (by simp [LoopState.phase?])
  have houtcome : ∀ succeeded, pace.outcome succeeded =
      p.paceAfter (if succeeded then 0 else min (pace.policy.failures + 1) mostFailures) := by
    intro succeeded
    rw [← Poller.outcome_paceAfter, ← h.steady]
  constructor
  case asking => rintro ⟨⟩
  case steady =>
    cases result with
    | ok succeeded => simp only [Pace.afterResult, houtcome, Poller.paceAfter]
    | error error => simp only [Pace.afterResult, houtcome, Poller.paceAfter]
  case punctual =>
    intro _
    simp only [deadline_of_waiting hrenewal]
    exact Nat.le_add_right _ _
  case early =>
    -- only a first failure leaves the number of failures at one
    have hfailed : claim.lost = false → (pace.outcome false).policy.failures ≤ 1 →
        ∃ since receipt, v.charge.env.2.lastIssue? = some (since, receipt) ∧
          v.charge.env.1.now + (pace.outcome false).next.nanos ≤
            since + p.patience (pace.outcome false).policy.failures := by
      intro hkept hfew
      have hnone : pace.policy.failures = 0 := by
        have hcount : (pace.outcome false).policy.failures =
            min (pace.policy.failures + 1) mostFailures := rfl
        simp only [mostFailures] at hcount
        omega
      obtain ⟨since, receipt, hissue, hdue⟩ := h.early hkept (by omega)
      refine ⟨since, receipt, hissue, ?_⟩
      have hone : pace.outcome false = p.paceAfter 1 := by
        rw [houtcome, hnone]
        rfl
      have hfailures : (p.paceAfter 1).policy.failures = 1 := rfl
      rw [hone, hfailures]
      simp only [headway, hnone, Poller.patience] at hdue ⊢
      simp only [if_true, Nat.add_zero, if_neg Nat.one_ne_zero] at hdue ⊢
      omega
    intro hkept hfew
    simp only [deadline_of_waiting hrenewal, hdiary, hnow, headway, Nat.add_zero]
    cases hlearns with
    | renewed receipt _ =>
        refine ⟨v.charge.env.1.now, receipt, rfl, ?_⟩
        have hfirst : pace.outcome true = p.renewalPace := houtcome true
        simp only [Pace.afterResult, hfirst, Poller.next_renewalPace]
        exact Nat.le_refl _
    | gone _ => cases hkept
    | failed _ | fails _ => exact hfailed hkept hfew

theorem Watches.renews {doings : List Doing}
    (h : v.Watches p claim pace cancelled state)
    (hrenews : Renews p claim (.live pace cancelled state) doings claim'
      (.live pace' cancelled' state')) (hnow : c.env.1.now = v.charge.env.1.now)
    (hdiary : c.env.2 = doings.map (DiaryEntry.mk v.charge.env.1.now) ++ v.charge.env.2)
    (hrenewal : c.renewal? = some (claim', .live pace' cancelled' state')) :
    Watches p ⟨c, c.deadline⟩ claim' pace' cancelled' state' := by
  cases hrenews with
  | waits =>
      have hpunctual : v.charge.env.1.now ≤ v.due := h.punctual rfl
      constructor
      case asking => rintro ⟨⟩
      case steady => exact h.steady
      case punctual =>
        intro _
        simp only [deadline_of_waiting hrenewal]
        exact Nat.le_add_right _ _
      case early =>
        intro hkept hfew
        obtain ⟨since, receipt, hissue, hdue⟩ := h.early hkept hfew
        have hissue' : c.env.2.lastIssue? = some (since, receipt) := by
          rw [hdiary]
          exact hissue
        refine ⟨since, receipt, hissue', ?_⟩
        simp only [deadline_of_waiting hrenewal, headway, hnow] at hdue ⊢
        omega
  | skips idle lost =>
      constructor
      case asking => rintro ⟨⟩
      case steady =>
        rw [h.steady]
        rfl
      case punctual =>
        intro _
        simp only [deadline_of_waiting hrenewal]
        exact Nat.le_add_right _ _
      case early =>
        intro hkept
        rw [lost] at hkept
        cases hkept
  | asks idle kept transit =>
      have hpunctual : v.charge.env.1.now ≤ v.due := h.punctual rfl
      constructor
      case asking => exact fun _ => kept
      case steady => exact h.steady
      case punctual =>
        intro _
        simp only [deadline_of_stepping hrenewal]
        exact Nat.le_refl _
      case early =>
        intro hkept hfew
        obtain ⟨since, receipt, hissue, hdue⟩ := h.early hkept hfew
        have hissue' : c.env.2.lastIssue? = some (since, receipt) := by
          rw [hdiary]
          exact hissue
        refine ⟨since, receipt, hissue', ?_⟩
        simp only [deadline_of_stepping hrenewal, headway, hnow] at hdue ⊢
        omega
  | hears learns => exact h.heard learns hnow hdiary hrenewal

end

theorem IsKept.tend {phase phase' : TickPhase} {env : World × Diary} (h : v.IsKept p)
    (hcurrent : v.charge.phase? = some phase)
    (htends : p.advanceRenewal (Charge.access p name tally) v.charge.env phase =
      some (env, phase')) (hc : c = { v.charge with env, phase? := some phase' }) :
    IsKept p ⟨c, c.deadline⟩ := by
  obtain ⟨doings, hdoes, htends⟩ := advanceRenewal_performs htends
  obtain ⟨claim, claim', renewal, loop, loop', hcharge, hcharge', hloop, hrenews⟩ := htends.renews
  obtain ⟨hnow, hdiary⟩ := Charge.entries_of_does hdoes
  have hbefore : v.charge.renewal? = some (claim, loop) :=
    renewal?_of_charge hcurrent hcharge hloop
  have hafter : c.renewal? = some (claim', loop') :=
    renewal?_of_charge (by rw [hc]) hcharge' rfl
  intro other pace' cancelled' state' hrenewal
  obtain ⟨rfl, rfl⟩ := Prod.mk.inj (Option.some.inj (hafter.symm.trans hrenewal))
  subst hc
  cases loop with
  | returned _ | died _ => cases hrenews
  | live pace cancelled state =>
      exact (h _ _ _ _ hbefore).renews hrenews hnow hdiary hrenewal

theorem IsKept.start (h : Charge.Starts p name tally c) : IsKept p ⟨c, c.deadline⟩ := by
  obtain ⟨m, execution, hfresh⟩ := h.fresh
  have hbefore : c.renewal? =
      some (.create m, .live p.renewalPace false (.spawned false)) :=
    renewal?_of_charge hfresh.phase rfl rfl
  have hdeadline : c.deadline = c.env.1.now := by simp [Charge.deadline, hbefore]
  intro claim pace cancelled state hrenewal
  cases hbefore.symm.trans hrenewal
  constructor
  case asking => rintro ⟨⟩
  case steady => rfl
  case punctual => exact fun _ => Nat.le_of_eq hdeadline.symm
  case early =>
    intro _ _
    refine ⟨c.env.1.now, m.receipt, hfresh.issue, ?_⟩
    simp only [hdeadline, headway, p.next_renewalPace]
    exact Nat.le_refl _

theorem Reachable.isKept (h : Reachable p name tally v) : v.IsKept p := by
  induction h with
  | start starts => exact .start starts
  | step _ hstep ih =>
      cases hstep with
      | stir stirs timely => exact ih.stir stirs timely
      | tend current tends next => exact ih.tend current tends next

/-- The first renewal after a success comes in time, and so does the next one,
if the first one failed. -/
theorem patience_lt (hvalid : p.config.validate = .ok ())
    (hspare : p.config.visibilityTimeout.nanos ≠ 2 * p.config.minRenewalInterval.nanos)
    {failures : Nat} (hfew : failures ≤ 1) :
    p.patience failures < p.config.visibilityTimeout.nanos := by
  have hboth := (PollingConfig.renewal_and_retry_lt_iff hvalid).mpr hspare
  obtain rfl | rfl : failures = 0 ∨ failures = 1 := by omega
  · have hone := PollingConfig.renewalInterval_lt hvalid
    simpa [Poller.patience] using hone
  · simpa [Poller.patience, Poller.next_paceAfter_one] using hboth

/-- The claim stands while the first renewal after a success is under way, and
while the next one is, if the first one failed. -/
theorem honours_of_asking {pace : Pace Speedup} {cancelled : Bool} {waiting : RenewalCall}
    (hvalid : p.config.validate = .ok ()) (hyears : p.config.visibilityTimeout ≤ thirtyYears)
    (hspare : p.config.visibilityTimeout.nanos ≠ 2 * p.config.minRenewalInterval.nanos)
    (h : Reachable p name tally v) (hthere : v.charge.dropped = false)
    (hrenewal : v.charge.renewal? = some (claim, .live pace cancelled (.stepping waiting)))
    (hfew : pace.policy.failures ≤ 1) :
    (v.charge.env.1.queue p.queue).Honours v.charge.env.1.now waiting.presented := by
  have hinvariant : Charge.Invariant p name v.charge := h.charge.invariant
  obtain ⟨phase, renewal, hphase, hcharge, hloop⟩ := charge_of_renewal? hrenewal
  have hpresented : waiting.presented = claim.message :=
    (hinvariant.presents hphase hcharge hloop rfl).1
  have hhand : v.charge.hand? = some claim.message := Charge.hand?_of_charged hphase hcharge
  obtain ⟨since, hissue, hclaim⟩ := hinvariant.stands claim.message hhand
  have hlive : v.charge.env.1.now < Instant.windowEnd since p.config.visibilityTimeout := by
    have hwatches := h.isKept _ _ _ _ hrenewal
    have hpunctual : v.charge.env.1.now ≤ v.due := hwatches.punctual (by simp [LoopState.phase?])
    obtain ⟨since', receipt, hissue', hdue⟩ := hwatches.early (hwatches.asking rfl) hfew
    obtain ⟨rfl, -⟩ := Prod.mk.inj (Option.some.inj (hissue.symm.trans hissue'))
    have hpatience := patience_lt hvalid hspare hfew
    have hcap : p.config.visibilityTimeout.nanos ≤ thirtyYears.nanos := hyears
    simp only [headway] at hdue
    unfold Instant.windowEnd
    omega
  rw [hpresented]
  rcases hclaim with hdropped | hover | hsecures
  · rw [hthere] at hdropped
    cases hdropped
  · exact absurd hlive (Nat.not_lt.mpr hover)
  · exact hsecures.honours hlive

/-- In a valid configuration two renewals fit into a window, the second one
after the first one has failed.  Unless the window is as short as can be, the
receipt of the claim is still good when the second one is made. -/
theorem retry_within_window (hvalid : p.config.validate = .ok ()) :
    p.config.minRenewalInterval ≤ p.config.renewalInterval ∧
    p.config.renewalInterval ≤ p.config.visibilityTimeout.dividedBy 2 ∧
    p.config.renewalInterval.nanos + p.config.retryInterval.nanos ≤
      p.config.visibilityTimeout.nanos ∧
    (p.config.renewalInterval.nanos + p.config.retryInterval.nanos <
        p.config.visibilityTimeout.nanos ↔
      p.config.visibilityTimeout.nanos ≠ 2 * p.config.minRenewalInterval.nanos) ∧
    (p.config.visibilityTimeout ≤ thirtyYears →
      p.config.visibilityTimeout.nanos ≠ 2 * p.config.minRenewalInterval.nanos →
        ∀ name tally v claim pace cancelled waiting, Reachable p name tally v →
          v.charge.dropped = false →
            v.charge.renewal? = some (claim, .live pace cancelled (.stepping waiting)) →
              pace.policy.failures ≤ 1 →
                (v.charge.env.1.queue p.queue).Honours v.charge.env.1.now waiting.presented) := by
  refine ⟨?_, ?_, PollingConfig.renewal_and_retry_le hvalid,
    PollingConfig.renewal_and_retry_lt_iff hvalid, ?_⟩
  · exact PollingConfig.minRenewalInterval_le p.config
  · have htwice := PollingConfig.twice_renewalInterval_le hvalid
    rw [Duration.le_iff, Duration.nanos_dividedBy]
    omega
  · intro hyears hspare name tally v claim pace cancelled waiting
    exact honours_of_asking hvalid hyears hspare

/-- One transition of the renewal timer. -/
def turn (p : Poller) (name tally : String) (v : Vigil) : Vigil :=
  match v.charge.tend? p name tally with
  | some c => ⟨c, c.deadline⟩
  | none => v

theorem Reachable.turn (h : Reachable p name tally v) :
    Reachable p name tally (v.turn p name tally) := by
  unfold Vigil.turn
  split
  · next htended =>
      obtain ⟨_, _, _, hphase, htends, rfl⟩ := Charge.of_tend? htended
      exact h.step (.tend hphase htends rfl)
  · exact h

def later (seconds : Nat) (v : Vigil) : Vigil := { v with charge := v.charge.later seconds }

theorem Reachable.later (h : Reachable p name tally v) (seconds : Nat)
    (htimely : (v.later seconds).charge.env.1.now ≤ v.due) :
    Reachable p name tally (v.later seconds) :=
  h.step (.stir (.elapse (Nat.le_add_right _ _)) fun _ _ _ _ => htimely)

/-- The message has been delivered, and the renewal timer waits. -/
def resting (config : PollingConfig) : Vigil :=
  turn (Charge.simple config) "worker" "worker"
    ⟨Charge.taken config, (Charge.taken config).deadline⟩

/-- The first renewal has been made after some time, and has failed. -/
def failedAfter (config : PollingConfig) (seconds : Nat) : Vigil :=
  turn (Charge.simple config) "worker" "worker"
    (turn (Charge.simple config) "worker" "worker" (later seconds (resting config)))

/-- The second renewal is under way. -/
def retrying (config : PollingConfig) (first second : Nat) : Vigil :=
  turn (Charge.simple config) "worker" "worker" (later second (failedAfter config first))

theorem reachable_retrying {config : PollingConfig} {first second : Nat}
    (hfirst : (later first (resting config)).charge.env.1.now ≤ (resting config).due)
    (hsecond : (later second (failedAfter config first)).charge.env.1.now ≤
      (failedAfter config first).due) :
    Reachable (Charge.simple config) "worker" "worker" (retrying config first second) := by
  have hresting : Reachable (Charge.simple config) "worker" "worker" (resting config) :=
    (Reachable.start (Charge.starts_taken config)).turn
  have hfailed : Reachable (Charge.simple config) "worker" "worker" (failedAfter config first) :=
    (hresting.later first hfirst).turn.turn
  exact (hfailed.later second hsecond).turn

theorem retry_within_window_standard :
    PollingConfig.validate .standard = .ok () ∧
      ∃ claim pace cancelled waiting, (retrying .standard 60 30).charge.renewal? =
          some (claim, .live pace cancelled (.stepping waiting)) ∧ pace.policy.failures = 1 ∧
        ((retrying .standard 60 30).charge.env.1.queue "jobs").Honours 90000000000
          waiting.presented := by
  have hretrying : Reachable (Charge.simple .standard) "worker" "worker"
      (retrying .standard 60 30) := reachable_retrying (by decide) (by decide)
  refine ⟨PollingConfig.validate_standard, _, _, _, _, rfl, rfl, ?_⟩
  exact (@retry_within_window (Charge.simple .standard) PollingConfig.validate_standard).2.2.2.2
    (by decide) (by decide) _ _ _ _ _ _ _ hretrying rfl rfl (by decide)

/-- The shortest window that the smallest wait between renewals allows. -/
def tight : PollingConfig := { PollingConfig.standard with visibilityTimeout := .ofSeconds 2 }

/-- The retry can come as the window ends, which is too late. -/
theorem retry_at_window_end :
    tight.validate = .ok () ∧ tight.visibilityTimeout ≤ thirtyYears ∧
      ¬ tight.renewalInterval.nanos + tight.retryInterval.nanos < tight.visibilityTimeout.nanos ∧
      Reachable (Charge.simple tight) "worker" "worker" (retrying tight 1 1) ∧
      (retrying tight 1 1).charge.dropped = false ∧
      ∃ claim pace cancelled waiting, (retrying tight 1 1).charge.renewal? =
          some (claim, .live pace cancelled (.stepping waiting)) ∧ pace.policy.failures = 1 ∧
        ¬ ((retrying tight 1 1).charge.env.1.queue "jobs").Honours
          (retrying tight 1 1).charge.env.1.now waiting.presented := by
  have hretrying : Reachable (Charge.simple tight) "worker" "worker" (retrying tight 1 1) :=
    reachable_retrying (by decide) (by decide)
  refine ⟨?_, by decide, by decide, hretrying, rfl, _, _, _, _, rfl, rfl, ?_⟩
  · rw [PollingConfig.validate_eq_ok_iff]
    decide
  · rintro ⟨stored, hstored, -, hhidden⟩
    cases hstored
    exact absurd hhidden (by decide)

end

end Vigil

end LeasedListener
