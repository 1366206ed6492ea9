import LeasedListener.Proofs.Polling.Config
import LeasedListener.Proofs.Polling.Script

/-!
# Renewal timers at rest

While the clock stands still, a renewal timer that is on its way to its first
call makes none.  It settles down to wait, and stops as soon as it is told to.
-/

namespace LeasedListener

open Surroundings

theorem Instant.reached_waitEnd {now : Nat} {d : Duration} (h : 0 < d.nanos) :
    reached now (waitEnd now d) = false := by
  unfold waitEnd
  split
  · rfl
  · have hle := le_ceilMilli (now + d.nanos)
    refine decide_eq_false ?_
    omega

namespace Poller

theorem next_renewalPace_pos {p : Poller} (h : p.config.validate = .ok ()) :
    0 < p.renewalPace.next.nanos := by
  obtain ⟨-, -, -, -, hleast, -, -⟩ := p.config.validate_eq_ok_iff.mp h
  rw [next_renewalPace, PollingConfig.nanos_renewalInterval]
  omega

end Poller

/-- A renewal timer that makes no call before the clock moves, told whether it
has been cancelled. -/
inductive Resting (now : Nat) : Bool → RenewalLoop → Prop
  | spawned {pace : Pace Speedup} (slow : 0 < pace.next.nanos) :
      Resting now false (.live pace false (.spawned false))
  | waiting {pace : Pace Speedup} {wake : Option Nat} (ahead : Instant.reached now wake = false) :
      Resting now false (.live pace false (.waiting wake))
  | cancelled {pace : Pace Speedup} {state : LoopState RenewalCall} (idle : state.phase? = none) :
      Resting now true (.live pace true state)
  | returned {pace : Pace Speedup} : Resting now true (.returned pace)

def turnsLeft : RenewalLoop → Nat
  | .live _ false (.waiting _) => 0
  | .live .. => 1
  | .returned _ | .died _ => 0

theorem Resting.cancel {now : Nat} {loop : RenewalLoop} (h : Resting now false loop) :
    Resting now true loop.cancel := by
  cases h with
  | spawned _ => exact .cancelled rfl
  | waiting _ => exact .cancelled rfl

theorem turnsLeft_le (loop : RenewalLoop) : turnsLeft loop ≤ 1 := by
  unfold turnsLeft
  split <;> decide

section

variable {Env : Type} [Surroundings Env] {p : Poller} {a : PollerAccess Env} {env env' : Env}
  {claim claim' : Claim} {cancelled : Bool} {loop : RenewalLoop} {t t' : RenewalTimer}

theorem Resting.of_poll (h : Resting (now env) cancelled loop) (hloop : t.loop = some loop)
    (hpoll : t.poll (p.renewalDrive a) (env, claim) = some (t', env', claim')) :
    env' = env ∧ claim' = claim ∧ ∃ loop', t'.loop = some loop' ∧
      Resting (now env) cancelled loop' ∧ turnsLeft loop' < turnsLeft loop := by
  obtain ⟨polled, loop', hpolled, rfl, hmoved⟩ := Timer.moves_of_poll hpoll
  obtain rfl := Option.some.inj (hloop.symm.trans hpolled)
  generalize hafter : (env', claim') = after at hmoved
  cases h with
  | spawned slow =>
      cases hmoved with
      | waits =>
          obtain ⟨rfl, rfl⟩ := Prod.mk.inj hafter
          exact ⟨rfl, rfl, _, rfl, .waiting (Instant.reached_waitEnd slow), Nat.zero_lt_one⟩
      | begins due _ =>
          rcases due with hspawned | ⟨wake, hwaiting, -⟩
          · simp at hspawned
          · simp at hwaiting
  | waiting ahead =>
      cases hmoved with
      | begins due _ =>
          rcases due with hspawned | ⟨wake, hwaiting, hreached⟩
          · simp at hspawned
          · obtain rfl := LoopState.waiting.inj hwaiting
            have hahead : Instant.reached (now env) _ = true := hreached
            rw [ahead] at hahead
            simp at hahead
  | cancelled idle =>
      cases hmoved with
      | returns _ =>
          obtain ⟨rfl, rfl⟩ := Prod.mk.inj hafter
          exact ⟨rfl, rfl, _, rfl, .returned, by simp [turnsLeft]⟩
      | advances => simp [LoopState.phase?] at idle
  | returned => cases hmoved

/-- A renewal timer that was told to stop has stopped, or will do so at
once. -/
theorem Resting.stops (h : Resting (now env) true loop) (hloop : t.loop = some loop)
    (wait : StopWait) :
    (t.stopResult? wait (now env)).isSome = true ∨
      (t.poll (p.renewalDrive a) (env, claim)).isSome = true := by
  cases h with
  | @cancelled pace state idle =>
      cases state with
      | stepping _ => simp [LoopState.phase?] at idle
      | spawned _ | waiting _ => exact .inr (by simp [Timer.poll, hloop, TimerLoop.poll])
  | returned => exact .inl (by simp [Timer.stopResult?, hloop])

end

end LeasedListener
