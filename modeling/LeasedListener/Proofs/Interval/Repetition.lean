import LeasedListener.Proofs.Interval.Policy
import LeasedListener.Timer.Attempt

/-!
# Repetitions of an attempt

A command repeats an attempt and leaves the wait after each step to a policy.
Whatever its surroundings do, the policy is in the state that the failures since
the last success have led to, so the wait is a function of their number alone.
-/

namespace LeasedListener

open IntervalPolicy

variable {Env Command Phase α : Type}

/-- A transition of a command: into a step, or within the one under way. -/
def Drive.turn (d : Drive Env Command Phase) (env : Env) (command : Command) (cancelled : Bool) :
    Option Phase → Option (Progress (Env × Command) Phase (Except StorageError Unit))
  | none => some (d.enter env command)
  | some phase => d.advance env command cancelled phase

namespace Attempt

def turn (a : Attempt Env Phase) (env : Env) (cancelled : Bool) :
    Option Phase → Option (Progress Env Phase (Except StorageError Bool))
  | none => some (a.enter env)
  | some phase => a.advance env cancelled phase

theorem turn_paced [IntervalPolicy α] (a : Attempt Env Phase) (env : Env) (pace : Pace α)
    (cancelled : Bool) (phase? : Option Phase) :
    a.paced.turn env pace cancelled phase? =
      (a.turn env cancelled phase?).map (pacedProgress pace) := by
  cases phase? <;> rfl

/-- The attempt that ends at once, with the result that its surroundings have
for it. -/
def dictated : Attempt (Except StorageError Bool) Empty where
  enter result := .ended result result
  advance _ _ phase := nomatch phase

end Attempt

/-- The number of results since the last success, the latest result first. -/
def failuresInARow : List (Except StorageError Bool) → Nat
  | [] => 0
  | .ok true :: _ => 0
  | _ :: earlier => failuresInARow earlier + 1

/-- A command that repeats an attempt, and the results of its steps so far, the
latest first. -/
structure Repetition (α Phase : Type) where
  pace : Pace α
  /-- Where the step under way has got to. -/
  phase? : Option Phase
  results : List (Except StorageError Bool)

namespace Repetition

variable [IntervalPolicy α] {a : Attempt Env Phase} {policy : α} {r s : Repetition α Phase}

/-- The transitions of the command, each in surroundings of its own. -/
inductive Step (a : Attempt Env Phase) : Repetition α Phase → Repetition α Phase → Prop
  | continues {r : Repetition α Phase} {env env' : Env} {cancelled : Bool} {pace : Pace α}
      {phase : Phase}
      (turns : a.paced.turn env r.pace cancelled r.phase? = some (.continues (env', pace) phase)) :
      Step a r ⟨pace, some phase, r.results⟩
  | ends {r : Repetition α Phase} {env env' env'' : Env} {cancelled : Bool} {pace : Pace α}
      {result : Except StorageError Bool} {answer : Except StorageError Unit}
      (ends : a.turn env cancelled r.phase? = some (.ended env' result))
      (turns : a.paced.turn env r.pace cancelled r.phase? =
        some (.ended (env'', pace) answer)) :
      Step a r ⟨pace, none, result :: r.results⟩

inductive Reachable (a : Attempt Env Phase) (policy : α) : Repetition α Phase → Prop
  | start : Reachable a policy ⟨.start policy, none, []⟩
  | step {r s : Repetition α Phase} : Reachable a policy r → Step a r s → Reachable a policy s

/-- The policy learns the result of each step, and nothing else. -/
theorem Step.pace_eq (h : Step a r s) :
    s.results = r.results ∧ s.pace = r.pace ∨
      ∃ result, s.results = result :: r.results ∧ s.pace = r.pace.afterResult result := by
  cases h with
  | continues turns =>
      left
      rw [Attempt.turn_paced, Option.map_eq_some_iff] at turns
      obtain ⟨progress, -, hpaced⟩ := turns
      cases progress with
      | continues env phase =>
          simp only [Attempt.pacedProgress, Progress.continues.injEq, Prod.mk.injEq] at hpaced
          exact ⟨rfl, hpaced.1.2.symm⟩
      | ended env result => simp [Attempt.pacedProgress] at hpaced
      | died env reason => simp [Attempt.pacedProgress] at hpaced
  | @ends _ _ _ _ _ result _ ends turns =>
      right
      rw [Attempt.turn_paced, ends, Option.map_some, Option.some.injEq] at turns
      simp only [Attempt.pacedProgress, Progress.ended.injEq, Prod.mk.injEq] at turns
      exact ⟨result, rfl, turns.1.2.symm⟩

/-- A policy that any success brings back to its start knows no more than the
failures since the last one. -/
theorem afterResult_start (hresets : ∀ k, after (afterFailures policy k) true = policy)
    (result : Except StorageError Bool) (results : List (Except StorageError Bool)) :
    (Pace.start (afterFailures policy (failuresInARow results))).afterResult result =
      .start (afterFailures policy (failuresInARow (result :: results))) := by
  cases result with
  | error error => rfl
  | ok succeeded =>
      cases succeeded with
      | false => rfl
      | true =>
          have hreset := hresets (failuresInARow results)
          exact congrArg Pace.start hreset

theorem Reachable.pace_eq (hresets : ∀ k, after (afterFailures policy k) true = policy)
    (h : Reachable a policy r) :
    r.pace = .start (afterFailures policy (failuresInARow r.results)) := by
  induction h with
  | start => rfl
  | step _ hstep ih =>
      rcases hstep.pace_eq with ⟨hresults, hpace⟩ | ⟨result, hresults, hpace⟩
      · rw [hpace, hresults]
        exact ih
      · -- only here, at the end of a step, does the policy move
        rw [hpace, hresults, ih]
        exact afterResult_start hresets ..

/-- The repetition whose steps have had the given results. -/
def dictate (policy : α) (results : List (Except StorageError Bool)) : Repetition α Empty :=
  ⟨results.foldr (fun result pace => pace.afterResult result) (.start policy), none, results⟩

theorem reachable_dictate (policy : α) (results : List (Except StorageError Bool)) :
    Reachable .dictated policy (dictate policy results) := by
  induction results with
  | nil => exact .start
  | cons result earlier ih =>
      have hends : Attempt.dictated.turn result false none = some (.ended result result) := rfl
      exact ih.step (.ends hends rfl)

/-- The wait that a command asks for is a function of the failures since the last
success, for each of the two policies: it has a closed form in exact arithmetic,
grows or shrinks with their number, and stays between its bounds.  Every
sequence of results occurs, and nothing that the policies compute for it
overflows or divides by zero. -/
theorem waits_follow_failures (least most normal floor : Duration) :
    (∀ {Env Phase : Type} {a : Attempt Env Phase} {r : Repetition Backoff Phase},
      Reachable a (.start least most) r →
        (∀ env, (a.paced.interval env r.pace).nanos =
          Backoff.waitAfter least most (failuresInARow r.results)) ∧
        r.pace.policy.Fits) ∧
    (∀ {Env Phase : Type} {a : Attempt Env Phase} {r : Repetition Speedup Phase},
      Reachable a (.start normal floor) r →
        (∀ env, (a.paced.interval env r.pace).nanos =
          Speedup.waitAfter normal floor (failuresInARow r.results)) ∧
        r.pace.policy.Fits) ∧
    (∀ results : List (Except StorageError Bool),
      (∃ r, Reachable .dictated (Backoff.start least most) r ∧ r.results = results) ∧
      ∃ r, Reachable .dictated (Speedup.start normal floor) r ∧ r.results = results) ∧
    (Monotone (Backoff.waitAfter least most) ∧
      ∀ k, least.nanos ≤ Backoff.waitAfter least most k ∧
        Backoff.waitAfter least most k ≤ max least.nanos most.nanos) ∧
    (Antitone (Speedup.waitAfter normal floor) ∧
      ∀ k, min floor.nanos normal.nanos ≤ Speedup.waitAfter normal floor k ∧
        Speedup.waitAfter normal floor k ≤ normal.nanos) := by
  refine ⟨?_, ?_, ?_, ⟨Backoff.monotone_waitAfter, Backoff.waitAfter_bounds least most⟩,
    ⟨Speedup.antitone_waitAfter, Speedup.waitAfter_bounds normal floor⟩⟩
  · intro Env Phase a r h
    have hpace := h.pace_eq (Backoff.resets least most)
    rw [hpace]
    exact ⟨fun _ => (Backoff.afterFailures_start ..).2.2, Backoff.fits_afterFailures ..⟩
  · intro Env Phase a r h
    have hpace := h.pace_eq (Speedup.resets normal floor)
    rw [hpace]
    exact ⟨fun _ => Speedup.nanos_current_afterFailures .., Speedup.fits_afterFailures ..⟩
  · intro results
    exact ⟨⟨_, reachable_dictate _ results, rfl⟩, ⟨_, reachable_dictate _ results, rfl⟩⟩

/-- Two failures in a row, the first one after a success. -/
def mishaps : List (Except StorageError Bool) :=
  [.error (.timeout "no answer"), .ok false, .ok true, .ok false]

/-- The second double of a quarter of all durations is too long for a duration. -/
theorem waits_follow_failures_overlong :
    Reachable .dictated (Backoff.start (.ofSeconds (2 ^ 62)) .longest)
      (dictate (.start (.ofSeconds (2 ^ 62)) .longest) mishaps) ∧
    (dictate (Backoff.start (.ofSeconds (2 ^ 62)) .longest) mishaps).pace.next.nanos =
      durationBound - 1 ∧
    Reachable .dictated (Speedup.start .longest .zero)
      (dictate (.start .longest .zero) mishaps) ∧
    (dictate (Speedup.start .longest .zero) mishaps).pace.next.nanos = (durationBound - 1) / 3 := by
  obtain ⟨hslow, hfast, -⟩ :=
    waits_follow_failures (.ofSeconds (2 ^ 62)) .longest .longest .zero
  have hbackoff := reachable_dictate (Backoff.start (.ofSeconds (2 ^ 62)) .longest) mishaps
  have hspeedup := reachable_dictate (Speedup.start .longest .zero) mishaps
  refine ⟨hbackoff, ?_, hspeedup, ?_⟩
  · exact ((hslow hbackoff).1 (.ok true)).trans (by decide)
  · exact ((hfast hspeedup).1 (.ok true)).trans (by decide)

end Repetition

end LeasedListener
