import LeasedListener.Interval.Policy
import LeasedListener.Proofs.Duration
import Mathlib.Algebra.Group.Nat.Defs
import Mathlib.Order.Monotone.Basic

/-!
# Policies after failures in a row

The wait of a policy is a function of the number of failures since the last
success.  Backoff has doubled the smallest wait that often, up to the largest
one.  Speedup has divided the regular wait by one more than that number, down to
the smallest one.  Neither computation leaves the range of durations and words.
-/

namespace LeasedListener

/-- The policy after a number of failures in a row. -/
def IntervalPolicy.afterFailures {α : Type} [IntervalPolicy α] (policy : α) : Nat → α
  | 0 => policy
  | k + 1 => after (afterFailures policy k) false

namespace Backoff

open IntervalPolicy

/-- The smallest wait, doubled `k` times, up to the largest one. -/
def waitAfter (least most : Duration) (k : Nat) : Nat :=
  min (max least.nanos most.nanos) (least.nanos * 2 ^ k)

/-- What backoff computes next stays in range: a double that does not fit into
its words is noticed, and the largest wait stands for it. -/
structure Fits (b : Backoff) : Prop where
  ordered : b.least.nanos ≤ b.current.nanos ∧ b.current.nanos ≤ b.most.nanos
  doubled : b.current.words.twice? = b.current.twice?.map Duration.words
  capped : b.current.words.twice? = none → (b.after false).current = b.most

variable {least most : Duration} {b : Backoff}

theorem monotone_waitAfter : Monotone (waitAfter least most) := by
  intro k l hle
  have hpow : 2 ^ k ≤ 2 ^ l := Nat.pow_le_pow_right (by decide) hle
  have hdoubled : least.nanos * 2 ^ k ≤ least.nanos * 2 ^ l := Nat.mul_le_mul_left _ hpow
  simp only [waitAfter]
  omega

theorem waitAfter_bounds (least most : Duration) (k : Nat) :
    least.nanos ≤ waitAfter least most k ∧
      waitAfter least most k ≤ max least.nanos most.nanos := by
  have hdoubled : least.nanos ≤ least.nanos * 2 ^ k :=
    Nat.le_mul_of_pos_right _ (Nat.two_pow_pos k)
  simp only [waitAfter]
  omega

/-- A failure doubles the wait, whether or not the double is a duration. -/
theorem nanos_current_after_failure (hbelow : b.least.nanos ≤ b.current.nanos)
    (habove : b.current.nanos ≤ b.most.nanos) :
    (b.after false).current.nanos = min b.most.nanos (2 * b.current.nanos) := by
  have hcurrent : (b.after false).current =
      min (max (b.current.twice?.getD b.most) b.least) b.most := rfl
  rw [hcurrent, Duration.nanos_min, Duration.nanos_max]
  cases htwice : b.current.twice? with
  | none =>
      -- the largest wait, being a duration, is below the double
      have hlarge : durationBound ≤ 2 * b.current.nanos := Duration.twice?_eq_none_iff.mp htwice
      have hmost := b.most.nanos_lt
      simp only [Option.getD_none]
      omega
  | some twice =>
      have hdouble := Duration.twice?_eq_some_iff.mp htwice
      simp only [Option.getD_some]
      omega

theorem ordered_of_eq {k : Nat} (hleast : b.least = least) (hmost : b.most = max most least)
    (hcurrent : b.current.nanos = waitAfter least most k) :
    b.least.nanos ≤ b.current.nanos ∧ b.current.nanos ≤ b.most.nanos := by
  rw [hleast, hmost, hcurrent, Duration.nanos_max, Nat.max_comm]
  exact waitAfter_bounds least most k

theorem afterFailures_start (least most : Duration) (k : Nat) :
    (afterFailures (start least most) k).least = least ∧
      (afterFailures (start least most) k).most = max most least ∧
      (afterFailures (start least most) k).current.nanos = waitAfter least most k := by
  induction k with
  | zero =>
      refine ⟨rfl, rfl, ?_⟩
      simp only [afterFailures, start, waitAfter, Nat.pow_zero]
      omega
  | succ k ih =>
      obtain ⟨hleast, hmost, hcurrent⟩ := ih
      obtain ⟨hbelow, habove⟩ := ordered_of_eq hleast hmost hcurrent
      have hstep : (afterFailures (start least most) (k + 1)).current.nanos =
          min (max most.nanos least.nanos) (2 * waitAfter least most k) := by
        rw [← hcurrent, ← Duration.nanos_max, ← hmost]
        exact nanos_current_after_failure hbelow habove
      refine ⟨hleast, hmost, ?_⟩
      rw [hstep]
      simp only [waitAfter, Nat.pow_succ, ← Nat.mul_assoc]
      omega

theorem after_success (hleast : b.least = least) (hmost : b.most = max most least) :
    b.after true = start least most := by
  obtain ⟨smallest, largest, wait⟩ := b
  obtain rfl : smallest = least := hleast
  obtain rfl : largest = max most smallest := hmost
  rfl

theorem resets (least most : Duration) (k : Nat) :
    IntervalPolicy.after (afterFailures (start least most) k) true = start least most := by
  obtain ⟨hleast, hmost, -⟩ := afterFailures_start least most k
  exact after_success hleast hmost

theorem fits_of_ordered (hordered : b.least.nanos ≤ b.current.nanos ∧
    b.current.nanos ≤ b.most.nanos) : b.Fits := by
  have hdoubled := b.current.words_twice?
  refine ⟨hordered, hdoubled, ?_⟩
  intro hnone
  rw [hdoubled, Option.map_eq_none_iff, Duration.twice?_eq_none_iff] at hnone
  apply Duration.ext_nanos
  rw [nanos_current_after_failure hordered.1 hordered.2]
  have hmost := b.most.nanos_lt
  omega

theorem fits_afterFailures (least most : Duration) (k : Nat) :
    (afterFailures (start least most) k).Fits := by
  obtain ⟨hleast, hmost, hcurrent⟩ := afterFailures_start least most k
  exact fits_of_ordered (ordered_of_eq hleast hmost hcurrent)

end Backoff

namespace Speedup

open IntervalPolicy

/-- The `k + 1`-th part of the regular wait, down to the smallest one.  Failures
are counted in a word. -/
def waitAfter (normal least : Duration) (k : Nat) : Nat :=
  max (normal.nanos / min (k + 1) (2 ^ 32 - 1)) (min least.nanos normal.nanos)

/-- What speedup computes next stays in range: the failures are counted in a
word, and so is a divisor that is never zero. -/
structure Fits (s : Speedup) : Prop where
  counted : s.failures < UInt32.size
  divided : ∃ (divisor : UInt32) (quotient : Duration),
    divisor.toNat = min (s.failures + 1) mostFailures ∧
      s.normal.words.dividedBy? divisor = some quotient.words ∧
      s.current = max quotient s.least

variable {s : Speedup} {normal least : Duration}

theorem nanos_current (s : Speedup) :
    s.current.nanos =
      max (s.normal.nanos / min (s.failures + 1) mostFailures) s.least.nanos := by
  simp only [current, Duration.nanos_max, Duration.nanos_dividedBy]

theorem least_le_current (s : Speedup) : s.least.nanos ≤ s.current.nanos := by
  rw [nanos_current]
  exact Nat.le_max_right ..

theorem current_le_normal (hleast : s.least.nanos ≤ s.normal.nanos) :
    s.current.nanos ≤ s.normal.nanos := by
  rw [nanos_current]
  exact Nat.max_le.mpr ⟨Nat.div_le_self .., hleast⟩

theorem current_after_failure_le (s : Speedup) :
    (s.after false).current.nanos ≤ s.current.nanos := by
  have hfailures : (s.after false).failures = min (s.failures + 1) mostFailures := rfl
  have hpositive : 0 < min (s.failures + 1) mostFailures := by
    have : 0 < mostFailures := by decide
    omega
  have hmore : min (s.failures + 1) mostFailures ≤
      min ((s.after false).failures + 1) mostFailures := by
    rw [hfailures]
    omega
  rw [nanos_current, nanos_current]
  have hquotient : s.normal.nanos / min ((s.after false).failures + 1) mostFailures ≤
      s.normal.nanos / min (s.failures + 1) mostFailures :=
    Nat.div_le_div_left hmore hpositive
  have hnormal : (s.after false).normal = s.normal := rfl
  have hleast : (s.after false).least = s.least := rfl
  rw [hnormal, hleast]
  omega

theorem afterFailures_start (k : Nat) :
    afterFailures (start normal least) k = ⟨normal, min least normal, min k mostFailures⟩ := by
  induction k with
  | zero => rfl
  | succ k ih =>
      rw [afterFailures, ih]
      have hcount : min (min k mostFailures + 1) mostFailures = min (k + 1) mostFailures := by
        omega
      exact congrArg (Speedup.mk normal (min least normal)) hcount

theorem resets (normal least : Duration) (k : Nat) :
    IntervalPolicy.after (afterFailures (start normal least) k) true = start normal least := by
  rw [afterFailures_start]
  rfl

theorem nanos_current_afterFailures (normal least : Duration) (k : Nat) :
    (afterFailures (start normal least) k).current.nanos = waitAfter normal least k := by
  have hcount : min (min k mostFailures + 1) mostFailures = min (k + 1) mostFailures := by
    omega
  rw [afterFailures_start, nanos_current, hcount, Duration.nanos_min]
  rfl

theorem antitone_waitAfter : Antitone (waitAfter normal least) := by
  intro k l hle
  have hdivisor : min (k + 1) (2 ^ 32 - 1) ≤ min (l + 1) (2 ^ 32 - 1) := by omega
  have hquotient : normal.nanos / min (l + 1) (2 ^ 32 - 1) ≤
      normal.nanos / min (k + 1) (2 ^ 32 - 1) := Nat.div_le_div_left hdivisor (by omega)
  simp only [waitAfter]
  omega

theorem waitAfter_bounds (normal least : Duration) (k : Nat) :
    min least.nanos normal.nanos ≤ waitAfter normal least k ∧
      waitAfter normal least k ≤ normal.nanos := by
  have hquotient : normal.nanos / min (k + 1) (2 ^ 32 - 1) ≤ normal.nanos := Nat.div_le_self ..
  exact ⟨Nat.le_max_right .., Nat.max_le.mpr ⟨hquotient, Nat.min_le_right ..⟩⟩

theorem waitAfter_zero (normal least : Duration) : waitAfter normal least 0 = normal.nanos := by
  have hdivisor : min (0 + 1) (2 ^ 32 - 1) = 1 := rfl
  rw [waitAfter, hdivisor, Nat.div_one]
  exact Nat.max_eq_left (Nat.min_le_right ..)

theorem waitAfter_one (normal least : Duration) :
    waitAfter normal least 1 = max (normal.nanos / 2) (min least.nanos normal.nanos) := rfl

theorem fits_of_failures_le (hfailures : s.failures ≤ mostFailures) : s.Fits := by
  have hword : min (s.failures + 1) mostFailures < UInt32.size :=
    Nat.lt_of_le_of_lt (Nat.min_le_right ..) (by decide)
  have hdivisor : (UInt32.ofNat (min (s.failures + 1) mostFailures)).toNat =
      min (s.failures + 1) mostFailures := UInt32.toNat_ofNat_of_lt hword
  have hpos : 0 < (UInt32.ofNat (min (s.failures + 1) mostFailures)).toNat := by
    rw [hdivisor]
    exact Nat.lt_min.mpr ⟨Nat.succ_pos _, by decide⟩
  have hquotient := s.normal.words_dividedBy? hpos
  rw [hdivisor] at hquotient
  exact ⟨Nat.lt_of_le_of_lt hfailures (by decide), _, _, hdivisor, hquotient, rfl⟩

theorem fits_afterFailures (normal least : Duration) (k : Nat) :
    (afterFailures (start normal least) k).Fits := by
  apply fits_of_failures_le
  rw [afterFailures_start]
  exact Nat.min_le_right ..

end Speedup

end LeasedListener
