import LeasedListener.Polling.Tick
import LeasedListener.Proofs.Interval.Policy
import LeasedListener.Proofs.Lease.Config

/-!
# Valid polling configurations

Two renewals fit into a visibility window of a valid configuration, and a
renewal timer whose attempts all succeed keeps waiting for one regular interval
at a time.
-/

namespace LeasedListener

namespace PollingConfig

theorem coversTwoRenewals_iff (c : PollingConfig) :
    c.coversTwoRenewals = true ↔ 2 * c.minRenewalInterval.nanos ≤ c.visibilityTimeout.nanos := by
  unfold coversTwoRenewals
  cases htwice : c.minRenewalInterval.twice? with
  | none =>
      have hlarge := Duration.twice?_eq_none_iff.mp htwice
      have := c.visibilityTimeout.nanos_lt
      simp only [Bool.false_eq_true, false_iff]
      omega
  | some twice =>
      rw [decide_eq_true_iff, Duration.le_iff, Duration.twice?_eq_some_iff.mp htwice]

theorem validate_eq_ok_iff (c : PollingConfig) :
    c.validate = .ok () ↔
      0 < c.visibilityTimeout.nanos ∧ c.maxDequeueCount ≠ 0 ∧
        0 < c.minPollingInterval.nanos ∧
        c.minPollingInterval.nanos ≤ c.maxPollingInterval.nanos ∧
        0 < c.minRenewalInterval.nanos ∧
        c.minRenewalInterval.nanos ≤ c.maxRenewalInterval.nanos ∧
        2 * c.minRenewalInterval.nanos ≤ c.visibilityTimeout.nanos := by
  unfold validate
  simp only [refuseIf_then_eq_ok_iff, refuseIf_eq_ok_iff, Duration.isZero_eq_false_iff,
    Bool.not_eq_eq_eq_not, Bool.not_false, coversTwoRenewals_iff, decide_eq_false_iff_not,
    Duration.lt_iff, Nat.not_lt, beq_eq_false_iff_ne]

theorem validate_standard : standard.validate = .ok () := by
  rw [validate_eq_ok_iff]
  decide

theorem nanos_renewalInterval (c : PollingConfig) :
    c.renewalInterval.nanos =
      max (min (c.visibilityTimeout.nanos / 2) c.maxRenewalInterval.nanos)
        c.minRenewalInterval.nanos := by
  simp only [renewalInterval, Duration.nanos_max, Duration.nanos_min, Duration.nanos_dividedBy]

theorem twice_renewalInterval_le {c : PollingConfig} (h : c.validate = .ok ()) :
    2 * c.renewalInterval.nanos ≤ c.visibilityTimeout.nanos := by
  obtain ⟨-, -, -, -, -, -, hcovers⟩ := c.validate_eq_ok_iff.mp h
  rw [nanos_renewalInterval]
  omega

theorem renewalInterval_lt {c : PollingConfig} (h : c.validate = .ok ()) :
    c.renewalInterval.nanos < c.visibilityTimeout.nanos := by
  have htwice := twice_renewalInterval_le h
  have hpos := (c.validate_eq_ok_iff.mp h).1
  omega

end PollingConfig

namespace Poller

/-- The pace of a renewal timer whose attempts have all succeeded. -/
def renewalPace (p : Poller) : Pace Speedup := .start p.renewalPolicy

theorem outcome_renewalPace (p : Poller) : p.renewalPace.outcome true = p.renewalPace := rfl

theorem next_renewalPace (p : Poller) : p.renewalPace.next = p.config.renewalInterval := by
  have hcurrent : p.renewalPace.next.nanos =
      Speedup.waitAfter p.config.renewalInterval p.config.minRenewalInterval 0 :=
    Speedup.nanos_current_afterFailures _ _ 0
  exact Duration.ext_nanos (hcurrent.trans (Speedup.waitAfter_zero ..))

end Poller

end LeasedListener
