import LeasedListener.Lease.Config
import LeasedListener.Proofs.Duration

/-!
# Valid lease configurations

A lease configuration is accepted exactly when its three lengths of time are
positive, two renewals take less than the lease lasts, and the smallest wait
is no longer than the regular one.
-/

namespace LeasedListener

theorem refuseIf_then_eq_ok_iff {condition : Bool} {error : ConfigError}
    {next : Except ConfigError Unit} :
    (refuseIf condition error >>= fun _ => next) = .ok () ↔
      condition = false ∧ next = .ok () := by
  cases condition with
  | false => simp [refuseIf, bind, Except.bind]
  | true => simp [refuseIf, bind, Except.bind]

theorem refuseIf_eq_ok_iff {condition : Bool} {error : ConfigError} :
    refuseIf condition error = .ok () ↔ condition = false := by
  cases condition <;> simp [refuseIf]

namespace LeaseConfig

theorem renewsTwice_iff (c : LeaseConfig) :
    c.renewsTwice = true ↔ 2 * c.renewalInterval.nanos < c.leaseDuration.nanos := by
  unfold renewsTwice
  cases htwice : c.renewalInterval.twice? with
  | none =>
      have hlarge := Duration.twice?_eq_none_iff.mp htwice
      have := c.leaseDuration.nanos_lt
      simp only [Bool.false_eq_true, false_iff]
      omega
  | some twice =>
      rw [decide_eq_true_iff, Duration.lt_iff, Duration.twice?_eq_some_iff.mp htwice]

theorem validate_eq_ok_iff (c : LeaseConfig) :
    c.validate = .ok () ↔
      0 < c.leaseDuration.nanos ∧ 0 < c.renewalInterval.nanos ∧
        0 < c.minRetryInterval.nanos ∧
        2 * c.renewalInterval.nanos < c.leaseDuration.nanos ∧
        c.minRetryInterval.nanos ≤ c.renewalInterval.nanos := by
  unfold validate
  simp only [refuseIf_then_eq_ok_iff, refuseIf_eq_ok_iff, Duration.isZero_eq_false_iff,
    Bool.not_eq_eq_eq_not, Bool.not_false, renewsTwice_iff, decide_eq_false_iff_not,
    Duration.lt_iff, Nat.not_lt]

theorem validate_standard (holder : Identifier) : (standard holder).validate = .ok () := by
  rw [validate_eq_ok_iff]
  simp only [standard]
  decide

theorem leaseDuration_pos {c : LeaseConfig} (h : c.validate = .ok ()) :
    0 < c.leaseDuration.nanos :=
  (c.validate_eq_ok_iff.mp h).1

end LeaseConfig

end LeasedListener
