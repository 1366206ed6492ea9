import LeasedListener.Config.Error
import LeasedListener.Identifier

/-!
# Lease configuration

A valid configuration renews the lease more than twice in its duration, so
that one failed renewal can be repeated before the lease runs out.
-/

namespace LeasedListener

structure LeaseConfig where
  holder : Identifier
  leaseDuration : Duration
  /-- The wait between attempts to acquire, and between renewals. -/
  renewalInterval : Duration
  /-- The smallest wait after failed renewals. -/
  minRetryInterval : Duration
  /-- How long a shutdown waits for a step that is under way. -/
  stopTimeout : Duration

namespace LeaseConfig

def standard (holder : Identifier) : LeaseConfig where
  holder := holder
  leaseDuration := .ofSeconds 15
  renewalInterval := .ofSeconds 5
  minRetryInterval := .ofSeconds 1
  stopTimeout := .ofSeconds 30

/-- Whether two renewals take less than the lease lasts. -/
def renewsTwice (c : LeaseConfig) : Bool :=
  match c.renewalInterval.twice? with
  | some twice => twice < c.leaseDuration
  | none => false

def validate (c : LeaseConfig) : Except ConfigError Unit := do
  refuseIf c.leaseDuration.isZero (.zero .leaseDuration)
  refuseIf c.renewalInterval.isZero (.zero .leaseRenewalInterval)
  refuseIf c.minRetryInterval.isZero (.zero .leaseRetryInterval)
  refuseIf (!c.renewsTwice) (.renewalTooSlow c.renewalInterval c.leaseDuration)
  refuseIf (c.renewalInterval < c.minRetryInterval)
    (.range .leaseRetry c.minRetryInterval c.renewalInterval)

end LeaseConfig

end LeasedListener
