import LeasedListener.Config.Error

/-!
# Polling configuration

A valid configuration leaves room for two renewals in a visibility window.
-/

namespace LeasedListener

structure PollingConfig where
  /-- How long a dequeued message stays hidden from other consumers. -/
  visibilityTimeout : Duration
  /-- Failed messages that were dequeued this often are quarantined. -/
  maxDequeueCount : UInt32
  minPollingInterval : Duration
  maxPollingInterval : Duration
  /-- The largest wait between renewals of a claim. -/
  maxRenewalInterval : Duration
  /-- The smallest wait between renewals of a claim. -/
  minRenewalInterval : Duration
  stopTimeout : Duration

namespace PollingConfig

def standard : PollingConfig where
  visibilityTimeout := .ofSeconds 600
  maxDequeueCount := 5
  minPollingInterval := .ofMillis 100
  maxPollingInterval := .ofSeconds 60
  maxRenewalInterval := .ofSeconds 60
  minRenewalInterval := .ofSeconds 1
  stopTimeout := .ofSeconds 30

/-- The wait between renewals of a claim: half the window, within the two
bounds, the lower of which wins. -/
def renewalInterval (c : PollingConfig) : Duration :=
  max (min (c.visibilityTimeout.dividedBy 2) c.maxRenewalInterval) c.minRenewalInterval

/-- Whether two of the smallest waits fit into a window. -/
def coversTwoRenewals (c : PollingConfig) : Bool :=
  match c.minRenewalInterval.twice? with
  | some twice => twice ≤ c.visibilityTimeout
  | none => false

def validate (c : PollingConfig) : Except ConfigError Unit := do
  refuseIf c.visibilityTimeout.isZero (.zero .visibilityTimeout)
  refuseIf (c.maxDequeueCount == 0) .dequeueCount
  refuseIf c.minPollingInterval.isZero (.zero .pollingInterval)
  refuseIf (c.maxPollingInterval < c.minPollingInterval)
    (.range .polling c.minPollingInterval c.maxPollingInterval)
  refuseIf c.minRenewalInterval.isZero (.zero .renewalInterval)
  refuseIf (c.maxRenewalInterval < c.minRenewalInterval)
    (.range .renewal c.minRenewalInterval c.maxRenewalInterval)
  refuseIf (!c.coversTwoRenewals) (.visibilityTooShort c.visibilityTimeout c.minRenewalInterval)

end PollingConfig

end LeasedListener
