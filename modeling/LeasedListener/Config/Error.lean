import LeasedListener.Duration.Text

/-!
# Rejected configuration

The causes for which a lease or polling configuration is refused.
-/

namespace LeasedListener

/-- A length of time that must not be zero. -/
inductive PositiveSetting
  | leaseDuration
  | leaseRenewalInterval
  | leaseRetryInterval
  | visibilityTimeout
  | pollingInterval
  | renewalInterval
deriving DecidableEq

def PositiveSetting.name : PositiveSetting → String
  | .leaseDuration => "lease duration"
  | .leaseRenewalInterval => "lease renewal interval"
  | .leaseRetryInterval => "lease minimum retry interval"
  | .visibilityTimeout => "visibility timeout"
  | .pollingInterval => "minimum polling interval"
  | .renewalInterval => "minimum renewal interval"

/-- A pair of bounds, of which the lower one must not exceed the upper one. -/
inductive BoundedSetting
  | leaseRetry
  | polling
  | renewal
deriving DecidableEq

def BoundedSetting.name : BoundedSetting → String
  | .leaseRetry => "lease retry interval"
  | .polling => "polling interval"
  | .renewal => "renewal interval"

inductive ConfigError
  | zero (setting : PositiveSetting)
  | renewalTooSlow (renewal duration : Duration)
  | range (setting : BoundedSetting) (least most : Duration)
  | dequeueCount
  | visibilityTooShort (visibility leastRenewal : Duration)
deriving DecidableEq

def ConfigError.message : ConfigError → String
  | .zero setting => s!"{setting.name} must be greater than zero"
  | .renewalTooSlow renewal duration =>
      s!"lease renewal interval {renewal.text} must be less than half the lease duration {duration.text}"
  | .range setting least most =>
      s!"{setting.name}: minimum {least.text} exceeds maximum {most.text}"
  | .dequeueCount => "max dequeue count must be at least 1"
  | .visibilityTooShort visibility leastRenewal =>
      s!"visibility timeout {visibility.text} must be at least twice the minimum renewal interval {leastRenewal.text}"

def refuseIf (condition : Bool) (error : ConfigError) : Except ConfigError Unit :=
  if condition then .error error else .ok ()

end LeasedListener
