import LeasedListener.Lease.Config
import LeasedListener.Polling.Config

/-!
# Host configuration

Everything that a host needs to be told before it starts.
-/

namespace LeasedListener

structure HostConfig where
  leaseName : String
  queueName : String
  /-- Listen only while the lease is held. -/
  singleton : Bool
  /-- Copy messages that keep failing to a poison queue. -/
  poisonQueue : Bool
  lease : LeaseConfig
  poller : PollingConfig
  /-- Where the lease is kept, if not in memory. -/
  serverUrl : Option String
  /-- The bodies of the messages to begin with. -/
  seedMessages : List String

namespace HostConfig

def standard (holder : Identifier) : HostConfig where
  leaseName := "triggerhost-singleton"
  queueName := "triggers"
  singleton := true
  poisonQueue := true
  lease := .standard holder
  poller := .standard
  serverUrl := none
  seedMessages := []

def validate (c : HostConfig) : Except ConfigError Unit := do
  c.lease.validate
  c.poller.validate

end HostConfig

end LeasedListener
