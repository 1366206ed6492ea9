import LeasedListener.Host.Config
import LeasedListener.Log.Event
import LeasedListener.Text.Blank
import LeasedListener.Text.Decimal

/-!
# Host settings

A host configuration as text, one named setting for each part of it.  A
setting that is absent, blank or malformed leaves its own part as it is by
default and touches no other; a malformed one is reported.
-/

namespace LeasedListener

namespace SettingName

def hostId : String := "TRIGGERHOST_HOST_ID"
def leaseName : String := "TRIGGERHOST_LEASE_NAME"
def queueName : String := "TRIGGERHOST_QUEUE_NAME"
def singleton : String := "TRIGGERHOST_SINGLETON"
def poisonQueue : String := "TRIGGERHOST_POISON_QUEUE"
def leaseDuration : String := "TRIGGERHOST_LEASE_DURATION_SECS"
def leaseRenewal : String := "TRIGGERHOST_LEASE_RENEWAL_SECS"
def visibilityTimeout : String := "TRIGGERHOST_VISIBILITY_TIMEOUT_SECS"
def maxDequeueCount : String := "TRIGGERHOST_MAX_DEQUEUE_COUNT"
def maxPollingInterval : String := "TRIGGERHOST_MAX_POLLING_INTERVAL_SECS"
def seedMessages : String := "TRIGGERHOST_SEED_MESSAGES"
def serverUrl : String := "REDIS_URL"

end SettingName

abbrev Settings := String → Option String

namespace Settings

/-- The value of a setting between white space, if it reads. -/
def value? {α : Type} (settings : Settings) (name : String) (parse : List Char → Option α) :
    Option α :=
  (settings name).bind fun raw => parse (trimBlanks raw.toList)

/-- The report on a setting that is there and does not read. -/
def complaint {α : Type} (settings : Settings) (name : String) (parse : List Char → Option α) :
    List Event :=
  match settings name with
  | none => []
  | some raw =>
      match parse (trimBlanks raw.toList) with
      | some _ => []
      | none => [.settingIgnored name raw]

/-- A setting that counts only if it is not blank, and then as it stands. -/
def nonBlank? (settings : Settings) (name : String) : Option String :=
  (settings name).filter fun raw => !(trimBlanks raw.toList).isEmpty

def readFlag? (text : List Char) : Option Bool :=
  let word := String.ofList (text.map Char.toLower)
  if word ∈ ["1", "true", "yes", "on"] then some true
  else if word ∈ ["0", "false", "no", "off"] then some false
  else none

def readSeconds? (text : List Char) : Option Duration :=
  (readUnsigned? UInt64.size text).map Duration.ofSeconds

def readCount? (text : List Char) : Option UInt32 :=
  (readUnsigned? UInt32.size text).map UInt32.ofNat

/-- The pieces of a text between commas. -/
def pieces : List Char → List (List Char)
  | [] => [[]]
  | c :: rest =>
      match c, pieces rest with
      | ',', found => [] :: found
      | c, piece :: found => (c :: piece) :: found
      | c, [] => [[c]]

/-- The pieces of a list that hold more than white space, without that at
their ends. -/
def readSeeds (raw : String) : List String :=
  (((pieces raw.toList).map trimBlanks).filter fun body => !body.isEmpty).map String.ofList

def holder? (settings : Settings) : Option Identifier :=
  settings.value? SettingName.hostId Identifier.parseChars?

/-- The configuration that the settings describe.  The given holder is used
where they name none. -/
def config (settings : Settings) (holder : Identifier) : HostConfig :=
  let standard := HostConfig.standard (settings.holder?.getD holder)
  { standard with
    leaseName := (settings.nonBlank? SettingName.leaseName).getD standard.leaseName
    queueName := (settings.nonBlank? SettingName.queueName).getD standard.queueName
    singleton := (settings.value? SettingName.singleton readFlag?).getD standard.singleton
    poisonQueue := (settings.value? SettingName.poisonQueue readFlag?).getD standard.poisonQueue
    lease :=
      { standard.lease with
        leaseDuration :=
          (settings.value? SettingName.leaseDuration readSeconds?).getD standard.lease.leaseDuration
        renewalInterval :=
          (settings.value? SettingName.leaseRenewal readSeconds?).getD
            standard.lease.renewalInterval }
    poller :=
      { standard.poller with
        visibilityTimeout :=
          (settings.value? SettingName.visibilityTimeout readSeconds?).getD
            standard.poller.visibilityTimeout
        maxDequeueCount :=
          (settings.value? SettingName.maxDequeueCount readCount?).getD
            standard.poller.maxDequeueCount
        maxPollingInterval :=
          (settings.value? SettingName.maxPollingInterval readSeconds?).getD
            standard.poller.maxPollingInterval }
    serverUrl := settings.nonBlank? SettingName.serverUrl
    seedMessages := ((settings SettingName.seedMessages).map readSeeds).getD [] }

def complaints (settings : Settings) : List Event :=
  settings.complaint SettingName.hostId Identifier.parseChars? ++
    settings.complaint SettingName.singleton readFlag? ++
    settings.complaint SettingName.poisonQueue readFlag? ++
    settings.complaint SettingName.leaseDuration readSeconds? ++
    settings.complaint SettingName.leaseRenewal readSeconds? ++
    settings.complaint SettingName.visibilityTimeout readSeconds? ++
    settings.complaint SettingName.maxDequeueCount readCount? ++
    settings.complaint SettingName.maxPollingInterval readSeconds?

end Settings

end LeasedListener
