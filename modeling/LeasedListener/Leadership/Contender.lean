import LeasedListener.Interval.Policy
import LeasedListener.Leadership.Status
import LeasedListener.Lease.Config
import LeasedListener.Lease.Object
import LeasedListener.Log.Event

/-!
# Contenders for a lease

A step of a contender is one attempt to acquire the lease, or one renewal of
the lease that it holds.  A step makes up to three storage calls in turn.
`call` names the call of each phase; `answer` draws the conclusion from its
result.  Every decision follows from the latest answer and the clock alone.

A held lease survives a renewal that fails transiently until its full length
has passed since the last success.  An object that is found deleted is
created and claimed again under the same identity.
-/

namespace LeasedListener

structure Contender where
  lease : String
  holder : Identifier
  leaseDuration : Duration
  acquireInterval : Duration
  renewal : Speedup
  /-- When the lease was last acquired or renewed, while it is held. -/
  lastRenewal : Option Nat

/-- The call that a contender waits for. -/
inductive ContenderPhase
  | acquiring
  | creating
  | renewing (lease : Identifier)
  | recreating (lease : Identifier)
  | reclaiming (lease : Identifier)
deriving DecidableEq

inductive ContenderMove
  | call (phase : ContenderPhase)
  | finish (result : Except StorageError Unit)

structure ContenderTurn where
  contender : Contender
  status : Status
  events : List Event
  move : ContenderMove

namespace Contender

def create (lease : String) (config : LeaseConfig) : Contender where
  lease := lease
  holder := config.holder
  leaseDuration := config.leaseDuration
  acquireInterval := config.renewalInterval
  renewal := .start config.renewalInterval config.minRetryInterval
  lastRenewal := none

def interval (c : Contender) (status : Status) : Duration :=
  if status.isHeld then c.renewal.current else c.acquireInterval

def firstPhase (status : Status) : ContenderPhase :=
  match status.held with
  | some lease => .renewing lease
  | none => .acquiring

def call (c : Contender) : ContenderPhase → LeaseCall
  | .acquiring => .acquire c.leaseDuration c.holder
  | .creating => .ensure
  | .renewing lease => .renew lease
  | .recreating _ => .ensure
  | .reclaiming lease => .acquire c.leaseDuration lease

/-- Note a success of this instant. -/
def refreshed (c : Contender) (now : Nat) : Contender :=
  { c with lastRenewal := some now, renewal := c.renewal.after true }

def lapsed (c : Contender) : Contender :=
  { c with lastRenewal := none, renewal := c.renewal.after true }

/-- Whether a full lease duration has passed since the last success. -/
def expired (c : Contender) (now : Nat) : Bool :=
  match c.lastRenewal with
  | none => true
  | some last => c.leaseDuration.nanos ≤ now - last

/-- Hold the lease from now on; `events` follow the news. -/
def win (c : Contender) (status : Status) (now : Nat) (lease : Identifier)
    (events : List Event) : ContenderTurn where
  contender := c.refreshed now
  status := (status.publish (some lease)).1
  events :=
    (if (status.publish (some lease)).2 then [.leaseAcquired c.lease lease] else []) ++ events
  move := .finish (.ok ())

/-- Hold no lease from now on. -/
def lose (c : Contender) (status : Status) (reason : LossReason)
    (result : Except StorageError Unit) : ContenderTurn where
  contender := c.lapsed
  status := (status.publish none).1
  events := if (status.publish none).2 then [.leaseLost c.lease c.holder reason] else []
  move := .finish result

/-- Neither win nor lose. -/
def carryOn (c : Contender) (status : Status) (events : List Event)
    (move : ContenderMove) : ContenderTurn :=
  ⟨c, status, events, move⟩

def acquireFailed (c : Contender) (status : Status) (error : StorageError) : ContenderTurn :=
  match error.errorClass with
  | .conflict => c.carryOn status [.leaseHeldElsewhere c.lease] (.finish (.ok ()))
  | .transient => c.carryOn status [.acquisitionFailed c.lease error] (.finish (.ok ()))
  | .notFound => c.carryOn status [.leaseObjectMissing c.lease] (.call .creating)
  | .fatal => c.carryOn status [] (.finish (.error error))

def createFailed (c : Contender) (status : Status) (error : StorageError) : ContenderTurn :=
  if error.isFatal then c.carryOn status [] (.finish (.error error))
  else c.carryOn status [.leaseObjectNotCreated c.lease error] (.finish (.ok ()))

def renewFailed (c : Contender) (status : Status) (now : Nat) (lease : Identifier)
    (error : StorageError) : ContenderTurn :=
  match error.errorClass with
  | .conflict => c.lose status .takenOver (.ok ())
  | .notFound =>
      c.carryOn status [.leaseObjectDeleted c.lease lease] (.call (.recreating lease))
  | .transient =>
      let c := { c with renewal := c.renewal.after false }
      if c.expired now then c.lose status .expired (.ok ())
      else
        c.carryOn status [.renewalFailed c.lease error c.renewal.current] (.finish (.ok ()))
  | .fatal => c.carryOn status [] (.finish (.error error))

def recreateFailed (c : Contender) (status : Status) (error : StorageError) : ContenderTurn :=
  c.lose status .notRecreated (if error.isFatal then .error error else .ok ())

/-- The conclusion from the answer to the call of a phase. -/
def answer (c : Contender) (status : Status) (now : Nat) :
    (phase : ContenderPhase) → Except StorageError (c.call phase).Reply → ContenderTurn
  | .acquiring, .ok lease => c.win status now lease []
  | .acquiring, .error error => c.acquireFailed status error
  | .creating, .ok _ => c.carryOn status [] (.finish (.ok ()))
  | .creating, .error error => c.createFailed status error
  | .renewing lease, .ok _ =>
      (c.refreshed now).carryOn status [.leaseRenewed c.lease lease] (.finish (.ok ()))
  | .renewing lease, .error error => c.renewFailed status now lease error
  | .recreating lease, .ok _ => c.carryOn status [] (.call (.reclaiming lease))
  | .recreating _, .error error => c.recreateFailed status error
  | .reclaiming _, .ok lease => c.win status now lease [.leaseObjectRecreated c.lease lease]
  | .reclaiming _, .error error => c.recreateFailed status error

end Contender

end LeasedListener
