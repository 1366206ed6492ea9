import LeasedListener.Queue.Store
import LeasedListener.Timer.Attempt

/-!
# Claims and their renewal

A claim is the message under execution with the receipt that was issued for
it last.  A renewal moves the end of the visibility window and takes over the
new receipt, so that whoever reads the claim presents the current one.  Once
a renewal is refused the claim stays lost, and later renewals call nobody.
-/

namespace LeasedListener

open Surroundings

structure Claim where
  message : Delivery
  lost : Bool
deriving DecidableEq

namespace Claim

def create (message : Delivery) : Claim := ⟨message, false⟩

/-- The claim after an accepted renewal. -/
def renewed (c : Claim) (receipt : Receipt) (nextVisibleAt : Timestamp) : Claim :=
  { c with message := { c.message with receipt, nextVisibleAt } }

end Claim

/-- A renewal on its way, with the message that it presents. -/
structure RenewalCall where
  presented : Delivery
  transit : Transit

namespace Renewal

variable {Env : Type} [Surroundings Env]

/-- The conclusion from the answer to a renewal. -/
def answer (queue : String) (window : Duration) (env : Env) (claim : Claim) (presented : Delivery) :
    Except StorageError Receipt → Progress (Env × Claim) RenewalCall (Except StorageError Bool)
  | .ok receipt =>
      .ended (report env (.claimRenewed queue presented.id),
        claim.renewed receipt ((wallClock env).plus window)) (.ok true)
  | .error error =>
      match error.errorClass with
      | .conflict | .notFound =>
          .ended (report env (.claimLost queue presented.id error), { claim with lost := true })
            (.ok true)
      | .transient =>
          .ended (report env (.claimRenewalFailed queue presented.id error), claim) (.ok false)
      | .fatal => .ended (env, claim) (.error error)

/-- The attempt to extend the window of a claim. -/
def attempt (access : QueueAccess Env) (queue : String) (window : Duration) :
    Attempt (Env × Claim) RenewalCall where
  enter env :=
    if env.2.lost then .ended env (.ok true)
    else
      let (outside, transit) := access.issue env.1 (.update env.2.message window)
      .continues (outside, env.2) ⟨env.2.message, transit⟩
  advance env _ waiting :=
    if waiting.transit.arrived (now env) then
      let (outside, reply) :=
        access.perform env.1 (.update waiting.presented window) waiting.transit
      some (answer queue window outside env.2 waiting.presented reply)
    else none

end Renewal

/-- The timer that keeps a message claimed. -/
abbrev RenewalTimer := Timer (Pace Speedup) RenewalCall

end LeasedListener
