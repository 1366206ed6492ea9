import LeasedListener.Timestamp
import LeasedListener.Identifier

/-!
# Queue messages

A message as a consumer sees it: its identity, the receipt that proves the
claim on it, and its content.  In the world of a simulation identities and
receipts are serial numbers; on the wire they are identifiers.
-/

namespace LeasedListener

structure Message (Id Receipt : Type) where
  id : Id
  /-- Proof of the current claim.  It changes with every dequeue and every
  update of the visibility. -/
  receipt : Receipt
  /-- How often the message has been dequeued, the last time included. -/
  dequeueCount : UInt32
  body : List UInt8
  insertedAt : Timestamp
  nextVisibleAt : Timestamp
deriving DecidableEq

/-- The body as text, if it is valid UTF-8. -/
def bodyText? (body : List UInt8) : Option String := String.fromUTF8? ⟨body.toArray⟩

/-- The number of a message in order of creation. -/
structure MessageId where
  serial : Nat
deriving DecidableEq

/-- The number of a receipt in order of issue. -/
structure Receipt where
  serial : Nat
deriving DecidableEq

def MessageId.text (id : MessageId) : String := s!"m{id.serial}"

def Receipt.text (receipt : Receipt) : String := s!"r{receipt.serial}"

/-- A message as the queues of a simulation deliver it. -/
abbrev Delivery := Message MessageId Receipt

/-- A message as it is written on the wire. -/
abbrev MessageRecord := Message Identifier Identifier

end LeasedListener
