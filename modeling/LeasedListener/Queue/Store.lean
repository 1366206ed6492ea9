import LeasedListener.Instant
import LeasedListener.Queue.Message
import LeasedListener.Storage.Gateway

/-!
# Queues with visibility windows

Messages are served oldest first.  A dequeue hides its message for a window of
time and issues a receipt; an update of the visibility issues the next one.
Only the receipt that was issued last is honoured, and only strictly before
the end of the window that came with it.  Once the window is over the message
is visible again, whether or not anyone dequeues it.
-/

namespace LeasedListener

/-- The operations of a queue that can be made to fail. -/
inductive QueueOperation
  | enqueue
  | dequeue
  | update
  | delete
deriving DecidableEq

structure StoredMessage where
  id : MessageId
  body : List UInt8
  dequeueCount : UInt32
  insertedAt : Timestamp
  /-- The message is hidden before this instant. -/
  visibleAt : Nat
  receipt : Option Receipt

namespace StoredMessage

def isVisible (m : StoredMessage) (now : Nat) : Bool := m.visibleAt ≤ now

/-- Whether the receipt proves the claim that is alive at this instant. -/
def claimedBy (m : StoredMessage) (receipt : Receipt) (now : Nat) : Bool :=
  m.receipt == some receipt && !m.isVisible now

/-- The message under a new claim. -/
def claim (m : StoredMessage) (now : Nat) (receipt : Receipt) (window : Duration) : StoredMessage :=
  { m with visibleAt := Instant.windowEnd now window, receipt := some receipt }

/-- The message as it is delivered: dequeued once more, unless the count is at
its limit. -/
def countDequeue (m : StoredMessage) : StoredMessage :=
  { m with dequeueCount := if m.dequeueCount + 1 = 0 then m.dequeueCount else m.dequeueCount + 1 }

end StoredMessage

structure Queue where
  name : String
  present : Bool
  /-- The messages in order of creation. -/
  messages : List StoredMessage
  /-- The errors in store for operations to come. -/
  faults : List (QueueOperation × StorageError)

namespace Queue

def create (name : String) : Queue := ⟨name, true, [], []⟩

def missing (name : String) : Queue := ⟨name, false, [], []⟩

/-- Take the queue away, with everything in it. -/
def drop (q : Queue) : Queue := { q with present := false, messages := [] }

def injectFault (q : Queue) (operation : QueueOperation) (error : StorageError) : Queue :=
  { q with faults := q.faults ++ [(operation, error)] }

def visibleCount (q : Queue) (now : Nat) : Nat := q.messages.countP (·.isVisible now)

def find? (q : Queue) (id : MessageId) : Option StoredMessage := q.messages.find? (·.id = id)

def contains (q : Queue) (id : MessageId) : Bool := (q.find? id).isSome

def bodies (q : Queue) : List (List UInt8) := q.messages.map (·.body)

def change (q : Queue) (id : MessageId) (f : StoredMessage → StoredMessage) : Queue :=
  { q with messages := q.messages.map fun m => if m.id = id then f m else m }

def remove (q : Queue) (id : MessageId) : Queue :=
  { q with messages := q.messages.filter (·.id ≠ id) }

/-- Add a message that is visible at once. -/
def append (q : Queue) (id : MessageId) (body : List UInt8) (dequeueCount : UInt32) (now : Nat)
    (wallClock : Timestamp) : Queue :=
  { q with messages := q.messages ++ [⟨id, body, dequeueCount, wallClock, now, none⟩] }

/-- Add a message that has been dequeued before, to a queue that exists from
now on. -/
def push (q : Queue) (id : MessageId) (body : List UInt8) (dequeueCount : UInt32) (now : Nat)
    (wallClock : Timestamp) : Queue :=
  { q.append id body dequeueCount now wallClock with present := true }

/-- Begin an operation: the oldest error in store for it comes first, then the
check that the queue exists. -/
def opening (q : Queue) (operation : QueueOperation) : Queue × Except StorageError Unit :=
  match q.faults.find? (·.1 = operation) with
  | some fault =>
      ({ q with faults := q.faults.eraseP (·.1 = operation) }, .error fault.2)
  | none => (q, if q.present then .ok () else .error (.queueNotFound q.name))

/-- The stored message on which the delivery still holds the claim. -/
def claimed? (q : Queue) (m : Delivery) (now : Nat) : Except StorageError StoredMessage :=
  match q.find? m.id with
  | none => .error (.messageNotFound m.id.text)
  | some stored =>
      if stored.claimedBy m.receipt now then .ok stored
      else .error (.popReceiptMismatch m.id.text)

def enqueue (q : Queue) (now : Nat) (wallClock : Timestamp) (fresh : MessageId)
    (body : List UInt8) : Queue × Except StorageError MessageId :=
  match q.opening .enqueue with
  | (q, .error error) => (q, .error error)
  | (q, .ok _) => (q.append fresh body 0 now wallClock, .ok fresh)

/-- Deliver the first visible message, if there is one. -/
def dequeue (q : Queue) (now : Nat) (wallClock : Timestamp) (fresh : Receipt)
    (window : Duration) : Queue × Except StorageError (Option Delivery) :=
  match q.opening .dequeue with
  | (q, .error error) => (q, .error error)
  | (q, .ok _) =>
      match q.messages.find? (·.isVisible now) with
      | none => (q, .ok none)
      | some stored =>
          let stored := stored.countDequeue.claim now fresh window
          (q.change stored.id fun _ => stored,
            .ok (some {
              id := stored.id
              receipt := fresh
              dequeueCount := stored.dequeueCount
              body := stored.body
              insertedAt := stored.insertedAt
              nextVisibleAt := wallClock.plus window }))

/-- Move the end of the window of a claim, and issue a new receipt for it. -/
def updateVisibility (q : Queue) (now : Nat) (fresh : Receipt) (m : Delivery)
    (window : Duration) : Queue × Except StorageError Receipt :=
  match q.opening .update with
  | (q, .error error) => (q, .error error)
  | (q, .ok _) =>
      match q.claimed? m now with
      | .error error => (q, .error error)
      | .ok stored => (q.change stored.id (·.claim now fresh window), .ok fresh)

def delete (q : Queue) (now : Nat) (m : Delivery) : Queue × Except StorageError Unit :=
  match q.opening .delete with
  | (q, .error error) => (q, .error error)
  | (q, .ok _) =>
      match q.claimed? m now with
      | .error error => (q, .error error)
      | .ok stored => (q.remove stored.id, .ok ())

end Queue

inductive QueueCall
  | probe
  | create
  | enqueue (body : List UInt8)
  | dequeue (window : Duration)
  | update (m : Delivery) (window : Duration)
  | delete (m : Delivery)

namespace QueueCall

def Reply : QueueCall → Type
  | .probe => Bool
  | .create => Unit
  | .enqueue _ => MessageId
  | .dequeue _ => Option Delivery
  | .update .. => Receipt
  | .delete _ => Unit

def kind : QueueCall → CallKind
  | .probe => .probe
  | .create => .create
  | .enqueue _ => .enqueue
  | .dequeue _ => .dequeue
  | .update .. => .update
  | .delete _ => .delete

def arguments : QueueCall → List CallArgument
  | .probe | .create => []
  | .enqueue body => [.body body]
  | .dequeue window => [.span window]
  | .update m window => [.message m.id, .receipt m.receipt, .span window]
  | .delete m => [.message m.id, .receipt m.receipt]

end QueueCall

/-- The numbers of the next message and the next receipt, which the queues of
a world share. -/
structure Serials where
  message : Nat := 0
  receipt : Nat := 0

namespace Serials

def freshMessage (s : Serials) : MessageId := ⟨s.message⟩

def freshReceipt (s : Serials) : Receipt := ⟨s.receipt⟩

def messageUsed (s : Serials) : Serials := { s with message := s.message + 1 }

def receiptUsed (s : Serials) : Serials := { s with receipt := s.receipt + 1 }

end Serials

/-- Carry out a call on a queue.  Only a call that succeeds uses up a number. -/
def QueueCall.run (now : Nat) (wallClock : Timestamp) :
    (call : QueueCall) → Serials × Queue → (Serials × Queue) × Except StorageError call.Reply
  | .probe, (s, q) => ((s, q), .ok q.present)
  | .create, (s, q) => ((s, { q with present := true }), .ok ())
  | .enqueue body, (s, q) =>
      match q.enqueue now wallClock s.freshMessage body with
      | (q, .ok id) => ((s.messageUsed, q), .ok id)
      | (q, .error error) => ((s, q), .error error)
  | .dequeue window, (s, q) =>
      match q.dequeue now wallClock s.freshReceipt window with
      | (q, .ok (some m)) => ((s.receiptUsed, q), .ok (some m))
      | (q, .ok none) => ((s, q), .ok none)
      | (q, .error error) => ((s, q), .error error)
  | .update m window, (s, q) =>
      match q.updateVisibility now s.freshReceipt m window with
      | (q, .ok receipt) => ((s.receiptUsed, q), .ok receipt)
      | (q, .error error) => ((s, q), .error error)
  | .delete m, (s, q) =>
      match q.delete now m with
      | (q, result) => ((s, q), result)

abbrev QueueAccess (Env : Type) := Access Env QueueCall QueueCall.Reply

end LeasedListener
