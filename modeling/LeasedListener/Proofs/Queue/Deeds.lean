import LeasedListener.Proofs.Queue.Order

/-!
# Deeds on a queue

A deed is anything that a client or an administrator does to a queue, with the
identity or receipt that is generated for it.  Its answer tells what it has
created, what it has returned and what it has removed.
-/

namespace LeasedListener

/-- What is told apart about a stored message besides the claim on it. -/
structure QueueEntry where
  id : MessageId
  body : List UInt8
  dequeueCount : Nat

def StoredMessage.entry (m : StoredMessage) : QueueEntry := ⟨m.id, m.body, m.dequeueCount.toNat⟩

inductive QueueDeed
  | probe
  | create
  | enqueue (wallClock : Timestamp) (fresh : MessageId) (body : List UInt8)
  | dequeue (wallClock : Timestamp) (fresh : Receipt) (window : Duration)
  | update (fresh : Receipt) (m : Delivery) (window : Duration)
  | delete (m : Delivery)
  | push (wallClock : Timestamp) (fresh : MessageId) (body : List UInt8) (dequeueCount : UInt32)
  | drop
  | injectFault (operation : QueueOperation) (error : StorageError)

namespace QueueDeed

def Reply : QueueDeed → Type
  | .probe => Bool
  | .enqueue .. | .push .. => MessageId
  | .dequeue .. => Option Delivery
  | .update .. => Receipt
  | .create | .delete _ | .drop | .injectFault .. => Unit

def run (now : Nat) : (deed : QueueDeed) → Queue → Queue × Except StorageError deed.Reply
  | .probe, q => (q, .ok q.present)
  | .create, q => ({ q with present := true }, .ok ())
  | .enqueue wallClock fresh body, q => q.enqueue now wallClock fresh body
  | .dequeue wallClock fresh window, q => q.dequeue now wallClock fresh window
  | .update fresh m window, q => q.updateVisibility now fresh m window
  | .delete m, q => q.delete now m
  | .push wallClock fresh body dequeueCount, q =>
      (q.push fresh body dequeueCount now wallClock, .ok fresh)
  | .drop, q => (q.drop, .ok ())
  | .injectFault operation error, q => (q.injectFault operation error, .ok ())

/-- The identity for the message that the deed is about to create. -/
def fresh? : QueueDeed → Option MessageId
  | .enqueue _ fresh _ | .push _ fresh _ _ => some fresh
  | _ => none

def created? : (deed : QueueDeed) → Except StorageError deed.Reply → Option QueueEntry
  | .enqueue _ _ body, .ok id => some ⟨id, body, 0⟩
  | .push _ _ body dequeueCount, .ok id => some ⟨id, body, dequeueCount.toNat⟩
  | _, _ => none

def returned? : (deed : QueueDeed) → Except StorageError deed.Reply → Option MessageId
  | .dequeue .., .ok (some m) => some m.id
  | _, _ => none

def removes : (deed : QueueDeed) → Except StorageError deed.Reply → MessageId → Bool
  | .delete m, .ok _, id => id = m.id
  | .drop, _, _ => true
  | _, _, _ => false

/-- What a deed does to the messages of a queue, and how it is answered. -/
inductive Moves (now : Nat) (q : Queue) :
    (deed : QueueDeed) → Queue × Except StorageError deed.Reply → Prop
  | keeps {deed : QueueDeed} {q' : Queue} {reply : Except StorageError deed.Reply}
      (messages : q'.messages = q.messages) (present : q.present = true → q'.present = true)
      (creates : deed.created? reply = none) (returns : deed.returned? reply = none)
      (removes : ∀ id, deed.removes reply id = false) : Moves now q deed (q', reply)
  | enqueues {wallClock : Timestamp} {fresh : MessageId} {body : List UInt8}
      (isOpen : q.IsOpen .enqueue) :
      Moves now q (.enqueue wallClock fresh body)
        (q.append fresh body 0 now wallClock, .ok fresh)
  | serves {wallClock : Timestamp} {fresh : Receipt} {window : Duration} {stored : StoredMessage}
      (isOpen : q.IsOpen .dequeue)
      (first : q.messages.find? (·.isVisible now) = some stored) :
      Moves now q (.dequeue wallClock fresh window)
        (q.change stored.id fun _ => stored.countDequeue.claim now fresh window,
          .ok (some (stored.delivery fresh (wallClock.plus window))))
  | claims {fresh : Receipt} {m : Delivery} {window : Duration} (isOpen : q.IsOpen .update)
      (honoured : q.Honours now m) :
      Moves now q (.update fresh m window) (q.change m.id (·.claim now fresh window), .ok fresh)
  | deletes {m : Delivery} (isOpen : q.IsOpen .delete) (honoured : q.Honours now m) :
      Moves now q (.delete m) (q.remove m.id, .ok ())
  | pushes {wallClock : Timestamp} {fresh : MessageId} {body : List UInt8}
      {dequeueCount : UInt32} :
      Moves now q (.push wallClock fresh body dequeueCount)
        (q.push fresh body dequeueCount now wallClock, .ok fresh)
  | drops : Moves now q .drop (q.drop, .ok ())

theorem moves_enqueue (now : Nat) (q : Queue) (wallClock : Timestamp) (fresh : MessageId)
    (body : List UInt8) :
    Moves now q (.enqueue wallClock fresh body) (q.enqueue now wallClock fresh body) := by
  by_cases hopen : q.IsOpen .enqueue
  · rw [Queue.enqueue_of_isOpen hopen]
    exact .enqueues hopen
  · obtain ⟨error, herror⟩ := Queue.opening_of_not_isOpen hopen
    rw [Queue.enqueue, herror]
    apply Moves.keeps
    · exact Queue.messages_opening q .enqueue
    · exact (Queue.present_opening q .enqueue).trans
    · rfl
    · rfl
    · exact fun _ => rfl

theorem moves_dequeue (now : Nat) (q : Queue) (wallClock : Timestamp) (fresh : Receipt)
    (window : Duration) :
    Moves now q (.dequeue wallClock fresh window) (q.dequeue now wallClock fresh window) := by
  by_cases hopen : q.IsOpen .dequeue
  · simp only [Queue.dequeue, Queue.opening_of_isOpen hopen]
    cases hfirst : q.messages.find? (·.isVisible now) with
    | none => exact .keeps rfl id rfl rfl fun _ => rfl
    | some stored => exact .serves hopen hfirst
  · obtain ⟨error, herror⟩ := Queue.opening_of_not_isOpen hopen
    rw [Queue.dequeue, herror]
    apply Moves.keeps
    · exact Queue.messages_opening q .dequeue
    · exact (Queue.present_opening q .dequeue).trans
    · rfl
    · rfl
    · exact fun _ => rfl

theorem moves_run (now : Nat) (q : Queue) (deed : QueueDeed) :
    Moves now q deed (deed.run now q) := by
  cases deed with
  | probe => exact .keeps rfl id rfl rfl fun _ => rfl
  | create => exact .keeps rfl (fun _ => rfl) rfl rfl fun _ => rfl
  | enqueue wallClock fresh body => exact moves_enqueue now q wallClock fresh body
  | dequeue wallClock fresh window => exact moves_dequeue now q wallClock fresh window
  | update fresh m window =>
      by_cases haccepted : q.IsOpen .update ∧ q.Honours now m
      · rw [run, Queue.updateVisibility_of_honours haccepted.1 haccepted.2]
        exact .claims haccepted.1 haccepted.2
      · have hrefuses := Queue.refuses_updateVisibility fresh window haccepted
        exact .keeps hrefuses.messages hrefuses.present.trans rfl rfl fun _ => rfl
  | delete m =>
      by_cases haccepted : q.IsOpen .delete ∧ q.Honours now m
      · rw [run, Queue.delete_of_honours haccepted.1 haccepted.2]
        exact .deletes haccepted.1 haccepted.2
      · have hrefuses := Queue.refuses_delete haccepted
        obtain ⟨error, herror, -⟩ := hrefuses.fails
        have hrun : (delete m).run now q = ((q.delete now m).1, .error error) :=
          Prod.ext rfl herror
        rw [hrun]
        exact .keeps hrefuses.messages hrefuses.present.trans rfl rfl fun _ => rfl
  | push wallClock fresh body dequeueCount => exact .pushes
  | drop => exact .drops
  | injectFault operation error => exact .keeps rfl id rfl rfl fun _ => rfl

end QueueDeed

end LeasedListener
