import LeasedListener.Proofs.Queue.Standing
import Mathlib.Algebra.GroupWithZero.Nat

/-!
# The order of a queue

A message keeps its place while it is claimed and released.  A dequeue serves
the first visible message, so what stands before a message that was served is
hidden.
-/

namespace LeasedListener

def nextCount (count : UInt32) : UInt32 := if count + 1 = 0 then count else count + 1

theorem toNat_nextCount (count : UInt32) :
    (nextCount count).toNat = min (count.toNat + 1) (UInt32.size - 1) := by
  have hbound : count.toNat < UInt32.size := count.toNat_lt
  unfold nextCount
  split
  · next hzero =>
      have hlast := congrArg UInt32.toNat hzero
      simp only [UInt32.toNat_add, UInt32.toNat_one, UInt32.toNat_zero] at hlast
      simp only [UInt32.size] at hbound ⊢
      omega
  · next hzero =>
      have hmore : (count + 1).toNat ≠ 0 := fun h => hzero (UInt32.toNat_inj.mp h)
      simp only [UInt32.toNat_add, UInt32.toNat_one] at hmore ⊢
      simp only [UInt32.size] at hbound ⊢
      omega

namespace StoredMessage

def delivery (stored : StoredMessage) (fresh : Receipt) (nextVisibleAt : Timestamp) : Delivery where
  id := stored.id
  receipt := fresh
  dequeueCount := nextCount stored.dequeueCount
  body := stored.body
  insertedAt := stored.insertedAt
  nextVisibleAt := nextVisibleAt

@[simp]
theorem dequeueCount_countDequeue (stored : StoredMessage) :
    stored.countDequeue.dequeueCount = nextCount stored.dequeueCount := rfl

@[simp]
theorem isVisible_claim {now : Nat} {stored : StoredMessage} {fresh : Receipt}
    {window : Duration} :
    (stored.claim now fresh window).isVisible now = decide (window.nanos = 0) := by
  have hcap : 0 < thirtyYears.nanos := by decide
  refine decide_eq_decide.mpr ?_
  simp only [claim, Instant.windowEnd]
  omega

end StoredMessage

namespace Queue

variable {q : Queue} {now : Nat} {wallClock : Timestamp} {id : MessageId} {fresh : Receipt}
  {window : Duration} {before after : List StoredMessage} {stored : StoredMessage}

/-- The place of a message: what is stored before it and after it. -/
structure Lies (q : Queue) (before : List StoredMessage) (stored : StoredMessage)
    (after : List StoredMessage) : Prop where
  messages : q.messages = before ++ stored :: after
  alone : ∀ m ∈ before ++ after, m.id ≠ stored.id

theorem lies_of_messages (hdistinct : q.IsDistinct)
    (hmessages : q.messages = before ++ stored :: after) : q.Lies before stored after where
  messages := hmessages
  alone := by
    intro m hm hid
    rw [IsDistinct, hmessages, List.map_append, List.map_cons,
      List.nodup_middle] at hdistinct
    refine (List.nodup_cons.mp hdistinct).1 ?_
    rw [← List.map_append]
    exact List.mem_map.mpr ⟨m, hm, hid⟩

theorem exists_lies (hdistinct : q.IsDistinct) (h : q.find? id = some stored) :
    ∃ before after, q.Lies before stored after := by
  obtain ⟨before, after, hmessages⟩ := List.append_of_mem (mem_of_find? h)
  exact ⟨before, after, lies_of_messages hdistinct hmessages⟩

theorem Lies.find? (h : q.Lies before stored after) : q.find? stored.id = some stored := by
  have hbefore : before.find? (·.id = stored.id) = none := by
    rw [List.find?_eq_none]
    intro m hm
    simpa using h.alone m (List.mem_append_left _ hm)
  simp [Queue.find?, h.messages, List.find?_append, hbefore]

theorem Lies.change (h : q.Lies before stored after) (f : StoredMessage → StoredMessage) :
    (q.change stored.id f).messages = before ++ f stored :: after := by
  have hkept : ∀ messages : List StoredMessage, (∀ m ∈ messages, m.id ≠ stored.id) →
      messages.map (fun m => if m.id = stored.id then f m else m) = messages := by
    intro messages hother
    refine (List.map_congr_left ?_).trans messages.map_id
    intro m hm
    exact if_neg (hother m hm)
  simp only [Queue.change, h.messages, List.map_append, List.map_cons, if_true]
  rw [hkept before fun m hm => h.alone m (List.mem_append_left _ hm),
    hkept after fun m hm => h.alone m (List.mem_append_right _ hm)]

theorem Lies.remove (h : q.Lies before stored after) :
    (q.remove stored.id).messages = before ++ after := by
  simp only [Queue.remove, h.messages, List.filter_append, List.filter_cons, ne_eq, not_true_eq_false,
    decide_false, Bool.false_eq_true, if_false]
  rw [← List.filter_append]
  refine List.filter_eq_self.mpr ?_
  intro m hm
  exact decide_eq_true (h.alone m hm)

/-- The ways in which a queue answers a dequeue. -/
inductive Serves (q : Queue) (now : Nat) (wallClock : Timestamp) (fresh : Receipt)
    (window : Duration) : Queue × Except StorageError (Option Delivery) → Prop
  | delivers {stored : StoredMessage} (isOpen : q.IsOpen .dequeue)
      (first : q.messages.find? (·.isVisible now) = some stored) :
      Serves q now wallClock fresh window
        (q.change stored.id fun _ => stored.countDequeue.claim now fresh window,
          .ok (some (stored.delivery fresh (wallClock.plus window))))
  | exhausted (isOpen : q.IsOpen .dequeue)
      (hidden : q.messages.find? (·.isVisible now) = none) :
      Serves q now wallClock fresh window (q, .ok none)
  | refuses {closed : Queue} {error : StorageError} (barred : ¬ q.IsOpen .dequeue)
      (messages : closed.messages = q.messages) :
      Serves q now wallClock fresh window (closed, .error error)

theorem serves_dequeue (q : Queue) (now : Nat) (wallClock : Timestamp) (fresh : Receipt)
    (window : Duration) :
    q.Serves now wallClock fresh window (q.dequeue now wallClock fresh window) := by
  by_cases hopen : q.IsOpen .dequeue
  · simp only [dequeue, opening_of_isOpen hopen]
    cases hfirst : q.messages.find? (·.isVisible now) with
    | none => exact .exhausted hopen hfirst
    | some stored => exact .delivers hopen hfirst
  · obtain ⟨error, herror⟩ := opening_of_not_isOpen hopen
    rw [dequeue, herror]
    exact .refuses hopen (messages_opening q .dequeue)

theorem lies_of_first (hdistinct : q.IsDistinct)
    (h : q.messages.find? (·.isVisible now) = some stored) :
    ∃ before after, q.Lies before stored after ∧ stored.isVisible now = true ∧
      ∀ m ∈ before, m.isVisible now = false := by
  obtain ⟨hvisible, before, after, hmessages, hhidden⟩ := List.find?_eq_some_iff_append.mp h
  refine ⟨before, after, lies_of_messages hdistinct hmessages, hvisible, ?_⟩
  intro m hm
  simpa using hhidden m hm

/-- What the visible messages among some add up to, by their counts. -/
def load (allowance : UInt32 → Nat) (now : Nat) (messages : List StoredMessage) : Nat :=
  ((messages.filter (·.isVisible now)).map fun m => allowance m.dequeueCount).sum

section

variable {allowance : UInt32 → Nat}

@[simp]
theorem load_append (messages others : List StoredMessage) :
    load allowance now (messages ++ others) =
      load allowance now messages + load allowance now others := by
  simp [load]

@[simp]
theorem load_cons (m : StoredMessage) (messages : List StoredMessage) :
    load allowance now (m :: messages) =
      (if m.isVisible now then allowance m.dequeueCount else 0) +
        load allowance now messages := by
  unfold load
  rw [List.filter_cons]
  split <;> simp

theorem load_remove_le (hdistinct : q.IsDistinct) (id : MessageId) :
    load allowance now (q.remove id).messages ≤ load allowance now q.messages := by
  cases hfound : q.find? id with
  | none =>
      have hkept : (q.remove id).messages = q.messages := by
        refine List.filter_eq_self.mpr ?_
        intro m hm
        simpa using List.find?_eq_none.mp hfound m hm
      exact Nat.le_of_eq (congrArg (load allowance now) hkept)
  | some stored =>
      obtain ⟨before, after, hlies⟩ := exists_lies hdistinct hfound
      rw [← id_of_find? hfound, hlies.remove, hlies.messages]
      simp only [load_append, load_cons]
      omega

theorem load_serve (hdistinct : q.IsDistinct) (hwindow : 0 < window.nanos)
    (h : q.messages.find? (·.isVisible now) = some stored) :
    load allowance now
        (q.change stored.id fun _ => stored.countDequeue.claim now fresh window).messages +
        allowance stored.dequeueCount =
      load allowance now q.messages := by
  obtain ⟨before, after, hlies, hvisible, -⟩ := lies_of_first hdistinct h
  have hhidden : (stored.countDequeue.claim now fresh window).isVisible now = false := by
    rw [StoredMessage.isVisible_claim, decide_eq_false_iff_not]
    omega
  rw [hlies.change, hlies.messages]
  simp only [load_append, load_cons, hvisible, hhidden]
  simp only [if_true, Bool.false_eq_true, if_false]
  omega

/-- A message that is claimed anew counts at most as it did before and once
more. -/
theorem load_claim_le (hdistinct : q.IsDistinct) (h : q.find? id = some stored) :
    load allowance now (q.change id (·.claim now fresh window)).messages ≤
      load allowance now q.messages + allowance stored.dequeueCount := by
  obtain ⟨before, after, hlies⟩ := exists_lies hdistinct h
  have hcount : (stored.claim now fresh window).dequeueCount = stored.dequeueCount := rfl
  rw [← id_of_find? h, hlies.change, hlies.messages]
  simp only [load_append, load_cons, hcount]
  split <;> omega

end

end Queue

namespace QueueCall

variable {q q' : Queue} {s s' : Serials} {now : Nat} {wallClock : Timestamp} {call : QueueCall}

theorem Affects.isDistinct (h : Affects now wallClock s q call s' q')
    (hcall : ∀ body, call ≠ .enqueue body) (hdistinct : q.IsDistinct) : q'.IsDistinct := by
  cases h with
  | keeps messages _ => exact (Queue.isDistinct_congr messages).mpr hdistinct
  | appends => exact absurd rfl (hcall _)
  | delivers delivers => exact delivers.isDistinct hdistinct
  | updates _ => exact Queue.isDistinct_change (fun _ hid => hid) hdistinct
  | deletes _ => exact Queue.isDistinct_remove hdistinct

end QueueCall

end LeasedListener
